/-
  SearchQuery.Request.Basic — a search request: the main query and the parameters around
  it. Filters, fields and sort clauses add up; the offset, the page size and the default
  field are those set last.
-/

import SearchQuery.Expr.Render
import SearchQuery.Log

namespace SearchQuery

inductive Order where
  | asc
  | desc
  deriving DecidableEq, Repr

def Order.text : Order → String
  | .asc => "asc"
  | .desc => "desc"

instance : Inhabited Order := ⟨.asc⟩

structure Request where
  q : String
  filters : List String
  fields : List String
  sort : List (String × Order)
  start : Option UInt64
  rows : Option UInt64
  defaultField : Option String
  deriving DecidableEq

/-- One addition to a request. -/
inductive Refinement where
  | filter (e : Expr)
  | field (name : String)
  | sort (field : String) (order : Order)
  | start (n : UInt64)
  | rows (n : UInt64)
  | defaultField (name : String)

namespace Request

def new (q : String) : Request := ⟨q, [], [], [], none, none, none⟩

/-- The request for an expression's text. -/
def build (e : Expr) : Logged ε Request := do
  Logged.note (.queryBuilt e.render)
  return new e.render

/-- A filter that renders to nothing changes nothing. -/
def refine (r : Request) : Refinement → Request
  | .filter e => if e.render = "" then r else { r with filters := r.filters ++ [e.render] }
  | .field name => { r with fields := r.fields ++ [name] }
  | .sort field order => { r with sort := r.sort ++ [(field, order)] }
  | .start n => { r with start := some n }
  | .rows n => { r with rows := some n }
  | .defaultField name => { r with defaultField := some name }

/-- All clauses of one kind in a single parameter, which is left out when there are none. -/
def listed (key : String) (values : List String) : List (String × String) :=
  if values = [] then [] else [(key, ",".intercalate values)]

def single (key : String) : Option String → List (String × String)
  | none => []
  | some value => [(key, value)]

def sortClause (clause : String × Order) : String := clause.1 ++ " " ++ clause.2.text

def count (n : UInt64) : String := String.ofList (Nat.toDigits 10 n.toNat)

/-- The parameters that are sent, in a fixed order; `q` is always there. -/
def params (r : Request) : List (String × String) :=
  ("q", r.q) :: r.filters.map (fun f => ("fq", f)) ++ listed "fl" r.fields ++ listed "sort" (r.sort.map sortClause) ++
    single "start" (r.start.map count) ++ single "rows" (r.rows.map count) ++ single "df" r.defaultField

end Request

end SearchQuery
