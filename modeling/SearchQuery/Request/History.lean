/-
  SearchQuery.Request.History — what a request owes to the changes it has gone through.
  Each kind of change has a history of its own: filters that render to something, fields
  and sort clauses add up in order, and of everything else the last one counts.
-/

import SearchQuery.Request.Basic

namespace SearchQuery

namespace Refinement

/-- The text of a filter that renders to something. -/
def filter? : Refinement → Option String
  | .filter e => if e.render = "" then none else some e.render
  | _ => none

def field? : Refinement → Option String
  | .field name => some name
  | _ => none

def sort? : Refinement → Option (String × Order)
  | .sort name order => some (name, order)
  | _ => none

def start? : Refinement → Option UInt64
  | .start n => some n
  | _ => none

def rows? : Refinement → Option UInt64
  | .rows n => some n
  | _ => none

def defaultField? : Refinement → Option String
  | .defaultField name => some name
  | _ => none

end Refinement

namespace Request

def refineAll (r : Request) (changes : List Refinement) : Request := changes.foldl refine r

/-- The request that has gone through all changes since it was new. -/
def ofHistory (q : String) (changes : List Refinement) : Request where
  q := q
  filters := changes.filterMap (·.filter?)
  fields := changes.filterMap (·.field?)
  sort := changes.filterMap (·.sort?)
  start := (changes.filterMap (·.start?)).getLast?
  rows := (changes.filterMap (·.rows?)).getLast?
  defaultField := (changes.filterMap (·.defaultField?)).getLast?

theorem refineAll_append (r : Request) (before after : List Refinement) :
    r.refineAll (before ++ after) = (r.refineAll before).refineAll after := List.foldl_append

end Request

end SearchQuery
