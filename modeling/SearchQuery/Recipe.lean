/-
  SearchQuery.Recipe — nests of building steps, and running them. The steps of a recipe run
  from left to right, the parts of a step before the step itself, and the first failure
  ends the run.

  `Reachable` are the expressions that a caller can get hold of: built by recipes from what
  is there already, read from JSON, or taken out of another expression.
-/

import SearchQuery.Expr.Json
import SearchQuery.Request.Json

namespace SearchQuery

open Number Json

inductive Failure where
  | rejected (reason : Rejection)
  /-- An integer that no bound can hold. -/
  | tooWide
  | unreadable (fault : Fault)
  /-- A name that stands for nothing. -/
  | unset (name : String)
  deriving DecidableEq, Repr

/-- What a bound is made from. -/
inductive Limit where
  | bound (b : Bound)
  | text (s : String)
  | scalar (n : Scalar)

def Limit.make : Limit → Except Failure Bound
  | .bound b => .ok b
  | .text s => .ok (.ofText s)
  | .scalar n => match Bound.ofScalar? n with
    | some b => .ok b
    | none => .error .tooWide

inductive Recipe where
  | everything
  | nothing
  | term (s : String)
  | wildcard (s : String)
  | phrase (s : String)
  | scalar (n : Scalar)
  | bool (b : Bool)
  /-- A range made by `Expr.between`, which reports what it refuses. -/
  | between (lower upper : Limit)
  /-- A range made by `Range.make`, which does not. -/
  | range (lower upper : Limit)
  | inField (name : String) (child : Recipe)
  | join (j : Junction) (operands : List Recipe)
  /-- The terms of texts, joined. -/
  | joinTerms (j : Junction) (texts : List String)
  | signed (s : Sign) (operand : Recipe)
  | choice (flag : Bool) (yes no : Recipe)
  | selected (r : Recipe)
  /-- An expression read from JSON text. -/
  | json (text : String)
  /-- The expression that a name stands for. -/
  | named (name : String)

namespace Recipe

mutual

def run (env : String → Option Expr) : Recipe → Logged Failure Expr
  | .everything => pure .everything
  | .nothing => pure .nothing
  | .term s => pure (.term s)
  | .wildcard s => pure (.wildcard s)
  | .phrase s => pure (.phrase s)
  | .scalar n => pure (.ofScalar n)
  | .bool b => pure (.ofBool b)
  | .between lower upper => do
    let lower ← Logged.ofExcept lower.make
    let upper ← Logged.ofExcept upper.make
    (Expr.between lower upper).mapError .rejected
  | .range lower upper => do
    let lower ← Logged.ofExcept lower.make
    let upper ← Logged.ofExcept upper.make
    return .range (← Logged.ofExcept ((Range.make lower upper).mapError .rejected))
  | .inField name child => do
    let child ← run env child
    (Expr.inField name child).mapError .rejected
  | .join j operands => do
    let operands ← runAll env operands
    (Expr.join j operands).mapError .rejected
  | .joinTerms j texts => (Expr.join j (texts.map Expr.term)).mapError .rejected
  | .signed s operand => do return .signed s (← run env operand)
  | .choice flag yes no => do
    let yes ← run env yes
    let no ← run env no
    return .choice flag yes no
  | .selected r => do return (← run env r).selected
  | .json text => (readText Expr.read text).mapError .unreadable
  | .named name => match env name with
    | some e => pure e
    | none => .fail (.unset name)

def runAll (env : String → Option Expr) : List Recipe → Logged Failure (List Expr)
  | [] => pure []
  | r :: rs => do
    let e ← run env r
    return e :: (← runAll env rs)

end

/-- Runs a recipe in which no name stands for anything. -/
def runAlone (r : Recipe) : Logged Failure Expr := run (fun _ => none) r

def build (r : Recipe) : Logged Failure Request := do Request.build (← r.runAlone)

end Recipe

/-- Names given to the results of recipes, the last one first. -/
abbrev Names := List (String × Expr)

/-- Runs recipes in order. Each can use the names given before it; one that fails gives
    none. -/
def Recipe.runSteps (names : Names) : List (String × Recipe) → List (Logged Failure Expr)
  | [] => []
  | (name, r) :: steps =>
    let outcome := r.run fun n => List.lookup n names
    let names := match outcome.result with
      | .ok e => (name, e) :: names
      | .error _ => names
    outcome :: runSteps names steps

/-! ## Requests -/

inductive RequestStep where
  | new (q : String)
  | build (r : Recipe)
  | json (text : String)
  | filter (r : Recipe)
  | refine (change : Refinement)

def RequestStep.run (r : Request) : RequestStep → Logged Failure Request
  | .new q => pure (.new q)
  | .build recipe => recipe.build
  | .json text => (readText Request.read text).mapError .unreadable
  | .filter recipe => do return r.refine (.filter (← recipe.runAlone))
  | .refine change => pure (r.refine change)

/-- The outcome of each step; a step that fails leaves the request as it was. -/
def RequestStep.runSteps (r : Request) : List RequestStep → List (Logged Failure Request)
  | [] => []
  | step :: steps =>
    let outcome := step.run r
    outcome :: runSteps (match outcome.result with | .ok r => r | .error _ => r) steps

/-! ## Reachable expressions -/

/-- One expression stands directly inside another. -/
inductive PartOf : Expr → Expr → Prop where
  | child {name : String} {e : Expr} : PartOf e (.field name e)
  | operand {j : Junction} {e : Expr} {operands : List Expr} (mem : e ∈ operands) : PartOf e (.group j operands)
  | signed {s : Sign} {e : Expr} : PartOf e (.signed s e)
  | yes {flag : Bool} {e no : Expr} : PartOf e (.choice flag e no)
  | no {flag : Bool} {yes e : Expr} : PartOf e (.choice flag yes e)

inductive Reachable : Expr → Prop where
  /-- A recipe, in which names stand for what has been reached. -/
  | run {names : String → Option Expr} {r : Recipe} {e : Expr}
      (known : ∀ name e, names name = some e → Reachable e) (made : (r.run names).result = .ok e) : Reachable e
  /-- The body of one kind, from JSON text without the kind. -/
  | readBody {k : Expr.Kind} {text : String} {e : Expr}
      (made : (Json.readText (Expr.readBody k) text).result = .ok e) : Reachable e
  | part {e whole : Expr} (inside : PartOf e whole) (reached : Reachable whole) : Reachable e
  /-- The operands of a group, joined otherwise. -/
  | regroup {j k : Junction} {operands : List Expr} (reached : Reachable (.group j operands)) :
      Reachable (.group k operands)

end SearchQuery
