/-
  SearchQuery.Proofs.Checks — what the constructors check. `make` builds a node anew out of
  its parts, and `verdict` is what comes of building nodes one after the other until one is
  refused.
-/

import SearchQuery.Proofs.Outcome

namespace SearchQuery.Expr

open Json

/-- What its constructor makes of the parts of a node. -/
def make : Expr → Except Rejection Expr
  | .range r => (Range.make r.lower r.upper).map .range
  | .field name child => (inField name child).result
  | .group j operands => (join j operands).result
  | e => .ok e

def refusal? (e : Expr) : Option Rejection :=
  match e.make with
  | .error reason => some reason
  | .ok _ => none

/-- The outcome when these nodes are checked one after the other. -/
def verdict {α : Type} (order : List Expr) (a : α) : Except Fault α :=
  match order.findSome? refusal? with
  | some reason => .error (.rejected reason)
  | none => .ok a

mutual

/-- An expression and all expressions inside it. -/
def nodes : Expr → List Expr
  | .field name child => child.nodes ++ [.field name child]
  | .group j operands => allNodes operands ++ [.group j operands]
  | .signed s operand => operand.nodes ++ [.signed s operand]
  | .choice flag yes no => yes.nodes ++ no.nodes ++ [.choice flag yes no]
  | e => [e]

def allNodes : List Expr → List Expr
  | [] => []
  | e :: es => e.nodes ++ allNodes es

end

theorem mem_allNodes {n : Expr} {es : List Expr} : n ∈ allNodes es ↔ ∃ e ∈ es, n ∈ e.nodes := by
  induction es with
  | nil => simp [allNodes]
  | cons e es ih => simp [allNodes, ih]

theorem make_eq {e made : Expr} (h : e.make = .ok made) : made = e := by
  cases e with
  | text s => exact (Except.ok.inj h).symm
  | range r =>
    obtain ⟨lower, upper⟩ := r
    rw [make] at h
    rcases Range.make_spec lower upper with ⟨-, made⟩ | ⟨-, reason, -, refused⟩
    · rw [made] at h; exact (Except.ok.inj h).symm
    · rw [refused] at h; cases h
  | field name child =>
    rw [make, inField] at h
    by_cases noName : name = ""
    · rw [if_pos noName] at h; cases h
    · rw [if_neg noName] at h; exact (Except.ok.inj h).symm
  | group j operands =>
    rw [make, join] at h
    by_cases few : operands.length < 2
    · rw [if_pos few] at h; cases h
    · rw [if_neg few] at h; exact (Except.ok.inj h).symm
  | signed s operand => exact (Except.ok.inj h).symm
  | choice flag yes no => exact (Except.ok.inj h).symm

theorem refusal?_eq_none_iff (e : Expr) : refusal? e = none ↔ e.make = .ok e := by
  unfold refusal?
  cases h : e.make with
  | error reason => simp
  | ok made => simp [make_eq h]

theorem verdict_self (e : Expr) : verdict [e] e = e.make.mapError .rejected := by
  rw [verdict, List.findSome?_cons, refusal?]
  cases h : e.make with
  | error reason => rfl
  | ok made => rw [make_eq h]; rfl

/-- Nodes that are read one group after the other are checked in that order. -/
theorem verdict_bind {α β : Type} {order rest : List Expr} {a : α} {b : β} {next : α → Except Fault β}
    (step : next a = verdict rest b) : (verdict order a).bind next = verdict (order ++ rest) b := by
  rw [verdict, verdict, List.findSome?_append]
  cases order.findSome? refusal? with
  | some reason => rfl
  | none => exact step

theorem verdict_map {α β : Type} (order : List Expr) (f : α → β) (a : α) :
    (verdict order a).bind (fun a => .ok (f a)) = verdict order (f a) := by
  rw [verdict, verdict]
  cases order.findSome? refusal? <;> rfl

/-- A node is checked when its parts have been read. -/
theorem verdict_node {α : Type} {order : List Expr} {a : α} {e : Expr} {next : α → Except Fault Expr}
    (step : next a = e.make.mapError .rejected) : (verdict order a).bind next = verdict (order ++ [e]) e :=
  verdict_bind (step.trans (verdict_self e).symm)

theorem verdict_isOk_iff {α : Type} (order : List Expr) (a : α) :
    (∃ b, verdict order a = .ok b) ↔ ∀ e ∈ order, e.make = .ok e := by
  have passed : order.findSome? refusal? = none ↔ ∀ e ∈ order, e.make = .ok e := by
    simp only [List.findSome?_eq_none_iff, refusal?_eq_none_iff]
  rw [← passed, verdict]
  cases order.findSome? refusal? with
  | some reason => simp
  | none => simp

end SearchQuery.Expr
