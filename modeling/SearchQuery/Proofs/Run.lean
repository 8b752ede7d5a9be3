/-
  SearchQuery.Proofs.Run — how a recipe runs, and what the log shows of it. `steps` has the
  steps of a recipe in the order in which they are made, the parts of a step before the step
  itself. A run ends at the first step that fails (`Stopped`); the steps before it report
  nothing, and what that step reports is known from it and from the failure
  (`Recipe.entries`).

  `log_of_run`: a run that succeeds reports nothing, and one that fails reports at most one
  rejection, the one that goes with its failure.
-/

import SearchQuery.Proofs.Outcome
import SearchQuery.Recipe

namespace SearchQuery

open Json Logged

namespace Recipe

/-! ## Steps -/

mutual

/-- A recipe and the recipes inside it, in the order in which they are done. -/
def steps : Recipe → List Recipe
  | .inField name child => child.steps ++ [.inField name child]
  | .join j operands => allSteps operands ++ [.join j operands]
  | .signed s operand => operand.steps ++ [.signed s operand]
  | .choice flag yes no => yes.steps ++ no.steps ++ [.choice flag yes no]
  | .selected r => r.steps ++ [.selected r]
  | r => [r]

def allSteps : List Recipe → List Recipe
  | [] => []
  | r :: rs => r.steps ++ allSteps rs

end

/-- Whether a step reports the range that it refuses. -/
def reportsRange : Recipe → Bool
  | .between _ _ => true
  | _ => false

/-- What a step reports when it fails. -/
def entries (r : Recipe) : Failure → List Entry
  | .rejected reason => reason.entries r.reportsRange
  | .unreadable fault => fault.entries
  | .tooWide => []
  | .unset _ => []

def Reported (r : Recipe) (failure : Failure) (log : List Entry) : Prop := log = r.entries failure

/-! ## Where a run stops -/

variable (env : String → Option Expr)

def Succeeds (r : Recipe) : Prop := ∃ e, (r.run env).result = .ok e

/-- One of these steps is the first to fail, and the log has what it reports. -/
def Stopped (order : List Recipe) (failure : Failure) (log : List Entry) : Prop :=
  ∃ before r after, order = before ++ r :: after ∧ (∀ b ∈ before, b.Succeeds env) ∧
    (r.run env).result = .error failure ∧ r.Reported failure log

/-- A computation that makes these steps: all of them succeed, or it stops at one. -/
def Makes {α : Type} (order : List Recipe) (P : α → Prop) (x : Logged Failure α) : Prop :=
  Ends (Stopped env order) (fun a => (∀ r ∈ order, r.Succeeds env) ∧ P a) x

variable {env} {α β : Type} {P : α → Prop} {Q : β → Prop} {order others : List Recipe}

theorem stopped_append_left {failure : Failure} {log : List Entry} (h : Stopped env order failure log) :
    Stopped env (order ++ others) failure log := by
  obtain ⟨before, r, after, rfl, passed, failed, reported⟩ := h
  exact ⟨before, r, after ++ others, by simp, passed, failed, reported⟩

theorem stopped_append_right (passed : ∀ r ∈ order, r.Succeeds env) {failure : Failure} {log : List Entry}
    (h : Stopped env others failure log) : Stopped env (order ++ others) failure log := by
  obtain ⟨before, r, after, rfl, passed', failed, reported⟩ := h
  exact ⟨order ++ before, r, after, by simp, List.forall_mem_append.2 ⟨passed, passed'⟩, failed, reported⟩

theorem makes_nil {a : α} (h : P a) : Makes env [] P (pure a) := ends_pure ⟨by simp, h⟩

theorem makes_bind {x : Logged Failure α} {f : α → Logged Failure β} (h : Makes env order P x)
    (next : ∀ a, P a → Makes env others Q (f a)) : Makes env (order ++ others) Q (x >>= f) := by
  refine ends_bind (Ends.mono h (fun _ _ => stopped_append_left) fun _ => id) ?_
  intro a made
  refine (next a made.2).mono (fun _ _ => stopped_append_right made.1) ?_
  intro b madeToo
  exact ⟨List.forall_mem_append.2 ⟨made.1, madeToo.1⟩, madeToo.2⟩

/-- A step comes after its parts, and with all of them done it is the first to fail if it does. -/
theorem makes_step {r : Recipe} {P : Expr → Prop} {Q : α → Prop} {x : Logged Failure α} {f : α → Logged Failure Expr}
    (run : r.run env = x >>= f) (parts : Makes env order Q x) (own : ∀ a, Q a → Ends r.Reported P (f a)) :
    Makes env (order ++ [r]) P (r.run env) := by
  obtain ⟨events, failure | a⟩ := x
  · rw [run]
    exact stopped_append_left parts
  · obtain ⟨quiet, passed, ha⟩ := parts
    cases quiet
    have same : r.run env = f a := run
    have ended := own a ha
    rw [← same] at ended
    unfold Makes Ends
    cases result : (r.run env).result with
    | error failure => exact ⟨order, r, [], rfl, passed, result, ended.of_error result⟩
    | ok e =>
      obtain ⟨quiet, value⟩ := ended.of_ok result
      exact ⟨quiet, List.forall_mem_append.2 ⟨passed, List.forall_mem_singleton.2 ⟨e, result⟩⟩, value⟩

theorem makes_leaf {r : Recipe} {P : Expr → Prop} (own : Ends r.Reported P (r.run env)) : Makes env [r] P (r.run env) :=
  makes_step (Q := fun _ => True) (x := pure ()) (f := fun _ => r.run env) rfl (makes_nil trivial) fun _ _ => own

/-! ## Runs -/

/-- The names stand for well-formed expressions. -/
def Known (env : String → Option Expr) : Prop := ∀ name e, env name = some e → e.WellFormed

theorem ends_limit (r : Recipe) (l : Limit) : Ends r.Reported (fun _ => True) (ofExcept l.make) := by
  cases l with
  | bound b => exact ends_pure trivial
  | text s => exact ends_pure trivial
  | scalar n =>
    unfold Limit.make
    dsimp only
    cases Bound.ofScalar? n with
    | none => rfl
    | some b => exact ends_pure trivial

/-- What a constructor reports when it refuses is what its step reports. -/
theorem ends_rejected {r : Recipe} {x : Logged Rejection α} (h : Ends (Rejection.Reported r.reportsRange) P x) :
    Ends r.Reported P (x.mapError .rejected) :=
  ends_mapError h fun _ _ reported => reported

open SearchQuery.Expr (wellFormed_term wellFormed_wildcard wellFormed_selected ends_between ends_inField ends_join
  ends_read)

mutual

theorem makes_run (env : String → Option Expr) :
    ∀ r : Recipe, Makes env r.steps (fun e => Known env → e.WellFormed) (r.run env)
  | .everything | .nothing | .phrase _ => makes_leaf (ends_pure fun _ => trivial)
  | .term s => makes_leaf (ends_pure fun _ => wellFormed_term s)
  | .wildcard s => makes_leaf (ends_pure fun _ => wellFormed_wildcard s)
  | .scalar n => makes_leaf (ends_pure fun _ => wellFormed_term n.text)
  | .bool b => makes_leaf (ends_pure fun _ => wellFormed_term _)
  | .between lower upper => by
    refine makes_leaf ?_
    rw [run]
    refine ends_bind (ends_limit _ lower) ?_
    intro l _
    refine ends_bind (ends_limit _ upper) ?_
    intro u _
    exact ends_rejected (ends_between fun formed _ => formed)
  | .range lower upper => by
    refine makes_leaf ?_
    rw [run]
    refine ends_bind (ends_limit _ lower) ?_
    intro l _
    refine ends_bind (ends_limit _ upper) ?_
    intro u _
    have made : Ends (Reported (.range lower upper)) Range.WellFormed
        ((Logged.ofExcept (Range.make l u)).mapError Failure.rejected) :=
      ends_rejected (Range.ends_make l u)
    exact ends_bind made fun r formed => ends_pure fun _ => formed
  | .inField name child => by
    refine makes_step (by rw [run]) (makes_run env child) ?_
    intro e formed
    exact ends_rejected (ends_inField fun named known => ⟨named, formed known⟩)
  | .join j operands => by
    refine makes_step (by rw [run]) (makes_runAll env operands) ?_
    intro es formed
    exact ends_rejected (ends_join fun enough known => ⟨enough, formed known⟩)
  | .joinTerms j texts => by
    refine makes_leaf ?_
    rw [run]
    refine ends_rejected (ends_join fun enough _ => ⟨enough, (Expr.allWellFormed_iff _).2 ?_⟩)
    intro e mem
    obtain ⟨s, -, rfl⟩ := List.mem_map.1 mem
    exact wellFormed_term _
  | .signed s operand => by
    refine makes_step (by rw [run]) (makes_run env operand) ?_
    intro e formed
    exact ends_pure formed
  | .choice flag yes no => by
    have pair : run env (.choice flag yes no) =
        (do return (← yes.run env, ← no.run env)) >>= fun both => pure (.choice flag both.1 both.2) := by
      rw [run]
      simp only [bind_assoc, pure_bind]
    have parts : Makes env (yes.steps ++ no.steps) (fun both => Known env → both.1.WellFormed ∧ both.2.WellFormed)
        (do return (← yes.run env, ← no.run env)) := by
      refine makes_bind (makes_run env yes) ?_
      intro y formed
      refine ends_bind (makes_run env no) ?_
      intro n made
      exact ends_pure ⟨made.1, fun known => ⟨formed known, made.2 known⟩⟩
    exact makes_step pair parts fun both formed => ends_pure formed
  | .selected r => by
    refine makes_step (by rw [run]) (makes_run env r) ?_
    intro e formed
    exact ends_pure fun known => wellFormed_selected (formed known)
  | .json text => by
    refine makes_leaf ?_
    rw [run]
    have read := (ends_readText ends_read text).mono (fun _ _ => id) fun e formed (_ : Known env) => formed
    exact ends_mapError read fun _ _ reported => reported
  | .named name => by
    refine makes_leaf ?_
    rw [run]
    cases found : env name with
    | none => rfl
    | some e => exact ends_pure fun known => known name e found

theorem makes_runAll (env : String → Option Expr) :
    ∀ rs : List Recipe, Makes env (allSteps rs) (fun es => Known env → Expr.AllWellFormed es) (runAll env rs)
  | [] => makes_nil fun _ => trivial
  | r :: rs => by
    rw [runAll, allSteps]
    refine makes_bind (makes_run env r) ?_
    intro e formed
    refine ends_bind (makes_runAll env rs) ?_
    intro es made
    exact ends_pure ⟨made.1, fun known => ⟨formed known, made.2 known⟩⟩

end

/-- A run that succeeds reports nothing, and the request made from its expression reports the
    query. A run that fails does so at the first step that fails; the log has what goes with
    the failure there, and nothing of any other step. That is one rejection of a field or of
    a group, whether it is made or read; one of a range that is made by a step that reports
    ranges; and nothing for any other range, a bound that is too wide, or text that is not
    of the right shape. -/
theorem log_of_run (env : String → Option Expr) (r : Recipe) :
    (∀ e, (r.run env).result = .ok e → (r.run env).events = [] ∧
      (r.run env >>= Request.build).result = .ok (.new e.render) ∧
      (r.run env >>= Request.build).log = [("built query", [("q", e.render)])]) ∧
    ∀ failure, (r.run env).result = .error failure →
      ∃ before c after, r.steps = before ++ c :: after ∧ (∀ b ∈ before, ∃ e, (b.run env).result = .ok e) ∧
        (c.run env).result = .error failure ∧ (r.run env).log = c.entries failure := by
  have made := makes_run env r
  refine ⟨fun e ok => ?_, fun failure failed => made.of_error failed⟩
  have quiet := (made.of_ok ok).1
  have run : r.run env = pure e := by
    rw [pure_eq, ← quiet, ← ok]
  rw [run, pure_bind]
  exact ⟨rfl, rfl, rfl⟩

/-- The group in the JSON text is refused, so the range behind it is not made, nor the field
    around it, and neither is reported though both would be refused. -/
theorem first_rejection_is_logged :
    let env := fun _ => none
    let made := join .or [.term "a", .between (.text "*") (.text "c")]
    let refused := inField "" (join .or [made, .json "\x7b\"combinator\":\x7b\"and\":[]\x7d\x7d", .between (.text "") (.text "c")])
    (made.run env).result = .ok (.group .or [.text "a", .range ⟨.unbounded, .token "c"⟩]) ∧
      (made.run env >>= Request.build).log = [("built query", [("q", "(a OR [* TO c])")])] ∧
      (refused.run env).result = .error (.unreadable (.rejected (.tooFewOperands "AND" 0))) ∧
      (refused.run env).log = [("rejected combinator", [("operator", "AND"), ("count", "0")])] := by
  intro env made refused
  have ok : (made.run env).result = .ok (.group .or [.text "a", .range ⟨.unbounded, .token "c"⟩]) := rfl
  have failed : (refused.run env).result = .error (.unreadable (.rejected (.tooFewOperands "AND" 0))) :=
    result_of_failure? (by decide +kernel)
  obtain ⟨before, c, after, -, -, -, log⟩ := (log_of_run env refused).2 _ failed
  exact ⟨ok, ((log_of_run env made).1 _ ok).2.2, failed, log⟩

end Recipe

end SearchQuery
