/-
  SearchQuery.Proofs.Outcome — how building and reading end. Either there is a value and
  nothing has been reported, or there is a failure and the log has the entries that go with
  it (`Ends`). A field or a group that is refused is reported wherever it comes from; a
  range is not when it is read.

  `ends_read`: reading an expression ends in this way, and the expression is well formed,
  since a reader builds everything by the constructors.
-/

import SearchQuery.Expr.Json
import SearchQuery.Expr.WellFormed

namespace SearchQuery

open Json Json.Reading

/-! ## The log -/

/-- A message and the values that come with it. -/
abbrev Entry := String × List (String × String)

def Event.entry (e : Event) : Entry := (e.message, e.fields)

def Logged.log {ε α : Type} (x : Logged ε α) : List Entry := x.events.map Event.entry

/-- What is reported of a part that is refused; of a range only if `ranges` are reported. -/
def Rejection.entries (ranges : Bool) : Rejection → List Entry
  | .emptyField => [("rejected field binding without a field name", [])]
  | .tooFewOperands operator count =>
    [("rejected combinator", [("operator", operator), ("count", Number.natText count)])]
  | reason => if ranges then [("rejected range", [("err", reason.message)])] else []

/-- What is reported while something is read that turns out not to be readable. -/
def Json.Fault.entries : Fault → List Entry
  | .malformed => []
  | .rejected reason => reason.entries false

/-! ## Outcomes -/

namespace Logged

variable {ε δ α β : Type} {R : ε → List Entry → Prop} {P : α → Prop} {Q : β → Prop}

/-- A computation has a value with a property and has reported nothing, or it has failed
    and its log goes with the failure. -/
def Ends (R : ε → List Entry → Prop) (P : α → Prop) (x : Logged ε α) : Prop :=
  match x.result with
  | .ok a => x.events = [] ∧ P a
  | .error e => R e x.log

theorem ends_pure {a : α} (h : P a) : Ends R P (pure a) := ⟨rfl, h⟩

theorem ends_bind {x : Logged ε α} {f : α → Logged ε β} (h : Ends R P x) (next : ∀ a, P a → Ends R Q (f a)) :
    Ends R Q (x >>= f) := by
  obtain ⟨events, _ | a⟩ := x
  · exact h
  · obtain ⟨quiet, ha⟩ := h
    cases quiet
    exact next a ha

theorem ends_mapError {S : δ → List Entry → Prop} {x : Logged ε α} {f : ε → δ} (h : Ends R P x)
    (same : ∀ e log, R e log → S (f e) log) : Ends S P (x.mapError f) := by
  obtain ⟨events, e | a⟩ := x
  · exact same e _ h
  · exact h

theorem Ends.mono {S : ε → List Entry → Prop} {P' : α → Prop} {x : Logged ε α} (h : Ends R P x)
    (failure : ∀ e log, R e log → S e log) (value : ∀ a, P a → P' a) : Ends S P' x := by
  obtain ⟨events, e | a⟩ := x
  · exact failure e _ h
  · exact ⟨h.1, value a h.2⟩

theorem Ends.of_ok {x : Logged ε α} (h : Ends R P x) {a : α} (ok : x.result = .ok a) : x.events = [] ∧ P a := by
  unfold Ends at h
  rw [ok] at h
  exact h

theorem Ends.of_error {x : Logged ε α} (h : Ends R P x) {e : ε} (error : x.result = .error e) : R e x.log := by
  unfold Ends at h
  rw [error] at h
  exact h

/-- The failure of a computation, if it has one. -/
def failure? (x : Logged ε α) : Option ε :=
  match x.result with
  | .error e => some e
  | .ok _ => none

theorem result_of_failure? {x : Logged ε α} {e : ε} (h : x.failure? = some e) : x.result = .error e := by
  obtain ⟨events, e' | a⟩ := x
  · exact congrArg Except.error (Option.some.inj h)
  · cases h

end Logged

open Logged

/-! ## The constructors -/

/-- The log has what is reported of a part that is refused. -/
def Rejection.Reported (ranges : Bool) (reason : Rejection) (log : List Entry) : Prop := log = reason.entries ranges

/-- A reason that lies in a bound of a range. -/
def Rejection.IsOfBound : Rejection → Prop
  | .emptyBound _ => True
  | .invalidBound _ _ => True
  | _ => False

theorem Rejection.IsOfBound.entries_eq {reason : Rejection} (h : reason.IsOfBound) (ranges : Bool) :
    reason.entries ranges = if ranges then [("rejected range", [("err", reason.message)])] else [] := by
  cases reason with
  | emptyBound side => rfl
  | invalidBound side value => rfl
  | emptyField => exact h.elim
  | tooFewOperands operator count => exact h.elim

/-- A check lets well-formed bounds through and no others. -/
theorem Bound.check_spec (b : Bound) (side : Side) :
    (b.WellFormed ∧ b.check side = .ok ()) ∨
      ¬ b.WellFormed ∧ ∃ reason : Rejection, reason.IsOfBound ∧ b.check side = .error reason := by
  cases b with
  | token s =>
    by_cases empty : s = ""
    · exact .inr ⟨fun formed => formed empty, .emptyBound side, trivial, if_pos empty⟩
    · exact .inl ⟨empty, if_neg empty⟩
  | decimal x =>
    by_cases finite : x.isFinite = true
    · exact .inl ⟨finite, if_pos finite⟩
    · exact .inr ⟨finite, .invalidBound side x.text, trivial, if_neg finite⟩
  | _ => exact .inl ⟨trivial, rfl⟩

theorem Range.make_spec (lower upper : Bound) :
    (WellFormed ⟨lower, upper⟩ ∧ make lower upper = .ok ⟨lower, upper⟩) ∨
      ¬ WellFormed ⟨lower, upper⟩ ∧ ∃ reason : Rejection, reason.IsOfBound ∧ make lower upper = .error reason := by
  unfold make
  rcases lower.check_spec .lower with ⟨lowerFormed, l⟩ | ⟨bad, reason, ofBound, l⟩
  · rcases upper.check_spec .upper with ⟨upperFormed, u⟩ | ⟨bad, reason, ofBound, u⟩
    · rw [l, u]
      exact .inl ⟨⟨lowerFormed, upperFormed⟩, rfl⟩
    · rw [l, u]
      exact .inr ⟨fun h => bad h.2, reason, ofBound, rfl⟩
  · rw [l]
    exact .inr ⟨fun h => bad h.1, reason, ofBound, rfl⟩

theorem Range.make_of_wellFormed {r : Range} (h : r.WellFormed) : make r.lower r.upper = .ok r := by
  rcases make_spec r.lower r.upper with ⟨-, made⟩ | ⟨bad, -⟩
  · exact made
  · exact absurd h bad

/-- A range that is made on its own is refused in silence. -/
theorem Range.ends_make (lower upper : Bound) :
    Ends (Rejection.Reported false) WellFormed (ofExcept (make lower upper)) := by
  rcases make_spec lower upper with ⟨formed, made⟩ | ⟨-, reason, ofBound, made⟩
  · rw [made]
    exact ends_pure formed
  · rw [made]
    exact (ofBound.entries_eq false).symm

namespace Expr

variable {P : Expr → Prop}

theorem ends_between {lower upper : Bound} (h : Range.WellFormed ⟨lower, upper⟩ → P (.range ⟨lower, upper⟩)) :
    Ends (Rejection.Reported true) P (between lower upper) := by
  unfold between
  rcases Range.make_spec lower upper with ⟨formed, made⟩ | ⟨-, reason, ofBound, made⟩
  · rw [made]
    exact ends_pure (h formed)
  · rw [made]
    exact (ofBound.entries_eq true).symm

theorem ends_inField {ranges : Bool} {name : String} {child : Expr} (h : name ≠ "" → P (.field name child)) :
    Ends (Rejection.Reported ranges) P (inField name child) := by
  unfold inField
  by_cases none : name = ""
  · rw [if_pos none]
    rfl
  · rw [if_neg none]
    exact ends_pure (h none)

theorem ends_join {ranges : Bool} {j : Junction} {operands : List Expr}
    (h : 2 ≤ operands.length → P (.group j operands)) : Ends (Rejection.Reported ranges) P (join j operands) := by
  unfold join
  by_cases few : operands.length < 2
  · rw [if_pos few]
    rfl
  · rw [if_neg few]
    exact ends_pure (h (Nat.le_of_not_lt few))

theorem wellFormed_term (s : String) : (term s).WellFormed := by
  unfold term everything nothing
  split
  · trivial
  · split <;> trivial

theorem wellFormed_wildcard (s : String) : (wildcard s).WellFormed := by
  unfold wildcard everything nothing
  split
  · trivial
  · split <;> trivial

theorem wellFormed_selected {e : Expr} (h : e.WellFormed) : e.selected.WellFormed := by
  induction e with
  | choice flag yes no ihYes ihNo =>
    cases flag
    · exact ihNo h.2
    · exact ihYes h.1
  | _ => exact h

end Expr

/-! ## Values that cannot be refused -/

/-- The log has what is reported while something is read that is not readable. -/
def Json.Fault.Reported (fault : Fault) (log : List Entry) : Prop := log = fault.entries

section

variable {α β : Type} {P : α → Prop} {Q : β → Prop}

theorem ends_malformed : Ends Fault.Reported P malformed := rfl

theorem ends_last (rest : List β) {a : α} (h : P a) : Ends Fault.Reported P (last rest a) := by
  unfold last
  split
  · exact ends_pure h
  · exact ends_malformed

theorem ends_checked {x : Logged Rejection α} (h : Ends (Rejection.Reported false) P x) :
    Ends Fault.Reported P (checked x) :=
  ends_mapError h fun _ _ reported => reported

/-- A field that may be read only once. -/
theorem ends_once {again : Bool} {x : Reading α} {f : α → Reading β} (h : Ends Fault.Reported P x)
    (next : ∀ a, P a → Ends Fault.Reported Q (f a)) : Ends Fault.Reported Q (if again then malformed else x >>= f) := by
  cases again with
  | true => exact ends_malformed
  | false => exact ends_bind h next

end

namespace Json.Document

/-- What reading ends in when there is nothing to check. -/
abbrev Quiet {α : Type} (x : Reading α) : Prop := Ends Fault.Reported (fun _ => True) x

theorem quiet_ofOption {α : Type} (o : Option α) : Quiet (ofOption o) := by
  cases o with
  | none => exact ends_malformed
  | some a => exact ends_pure trivial

theorem quiet_text (d : Document) : Quiet d.asText := by
  cases d with
  | string s =>
    cases s with
    | none => exact ends_malformed
    | some s => exact ends_pure trivial
  | _ => exact ends_malformed

theorem quiet_bool (d : Document) : Quiet d.asBool := by
  cases d with
  | boolean b => exact ends_pure trivial
  | _ => exact ends_malformed

theorem quiet_numeral (d : Document) : Quiet d.asNumeral := by
  cases d with
  | number literal => exact quiet_ofOption _
  | _ => exact ends_malformed

theorem quiet_integer (d : Document) : Quiet d.asInteger :=
  ends_bind (quiet_numeral d) fun n _ => quiet_ofOption n.value?

theorem quiet_double (d : Document) : Quiet d.asDouble := by
  unfold asDouble
  refine ends_bind (quiet_numeral d) ?_
  intro n _
  dsimp only
  split
  · exact ends_pure trivial
  · exact ends_malformed

theorem quiet_needed {α : Type} {read : Document → Reading α} (h : ∀ d, Quiet (read d))
    (fields : List (String × Document)) (name : String) : Quiet (needed fields name read) := by
  unfold needed
  split
  · exact h _
  · exact ends_malformed

end Json.Document

open Json.Document

/-! ## Reading -/

theorem Bound.quiet_readKind (kind : String) (d : Document) : Quiet (readKind kind d) := by
  unfold readKind
  split
  · exact ends_bind (quiet_text d) fun s _ => ends_bind (quiet_ofOption _) fun t _ => ends_pure trivial
  split
  · exact ends_bind (quiet_integer d) fun n _ => ends_bind (quiet_ofOption _) fun i _ => ends_pure trivial
  split
  · exact ends_bind (quiet_double d) fun x _ => ends_pure trivial
  split
  · exact ends_bind (quiet_text d) fun s _ => ends_pure trivial
  split
  · cases d with
    | null => exact ends_pure trivial
    | _ => exact ends_malformed
  · exact ends_malformed

theorem Bound.quiet_read (d : Document) : Quiet (read d) := by
  unfold read
  split
  · split
    · exact ends_pure trivial
    · exact ends_malformed
  · exact quiet_readKind _ _
  · exact ends_malformed

theorem Range.ends_read (d : Document) : Ends Fault.Reported WellFormed (read d) := by
  unfold read
  refine ends_bind (quiet_ofOption _) ?_
  intro fields _
  refine ends_bind (quiet_needed Bound.quiet_read fields "from") ?_
  intro lower _
  refine ends_bind (quiet_needed Bound.quiet_read fields "to") ?_
  intro upper _
  exact ends_checked (ends_make lower upper)

namespace Expr

/-- The branches that have been read so far. -/
def Branches.WellFormed (found : Branches) : Prop :=
  (∀ e ∈ found.yes, e.WellFormed) ∧ (∀ e ∈ found.no, e.WellFormed)

theorem ends_choice {found : Branches} (h : found.WellFormed) : Ends Fault.Reported WellFormed found.choice := by
  obtain ⟨_ | flag, _ | yes, _ | no⟩ := found
  all_goals first | exact ends_malformed | exact ends_pure ⟨h.1 yes rfl, h.2 no rfl⟩

mutual

theorem ends_read : ∀ d : Document, Ends Fault.Reported WellFormed (read d)
  | .object ((some tag, d) :: rest) => by
    rw [read]
    cases Kind.ofTag? tag with
    | none => exact ends_malformed
    | some k => exact ends_bind (ends_readBody k d) fun e h => ends_last rest h
  | .object [] | .object ((none, _) :: _) | .null | .boolean _ | .number _ | .string _ | .array _ | .deep | .cut =>
    ends_malformed

theorem ends_readBody : ∀ (k : Kind) (d : Document), Ends Fault.Reported WellFormed (readBody k d)
  | .text, d => by
    rw [readBody]
    refine ends_bind (quiet_text d) ?_
    intro s _
    exact ends_pure trivial
  | .range, d => by
    rw [readBody]
    refine ends_bind (Range.ends_read d) ?_
    intro r h
    exact ends_pure h
  | .field, .array (name :: child :: rest) => by
    rw [readBody]
    refine ends_bind (quiet_text name) ?_
    intro name _
    refine ends_bind (ends_read child) ?_
    intro child h
    refine ends_bind (ends_last rest h) ?_
    intro child h
    exact ends_checked (ends_inField fun named => ⟨named, h⟩)
  | .field, .object members => ends_readFieldMembers none none members (by simp)
  | .combinator, .object ((some tag, d) :: rest) => by
    rw [readBody]
    cases Junction.ofTag? tag with
    | some j =>
      refine ends_bind (ends_readOperands d) ?_
      intro operands h
      refine ends_bind (ends_last rest h) ?_
      intro operands h
      exact ends_checked (ends_join fun enough => ⟨enough, h⟩)
    | none =>
      cases Sign.ofTag? tag with
      | some s =>
        refine ends_bind (ends_read d) ?_
        intro e h
        refine ends_bind (ends_last rest h) ?_
        intro e h
        exact ends_pure h
      | none =>
        by_cases conditional : tag = "conditional"
        · simp only [if_pos conditional]
          refine ends_bind (ends_readChoice d) ?_
          intro e h
          exact ends_last rest h
        · simp only [if_neg conditional]
          exact ends_malformed
  | .field, .array [] | .field, .array [_] | .field, .null | .field, .boolean _ | .field, .number _ | .field, .string _
  | .field, .deep | .field, .cut | .combinator, .object [] | .combinator, .object ((none, _) :: _) | .combinator, .null
  | .combinator, .boolean _ | .combinator, .number _ | .combinator, .string _ | .combinator, .array _
  | .combinator, .deep | .combinator, .cut => ends_malformed

theorem ends_readFieldMembers : ∀ (name : Option String) (child : Option Expr) (ms : List (Key × Document)),
    (∀ e ∈ child, e.WellFormed) → Ends Fault.Reported WellFormed (readFieldMembers name child ms)
  | some name, some child, [], h => ends_checked (ends_inField fun named => ⟨named, h child rfl⟩)
  | none, _, [], _ => ends_malformed
  | some _, none, [], _ => ends_malformed
  | name, child, (key, d) :: ms, h => by
    rw [readFieldMembers]
    by_cases isName : key = some "name"
    · rw [if_pos isName]
      refine ends_once (quiet_text d) ?_
      intro name _
      exact ends_readFieldMembers (some name) child ms h
    · rw [if_neg isName]
      by_cases isChild : key = some "child"
      · rw [if_pos isChild]
        refine ends_once (ends_read d) ?_
        intro e made
        exact ends_readFieldMembers name (some e) ms (by simpa using made)
      · rw [if_neg isChild]
        by_cases skipped : (key.isSome && d.isWhole) = true
        · rw [if_pos skipped]
          exact ends_readFieldMembers name child ms h
        · rw [if_neg skipped]
          exact ends_malformed

theorem ends_readOperands : ∀ d : Document, Ends Fault.Reported AllWellFormed (readOperands d)
  | .array items => ends_readAll items
  | .null | .boolean _ | .number _ | .string _ | .object _ | .deep | .cut => ends_malformed

theorem ends_readAll : ∀ ds : List Document, Ends Fault.Reported AllWellFormed (readAll ds)
  | [] => ends_pure trivial
  | d :: ds => by
    rw [readAll]
    refine ends_bind (ends_read d) ?_
    intro e h
    refine ends_bind (ends_readAll ds) ?_
    intro es hs
    exact ends_pure ⟨h, hs⟩

theorem ends_readChoice : ∀ d : Document, Ends Fault.Reported WellFormed (readChoice d)
  | .array (flag :: yes :: no :: rest) => by
    rw [readChoice]
    refine ends_bind (quiet_bool flag) ?_
    intro flag _
    refine ends_bind (ends_read yes) ?_
    intro yes h
    refine ends_bind (ends_read no) ?_
    intro no h'
    exact ends_last rest ⟨h, h'⟩
  | .array [flag, yes] => by
    show Ends Fault.Reported WellFormed (flag.asBool >>= fun _ => read yes >>= fun _ => malformed)
    refine ends_bind (quiet_bool flag) ?_
    intro _ _
    refine ends_bind (ends_read yes) ?_
    intro _ _
    exact ends_malformed
  | .object members => ends_readChoiceMembers ⟨none, none, none⟩ members (by simp [Branches.WellFormed])
  | .array [] | .array [_] | .null | .boolean _ | .number _ | .string _ | .deep | .cut => ends_malformed

theorem ends_readChoiceMembers : ∀ (found : Branches) (ms : List (Key × Document)), found.WellFormed →
    Ends Fault.Reported WellFormed (readChoiceMembers found ms)
  | found, [], h => ends_choice h
  | found, (key, d) :: ms, h => by
    rw [readChoiceMembers]
    by_cases isFlag : key = some "flag"
    · rw [if_pos isFlag]
      refine ends_once (quiet_bool d) ?_
      intro flag _
      exact ends_readChoiceMembers { found with flag := some flag } ms h
    · rw [if_neg isFlag]
      by_cases isThen : key = some "then"
      · rw [if_pos isThen]
        refine ends_once (ends_read d) ?_
        intro e made
        exact ends_readChoiceMembers { found with yes := some e } ms ⟨by simpa using made, h.2⟩
      · rw [if_neg isThen]
        by_cases isOtherwise : key = some "otherwise"
        · rw [if_pos isOtherwise]
          refine ends_once (ends_read d) ?_
          intro e made
          exact ends_readChoiceMembers { found with no := some e } ms ⟨h.1, by simpa using made⟩
        · rw [if_neg isOtherwise]
          by_cases skipped : (key.isSome && d.isWhole) = true
          · rw [if_pos skipped]
            exact ends_readChoiceMembers found ms h
          · rw [if_neg skipped]
            exact ends_malformed

end

end Expr

theorem ends_readText {α : Type} {P : α → Prop} {read : Document → Reading α}
    (h : ∀ d, Ends Fault.Reported P (read d)) (text : String) : Ends Fault.Reported P (readText read text) := by
  unfold readText
  refine ends_bind (h _) ?_
  intro a ha
  split
  · exact ends_pure ha
  · exact ends_malformed

end SearchQuery
