/-
  SearchQuery.Log — why a part of a query cannot be built, and what building reports as it
  goes. A `Logged` computation keeps its events whether it succeeds or fails; a step after a
  failure does not run, so it adds no event.
-/

namespace SearchQuery

/-! ## Rejections -/

/-- A side of a range. -/
inductive Side where
  | lower
  | upper
  deriving DecidableEq, Repr

def Side.text : Side → String
  | .lower => "from"
  | .upper => "to"

inductive Rejection where
  /-- A field without a name. -/
  | emptyField
  /-- A bound that is an empty token. -/
  | emptyBound (side : Side)
  /-- A bound that is no finite number. -/
  | invalidBound (side : Side) (value : String)
  | tooFewOperands (operator : String) (count : Nat)
  deriving DecidableEq, Repr

def Rejection.message : Rejection → String
  | .emptyField => "the field is required"
  | .emptyBound side => "the " ++ side.text ++ " bound is required"
  | .invalidBound side value => "invalid " ++ side.text ++ " bound: " ++ value
  | .tooFewOperands operator count =>
    operator ++ " requires at least two expressions, got " ++ String.ofList (Nat.toDigits 10 count)

/-! ## Events -/

inductive Event where
  | fieldRejected
  | groupRejected (operator : String) (count : Nat)
  | rangeRejected (reason : Rejection)
  | queryBuilt (q : String)
  deriving DecidableEq, Repr

def Event.message : Event → String
  | .fieldRejected => "rejected field binding without a field name"
  | .groupRejected _ _ => "rejected combinator"
  | .rangeRejected _ => "rejected range"
  | .queryBuilt _ => "built query"

/-- The named values that an event carries. -/
def Event.fields : Event → List (String × String)
  | .fieldRejected => []
  | .groupRejected operator count => [("operator", operator), ("count", String.ofList (Nat.toDigits 10 count))]
  | .rangeRejected reason => [("err", reason.message)]
  | .queryBuilt q => [("q", q)]

structure Logged (ε α : Type) where
  events : List Event
  result : Except ε α

namespace Logged

variable {ε δ α β : Type}

def ofExcept (result : Except ε α) : Logged ε α := ⟨[], result⟩

def fail (e : ε) : Logged ε α := ⟨[], .error e⟩

/-- Fails, and says so. -/
def reject (event : Event) (e : ε) : Logged ε α := ⟨[event], .error e⟩

def note (event : Event) : Logged ε Unit := ⟨[event], .ok ()⟩

def bind (x : Logged ε α) (f : α → Logged ε β) : Logged ε β :=
  match x.result with
  | .error e => ⟨x.events, .error e⟩
  | .ok a => ⟨x.events ++ (f a).events, (f a).result⟩

instance : Monad (Logged ε) where
  pure a := ⟨[], .ok a⟩
  bind := bind

def mapError (f : ε → δ) (x : Logged ε α) : Logged δ α := ⟨x.events, x.result.mapError f⟩

/-! ## What a step adds -/

@[simp] theorem pure_eq (a : α) : (pure a : Logged ε α) = ⟨[], .ok a⟩ := rfl

@[simp] theorem ok_bind (events : List Event) (a : α) (f : α → Logged ε β) :
    (⟨events, .ok a⟩ : Logged ε α) >>= f = ⟨events ++ (f a).events, (f a).result⟩ := rfl

@[simp] theorem error_bind (events : List Event) (e : ε) (f : α → Logged ε β) :
    (⟨events, .error e⟩ : Logged ε α) >>= f = ⟨events, .error e⟩ := rfl

theorem result_bind (x : Logged ε α) (f : α → Logged ε β) : (x >>= f).result = x.result.bind fun a => (f a).result := by
  obtain ⟨events, _ | a⟩ := x <;> rfl

theorem result_bind_eq_ok_iff {x : Logged ε α} {f : α → Logged ε β} {b : β} :
    (x >>= f).result = .ok b ↔ ∃ a, x.result = .ok a ∧ (f a).result = .ok b := by
  rw [result_bind]
  cases x.result with
  | error e => simp [Except.bind]
  | ok a => simp [Except.bind]

theorem result_bind_eq_error_iff {x : Logged ε α} {f : α → Logged ε β} {e : ε} :
    (x >>= f).result = .error e ↔ x.result = .error e ∨ ∃ a, x.result = .ok a ∧ (f a).result = .error e := by
  rw [result_bind]
  cases x.result with
  | error e => simp [Except.bind]
  | ok a => simp [Except.bind]

theorem result_mapError (x : Logged ε α) (f : ε → δ) : (x.mapError f).result = x.result.mapError f := rfl

instance : LawfulMonad (Logged ε) :=
  .mk' (Logged ε)
    (by rintro α ⟨events, _ | a⟩ <;> simp [Functor.map, bind])
    (by intros; rfl)
    (by
      rintro α β γ ⟨events, _ | a⟩ f g
      · rfl
      · rcases h : f a with ⟨events', _ | b⟩ <;> simp [h])

end Logged

end SearchQuery
