/-
  SearchQuery.Proofs.Json.Reader — readers that have nothing to refuse. Such a reader is
  settled by a relation: it takes a document as a value if the document spells the value,
  and calls every other document malformed (`Reads`). So it is for texts, counts and names,
  and for lists, optional values and fields of what can be read in this way.

  A reader that looks no deeper than some number of arrays and objects does not notice
  that what is deeper has been closed up (`Shallow`).
-/

import Mathlib.Data.List.Forall2
import SearchQuery.Proofs.Json.Record

namespace SearchQuery.Json

open Number Document

/-! ## Readers that have nothing to refuse -/

/-- Whatever a reading does not take, it calls malformed. -/
def Reading.Plain {α : Type} (x : Reading α) : Prop := ∀ fault, x.result = .error fault → fault = .malformed

namespace Reading

variable {α β : Type}

theorem plain_pure (a : α) : (pure a : Reading α).Plain := nofun

theorem plain_malformed : (malformed : Reading α).Plain := fun _ h => (Except.error.inj h).symm

theorem plain_ofOption (o : Option α) : (ofOption o).Plain := by
  cases o with
  | none => exact plain_malformed
  | some a => exact plain_pure a

theorem plain_bind {x : Reading α} {f : α → Reading β} (h : x.Plain) (hf : ∀ a, (f a).Plain) : (x >>= f).Plain := by
  intro fault failed
  rcases Logged.result_bind_eq_error_iff.1 failed with first | ⟨a, -, second⟩
  · exact h fault first
  · exact hf a fault second

end Reading

open Reading

/-- A reader takes a document as a value if the document spells the value, and calls every
    other document malformed. -/
structure Reads {α : Type} (read : Document → Reading α) (spells : α → Document → Prop) : Prop where
  ok_iff (d : Document) (a : α) : (read d).result = .ok a ↔ spells a d
  plain (d : Document) : (read d).Plain

/-- Any string that has a text. -/
inductive SpelledText (s : String) : Document → Prop where
  | string : SpelledText s (.str s)

/-- A document spells a list item by item. -/
inductive SpelledItems {α : Type} (spells : α → Document → Prop) : List α → Document → Prop where
  | array {as : List α} {items : List Document} (each : List.Forall₂ spells as items) : SpelledItems spells as (.array items)

/-- An integer without sign, fraction and exponent, not even a minus before a zero. -/
inductive SpelledCount (n : UInt64) : Document → Prop where
  | number {literal : List Char} {numeral : Numeral} (read : Numeral.read? literal = some numeral)
      (whole : numeral.isWhole = true) (sign : numeral.negative = false) (digits : numeral.digits = n.toNat) :
      SpelledCount n (.number literal)

/-- A name, alone or as the key of `null`. -/
inductive SpelledName (name : String) : Document → Prop where
  | alone : SpelledName name (.str name)
  | tagged : SpelledName name (.obj [(name, .null)])

/-- `null` spells that there is no value. -/
inductive SpelledOption {α : Type} (spells : α → Document → Prop) : Option α → Document → Prop where
  | null : SpelledOption spells none .null
  | value {a : α} {d : Document} (spelled : spells a d) : SpelledOption spells (some a) d

/-- What a record has under a name spells a value; when there is nothing the value is the
    one that is taken for granted. -/
inductive OrMissing {α : Type} (default : α) (spells : α → Document → Prop) : α → Option Document → Prop where
  | missing : OrMissing default spells default none
  | written {a : α} {d : Document} (spelled : spells a d) : OrMissing default spells a (some d)

variable {α : Type} {read : Document → Reading α} {spells : α → Document → Prop}

/-- It is enough that a reader takes what is spelled, and refuses what spells nothing. -/
theorem reads_of_either (accepts : ∀ a d, spells a d → read d = pure a)
    (either : ∀ d, read d = malformed ∨ ∃ a, spells a d) : Reads read spells where
  ok_iff d a := by
    constructor
    · intro ok
      rcases either d with refused | ⟨b, spelled⟩
      · rw [refused] at ok
        cases ok
      · rw [accepts b d spelled] at ok
        obtain rfl := Except.ok.inj ok
        exact spelled
    · intro spelled
      rw [accepts a d spelled]
      rfl
  plain d := by
    rcases either d with refused | ⟨a, spelled⟩
    · rw [refused]
      exact plain_malformed
    · rw [accepts a d spelled]
      exact plain_pure a

theorem reads_text : Reads asText SpelledText := by
  refine reads_of_either ?_ fun d => ?_
  · rintro s _ ⟨⟩
    rfl
  · cases d with
    | string s =>
      cases s with
      | none => exact .inl rfl
      | some s => exact .inr ⟨s, .string⟩
    | _ => exact .inl rfl

theorem result_ofOption {o : Option α} {a : α} : (ofOption o).result = .ok a ↔ o = some a := by
  cases o with
  | none => exact iff_of_false nofun nofun
  | some b => simp [ofOption]

theorem reads_count : Reads asCount SpelledCount := by
  refine reads_of_either ?_ fun d => ?_
  · rintro n _ ⟨read, whole, sign, digits⟩
    simp only [asCount, asNumeral, read, ofOption, pure_bind, whole, sign, digits, n.toNat_lt, Bool.not_false, Bool.and_self,
      decide_true, if_true, UInt64.ofNat_toNat]
  · cases d with
    | number literal =>
      cases read : Numeral.read? literal with
      | none => exact .inl (by simp only [asCount, asNumeral, read]; rfl)
      | some numeral =>
        by_cases fits : (numeral.isWhole && !numeral.negative && numeral.digits < UInt64.size) = true
        · simp only [Bool.and_eq_true, decide_eq_true_eq, Bool.not_eq_true'] at fits
          obtain ⟨⟨whole, sign⟩, small⟩ := fits
          exact .inr ⟨_, .number read whole sign (UInt64.toNat_ofNat_of_lt' small).symm⟩
        · refine .inl ?_
          simp only [asCount, asNumeral, read, ofOption, pure_bind]
          rw [if_neg fits]
    | _ => exact .inl rfl

theorem asName_member (key : String) {d : Document} (value : d ≠ .null) : asName (.object [(some key, d)]) = malformed := by
  cases d with
  | null => exact absurd rfl value
  | _ => rfl

theorem asName_members (m n : Key × Document) (ms : List (Key × Document)) :
    asName (.object (m :: n :: ms)) = malformed := by
  obtain ⟨_ | key, d⟩ := m
  · rfl
  · cases d <;> rfl

theorem reads_name : Reads asName SpelledName := by
  refine reads_of_either ?_ fun d => ?_
  · rintro name _ (_ | _) <;> rfl
  · cases d with
    | string s =>
      cases s with
      | none => exact .inl rfl
      | some s => exact .inr ⟨s, .alone⟩
    | object ms =>
      match ms with
      | [] => exact .inl rfl
      | [(none, _)] => exact .inl rfl
      | [(some key, d)] =>
        by_cases null : d = .null
        · subst null
          exact .inr ⟨key, .tagged⟩
        · exact .inl (asName_member key null)
      | m :: n :: ms => exact .inl (asName_members m n ms)
    | _ => exact .inl rfl

theorem result_readItems (h : Reads read spells) {ds : List Document} {as : List α} :
    (readItems read ds).result = .ok as ↔ List.Forall₂ spells as ds := by
  induction ds generalizing as with
  | nil =>
    constructor
    · intro ok
      obtain rfl := Except.ok.inj ok
      exact .nil
    · intro spelled
      cases spelled
      rfl
  | cons d ds ih =>
    constructor
    · intro ok
      obtain ⟨a, first, ok⟩ := Logged.result_bind_eq_ok_iff.1 ok
      obtain ⟨rest, others, ok⟩ := Logged.result_bind_eq_ok_iff.1 ok
      obtain rfl := Except.ok.inj ok
      exact .cons ((h.ok_iff d a).1 first) (ih.1 others)
    · intro spelled
      cases spelled with
      | cons first others =>
        exact Logged.result_bind_eq_ok_iff.2
          ⟨_, (h.ok_iff d _).2 first, Logged.result_bind_eq_ok_iff.2 ⟨_, ih.2 others, rfl⟩⟩

theorem plain_readItems (h : Reads read spells) (ds : List Document) : (readItems read ds).Plain := by
  induction ds with
  | nil => exact plain_pure []
  | cons d ds ih => exact plain_bind (h.plain d) fun a => plain_bind ih fun as => plain_pure (a :: as)

theorem reads_list (h : Reads read spells) : Reads (asList read) (SpelledItems spells) where
  ok_iff d as := by
    cases d with
    | array items =>
      refine (result_readItems h).trans ⟨.array, ?_⟩
      rintro ⟨each⟩
      exact each
    | _ => exact iff_of_false nofun nofun
  plain d := by
    cases d with
    | array items => exact plain_readItems h items
    | _ => exact plain_malformed

theorem asOptional_of_ne (read : Document → Reading α) {d : Document} (value : d ≠ .null) :
    asOptional read d = (do return some (← read d)) := asOptional.eq_2 read d value

theorem reads_optional (h : Reads read spells) (value : ∀ a, ¬ spells a .null) :
    Reads (asOptional read) (SpelledOption spells) where
  ok_iff d a := by
    by_cases null : d = .null
    · subst null
      constructor
      · intro ok
        obtain rfl := Except.ok.inj ok
        exact .null
      · intro spelled
        cases spelled with
        | null => rfl
        | value spelled => exact absurd spelled (value _)
    · rw [asOptional_of_ne read null, Logged.result_bind_eq_ok_iff]
      constructor
      · rintro ⟨b, ok, same⟩
        obtain rfl := Except.ok.inj same
        exact .value ((h.ok_iff d b).1 ok)
      · intro spelled
        cases spelled with
        | null => exact absurd rfl null
        | value spelled => exact ⟨_, (h.ok_iff d _).2 spelled, rfl⟩
  plain d := by
    by_cases null : d = .null
    · subst null
      exact plain_pure none
    · rw [asOptional_of_ne read null]
      exact plain_bind (h.plain d) fun a => plain_pure (some a)

/-! ## Fields that are there, and fields that may be missing -/

section

variable {fields : List (String × Document)} {name : String} {a default : α}

theorem result_needed (h : Reads read spells) :
    (needed fields name read).result = .ok a ↔ ∃ d, fields.lookup name = some d ∧ spells a d := by
  rw [needed]
  cases fields.lookup name with
  | none => exact iff_of_false nofun nofun
  | some d => simpa using h.ok_iff d a

theorem plain_needed (h : Reads read spells) : (needed fields name read).Plain := by
  rw [needed]
  cases fields.lookup name with
  | none => exact plain_malformed
  | some d => exact h.plain d

theorem result_missingAs (h : Reads read spells) :
    (missingAs fields name default read).result = .ok a ↔ OrMissing default spells a (fields.lookup name) := by
  rw [missingAs]
  cases fields.lookup name with
  | none =>
    constructor
    · intro ok
      obtain rfl := Except.ok.inj ok
      exact .missing
    · rintro ⟨⟩
      rfl
  | some d =>
    refine (h.ok_iff d a).trans ⟨.written, fun spelled => ?_⟩
    cases spelled with
    | written spelled => exact spelled

theorem plain_missingAs (h : Reads read spells) : (missingAs fields name default read).Plain := by
  rw [missingAs]
  cases fields.lookup name with
  | none => exact plain_pure default
  | some d => exact h.plain d

end

/-! ## How deep a reader looks -/

/-- A reader looks no deeper than `n` arrays and objects, so nothing changes for it when what
    is deeper is closed up. -/
def Shallow {α : Type} (n : Nat) (read : Document → Reading α) : Prop := ∀ room d, read (d.clip (room + n)) = read d

/-- A document without parts. -/
def Document.isScalar : Document → Bool
  | .null => true
  | .boolean _ => true
  | .number _ => true
  | .string _ => true
  | _ => false

theorem isScalar_clip (room : Nat) (d : Document) : isScalar (d.clip room) = isScalar d := by
  have closed : ∀ whole : Bool, isScalar (if whole then .deep else .cut) = false := by decide
  cases d with
  | array items =>
    cases room with
    | zero => exact closed (allWhole items)
    | succ room => rfl
  | object ms =>
    cases room with
    | zero => exact closed (membersWhole ms)
    | succ room => rfl
  | _ => rfl

theorem clip_of_isScalar {d : Document} (h : isScalar d = true) (room : Nat) : d.clip room = d := by
  cases d with
  | array items => cases h
  | object ms => cases h
  | _ => rfl

theorem clip_eq_null_iff (room : Nat) (d : Document) : d.clip room = .null ↔ d = .null := by
  by_cases scalar : isScalar d = true
  · rw [clip_of_isScalar scalar]
  · refine iff_of_false ?_ ?_
    · intro null
      rw [← isScalar_clip room, null] at scalar
      exact scalar rfl
    · rintro rfl
      exact scalar rfl

/-- A reader that takes only what has no parts does not look into any. -/
theorem shallow_of_scalar (h : ∀ d, isScalar d = false → read d = malformed) : Shallow 0 read := by
  intro room d
  cases scalar : isScalar d with
  | true => rw [clip_of_isScalar scalar]
  | false => rw [h d scalar, h _ ((isScalar_clip (room + 0) d).trans scalar)]

theorem shallow_text : Shallow 0 asText := shallow_of_scalar fun d h => by
  cases d with
  | string s => cases h
  | _ => rfl

theorem shallow_count : Shallow 0 asCount := shallow_of_scalar fun d h => by
  cases d with
  | number literal => cases h
  | _ => rfl

theorem shallow_mono {n m : Nat} (le : n ≤ m) (h : Shallow n read) : Shallow m read := fun room d => by
  obtain ⟨k, rfl⟩ : ∃ k, m = k + n := ⟨m - n, by omega⟩
  rw [← Nat.add_assoc]
  exact h (room + k) d

theorem readItems_clip {n : Nat} (h : Shallow n read) (room : Nat) (items : List Document) :
    readItems read (clipAll (room + n) items) = readItems read items := by
  induction items with
  | nil => rfl
  | cons d ds ih => rw [clipAll, readItems, readItems, h room d, ih]

theorem shallow_list {n : Nat} (h : Shallow n read) : Shallow (n + 1) (asList read) := by
  intro room d
  cases d with
  | array items => exact readItems_clip h room items
  | object ms => rfl
  | _ => rfl

theorem shallow_optional {n : Nat} (h : Shallow n read) : Shallow n (asOptional read) := by
  intro room d
  by_cases none : d = .null
  · rw [none]
    rfl
  · rw [asOptional_of_ne read none, asOptional_of_ne read (mt (clip_eq_null_iff _ d).1 none), h room d]

/-- A lone name behind which there is nothing is all that is looked into. -/
theorem shallow_name : Shallow 1 asName := by
  intro room d
  cases d with
  | object ms =>
    show asName (.object (clipMembers room ms)) = _
    match ms with
    | [] => rfl
    | [(none, d)] => rfl
    | [(some key, d)] =>
      by_cases none : d = .null
      · rw [none]
        rfl
      · rw [clipMembers, clipMembers, asName_member key none, asName_member key (mt (clip_eq_null_iff _ d).1 none)]
    | m :: n :: ms =>
      rw [clipMembers, clipMembers, asName_members, asName_members]
  | _ => rfl

/-- A field is read from fields that are closed up as from those that are not. -/
theorem needed_clip {n room : Nat} {name : String} {fields : List (String × Document)} (h : Shallow n read) :
    needed (clipFields (room + n) fields) name read = needed fields name read := by
  rw [needed, needed, lookup_clipFields]
  cases fields.lookup name with
  | none => rfl
  | some d => exact h room d

theorem missingAs_clip {n room : Nat} {name : String} {fields : List (String × Document)} {default : α} (h : Shallow n read) :
    missingAs (clipFields (room + n) fields) name default read = missingAs fields name default read := by
  rw [missingAs, missingAs, lookup_clipFields]
  cases fields.lookup name with
  | none => rfl
  | some d => exact h room d

end SearchQuery.Json
