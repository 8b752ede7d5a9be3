/-
  SearchQuery.Proofs.Json.Record — the two ways to write a record: an object with the
  fields in any order among members that are skipped, and an array of the fields.
  `fields?_written`: both are read as the same fields, as far as there are any two alike.
  `fields?_eq_some_iff`: nothing else is read, but an array may end early.
-/

import Mathlib.Data.List.Permutation
import SearchQuery.Json.Reading

namespace SearchQuery.Json

/-- The members of an object that are fields, in the order of the text. The others have
    other names, and only have to be JSON. -/
inductive Holds (names : List String) : List (Key × Document) → List (String × Document) → Prop where
  | nil : Holds names [] []
  | known {key : String} {d : Document} {ms : List (Key × Document)} {fields : List (String × Document)}
      (isField : key ∈ names) (rest : Holds names ms fields) :
      Holds names ((some key, d) :: ms) ((key, d) :: fields)
  | skipped {key : String} {d : Document} {ms : List (Key × Document)} {fields : List (String × Document)}
      (other : key ∉ names) (whole : d.isWhole = true) (rest : Holds names ms fields) :
      Holds names ((some key, d) :: ms) fields

/-- A record with its fields in the order of the text. -/
inductive Written (names : List String) (fields : List (String × Document)) : Document → Prop where
  | array (inOrder : fields.map (·.1) = names) : Written names fields (.array (fields.map (·.2)))
  | object {ms : List (Key × Document)} (holds : Holds names ms fields) : Written names fields (.object ms)

variable {names : List String} {ms : List (Key × Document)} {fields : List (String × Document)}

/-! ## Members and fields -/

theorem holds_obj {members : List (String × Document)} (known : ∀ m ∈ members, m.1 ∈ names) :
    Holds names (members.map fun m => (some m.1, m.2)) members := by
  induction members with
  | nil => exact .nil
  | cons m ms ih => exact .known (known m List.mem_cons_self) (ih fun n mem => known n (List.mem_cons_of_mem m mem))

theorem mem_of_holds (h : Holds names ms fields) {name : String} {d : Document} :
    (name, d) ∈ fields ↔ name ∈ names ∧ (some name, d) ∈ ms := by
  induction h with
  | nil => simp
  | @known key e ms fields isField _ ih =>
    rw [List.mem_cons, List.mem_cons, ih, Prod.mk.injEq, Prod.mk.injEq, Option.some.injEq]
    constructor
    · rintro (⟨rfl, rfl⟩ | ⟨mem, rest⟩)
      · exact ⟨isField, .inl ⟨rfl, rfl⟩⟩
      · exact ⟨mem, .inr rest⟩
    · rintro ⟨mem, here | rest⟩
      · exact .inl here
      · exact .inr ⟨mem, rest⟩
  | @skipped key e ms fields other _ _ ih =>
    rw [List.mem_cons, ih, Prod.mk.injEq, Option.some.injEq]
    refine and_congr_right fun mem => ⟨.inr, ?_⟩
    rintro (⟨rfl, -⟩ | rest)
    · exact absurd mem other
    · exact rest

/-- The names of the fields, in the order of the members. -/
theorem keys_of_holds (h : Holds names ms fields) :
    fields.map (·.1) = (ms.filterMap (·.1)).filter (· ∈ names) := by
  induction h with
  | nil => rfl
  | known isField _ ih => simp [isField, ih]
  | skipped other _ _ ih => simp [other, ih]

/-- Members in another order have the same fields in another order. -/
theorem holds_perm {others : List (Key × Document)} (perm : ms.Perm others) (h : Holds names ms fields) :
    ∃ found, Holds names others found ∧ fields.Perm found := by
  induction perm generalizing fields with
  | nil => exact ⟨fields, h, .refl _⟩
  | cons m _ ih =>
    cases h with
    | known isField rest =>
      obtain ⟨found, holds, perm⟩ := ih rest
      exact ⟨_, .known isField holds, perm.cons _⟩
    | skipped other whole rest =>
      obtain ⟨found, holds, perm⟩ := ih rest
      exact ⟨found, .skipped other whole holds, perm⟩
  | swap m n ms =>
    cases h with
    | known isField rest =>
      cases rest with
      | known isField' rest => exact ⟨_, .known isField' (.known isField rest), .swap ..⟩
      | skipped other whole rest => exact ⟨_, .skipped other whole (.known isField rest), .refl _⟩
    | skipped other whole rest =>
      cases rest with
      | known isField rest => exact ⟨_, .known isField (.skipped other whole rest), .refl _⟩
      | skipped other' whole' rest => exact ⟨_, .skipped other' whole' (.skipped other whole rest), .refl _⟩
  | trans _ _ ih ih' =>
    obtain ⟨found, holds, perm⟩ := ih h
    obtain ⟨found', holds', perm'⟩ := ih' holds
    exact ⟨found', holds', perm.trans perm'⟩

/-! ## What is closed up keeps its fields -/

open Document

mutual

theorem isWhole_clip : ∀ (room : Nat) (d : Document), (d.clip room).isWhole = d.isWhole
  | 0, .array items => by
    by_cases whole : allWhole items = true <;> simp [clip, isWhole, whole]
  | room + 1, .array items => allWhole_clip room items
  | 0, .object members => by
    by_cases whole : membersWhole members = true <;> simp [clip, isWhole, whole]
  | room + 1, .object members => membersWhole_clip room members
  | _, .null => rfl
  | _, .boolean _ => rfl
  | _, .number _ => rfl
  | _, .string _ => rfl
  | _, .deep => rfl
  | _, .cut => rfl

theorem allWhole_clip : ∀ (room : Nat) (ds : List Document), allWhole (clipAll room ds) = allWhole ds
  | _, [] => rfl
  | room, d :: ds => by
    rw [clipAll, allWhole, allWhole, isWhole_clip room d, allWhole_clip room ds]

theorem membersWhole_clip : ∀ (room : Nat) (ms : List (Key × Document)),
    membersWhole (clipMembers room ms) = membersWhole ms
  | _, [] => rfl
  | room, (k, d) :: ms => by
    rw [clipMembers, membersWhole, membersWhole, isWhole_clip room d, membersWhole_clip room ms]

end

/-- The fields with their values closed up. -/
def clipFields (room : Nat) (fields : List (String × Document)) : List (String × Document) :=
  fields.map fun f => (f.1, f.2.clip room)

theorem perm_clipFields (room : Nat) {others : List (String × Document)} (h : fields.Perm others) :
    (clipFields room fields).Perm (clipFields room others) := h.map _

theorem holds_clip (room : Nat) (h : Holds names ms fields) :
    Holds names (clipMembers room ms) (clipFields room fields) := by
  induction h with
  | nil => exact .nil
  | known isField _ ih => exact .known isField ih
  | skipped other whole _ ih => exact .skipped other ((isWhole_clip room _).trans whole) ih

theorem lookup_clipFields (room : Nat) (name : String) :
    (clipFields room fields).lookup name = (fields.lookup name).map (clip room) := by
  induction fields with
  | nil => rfl
  | cons f fields ih =>
    obtain ⟨key, d⟩ := f
    show List.lookup name ((key, d.clip room) :: clipFields room fields) = _
    rw [List.lookup_cons, List.lookup_cons, ih]
    split <;> rfl

theorem clipAll_eq_map (room : Nat) (ds : List Document) : clipAll room ds = ds.map (clip room) := by
  induction ds with
  | nil => rfl
  | cons d ds ih => rw [clipAll, ih, List.map_cons]

theorem written_clip (room : Nat) {d : Document} (h : Written names fields d) :
    Written names (clipFields room fields) (d.clip (room + 1)) := by
  cases h with
  | array inOrder =>
    have keys : (clipFields room fields).map (·.1) = names := by
      rw [← inOrder, clipFields, List.map_map]
      rfl
    have values : (clipFields room fields).map (·.2) = clipAll room (fields.map (·.2)) := by
      rw [clipAll_eq_map, clipFields, List.map_map, List.map_map]
      rfl
    rw [clip, ← values]
    exact .array keys
  | object holds => exact .object (holds_clip room holds)

/-! ## Reading the fields -/

theorem namedMembers?_holds (h : Holds names ms fields) (once : (fields.map (·.1)).Nodup) :
    namedMembers? names ms = some fields := by
  induction h with
  | nil => rfl
  | known isField _ ih =>
    rw [List.map_cons, List.nodup_cons] at once
    rw [namedMembers?, if_pos (List.contains_iff_mem.2 isField), ih once.2, Option.bind_some,
      if_neg (fun again => once.1 (List.contains_iff_mem.1 again))]
  | skipped other whole _ ih =>
    rw [namedMembers?, if_neg (fun isField => other (List.contains_iff_mem.1 isField)), if_pos whole, ih once]

/-- A record is read as its fields, however it is written. -/
theorem fields?_written {d : Document} (h : Written names fields d) (once : (fields.map (·.1)).Nodup) :
    d.fields? names = some fields := by
  cases h with
  | array inOrder =>
    have fit : (fields.map (·.2)).length ≤ names.length := by rw [← inOrder]; simp
    rw [fields?, if_pos fit, ← inOrder, ← List.zip_of_prod rfl rfl]
  | object holds => exact namedMembers?_holds holds once

theorem holds_of_namedMembers? (h : namedMembers? names ms = some fields) :
    Holds names ms fields ∧ (fields.map (·.1)).Nodup := by
  induction ms generalizing fields with
  | nil =>
    obtain rfl := Option.some.inj h
    exact ⟨.nil, .nil⟩
  | cons m ms ih =>
    obtain ⟨_ | key, d⟩ := m
    · cases h
    · rw [namedMembers?] at h
      split at h
      · rename_i isField
        obtain ⟨found, rest, h⟩ := Option.bind_eq_some_iff.1 h
        split at h
        · cases h
        · rename_i fresh
          obtain rfl := Option.some.inj h
          obtain ⟨holds, once⟩ := ih rest
          exact ⟨.known (List.contains_iff_mem.1 isField) holds,
            List.nodup_cons.2 ⟨fun again => fresh (List.contains_iff_mem.2 again), once⟩⟩
      · rename_i other
        split at h
        · rename_i whole
          obtain ⟨holds, once⟩ := ih h
          exact ⟨.skipped (fun isField => other (List.contains_iff_mem.2 isField)) whole holds, once⟩
        · cases h

/-- An object has its fields under their names, an array in their order. -/
theorem fields?_eq_some_iff {d : Document} : d.fields? names = some fields ↔
    (∃ ms, d = .object ms ∧ Holds names ms fields ∧ (fields.map (·.1)).Nodup) ∨
      ∃ items, d = .array items ∧ items.length ≤ names.length ∧ fields = names.zip items := by
  cases d with
  | object ms =>
    constructor
    · intro h
      exact .inl ⟨ms, rfl, holds_of_namedMembers? h⟩
    · rintro (⟨_, ⟨⟩, holds, once⟩ | ⟨_, ⟨⟩, -⟩)
      exact namedMembers?_holds holds once
  | array items =>
    constructor
    · intro h
      rw [fields?] at h
      split at h
      · rename_i short
        exact .inr ⟨items, rfl, short, (Option.some.inj h).symm⟩
      · cases h
    · rintro (⟨_, ⟨⟩, -⟩ | ⟨_, ⟨⟩, short, rfl⟩)
      exact if_pos short
  | _ => exact iff_of_false nofun (by rintro (⟨_, ⟨⟩, -⟩ | ⟨_, ⟨⟩, -⟩))

theorem namedMembers?_clip (room : Nat) :
    namedMembers? names (clipMembers room ms) = (namedMembers? names ms).map (clipFields room) := by
  induction ms with
  | nil => rfl
  | cons m ms ih =>
    obtain ⟨_ | key, d⟩ := m
    · rfl
    · have keys : ∀ found, (clipFields room found).map (·.1) = found.map (·.1) := fun found => by
        rw [clipFields, List.map_map]
        rfl
      rw [clipMembers, namedMembers?, namedMembers?, ih, isWhole_clip]
      split
      · cases namedMembers? names ms with
        | none => rfl
        | some found =>
          simp only [Option.map_some, Option.bind_some, keys]
          split <;> rfl
      · split <;> rfl

theorem fields?_clip (room : Nat) (d : Document) :
    (d.clip (room + 1)).fields? names = (d.fields? names).map (clipFields room) := by
  cases d with
  | array items =>
    have length : (clipAll room items).length = items.length := by rw [clipAll_eq_map, List.length_map]
    rw [clip, fields?, fields?, length]
    split
    · rw [clipAll_eq_map, List.zip_map_right]
      rfl
    · rfl
  | object ms => exact namedMembers?_clip room
  | _ => rfl

/-! ## Fields by name -/

theorem lookup_field (key name : String) (d : Document) (fields : List (String × Document)) :
    ((key, d) :: fields).lookup name = if name = key then some d else fields.lookup name := by
  by_cases same : name = key
  · rw [same, List.lookup_cons_self, if_pos rfl]
  · rw [List.lookup_cons, beq_false_of_ne same, if_neg same]

theorem lookup_eq_some_iff (once : (fields.map (·.1)).Nodup) {name : String} {d : Document} :
    fields.lookup name = some d ↔ (name, d) ∈ fields := by
  induction fields with
  | nil => simp
  | cons f fields ih =>
    obtain ⟨key, e⟩ := f
    rw [List.map_cons, List.nodup_cons] at once
    rw [lookup_field, List.mem_cons, Prod.mk.injEq]
    by_cases same : name = key
    · subst same
      have other : (name, d) ∉ fields := fun mem => once.1 (List.mem_map_of_mem (f := (·.1)) mem)
      simp [other, eq_comm]
    · simp [same, ih once.2]

theorem lookup_perm {others : List (String × Document)} (perm : fields.Perm others) (once : (fields.map (·.1)).Nodup)
    (name : String) : fields.lookup name = others.lookup name := by
  refine Option.ext fun d => ?_
  rw [lookup_eq_some_iff once, lookup_eq_some_iff ((perm.map _).nodup_iff.1 once), perm.mem_iff]

/-- In an array a name stands for the place that it has among the names. -/
theorem lookup_zip (once : names.Nodup) {name : String} {i : Nat} (place : names[i]? = some name) (items : List Document) :
    (names.zip items).lookup name = items[i]? := by
  induction names generalizing i items with
  | nil => cases place
  | cons first names ih =>
    obtain ⟨fresh, once⟩ := List.nodup_cons.1 once
    cases items with
    | nil => rfl
    | cons d items =>
      rw [List.zip_cons_cons, lookup_field]
      cases i with
      | zero =>
        obtain rfl := Option.some.inj place
        exact if_pos rfl
      | succ i =>
        have other : name ≠ first := by
          rintro rfl
          exact fresh (List.mem_of_getElem? place)
        rw [if_neg other]
        exact ih once place items

/-! ## Few fields in any order -/

theorem eq_of_perm_pair {α : Type} {l : List α} {a b : α} (h : l.Perm [a, b]) : l = [a, b] ∨ l = [b, a] := by
  have mem := List.mem_permutations'.2 h
  simpa [List.permutations'] using mem

theorem eq_of_perm_triple {α : Type} {l : List α} {a b c : α} (h : l.Perm [a, b, c]) :
    l = [a, b, c] ∨ l = [b, a, c] ∨ l = [b, c, a] ∨ l = [a, c, b] ∨ l = [c, a, b] ∨ l = [c, b, a] := by
  have mem := List.mem_permutations'.2 h
  simpa [List.permutations'] using mem

end SearchQuery.Json
