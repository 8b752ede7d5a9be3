/-
  SearchQuery.Json.Depth — how deep arrays and objects stand inside each other. A text is
  read down to `maxDepth` of them; `clip` closes up what is deeper, so that a reader fails
  where it would have to look into it, but can still skip it.

  `clip_eq_self`: a tree that is not deeper than allowed is left as it is.
-/

import SearchQuery.Json.Document

namespace SearchQuery.Json

/-- The most arrays and objects around one another that are read. -/
def maxDepth : Nat := 127

namespace Document

mutual

/-- The number of arrays and objects around the innermost value, at most. -/
def depth : Document → Nat
  | .array items => depthAll items + 1
  | .object members => depthMembers members + 1
  | _ => 0

def depthAll : List Document → Nat
  | [] => 0
  | d :: ds => max (depth d) (depthAll ds)

def depthMembers : List (Key × Document) → Nat
  | [] => 0
  | (_, d) :: ms => max (depth d) (depthMembers ms)

end

mutual

/-- A tree in which no more than `room` arrays and objects stand inside each other. -/
def clip (room : Nat) : Document → Document
  | .array items => match room with
    | 0 => if allWhole items then .deep else .cut
    | room + 1 => .array (clipAll room items)
  | .object members => match room with
    | 0 => if membersWhole members then .deep else .cut
    | room + 1 => .object (clipMembers room members)
  | d => d

def clipAll (room : Nat) : List Document → List Document
  | [] => []
  | d :: ds => clip room d :: clipAll room ds

def clipMembers (room : Nat) : List (Key × Document) → List (Key × Document)
  | [] => []
  | (k, d) :: ms => (k, clip room d) :: clipMembers room ms

end

mutual

theorem clip_eq_self (room : Nat) : ∀ d : Document, d.depth ≤ room → d.clip room = d
  | .array items, h => by
    rw [depth] at h
    obtain ⟨room, rfl⟩ : ∃ n, room = n + 1 := ⟨room - 1, by omega⟩
    rw [clip, clipAll_eq_self room items (by omega)]
  | .object members, h => by
    rw [depth] at h
    obtain ⟨room, rfl⟩ : ∃ n, room = n + 1 := ⟨room - 1, by omega⟩
    rw [clip, clipMembers_eq_self room members (by omega)]
  | .null, _ => rfl
  | .boolean _, _ => rfl
  | .number _, _ => rfl
  | .string _, _ => rfl
  | .deep, _ => rfl
  | .cut, _ => rfl

theorem clipAll_eq_self (room : Nat) : ∀ ds : List Document, depthAll ds ≤ room → clipAll room ds = ds
  | [], _ => rfl
  | d :: ds, h => by
    rw [depthAll] at h
    rw [clipAll, clip_eq_self room d (by omega), clipAll_eq_self room ds (by omega)]

theorem clipMembers_eq_self (room : Nat) :
    ∀ ms : List (Key × Document), depthMembers ms ≤ room → clipMembers room ms = ms
  | [], _ => rfl
  | (k, d) :: ms, h => by
    rw [depthMembers] at h
    rw [clipMembers, clip_eq_self room d (by omega), clipMembers_eq_self room ms (by omega)]

end

end Document

end SearchQuery.Json
