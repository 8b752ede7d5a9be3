/-
  SearchQuery.Proofs.Clean — expressions whose texts keep out of each other's way. A clean
  text is empty, a word in which only wildcards stand bare and which is no operator, or a
  phrase between quotes without quotes and backslashes in it; a clean field name is `*` or
  has nothing reserved in it; a clean range has no bound that contains a space or a
  closing bracket.

  The shape of a clean expression is clean (`clean_shape`), the texts that are left in it
  not empty.
-/

import SearchQuery.Expr.Build
import SearchQuery.Proofs.Figures
import SearchQuery.Proofs.Shape
import SearchQuery.Proofs.Word

namespace SearchQuery

open Text

def IsWord (cs : List Char) : Prop := cs ≠ [] ∧ isGuarded cs = true ∧ cs ∉ operators

def IsPhrase (cs : List Char) : Prop := ∃ w, cs = '"' :: (w ++ ['"']) ∧ '"' ∉ w ∧ '\\' ∉ w

def CleanText (s : String) : Prop := s = "" ∨ IsWord s.toList ∨ IsPhrase s.toList

def CleanName (s : String) : Prop := s = "*" ∨ (s ≠ "" ∧ ∀ c ∈ s.toList, isReserved c = false)

def Bound.Clean : Bound → Prop
  | .token s => ' ' ∉ s.toList ∧ ']' ∉ s.toList
  | _ => True

namespace Expr

mutual

def Clean : Expr → Prop
  | .text content => CleanText content
  | .range r => r.lower.Clean ∧ r.upper.Clean
  | .field name child => CleanName name ∧ Clean child
  | .group _ operands => AllClean operands
  | .signed _ operand => Clean operand
  | .choice _ yes no => Clean yes ∧ Clean no

def AllClean : List Expr → Prop
  | [] => True
  | e :: es => Clean e ∧ AllClean es

end

end Expr

namespace Shape

mutual

def Clean : Shape → Prop
  | .text content => IsWord content.toList ∨ IsPhrase content.toList
  | .range lower upper => ' ' ∉ lower.toList ∧ ']' ∉ upper.toList
  | .field name child => CleanName name ∧ Clean child
  | .single operand => Clean operand
  | .group _ operands => 2 ≤ operands.length ∧ AllClean operands
  | .signed _ operand => Clean operand

def AllClean : List Shape → Prop
  | [] => True
  | p :: ps => Clean p ∧ AllClean ps

end

end Shape

theorem Shape.allClean_append {ps qs : List Shape} (h : AllClean ps) (h' : AllClean qs) : AllClean (ps ++ qs) := by
  induction ps with
  | nil => exact h'
  | cons p ps ih => exact ⟨h.1, ih h.2⟩

/-! ## Names and bounds -/

theorem guarded_name {s : String} (h : CleanName s) : s.toList ≠ [] ∧ isGuarded s.toList = true := by
  rcases h with rfl | ⟨ne, bare⟩
  · exact ⟨by decide, by decide⟩
  · exact ⟨fun e => ne (String.toList_eq_nil_iff.mp e), guarded_of_not_reserved bare⟩

theorem clean_bound {b : Bound} (h : b.Clean) : ' ' ∉ b.text.toList ∧ ']' ∉ b.text.toList := by
  rcases figures_bound b with figures | star | ⟨s, rfl⟩
  · exact ⟨fun m => absurd (figures _ m) (by decide), fun m => absurd (figures _ m) (by decide)⟩
  · rw [star]; decide
  · exact h

/-! ## Shapes of clean expressions -/

namespace Pruned

theorem length_shapes (ps : List Pruned) : (shapes ps).length = ps.length := by
  induction ps with
  | nil => rfl
  | cons p ps ih => simp only [shapes, List.length_cons, ih]

theorem shapes_append (ps qs : List Pruned) : shapes (ps ++ qs) = shapes ps ++ shapes qs := by
  induction ps with
  | nil => rfl
  | cons p ps ih => simp only [List.cons_append, shapes, ih]

theorem clean_group (j : Junction) {ps : List Pruned} (ne : ps ≠ []) (h : Shape.AllClean (shapes ps)) :
    (group j ps).shape.Clean := by
  match ps with
  | [] => exact absurd rfl ne
  | [p] => exact h.1
  | p :: q :: ps =>
    refine ⟨?_, h⟩
    rw [length_shapes]; simp

end Pruned

namespace Expr

mutual

theorem clean_prune : ∀ (e : Expr), e.Clean → ∀ p, e.prune = some p → p.shape.Clean
  | .text content, h, p, hp => by
    rw [prune] at hp
    split at hp
    · cases hp
    · rename_i ne
      obtain rfl := Option.some.inj hp
      exact Or.resolve_left h ne
  | .range r, h, p, hp => by
    obtain rfl := Option.some.inj hp
    exact ⟨(clean_bound h.1).1, (clean_bound h.2).2⟩
  | .field name child, h, p, hp => by
    rw [prune, Option.map_eq_some_iff] at hp
    obtain ⟨q, hq, rfl⟩ := hp
    exact ⟨h.1, clean_prune child h.2 q hq⟩
  | .group j operands, h, p, hp => by
    have all := clean_pruneAll operands h
    rw [prune] at hp
    split at hp
    · cases hp
    · rename_i ne
      obtain rfl := Option.some.inj hp
      exact Pruned.clean_group j ne all
  | .signed s operand, h, p, hp => by
    rw [prune, Option.map_eq_some_iff] at hp
    obtain ⟨q, hq, rfl⟩ := hp
    exact clean_prune operand h q hq
  | .choice true yes _, h, p, hp => clean_prune yes h.1 p hp
  | .choice false _ no, h, p, hp => clean_prune no h.2 p hp

theorem clean_pruneAll : ∀ (es : List Expr), AllClean es → Shape.AllClean (Pruned.shapes (pruneAll es))
  | [], _ => trivial
  | e :: es, h => by
    rw [pruneAll, Pruned.shapes_append]
    refine Shape.allClean_append ?_ (clean_pruneAll es h.2)
    cases hp : e.prune with
    | none => trivial
    | some p => exact ⟨clean_prune e h.1 p hp, trivial⟩

end

theorem clean_shape {e : Expr} (h : e.Clean) {p : Shape} (hp : e.shape? = some p) : p.Clean := by
  obtain ⟨q, hq, rfl⟩ := Option.map_eq_some_iff.mp hp
  exact clean_prune e h q hq

end Expr

end SearchQuery
