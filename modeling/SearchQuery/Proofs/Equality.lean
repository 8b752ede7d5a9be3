/-
  SearchQuery.Proofs.Equality — when equal expressions make the same query.

  Bounds that are decimals are equal when they are equal as numbers, and so the two zeros
  are equal, while their texts are not: the text of a zero has its sign. Equality overlooks
  nothing else. `Tells` says of two texts that they differ in the signs of the zeros that
  they show and in nothing else, and differ there in such a way that no text behind them
  can make up for it. It holds of equal bounds, and every step of rendering keeps it, in an
  expression (`twins_of_same`) as well as around one (`tells_fill`). So equal expressions
  make the same query in a context exactly when it hides them, or the signs of the zeros
  that they show are the same (`queries_eq_iff_of_same`).
-/

import Mathlib.Data.List.Forall2
import SearchQuery.Expr.WellFormed
import SearchQuery.Proofs.Pruning
import SearchQuery.Proofs.Reachable

namespace SearchQuery

/-! ## The zeros of a query -/

/-- Whether a bound that is zero is the negative one. -/
def Bound.zeroSign? : Bound → Option Bool
  | .decimal x => if x.magnitude = 0 then some x.negative else none
  | _ => none

def Range.zeroSigns (r : Range) : List Bool := r.lower.zeroSign?.toList ++ r.upper.zeroSign?.toList

namespace Expr

mutual

/-- The signs of the zeros that a query shows, from left to right. What a choice does not
    select is not shown. -/
def zeroSigns : Expr → List Bool
  | .text _ => []
  | .range r => r.zeroSigns
  | .field _ child => zeroSigns child
  | .group _ operands => allZeroSigns operands
  | .signed _ operand => zeroSigns operand
  | .choice flag yes no => if flag then zeroSigns yes else zeroSigns no

def allZeroSigns : List Expr → List Bool
  | [] => []
  | e :: es => zeroSigns e ++ allZeroSigns es

end

end Expr

/-- No choice of the context leaves the hole out. -/
def Context.shows : Context → Bool
  | .hole => true
  | .field _ inner => inner.shows
  | .group _ _ inner _ => inner.shows
  | .signed _ inner => inner.shows
  | .chosen flag inner _ => flag && inner.shows
  | .otherwise flag _ inner => !flag && inner.shows

/-- The zero with a given sign. -/
def Number.Binary.zero {f : Number.Format} (negative : Bool) : Number.Binary f := ⟨negative, 0, f.places_pos⟩

/-! ## Texts that differ by signs only -/

/-- Two texts, each with the signs of the zeros in it. They are the same if their signs are,
    and they can be the beginnings of one text only if their signs are the same. -/
structure Tells (vs : List Bool) (s : String) (ws : List Bool) (t : String) : Prop where
  count : vs.length = ws.length
  text_eq : vs = ws → s = t
  signs_eq : ∀ x y, s ++ x = t ++ y → vs = ws

namespace Tells

variable {vs ws vs' ws' : List Bool} {s t s' t' : String}

theorem refl (vs : List Bool) (s : String) : Tells vs s vs s := ⟨rfl, fun _ => rfl, fun _ _ _ => rfl⟩

theorem symm (h : Tells vs s ws t) : Tells ws t vs s :=
  ⟨h.count.symm, fun e => (h.text_eq e.symm).symm, fun x y e => (h.signs_eq y x e.symm).symm⟩

theorem append (h : Tells vs s ws t) (h' : Tells vs' s' ws' t') : Tells (vs ++ vs') (s ++ s') (ws ++ ws') (t ++ t') := by
  refine ⟨?_, fun e => ?_, fun x y e => ?_⟩
  · rw [List.length_append, List.length_append, h.count, h'.count]
  · obtain ⟨first, second⟩ := List.append_inj e h.count
    rw [h.text_eq first, h'.text_eq second]
  · -- The first parts settle their signs, and then they are one text, which can be taken off.
    rw [String.append_assoc, String.append_assoc] at e
    have first := h.signs_eq _ _ e
    rw [h.text_eq first, String.append_right_inj] at e
    rw [first, h'.signs_eq x y e]

theorem before (u : String) (h : Tells vs s ws t) : Tells vs (u ++ s) ws (u ++ t) := (refl [] u).append h

theorem after (u : String) (h : Tells vs s ws t) : Tells vs (s ++ u) ws (t ++ u) := by
  have both := h.append (refl [] u)
  rwa [List.append_nil, List.append_nil] at both

theorem text_eq_iff (h : Tells vs s ws t) : s = t ↔ vs = ws :=
  ⟨fun e => h.signs_eq "" "" (by rw [e]), h.text_eq⟩

theorem eq_empty (h : Tells vs s ws t) (empty : s = "") : t = "" := by
  have signs : vs = ws := h.signs_eq t "" (by rw [empty, String.empty_append, String.append_empty])
  rw [← h.text_eq signs, empty]

theorem eq_empty_iff (h : Tells vs s ws t) : s = "" ↔ t = "" := ⟨h.eq_empty, h.symm.eq_empty⟩

end Tells

/-! ## Bounds and ranges -/

theorem Number.Binary.text_of_zero {x : Number.Double} (zero : x.magnitude = 0) :
    x.text = if x.negative then "-0" else "0" := by
  have finite : x.isFinite = true := by
    rw [isFinite, zero]
    decide
  rw [text, written, isNaN_of_isFinite finite, finite, zero, Number.Format.shortest, if_pos rfl, sign]
  cases x.negative <;> decide

/-- A sign in front of a digit shows whatever comes behind. -/
theorem tells_zero (v w : Bool) : Tells [v] (if v then "-0" else "0") [w] (if w then "-0" else "0") := by
  refine ⟨rfl, fun e => by rw [List.singleton_inj.1 e], fun x y e => ?_⟩
  have chars := congrArg String.toList e
  rw [String.toList_append, String.toList_append] at chars
  cases v <;> cases w
  · rfl
  · cases chars
  · cases chars
  · rfl

/-- Equality of bounds overlooks nothing but the sign of a zero. -/
theorem Bound.eq_or_zeros_of_same {b c : Bound} (equal : b.same c = true) :
    b = c ∨ ∃ x y : Number.Double, b = .decimal x ∧ c = .decimal y ∧ x.magnitude = 0 ∧ y.magnitude = 0 := by
  unfold same at equal
  split at equal
  · exact .inl (congrArg date (of_decide_eq_true equal))
  · exact .inl (congrArg integer (of_decide_eq_true equal))
  · rename_i x y
    simp only [Number.Binary.sameNumber, Bool.and_eq_true, Bool.or_eq_true, beq_iff_eq] at equal
    obtain ⟨⟨-, magnitude⟩, sign | zero⟩ := equal
    · left
      obtain ⟨v, m, inFormat⟩ := x
      obtain ⟨w, n, inFormat'⟩ := y
      obtain rfl : v = w := sign
      obtain rfl : m = n := magnitude
      rfl
    · exact .inr ⟨x, y, rfl, rfl, zero, magnitude ▸ zero⟩
  · exact .inl (congrArg token (of_decide_eq_true equal))
  · exact .inl rfl
  · cases equal

theorem Bound.tells_of_same {b c : Bound} (equal : b.same c = true) :
    Tells b.zeroSign?.toList b.text c.zeroSign?.toList c.text := by
  rcases eq_or_zeros_of_same equal with rfl | ⟨x, y, rfl, rfl, zero, zero'⟩
  · exact .refl _ _
  · rw [zeroSign?, zeroSign?, if_pos zero, if_pos zero', text, text, Number.Binary.text_of_zero zero,
      Number.Binary.text_of_zero zero']
    exact tells_zero x.negative y.negative

theorem Range.tells_of_same {r s : Range} (equal : r.same s = true) : Tells r.zeroSigns r.text s.zeroSigns s.text := by
  rw [same, Bool.and_eq_true] at equal
  have lower := Bound.tells_of_same equal.1
  have upper := Bound.tells_of_same equal.2
  exact (((lower.before "[").after " TO ").append upper).after "]"

namespace Expr

/-! ## Rendering -/

theorem tells_behind (lead : String) (leaf : Bool) {vs ws : List Bool} {s t : String} (h : Tells vs s ws t) :
    Tells vs (behind lead (enclosed leaf s)) ws (behind lead (enclosed leaf t)) := by
  by_cases empty : s = ""
  · have empty' := h.eq_empty empty
    rw [empty, empty'] at h ⊢
    exact h
  · have given : t ≠ "" := fun none => empty (h.eq_empty_iff.2 none)
    rw [enclosed_of_ne leaf empty, enclosed_of_ne leaf given, behind_of_ne lead (parenthesized_ne leaf empty),
      behind_of_ne lead (parenthesized_ne leaf given)]
    refine Tells.before lead ?_
    cases leaf
    · exact (h.before "(").after ")"
    · exact h

theorem tells_under (lead : String) {vs ws : List Bool} {a b : Expr} (leaf : a.selected.isLeaf = b.selected.isLeaf)
    (h : Tells vs a.render ws b.render) :
    Tells vs (behind lead (enclosed a.selected.isLeaf a.render)) ws (behind lead (enclosed b.selected.isLeaf b.render)) := by
  rw [leaf]
  exact tells_behind lead _ h

theorem intercalate_cons (separator s : String) (texts : List String) :
    separator.intercalate (s :: texts) = s ++ if texts = [] then "" else separator ++ separator.intercalate texts := by
  cases texts with
  | nil => simp
  | cons t texts => simp [String.append_assoc]

/-- Operand by operand, each given with its signs. -/
abbrev TellsAll (ps qs : List (List Bool × String)) : Prop := List.Forall₂ (fun p q => Tells p.1 p.2 q.1 q.2) ps qs

/-- The same operands are dropped on both sides, since texts that tell are empty together. -/
theorem tells_intercalate (separator : String) {ps qs : List (List Bool × String)} (h : TellsAll ps qs) :
    ((ps.map Prod.snd).filter (· ≠ "") = [] ↔ (qs.map Prod.snd).filter (· ≠ "") = []) ∧
      Tells (ps.flatMap Prod.fst) (separator.intercalate ((ps.map Prod.snd).filter (· ≠ "")))
        (qs.flatMap Prod.fst) (separator.intercalate ((qs.map Prod.snd).filter (· ≠ ""))) := by
  induction h with
  | nil => exact ⟨Iff.rfl, .refl _ _⟩
  | @cons p q ps qs first _ ih =>
    obtain ⟨none, rest⟩ := ih
    simp only [List.map_cons, List.flatMap_cons]
    by_cases empty : p.2 = ""
    · have empty' := first.eq_empty empty
      rw [List.filter_cons_of_neg (by simp [empty]), List.filter_cons_of_neg (by simp [empty'])]
      refine ⟨none, ?_⟩
      have both := first.append rest
      rwa [empty, empty', String.empty_append, String.empty_append] at both
    · have given : q.2 ≠ "" := fun none => empty (first.eq_empty_iff.2 none)
      rw [List.filter_cons_of_pos (by simpa using empty), List.filter_cons_of_pos (by simpa using given)]
      refine ⟨by simp, ?_⟩
      rw [intercalate_cons, intercalate_cons]
      refine first.append ?_
      by_cases last : (ps.map Prod.snd).filter (· ≠ "") = []
      · rw [if_pos last, if_pos (none.1 last)]
        rwa [last, none.1 last] at rest
      · rw [if_neg last, if_neg fun e => last (none.2 e)]
        exact rest.before separator

theorem joined_eq (separator : String) (texts : List String) :
    joined separator texts = if texts.filter (· ≠ "") = [] then ""
      else "(" ++ separator.intercalate (texts.filter (· ≠ "")) ++ ")" := by
  unfold joined
  split
  · rename_i none
    rw [if_pos none]
  · rename_i some
    rw [if_neg some]

theorem tells_joined (separator : String) {ps qs : List (List Bool × String)} (h : TellsAll ps qs) :
    Tells (ps.flatMap Prod.fst) (joined separator (ps.map Prod.snd)) (qs.flatMap Prod.fst)
      (joined separator (qs.map Prod.snd)) := by
  obtain ⟨none, all⟩ := tells_intercalate separator h
  rw [joined_eq, joined_eq]
  by_cases last : (ps.map Prod.snd).filter (· ≠ "") = []
  · rw [if_pos last, if_pos (none.1 last)]
    rwa [last, none.1 last] at all
  · rw [if_neg last, if_neg fun e => last (none.2 e)]
    exact (all.before "(").after ")"

/-- The texts of operands, each with the signs that it is to be judged by. -/
def pieces (signs : Expr → List Bool) (es : List Expr) : List (List Bool × String) :=
  es.map fun e => (signs e, e.render)

theorem flatMap_pieces (signs : Expr → List Bool) (es : List Expr) :
    (pieces signs es).flatMap Prod.fst = es.flatMap signs :=
  List.flatMap_map _ _ _

theorem map_pieces (signs : Expr → List Bool) (es : List Expr) : (pieces signs es).map Prod.snd = renderAll es := by
  rw [pieces, renderAll_eq_map, List.map_map]
  rfl

theorem allZeroSigns_eq_flatMap (es : List Expr) : allZeroSigns es = es.flatMap zeroSigns := by
  induction es with
  | nil => rfl
  | cons e es ih => rw [allZeroSigns, ih, List.flatMap_cons]

/-! ## Equal expressions -/

theorem forall₂_of_allSame {P : Expr → Expr → Prop} {as : List Expr}
    (all : ∀ a ∈ as, ∀ b, a.same b = true → P a b) {bs : List Expr} (equal : allSame as bs = true) :
    List.Forall₂ P as bs := by
  induction as generalizing bs with
  | nil =>
    cases bs with
    | nil => exact .nil
    | cons b bs => cases equal
  | cons a as ih =>
    cases bs with
    | nil => cases equal
    | cons b bs =>
      rw [allSame, Bool.and_eq_true] at equal
      rw [List.forall_mem_cons] at all
      exact .cons (all.1 b equal.1) (ih all.2 equal.2)

/-- Equal expressions are built alike from equal parts. -/
theorem same_induction {P : Expr → Expr → Prop} (text : ∀ s, P (.text s) (.text s))
    (range : ∀ r s : Range, r.same s = true → P (.range r) (.range s))
    (field : ∀ name a b, P a b → P (.field name a) (.field name b))
    (group : ∀ j as bs, List.Forall₂ P as bs → P (.group j as) (.group j bs))
    (signed : ∀ s a b, P a b → P (.signed s a) (.signed s b))
    (choice : ∀ flag a b c d, P a c → P b d → P (.choice flag a b) (.choice flag c d))
    {a b : Expr} (equal : a.same b = true) : P a b := by
  induction a generalizing b with
  | text s =>
    cases b with
    | text t =>
      obtain rfl : s = t := of_decide_eq_true equal
      exact text s
    | _ => cases equal
  | range r =>
    cases b with
    | range s => exact range r s equal
    | _ => cases equal
  | field name a ih =>
    cases b with
    | field name' b =>
      rw [same, Bool.and_eq_true, decide_eq_true_iff] at equal
      obtain ⟨rfl, child⟩ := equal
      exact field name a b (ih child)
    | _ => cases equal
  | group j as ih =>
    cases b with
    | group k bs =>
      rw [same, Bool.and_eq_true, decide_eq_true_iff] at equal
      obtain ⟨rfl, operands⟩ := equal
      exact group j as bs (forall₂_of_allSame (fun a mem b => ih a mem) operands)
    | _ => cases equal
  | signed s a ih =>
    cases b with
    | signed t b =>
      rw [same, Bool.and_eq_true, decide_eq_true_iff] at equal
      obtain ⟨rfl, operand⟩ := equal
      exact signed s a b (ih operand)
    | _ => cases equal
  | choice flag a b ihA ihB =>
    cases b with
    | choice flag' c d =>
      rw [same, Bool.and_eq_true, Bool.and_eq_true, decide_eq_true_iff] at equal
      obtain ⟨⟨rfl, yes⟩, no⟩ := equal
      exact choice flag a b c d (ihA yes) (ihB no)
    | _ => cases equal

/-- Alike in all that an expression shows to what is around it. -/
def Twins (a b : Expr) : Prop :=
  a.selected.isLeaf = b.selected.isLeaf ∧ Tells a.zeroSigns a.render b.zeroSigns b.render

theorem twins_of_same {a b : Expr} (equal : a.same b = true) : Twins a b := by
  refine same_induction ?text ?range ?field ?group ?signed ?choice equal
  case text => exact fun s => ⟨rfl, .refl _ _⟩
  case range => exact fun r s equal => ⟨rfl, Range.tells_of_same equal⟩
  case field =>
    rintro name a b ⟨leaf, tells⟩
    exact ⟨rfl, tells_under _ leaf tells⟩
  case group =>
    intro j as bs all
    refine ⟨rfl, ?_⟩
    have operands : TellsAll (pieces zeroSigns as) (pieces zeroSigns bs) :=
      List.forall₂_map_left_iff.2 (List.forall₂_map_right_iff.2 (all.imp fun _ _ twins => twins.2))
    have tells := tells_joined j.separator operands
    rwa [flatMap_pieces, flatMap_pieces, map_pieces, map_pieces, ← allZeroSigns_eq_flatMap,
      ← allZeroSigns_eq_flatMap] at tells
  case signed =>
    rintro s a b ⟨leaf, tells⟩
    exact ⟨rfl, tells_under _ leaf tells⟩
  case choice =>
    intro flag a b c d yes no
    cases flag
    · exact no
    · exact yes

/-! ## Equal expressions in context -/

/-- The operands of a group around the hole, and in it an operand with its signs. What is
    around the hole is the same on both sides, so its zeros are left out of account. -/
def around (before after : List Expr) (vs : List Bool) (e : Expr) : List (List Bool × String) :=
  pieces (fun _ => []) before ++ (vs, e.render) :: pieces (fun _ => []) after

theorem flatMap_around (before after : List Expr) (vs : List Bool) (e : Expr) :
    (around before after vs e).flatMap Prod.fst = vs := by
  have unsigned (es : List Expr) : (pieces (fun _ => []) es).flatMap Prod.fst = [] := by
    rw [flatMap_pieces]
    exact List.flatMap_eq_nil_iff.2 fun _ _ => rfl
  rw [around, List.flatMap_append, List.flatMap_cons, unsigned, unsigned, List.append_nil, List.nil_append]

theorem map_around (before after : List Expr) (vs : List Bool) (e : Expr) :
    (around before after vs e).map Prod.snd = renderAll (before ++ e :: after) := by
  rw [around, List.map_append, List.map_cons, map_pieces, map_pieces, renderAll_eq_map, renderAll_eq_map,
    renderAll_eq_map, List.map_append, List.map_cons]

theorem tellsAll_around (before after : List Expr) {vs ws : List Bool} {d e : Expr}
    (h : Tells vs d.render ws e.render) : TellsAll (around before after vs d) (around before after ws e) :=
  have alike (es : List Expr) : TellsAll (pieces (fun _ => []) es) (pieces (fun _ => []) es) :=
    List.forall₂_same.2 fun _ _ => .refl _ _
  List.rel_append (alike before) (.cons h (alike after))

theorem tells_fill {a b : Expr} (twins : Twins a b) (c : Context) :
    (c.fill a).selected.isLeaf = (c.fill b).selected.isLeaf ∧
      Tells (if c.shows then a.zeroSigns else []) (c.fill a).render
        (if c.shows then b.zeroSigns else []) (c.fill b).render := by
  induction c with
  | hole => exact twins
  | field name inner ih =>
    obtain ⟨leaf, tells⟩ := ih
    exact ⟨rfl, tells_under _ leaf tells⟩
  | group j before inner after ih =>
    refine ⟨rfl, ?_⟩
    have tells := tells_joined j.separator (tellsAll_around before after ih.2)
    rwa [flatMap_around, flatMap_around, map_around, map_around] at tells
  | signed s inner ih =>
    obtain ⟨leaf, tells⟩ := ih
    exact ⟨rfl, tells_under _ leaf tells⟩
  | chosen flag inner no ih =>
    cases flag
    · -- The hole is left out, and both sides are the branch that is selected.
      exact ⟨rfl, .refl _ _⟩
    · exact ih
  | otherwise flag yes inner ih =>
    cases flag
    · exact ih
    · exact ⟨rfl, .refl _ _⟩

/-- Equal expressions make the same query in a context exactly when the context does not
    show them, or the zeros that they show have the same signs. Equal ranges have the same
    text exactly when their zeros have the same signs. -/
theorem queries_eq_iff_of_same :
    (∀ a b : Expr, a.same b = true → ∀ c : Context,
      ((c.fill a).render = (c.fill b).render ↔ (c.shows = true → a.zeroSigns = b.zeroSigns))) ∧
    ∀ r s : Range, r.same s = true → (r.text = s.text ↔ r.zeroSigns = s.zeroSigns) := by
  refine ⟨fun a b equal c => ?_, fun r s equal => (Range.tells_of_same equal).text_eq_iff⟩
  rw [(tells_fill (twins_of_same equal) c).2.text_eq_iff]
  cases c.shows <;> simp

/-- From a zero upwards. -/
def fromZero (negative : Bool) : Range := ⟨.decimal (.zero negative), .unbounded⟩

/-- A zero in a branch that is not selected may have either sign, but one in a range that is
    written may not. -/
theorem hidden_zeros_do_not_matter :
    let a := choice true (text "x") (range (fromZero false))
    let b := choice true (text "x") (range (fromZero true))
    let c := Context.field "f" (.signed .not .hole)
    a.same b = true ∧ (c.fill a).render = (c.fill b).render ∧ (fromZero false).same (fromZero true) = true ∧
      (fromZero false).text ≠ (fromZero true).text := by
  intro a b c
  have equal : a.same b = true := by decide
  have ranges : (fromZero false).same (fromZero true) = true := by decide
  have signs : (fromZero false).zeroSigns ≠ (fromZero true).zeroSigns := by decide
  exact ⟨equal, (queries_eq_iff_of_same.1 a b equal c).2 fun _ => rfl, ranges,
    fun texts => signs ((queries_eq_iff_of_same.2 _ _ ranges).1 texts)⟩

/-- Ranges from either zero, which anyone can build: they are equal, and their texts are not. -/
theorem zeros_are_equal_and_show :
    (Reachable (range (fromZero false)) ∧ Reachable (range (fromZero true)) ∧
      (range (fromZero false)).same (range (fromZero true)) = true ∧
      (Context.hole.fill (range (fromZero false))).render ≠ (Context.hole.fill (range (fromZero true))).render) ∧
    (fromZero false).WellFormed ∧ (fromZero true).WellFormed ∧ (fromZero false).same (fromZero true) = true ∧
      (fromZero false).text ≠ (fromZero true).text := by
  have built (negative : Bool) : Reachable (range (fromZero negative)) := by
    have made : (Recipe.run (fun _ => none) (.between (.scalar (.double (.zero negative))) (.text "*"))).result = .ok _ := rfl
    exact .run (fun _ _ none => by cases none) made
  have texts : (fromZero false).text ≠ (fromZero true).text := by decide
  have equal : (fromZero false).same (fromZero true) = true := by decide
  exact ⟨⟨built false, built true, equal, texts⟩, wellFormed_of_reachable (built false),
    wellFormed_of_reachable (built true), equal, texts⟩

end Expr

end SearchQuery
