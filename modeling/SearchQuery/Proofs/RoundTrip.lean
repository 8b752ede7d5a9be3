/-
  SearchQuery.Proofs.RoundTrip — what is written of an expression is read back as the same
  expression. The document of a well-formed expression is one of its spellings, and a
  legible one; numbers and dates come back to the last bit. `read_document_text` puts this
  together for every expression that a caller can get hold of.
-/

import SearchQuery.Proofs.Number.Written
import SearchQuery.Proofs.Reachable
import SearchQuery.Proofs.Spelling
import SearchQuery.Proofs.Time.Stamp

namespace SearchQuery

open Json Number Time

/-! ## Bounds -/

namespace Bound

theorem read_decimal {x : Double} (finite : x.isFinite = true) :
    ∃ n, Numeral.read? (x.written .json) = some n ∧ n.nearest .double = x := by
  have back : (Numeral.read? (x.written .json)).map (Numeral.nearest .double) = some x :=
    Binary.read_written (.inr rfl) finite
  exact Option.map_eq_some_iff.1 back

/-- A bound that passes its check is written in a form that is read as that bound. -/
theorem spelled_document {b : Bound} (h : b.WellFormed) : b.Spelled b.document := by
  cases b with
  | date t => exact .date (read?_stamp t)
  | integer n =>
    obtain ⟨numeral, read, value⟩ := Option.bind_eq_some_iff.1 (Numeral.value?_intChars n.val)
    exact .integer read value
  | decimal x =>
    have finite : x.isFinite = true := h
    obtain ⟨numeral, read, rfl⟩ := read_decimal finite
    rw [document, decimalDocument, if_pos finite]
    exact .decimal read finite
  | token s => exact .token
  | unbounded => exact .unbounded

theorem legible_document {b : Bound} (h : b.WellFormed) : b.document.Legible := by
  cases b with
  | date t => exact Document.legible_single trivial
  | integer n =>
    refine Document.legible_single ?_
    rw [Document.Legible, Numeral.read?_intChars]
    rfl
  | decimal x =>
    have finite : x.isFinite = true := h
    obtain ⟨numeral, read, -⟩ := read_decimal finite
    rw [document, decimalDocument, if_pos finite]
    refine Document.legible_single ?_
    rw [Document.Legible, read]
    rfl
  | token s => exact Document.legible_single trivial
  | unbounded => exact trivial

/-- A decimal that passes its check is a number, so that it equals itself. -/
theorem same_self {b : Bound} (h : b.WellFormed) : b.same b = true := by
  cases b with
  | decimal x =>
    have number : x.isNaN = false := Binary.isNaN_of_isFinite h
    simp [same, Binary.sameNumber, number]
  | _ => simp [same]

end Bound

namespace Expr

/-! ## Checks -/

theorem make_of_wellFormed {e : Expr} (h : e.WellFormed) : e.make = .ok e := by
  cases e with
  | range r =>
    rw [make, Range.make_of_wellFormed h]
    rfl
  | field name child =>
    rw [make, inField, if_neg h.1]
    rfl
  | group j operands =>
    rw [make, join, if_neg (Nat.not_lt.2 h.1)]
    rfl
  | _ => rfl

theorem verdict_of_wellFormed {e : Expr} (h : e.WellFormed) : verdict e.nodes e = .ok e := by
  have passed : e.nodes.findSome? refusal? = none :=
    List.findSome?_eq_none_iff.2 fun n mem =>
      (refusal?_eq_none_iff n).2 (make_of_wellFormed (wellFormed_of_mem_nodes h n mem))
  rw [verdict, passed]

/-! ## Documents -/

mutual

theorem legible_body : ∀ e : Expr, e.WellFormed → e.body.Legible
  | .text _, _ => trivial
  | .range r, h => by
    exact ⟨Bound.legible_document h.1, Bound.legible_document h.2, trivial⟩
  | .field name child, h => by
    exact ⟨trivial, Document.legible_single (legible_body child h.2), trivial⟩
  | .group j operands, h => by
    exact Document.legible_single (legible_documents operands h.2)
  | .signed s operand, h => by
    exact Document.legible_single (Document.legible_single (legible_body operand h))
  | .choice flag yes no, h => by
    refine Document.legible_single ⟨trivial, ?_, ?_, trivial⟩
    · exact Document.legible_single (legible_body yes h.1)
    · exact Document.legible_single (legible_body no h.2)

theorem legible_documents : ∀ es : List Expr, AllWellFormed es → Document.AllLegible (documents es)
  | [], _ => trivial
  | e :: es, h => by
    exact ⟨Document.legible_single (legible_body e h.1), legible_documents es h.2⟩

end

mutual

/-- What is written is a spelling, in which the nodes stand in their own order. -/
theorem spelled_document : ∀ (e : Expr) (room : Nat), e.WellFormed → e.document.depth ≤ room →
    Spelled room e.document e e.nodes
  | .text s, room, _, deep => by
    obtain ⟨m, rfl⟩ : ∃ m, room = m + 1 := ⟨room - 1, (Nat.sub_add_cancel deep).symm⟩
    exact .text
  | .range r, room, h, deep => by
    have deep : max (max r.lower.document.depth (max r.upper.document.depth 0) + 1) 0 + 1 ≤ room := deep
    obtain ⟨m, rfl⟩ : ∃ m, room = m + 2 := ⟨room - 2, by omega⟩
    exact .range (Bound.spelled_document h.1) (Bound.spelled_document h.2) ⟨by omega, by omega⟩
      (.object (.known (by simp) (.known (by simp) .nil))) (.refl _)
  | .field name child, room, h, deep => by
    have deep : max (max 0 (max child.document.depth 0) + 1) 0 + 1 ≤ room := deep
    obtain ⟨m, rfl⟩ : ∃ m, room = m + 2 := ⟨room - 2, by omega⟩
    exact .field (spelled_document child m h.2 (by omega))
      (.object (.known (by simp) (.known (by simp) .nil))) (.refl _)
  | .group j operands, room, h, deep => by
    have deep : max (max (Document.depthAll (documents operands) + 1) 0 + 1) 0 + 1 ≤ room := deep
    obtain ⟨m, rfl⟩ : ∃ m, room = m + 3 := ⟨room - 3, by omega⟩
    exact .group (allSpelled_documents operands m h.2 (by omega))
  | .signed s operand, room, h, deep => by
    have deep : max (max operand.document.depth 0 + 1) 0 + 1 ≤ room := deep
    obtain ⟨m, rfl⟩ : ∃ m, room = m + 2 := ⟨room - 2, by omega⟩
    exact .signed (spelled_document operand m h (by omega))
  | .choice flag yes no, room, h, deep => by
    have deep : max (max (max 0 (max yes.document.depth (max no.document.depth 0)) + 1) 0 + 1) 0 + 1 ≤ room := deep
    obtain ⟨m, rfl⟩ : ∃ m, room = m + 3 := ⟨room - 3, by omega⟩
    have order : branchOrder yes.nodes no.nodes
        [("flag", .boolean flag), ("then", yes.document), ("otherwise", no.document)] = yes.nodes ++ no.nodes := by
      rw [branchOrder_flag, branchOrder_then, branchOrder_otherwise, branchOrder_nil, List.append_nil]
    rw [nodes, ← order]
    exact .choice (spelled_document yes m h.1 (by omega)) (spelled_document no m h.2 (by omega))
      (.object (.known (by simp) (.known (by simp) (.known (by simp) .nil)))) (.refl _)

theorem allSpelled_documents : ∀ (es : List Expr) (room : Nat), AllWellFormed es →
    Document.depthAll (documents es) ≤ room → AllSpelled room (documents es) es (allNodes es)
  | [], _, _, _ => .nil
  | e :: es, room, h, deep => by
    rw [documents, Document.depthAll] at deep
    exact .cons (spelled_document e room h.1 (by rw [document]; omega)) (allSpelled_documents es room h.2 (by omega))

end

/-! ## Equality -/

mutual

theorem same_self : ∀ e : Expr, e.WellFormed → e.same e = true
  | .text s, _ => by simp [same]
  | .range r, h => by
    simp [same, Range.same, Bound.same_self h.1, Bound.same_self h.2]
  | .field name child, h => by
    simp [same, same_self child h.2]
  | .group j operands, h => by
    simp [same, allSame_self operands h.2]
  | .signed s operand, h => by
    simp [same, same_self operand h]
  | .choice flag yes no, h => by
    simp [same, same_self yes h.1, same_self no h.2]

theorem allSame_self : ∀ es : List Expr, AllWellFormed es → allSame es es = true
  | [], _ => rfl
  | e :: es, h => by
    simp [allSame, same_self e h.1, allSame_self es h.2]

end

/-! ## There and back -/

/-- An expression is read back from its text as itself, down to the bits of its numbers and
    the nanoseconds of its dates, unless it is nested deeper than a text is read. So it
    makes the same query, is written as the same text again, and equals what it was. -/
theorem read_document_text {e : Expr} (reached : Reachable e) (shallow : e.document.depth ≤ maxDepth) :
    (readText read e.document.text).result = .ok e ∧ e.same e = true := by
  have h := wellFormed_of_reachable reached
  have legible : e.document.Legible := Document.legible_single (legible_body e h)
  refine ⟨?_, same_self e h⟩
  rw [readText_text read legible shallow, result_read (spelled_document e _ h (Nat.le_refl _)), verdict_of_wellFormed h]

/-- A zero keeps its sign, an open side is no token, and the branch that is not selected is
    kept. -/
theorem minus_zero_comes_back :
    (readText read (document (.choice false (.field "price" (.range ⟨.decimal ⟨true, 0, Format.places_pos _⟩, .unbounded⟩))
      (.range ⟨.token "*", .token "*"⟩))).text).result =
        .ok (.choice false (.field "price" (.range ⟨.decimal ⟨true, 0, Format.places_pos _⟩, .unbounded⟩))
          (.range ⟨.token "*", .token "*"⟩)) := by
  have made : (Recipe.run (fun _ => none) (.choice false
      (.inField "price" (.range (.bound (.decimal ⟨true, 0, Format.places_pos _⟩)) (.text "*")))
      (.between (.bound (.token "*")) (.bound (.token "*"))))).result = .ok _ := rfl
  exact (read_document_text (.run (fun _ _ none => by cases none) made) (by decide)).1

end Expr

end SearchQuery
