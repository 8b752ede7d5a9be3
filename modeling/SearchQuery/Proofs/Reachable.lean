/-
  SearchQuery.Proofs.Reachable — every expression that a caller can get hold of is well
  formed (`wellFormed_of_reachable`): the constructors let nothing else through, reading
  goes through the constructors, and taking apart keeps what the checks have left.
-/

import SearchQuery.Proofs.Checks
import SearchQuery.Proofs.Run

namespace SearchQuery

open Logged

/-! ## Reachable expressions -/

theorem wellFormed_of_partOf {e whole : Expr} (inside : PartOf e whole) (h : whole.WellFormed) : e.WellFormed := by
  cases inside with
  | child => exact h.2
  | operand mem => exact (Expr.allWellFormed_iff _).1 h.2 e mem
  | signed => exact h
  | yes => exact h.1
  | no => exact h.2

/-- What a whole hands on to its parts holds of every expression inside it. -/
theorem forall_nodes {P : Expr → Prop} (inherit : ∀ {part whole : Expr}, PartOf part whole → P whole → P part)
    {e : Expr} (h : P e) : ∀ n ∈ e.nodes, P n := by
  induction e with
  | text content => simpa [Expr.nodes] using h
  | range r => simpa [Expr.nodes] using h
  | field name child ih =>
    simp only [Expr.nodes, List.forall_mem_append, List.forall_mem_singleton]
    exact ⟨ih (inherit .child h), h⟩
  | group j operands ih =>
    simp only [Expr.nodes, List.forall_mem_append, List.forall_mem_singleton, Expr.mem_allNodes]
    refine ⟨?_, h⟩
    rintro n ⟨e, mem, inside⟩
    exact ih e mem (inherit (.operand mem) h) n inside
  | signed s operand ih =>
    simp only [Expr.nodes, List.forall_mem_append, List.forall_mem_singleton]
    exact ⟨ih (inherit .signed h), h⟩
  | choice flag yes no ihYes ihNo =>
    simp only [Expr.nodes, List.forall_mem_append, List.forall_mem_singleton]
    exact ⟨⟨ihYes (inherit .yes h), ihNo (inherit .no h)⟩, h⟩

theorem wellFormed_of_mem_nodes {e : Expr} (h : e.WellFormed) : ∀ n ∈ e.nodes, n.WellFormed :=
  forall_nodes wellFormed_of_partOf h

theorem wellFormed_of_reachable {e : Expr} (h : Reachable e) : e.WellFormed := by
  induction h with
  | @run names r e _ made known => exact ((Recipe.makes_run names r).of_ok made).2.2 known
  | @readBody k text e made => exact ((ends_readText (Expr.ends_readBody k) text).of_ok made).2
  | part inside _ ih => exact wellFormed_of_partOf inside ih
  | regroup _ ih => exact ih

end SearchQuery
