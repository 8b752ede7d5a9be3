/-
  SearchQuery.Proofs.Request.Parameters — the parameters of a request that has gone through
  any changes. A change keeps a request what its history says (`refine_ofHistory`), so a
  new one is that after all of them (`refineAll_new`). Each kind of change has its own part
  of the history, and the order of changes of different kinds does not count
  (`ofHistory_congr`).

  No filter, sort clause or number among the parameters is empty, but a name may be; the
  empty parameters are known from the history (`empty_parameters`).
-/

import Mathlib.Data.List.Induction
import SearchQuery.Number.Integer
import SearchQuery.Request.History

namespace SearchQuery

/-! ## Kinds of changes -/

namespace Refinement

inductive Kind where
  | filter
  | field
  | sort
  | start
  | rows
  | defaultField
  deriving DecidableEq

def kind : Refinement → Kind
  | .filter _ => .filter
  | .field _ => .field
  | .sort _ _ => .sort
  | .start _ => .start
  | .rows _ => .rows
  | .defaultField _ => .defaultField

attribute [simp] filter? field? sort? start? rows? defaultField?

/-- A change adds to the history of its own kind only. -/
theorem none_of_kind_ne (c : Refinement) :
    (c.kind ≠ .filter → c.filter? = none) ∧ (c.kind ≠ .field → c.field? = none) ∧ (c.kind ≠ .sort → c.sort? = none) ∧
      (c.kind ≠ .start → c.start? = none) ∧ (c.kind ≠ .rows → c.rows? = none) ∧
      (c.kind ≠ .defaultField → c.defaultField? = none) := by
  cases c <;> simp [kind]

theorem filterMap_filter_kind {α : Type} {find : Refinement → Option α} {k : Kind}
    (only : ∀ c, c.kind ≠ k → find c = none) (changes : List Refinement) :
    (changes.filter (·.kind = k)).filterMap find = changes.filterMap find := by
  induction changes with
  | nil => rfl
  | cons c cs ih =>
    by_cases same : c.kind = k
    · rw [List.filter_cons_of_pos (by simpa using same), List.filterMap_cons, List.filterMap_cons, ih]
    · rw [List.filter_cons_of_neg (by simpa using same), List.filterMap_cons_none (only c same), ih]

theorem filterMap_congr {α : Type} {find : Refinement → Option α} {k : Kind} (only : ∀ c, c.kind ≠ k → find c = none)
    {changes others : List Refinement} (same : ∀ k, changes.filter (·.kind = k) = others.filter (·.kind = k)) :
    changes.filterMap find = others.filterMap find := by
  rw [← filterMap_filter_kind only, same k, filterMap_filter_kind only]

end Refinement

namespace Request

open Refinement

/-! ## What a request owes to its history -/

theorem refine_ofHistory (q : String) (changes : List Refinement) (c : Refinement) :
    (ofHistory q changes).refine c = ofHistory q (changes ++ [c]) := by
  unfold ofHistory
  simp only [List.filterMap_append]
  cases c with
  | filter e => by_cases empty : e.render = "" <;> simp [refine, empty]
  | _ => simp [refine]

theorem refineAll_new (q : String) (changes : List Refinement) : (new q).refineAll changes = ofHistory q changes := by
  induction changes using List.reverseRecOn with
  | nil => rfl
  | append_singleton changes c ih =>
    rw [refineAll_append, ih]
    exact refine_ofHistory q changes c

theorem ofHistory_congr (q : String) {changes others : List Refinement}
    (same : ∀ k, changes.filter (·.kind = k) = others.filter (·.kind = k)) : ofHistory q changes = ofHistory q others := by
  rw [ofHistory, ofHistory, filterMap_congr (fun c => (none_of_kind_ne c).1) same,
    filterMap_congr (fun c => (none_of_kind_ne c).2.1) same, filterMap_congr (fun c => (none_of_kind_ne c).2.2.1) same,
    filterMap_congr (fun c => (none_of_kind_ne c).2.2.2.1) same,
    filterMap_congr (fun c => (none_of_kind_ne c).2.2.2.2.1) same,
    filterMap_congr (fun c => (none_of_kind_ne c).2.2.2.2.2) same]

theorem refineAll_skip_empty (r : Request) {e : Expr} (empty : e.render = "") (before after : List Refinement) :
    r.refineAll (before ++ .filter e :: after) = r.refineAll (before ++ after) := by
  have skipped : (r.refineAll before).refine (.filter e) = r.refineAll before := by rw [refine, if_pos empty]
  rw [refineAll_append, refineAll_append, refineAll, List.foldl_cons, skipped]
  rfl

/-! ## Parameters -/

theorem single_eq (key : String) (value : Option String) : single key value = value.toList.map fun v => (key, v) := by
  cases value <;> rfl

/-- The request for an expression, after any changes, has these parameters and no others:
    the expression's text; the text of every filter that is not empty; the fields and the
    sort clauses, if there are any, each in a single parameter; and of the offset, the page
    size and the default field those set last. So changes of different kinds may be made in
    any order, and filters that render to nothing left out anywhere. -/
theorem params_of_history (ε : Type) (e : Expr) (changes others : List Refinement) :
    (build e : Logged ε Request) = ⟨[.queryBuilt e.render], .ok (new e.render)⟩ ∧
    ((new e.render).refineAll changes).params =
      ("q", e.render) :: (changes.filterMap (·.filter?)).map (fun text => ("fq", text)) ++
      (if changes.filterMap (·.field?) = [] then [] else [("fl", ",".intercalate (changes.filterMap (·.field?)))]) ++
      (if changes.filterMap (·.sort?) = [] then []
        else [("sort", ",".intercalate ((changes.filterMap (·.sort?)).map fun s => s.1 ++ " " ++ s.2.text))]) ++
      (changes.filterMap (·.start?)).getLast?.toList.map (fun n => ("start", Number.natText n.toNat)) ++
      (changes.filterMap (·.rows?)).getLast?.toList.map (fun n => ("rows", Number.natText n.toNat)) ++
      (changes.filterMap (·.defaultField?)).getLast?.toList.map (fun name => ("df", name)) ∧
    ((∀ k, changes.filter (·.kind = k) = others.filter (·.kind = k)) →
      (new e.render).refineAll changes = (new e.render).refineAll others) ∧
    ∀ (r : Request) (f : Expr) (before after : List Refinement), f.render = "" →
      r.refineAll (before ++ .filter f :: after) = r.refineAll (before ++ after) := by
  refine ⟨rfl, ?_, fun same => ?_, fun r f before after empty => refineAll_skip_empty r empty before after⟩
  · rw [refineAll_new, params]
    simp only [ofHistory, listed, List.map_eq_nil_iff, single_eq, Option.toList_map, List.map_map]
    rfl
  · rw [refineAll_new, refineAll_new, ofHistory_congr e.render same]

/-- The same changes kind by kind, with a filter that renders to nothing among them and a
    page size that is set again. -/
theorem kinds_in_any_order :
    (new "*:*").refineAll [.rows 5, .sort "date" .desc, .filter (.text "a:1"), .field "id", .filter .nothing, .rows 20,
        .sort "id" .asc, .field "title"] =
      (new "*:*").refineAll [.filter (.text "a:1"), .filter .nothing, .field "id", .field "title", .sort "date" .desc,
        .sort "id" .asc, .rows 5, .rows 20] ∧
    ((new "*:*").refineAll [.rows 5, .sort "date" .desc, .filter (.text "a:1"), .field "id", .filter .nothing, .rows 20,
        .sort "id" .asc, .field "title"]).params =
      [("q", "*:*"), ("fq", "a:1"), ("fl", "id,title"), ("sort", "date desc,id asc"), ("rows", "20")] := by
  have history := params_of_history Rejection (.text "*:*")
    [.rows 5, .sort "date" .desc, .filter (.text "a:1"), .field "id", .filter .nothing, .rows 20, .sort "id" .asc,
      .field "title"]
    [.filter (.text "a:1"), .filter .nothing, .field "id", .field "title", .sort "date" .desc, .sort "id" .asc, .rows 5,
      .rows 20]
  refine ⟨history.2.2.1 fun k => ?_, history.2.1.trans (by decide)⟩
  cases k <;> rfl

/-! ## Empty parameters -/

theorem intercalate_eq_empty_iff (texts : List String) : ",".intercalate texts = "" ↔ texts = [] ∨ texts = [""] := by
  cases texts with
  | nil => simp
  | cons first others =>
    by_cases alone : others = []
    · simp [alone]
    · rw [String.intercalate_cons_of_ne_nil alone]
      simp [alone]

theorem empty_mem_listed_iff (k key : String) (values : List String) :
    (k, "") ∈ listed key values ↔ k = key ∧ values = [""] := by
  rw [listed]
  by_cases none : values = []
  · simp [none]
  · rw [if_neg none]
    simp [eq_comm (a := ""), intercalate_eq_empty_iff, none]

theorem empty_mem_single_iff (k key : String) (value : Option String) :
    (k, "") ∈ single key value ↔ k = key ∧ value = some "" := by
  cases value with
  | none => simp [single]
  | some text => simp [single, eq_comm (a := "")]

theorem sortClause_ne_empty (clause : String × Order) : sortClause clause ≠ "" := by
  simp [sortClause]

theorem count_ne_empty (n : UInt64) : count n ≠ "" := by
  simp [count]

/-- The history of filters has no empty text in it. -/
theorem filter?_ne_empty (c : Refinement) : c.filter? ≠ some "" := by
  cases c with
  | filter e =>
    by_cases empty : e.render = ""
    · simp [empty]
    · simp [empty]
  | _ => simp

/-- Filters, sort clauses and numbers always have a text, so an empty value has to come from
    the query, from a single field name or from the default field. -/
theorem empty_mem_params_iff (r : Request) (filters : "" ∉ r.filters) (k : String) :
    (k, "") ∈ r.params ↔ k = "q" ∧ r.q = "" ∨ k = "fl" ∧ r.fields = [""] ∨ k = "df" ∧ r.defaultField = some "" := by
  have noFilter : (k, "") ∉ r.filters.map fun f => ("fq", f) := by
    intro mem
    obtain ⟨f, inside, same⟩ := List.mem_map.1 mem
    cases same
    exact filters inside
  have sorted : r.sort.map sortClause ≠ [""] := by
    intro one
    have mem : "" ∈ r.sort.map sortClause := by simp [one]
    obtain ⟨clause, -, empty⟩ := List.mem_map.1 mem
    exact sortClause_ne_empty clause empty
  have counted (n : Option UInt64) : n.map count ≠ some "" := by
    cases n with
    | none => simp
    | some n => simp [count_ne_empty]
  simp only [params, List.cons_append, List.mem_append, List.mem_cons, empty_mem_listed_iff, empty_mem_single_iff,
    noFilter, sorted, counted, Prod.mk.injEq, and_false, or_false, false_or, eq_comm (a := "")]

theorem empty_not_mem_filters (changes : List Refinement) : "" ∉ changes.filterMap (·.filter?) := by
  intro mem
  obtain ⟨c, -, empty⟩ := List.mem_filterMap.1 mem
  exact filter?_ne_empty c empty

/-- A new request, or the one for an expression, sends an empty value after any changes only
    in three cases: the query is empty; the one field that was added has the empty name; the
    default field set last has the empty name. So nothing but the query is ever empty exactly
    when the two empty names are avoided. -/
theorem empty_parameters (ε : Type) (q : String) (changes : List Refinement) :
    (∀ e : Expr, (build e : Logged ε Request).result = .ok (new e.render)) ∧
    (∀ key, (key, "") ∈ ((new q).refineAll changes).params ↔
      key = "q" ∧ q = "" ∨ key = "fl" ∧ changes.filterMap (·.field?) = [""] ∨
        key = "df" ∧ (changes.filterMap (·.defaultField?)).getLast? = some "") ∧
    ((∀ p ∈ ((new q).refineAll changes).params, p.1 ≠ "q" → p.2 ≠ "") ↔
      changes.filterMap (·.field?) ≠ [""] ∧ (changes.filterMap (·.defaultField?)).getLast? ≠ some "") := by
  have empty (key : String) := empty_mem_params_iff (ofHistory q changes) (empty_not_mem_filters changes) key
  rw [refineAll_new]
  refine ⟨fun e => rfl, empty, ⟨fun law => ⟨fun field => ?_, fun df => ?_⟩, ?_⟩⟩
  · exact law ("fl", "") ((empty "fl").2 (.inr (.inl ⟨rfl, field⟩))) (by decide) rfl
  · exact law ("df", "") ((empty "df").2 (.inr (.inr ⟨rfl, df⟩))) (by decide) rfl
  · intro avoided p mem other none
    obtain ⟨key, value⟩ := p
    subst none
    rcases (empty key).1 mem with ⟨q, -⟩ | ⟨-, field⟩ | ⟨-, df⟩
    · exact other q
    · exact avoided.1 field
    · exact avoided.2 df

/-- A default field and a returned field without a name are sent all the same. -/
theorem empty_names_are_sent :
    ((new "x").refineAll [.defaultField ""]).params = [("q", "x"), ("df", "")] ∧
      ((new "x").refineAll [.field ""]).params = [("q", "x"), ("fl", "")] := by
  decide

end Request
end SearchQuery
