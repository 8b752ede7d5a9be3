/-
  SearchQuery.Proofs.Request.Spelling — every way to write a request in JSON. `Spelled` says
  which documents spell which request: fields in any order or in an array that may end
  early, empty lists and unset values written or left out. Reading finds exactly these
  (`reads_request`), whatever stands too deep in what is skipped (`result_readText_iff`), and
  writing keeps to one of them (`spelled_document`), so that a request comes back from its
  own text (`result_readText_document`).
-/

import SearchQuery.Proofs.Json.Reader
import SearchQuery.Proofs.Json.Text
import SearchQuery.Request.Json

namespace SearchQuery

open Json Json.Document Json.Reading

/-! ## Spellings -/

/-- The name of the order. -/
def Order.Spelled (o : Order) (d : Document) : Prop := SpelledName o.text d

namespace Request

/-- A field and an order. -/
inductive SpelledClause (clause : String × Order) : Document → Prop where
  | pair {order : Document} (spelled : clause.2.Spelled order) : SpelledClause clause (.array [.str clause.1, order])

def fieldNames : List String := ["q", "filter_queries", "fields", "sort", "start", "rows", "default_field"]

/-- The fields of a record are those of a request. Lists may be missing when they are empty,
    and what is not set may be missing or `null`. -/
structure Shown (r : Request) (found : List (String × Document)) : Prop where
  q : found.lookup "q" = some (.str r.q)
  filters : OrMissing [] (SpelledItems SpelledText) r.filters (found.lookup "filter_queries")
  fields : OrMissing [] (SpelledItems SpelledText) r.fields (found.lookup "fields")
  sort : OrMissing [] (SpelledItems SpelledClause) r.sort (found.lookup "sort")
  start : OrMissing none (SpelledOption SpelledCount) r.start (found.lookup "start")
  rows : OrMissing none (SpelledOption SpelledCount) r.rows (found.lookup "rows")
  defaultField : OrMissing none (SpelledOption SpelledText) r.defaultField (found.lookup "default_field")

/-- A document spells a request: an object has its fields in any order, each once, among
    members that are skipped; an array has the first fields in their order, and the others
    are missing. -/
inductive Spelled (r : Request) : Document → Prop where
  | object {ms : List (Key × Document)} {fields : List (String × Document)} (holds : Holds fieldNames ms fields)
      (once : (fields.map (·.1)).Nodup) (shown : r.Shown fields) : Spelled r (.object ms)
  | array {items : List Document} (short : items.length ≤ fieldNames.length) (shown : r.Shown (fieldNames.zip items)) :
      Spelled r (.array items)

end Request

/-! ## Reading -/

theorem Order.reads : Reads Order.read Order.Spelled where
  ok_iff d o := by
    constructor
    · intro h
      obtain ⟨name, found, ok⟩ := Logged.result_bind_eq_ok_iff.1 h
      have spelled := (reads_name.ok_iff d name).1 found
      split at ok
      · rename_i asc
        obtain rfl := Except.ok.inj ok
        rwa [asc] at spelled
      · split at ok
        · rename_i desc
          obtain rfl := Except.ok.inj ok
          rwa [desc] at spelled
        · cases ok
    · intro spelled
      refine Logged.result_bind_eq_ok_iff.2 ⟨o.text, (reads_name.ok_iff d o.text).2 spelled, ?_⟩
      cases o <;> rfl
  plain d := by
    refine plain_bind (reads_name.plain d) fun name => ?_
    split
    · exact plain_pure _
    · split
      · exact plain_pure _
      · exact plain_malformed

namespace Request

theorem readSortClause_of_length {items : List Document} (length : items.length ≠ 2) :
    readSortClause (.array items) = malformed := by
  match items with
  | [] => rfl
  | [_] => rfl
  | [_, _] => exact absurd rfl length
  | _ :: _ :: _ :: _ => rfl

theorem reads_clause : Reads readSortClause SpelledClause where
  ok_iff d clause := by
    constructor
    · intro h
      cases d with
      | array items =>
        by_cases length : items.length = 2
        · obtain ⟨field, order, rfl⟩ := List.length_eq_two.1 length
          obtain ⟨name, first, h⟩ := Logged.result_bind_eq_ok_iff.1 h
          obtain ⟨o, second, h⟩ := Logged.result_bind_eq_ok_iff.1 h
          obtain rfl := Except.ok.inj h
          cases (reads_text.ok_iff field name).1 first
          exact .pair ((Order.reads.ok_iff order o).1 second)
        · rw [readSortClause_of_length length] at h
          cases h
      | _ => cases h
    · rintro ⟨spelled⟩
      refine Logged.result_bind_eq_ok_iff.2 ⟨clause.1, rfl, ?_⟩
      exact Logged.result_bind_eq_ok_iff.2 ⟨clause.2, (Order.reads.ok_iff _ clause.2).2 spelled, rfl⟩
  plain d := by
    cases d with
    | array items =>
      by_cases length : items.length = 2
      · obtain ⟨field, order, rfl⟩ := List.length_eq_two.1 length
        exact plain_bind (reads_text.plain field) fun name => plain_bind (Order.reads.plain order) fun o => plain_pure (name, o)
      · rw [readSortClause_of_length length]
        exact plain_malformed
    | _ => exact plain_malformed

theorem spelled_iff (r : Request) (d : Document) : r.Spelled d ↔ ∃ found, d.fields? fieldNames = some found ∧ r.Shown found := by
  constructor
  · rintro (⟨holds, once, shown⟩ | ⟨short, shown⟩)
    · exact ⟨_, fields?_eq_some_iff.2 (.inl ⟨_, rfl, holds, once⟩), shown⟩
    · exact ⟨_, fields?_eq_some_iff.2 (.inr ⟨_, rfl, short, rfl⟩), shown⟩
  · rintro ⟨found, fields, shown⟩
    rcases fields?_eq_some_iff.1 fields with ⟨ms, rfl, holds, once⟩ | ⟨items, rfl, short, rfl⟩
    · exact .object holds once shown
    · exact .array short shown

theorem reads_texts : Reads (asList asText) (SpelledItems SpelledText) := reads_list reads_text
theorem reads_clauses : Reads (asList readSortClause) (SpelledItems SpelledClause) := reads_list reads_clause
theorem reads_optionalCount : Reads (asOptional asCount) (SpelledOption SpelledCount) := reads_optional reads_count nofun
theorem reads_optionalText : Reads (asOptional asText) (SpelledOption SpelledText) := reads_optional reads_text nofun

/-- A document is read as a request if it spells the request, and is malformed otherwise. -/
theorem reads_request : Reads read Spelled where
  ok_iff d r := by
    simp only [read, Logged.result_bind_eq_ok_iff, result_ofOption, result_needed reads_text, result_missingAs reads_texts,
      result_missingAs reads_clauses, result_missingAs reads_optionalCount, result_missingAs reads_optionalText]
    rw [spelled_iff]
    refine exists_congr fun found => and_congr_right fun _ => ?_
    constructor
    · intro h
      obtain ⟨_, ⟨_, main, ⟨⟩⟩, _, filters, _, fields, _, sort, _, start, _, rows, _, df, made⟩ := h
      obtain rfl := Except.ok.inj made
      exact ⟨main, filters, fields, sort, start, rows, df⟩
    · intro shown
      obtain ⟨main, filters, fields, sort, start, rows, df⟩ := shown
      exact ⟨_, ⟨_, main, .string⟩, _, filters, _, fields, _, sort, _, start, _, rows, _, df, rfl⟩
  plain d := by
    refine plain_bind (plain_ofOption _) fun found => ?_
    refine plain_bind (plain_needed reads_text) fun q => plain_bind (plain_missingAs reads_texts) fun filters => ?_
    refine plain_bind (plain_missingAs reads_texts) fun fields => plain_bind (plain_missingAs reads_clauses) fun sort => ?_
    refine plain_bind (plain_missingAs reads_optionalCount) fun start => ?_
    refine plain_bind (plain_missingAs reads_optionalCount) fun rows => ?_
    exact plain_bind (plain_missingAs reads_optionalText) fun df => plain_pure _

/-! ## Texts -/

theorem shallow_clause : Shallow 2 readSortClause := by
  intro room d
  cases d with
  | array items =>
    show readSortClause (.array (clipAll (room + 1) items)) = _
    by_cases length : items.length = 2
    · obtain ⟨field, order, rfl⟩ := List.length_eq_two.1 length
      show (do return (← asText (clip (room + 1 + 0) field), ← Order.read (clip (room + 1) order))) = _
      have name : Order.read (clip (room + 1) order) = Order.read order := by
        rw [Order.read, shallow_name room order, Order.read]
      rw [shallow_text, name]
      rfl
    · rw [readSortClause_of_length length, readSortClause_of_length (by rwa [clipAll_eq_map, List.length_map])]
  | object ms => rfl
  | _ => rfl

/-- What spells a request is at most four arrays and objects deep. -/
theorem shallow_request : Shallow 4 read := by
  intro room d
  have texts : Shallow 3 (asList asText) := shallow_mono (by decide) (shallow_list shallow_text)
  have clauses : Shallow 3 (asList readSortClause) := shallow_list shallow_clause
  have counts : Shallow 3 (asOptional asCount) := shallow_mono (by decide) (shallow_optional shallow_count)
  have name : Shallow 3 (asOptional asText) := shallow_mono (by decide) (shallow_optional shallow_text)
  have fields : (d.clip (room + 3 + 1)).fields? fieldNames = (d.fields? fieldNames).map (clipFields (room + 3)) :=
    fields?_clip (room + 3) d
  show (ofOption ((d.clip (room + 3 + 1)).fields? fieldNames) >>= _) = (ofOption (d.fields? fieldNames) >>= _)
  rw [fields]
  cases d.fields? fieldNames with
  | none => rfl
  | some found =>
    simp only [Option.map_some, ofOption, pure_bind, needed_clip (shallow_mono (Nat.zero_le 3) shallow_text),
      missingAs_clip texts, missingAs_clip clauses, missingAs_clip counts, missingAs_clip name]

/-- A request is shallow enough that its text may be taken as it stands. -/
theorem readText_eq (s : String) :
    readText read s = (do
      let r ← read (Parsed.ofText s).document
      if (Parsed.ofText s).atEnd then return r else malformed) := by
  rw [readText]
  show (read ((Parsed.ofText s).document.clip (123 + 4)) >>= _) = _
  rw [shallow_request]

/-- A text is read as a request if it is one document that spells the request. -/
theorem result_readText_iff (s : String) (r : Request) :
    (readText read s).result = .ok r ↔ (Parsed.ofText s).atEnd = true ∧ r.Spelled (Parsed.ofText s).document := by
  rw [readText_eq, Logged.result_bind_eq_ok_iff]
  constructor
  · rintro ⟨r', ok, stop⟩
    split at stop
    · rename_i atEnd
      obtain rfl := Except.ok.inj stop
      exact ⟨atEnd, (reads_request.ok_iff _ _).1 ok⟩
    · cases stop
  · rintro ⟨atEnd, spelled⟩
    refine ⟨r, (reads_request.ok_iff _ r).2 spelled, ?_⟩
    rw [if_pos atEnd]
    rfl

theorem plain_readText (s : String) : (readText read s).Plain := by
  rw [readText_eq]
  refine plain_bind (reads_request.plain _) fun r => ?_
  split
  · exact plain_pure r
  · exact plain_malformed

/-! ## The document of a request -/

theorem spelledItems_map {α : Type} {spells : α → Document → Prop} {write : α → Document} (h : ∀ a, spells a (write a))
    (as : List α) : SpelledItems spells as (.array (as.map write)) := by
  refine .array ?_
  rw [List.forall₂_map_right_iff, List.forall₂_same]
  exact fun a _ => h a

theorem spelledCount_document (n : UInt64) : SpelledCount n (countDocument n) :=
  .number (Number.Numeral.read?_intChars (n.toNat : Int)) rfl rfl (Number.Numeral.digits_natChars _ _)

theorem lookup_listMember (key name : String) (items : List Document) :
    (listMember key items).lookup name = if name = key ∧ items ≠ [] then some (.array items) else none := by
  cases items with
  | nil => simp [listMember]
  | cons d ds => simp [listMember, lookup_field]

theorem lookup_optionalMember (key name : String) (d : Option Document) :
    (optionalMember key d).lookup name = if name = key then d else none := by
  cases d with
  | none => simp [optionalMember]
  | some d => simp [optionalMember, lookup_field]

/-- The fields that are written, in their order. -/
def written (r : Request) : List (String × Document) :=
  ("q", .str r.q) :: listMember "filter_queries" (r.filters.map .str) ++ listMember "fields" (r.fields.map .str) ++
    listMember "sort" (r.sort.map fun s => .array [.str s.1, .str s.2.text]) ++
    optionalMember "start" (r.start.map countDocument) ++ optionalMember "rows" (r.rows.map countDocument) ++
    optionalMember "default_field" (r.defaultField.map .str)

theorem document_eq (r : Request) : r.document = .obj r.written := rfl

/-- Every name stands for its own field. -/
theorem lookup_written (r : Request) :
    r.written.lookup "filter_queries" = (listMember "filter_queries" (r.filters.map .str)).lookup "filter_queries" ∧
      r.written.lookup "fields" = (listMember "fields" (r.fields.map .str)).lookup "fields" ∧
      r.written.lookup "sort" =
        (listMember "sort" (r.sort.map fun s => .array [.str s.1, .str s.2.text])).lookup "sort" ∧
      r.written.lookup "start" = (optionalMember "start" (r.start.map countDocument)).lookup "start" ∧
      r.written.lookup "rows" = (optionalMember "rows" (r.rows.map countDocument)).lookup "rows" ∧
      r.written.lookup "default_field" = (optionalMember "default_field" (r.defaultField.map .str)).lookup "default_field" := by
  simp [written, List.lookup_append, List.lookup_cons, lookup_listMember, lookup_optionalMember]

theorem orMissing_listMember {α : Type} {spells : α → Document → Prop} {write : α → Document} (h : ∀ a, spells a (write a))
    (key : String) (as : List α) : OrMissing [] (SpelledItems spells) as ((listMember key (as.map write)).lookup key) := by
  cases as with
  | nil => exact .missing
  | cons a as =>
    rw [lookup_listMember, if_pos ⟨rfl, List.cons_ne_nil _ _⟩]
    exact .written (spelledItems_map h (a :: as))

theorem orMissing_optionalMember {α : Type} {spells : α → Document → Prop} {write : α → Document}
    (h : ∀ a, spells a (write a)) (key : String) (o : Option α) :
    OrMissing none (SpelledOption spells) o ((optionalMember key (o.map write)).lookup key) := by
  rw [lookup_optionalMember, if_pos rfl]
  cases o with
  | none => exact .missing
  | some a => exact .written (.value (h a))

theorem shown_written (r : Request) : r.Shown r.written := by
  obtain ⟨filters, fields, sort, start, rows, defaultField⟩ := r.lookup_written
  constructor
  · rfl
  · rw [filters]
    exact orMissing_listMember (fun _ => .string) _ _
  · rw [fields]
    exact orMissing_listMember (fun _ => .string) _ _
  · rw [sort]
    exact orMissing_listMember (fun _ => .pair .alone) _ _
  · rw [start]
    exact orMissing_optionalMember spelledCount_document _ _
  · rw [rows]
    exact orMissing_optionalMember spelledCount_document _ _
  · rw [defaultField]
    exact orMissing_optionalMember (fun _ => .string) _ _

theorem keys_listMember (key : String) (items : List Document) : ((listMember key items).map (·.1)).Sublist [key] := by
  cases items with
  | nil => exact List.nil_sublist _
  | cons d ds => exact .refl _

theorem keys_optionalMember (key : String) (d : Option Document) : ((optionalMember key d).map (·.1)).Sublist [key] := by
  cases d with
  | none => exact List.nil_sublist _
  | some d => exact .refl _

/-- The fields are written in their order, each once at most. -/
theorem keys_written (r : Request) : (r.written.map (·.1)).Sublist fieldNames := by
  have filters := (List.Sublist.refl ["q"]).append (keys_listMember "filter_queries" (r.filters.map .str))
  have fields := filters.append (keys_listMember "fields" (r.fields.map .str))
  have sort := fields.append (keys_listMember "sort" (r.sort.map fun s => .array [.str s.1, .str s.2.text]))
  have start := sort.append (keys_optionalMember "start" (r.start.map countDocument))
  have rows := start.append (keys_optionalMember "rows" (r.rows.map countDocument))
  have defaultField := rows.append (keys_optionalMember "default_field" (r.defaultField.map .str))
  simp only [written, List.map_append, List.map_cons]
  exact defaultField

theorem spelled_document (r : Request) : r.Spelled r.document := by
  have keys := r.keys_written
  have holds : Holds fieldNames (r.written.map fun m => (some m.1, m.2)) r.written :=
    holds_obj fun m mem => keys.subset (List.mem_map_of_mem mem)
  rw [document_eq]
  exact .object holds (keys.nodup (by decide)) r.shown_written

theorem legible_listMember {α : Type} {key : String} {write : α → Document} (h : ∀ a, (write a).Legible) (as : List α) :
    ∀ m ∈ listMember key (as.map write), m.2.Legible := by
  cases as with
  | nil => nofun
  | cons a as =>
    intro m mem
    obtain rfl := List.mem_singleton.1 mem
    refine legible_array fun d mem => ?_
    obtain ⟨b, -, rfl⟩ := List.mem_map.1 mem
    exact h b

theorem legible_optionalMember {α : Type} {key : String} {write : α → Document} (h : ∀ a, (write a).Legible) (o : Option α) :
    ∀ m ∈ optionalMember key (o.map write), m.2.Legible := by
  cases o with
  | none => nofun
  | some a =>
    intro m mem
    obtain rfl := List.mem_singleton.1 mem
    exact h a

theorem legible_text (s : String) : (Document.str s).Legible := trivial

theorem legible_clause (clause : String × Order) : (Document.array [.str clause.1, .str clause.2.text]).Legible :=
  ⟨trivial, trivial, trivial⟩

theorem legible_count (n : UInt64) : (countDocument n).Legible := by
  show (Number.Numeral.read? (Number.intChars (n.toNat : Int))).isSome = true
  rw [Number.Numeral.read?_intChars]
  rfl

theorem legible_document (r : Request) : r.document.Legible := by
  rw [document_eq]
  refine legible_obj fun m mem => ?_
  simp only [written, List.mem_append, List.mem_cons] at mem
  rcases mem with (((((rfl | mem) | mem) | mem) | mem) | mem) | mem
  · trivial
  · exact legible_listMember legible_text _ m mem
  · exact legible_listMember legible_text _ m mem
  · exact legible_listMember legible_clause _ m mem
  · exact legible_optionalMember legible_count _ m mem
  · exact legible_optionalMember legible_count _ m mem
  · exact legible_optionalMember legible_text _ m mem

theorem result_readText_document (r : Request) : (readText read r.document.text).result = .ok r := by
  rw [result_readText_iff, ofText_text r.legible_document]
  exact ⟨rfl, r.spelled_document⟩

/-! ## What is refused -/

theorem shown_congr {r : Request} {found others : List (String × Document)}
    (same : ∀ name, found.lookup name = others.lookup name) (h : r.Shown found) : r.Shown others where
  q := same "q" ▸ h.q
  filters := same "filter_queries" ▸ h.filters
  fields := same "fields" ▸ h.fields
  sort := same "sort" ▸ h.sort
  start := same "start" ▸ h.start
  rows := same "rows" ▸ h.rows
  defaultField := same "default_field" ▸ h.defaultField

theorem spelled_object_perm {r : Request} {ms others : List (Key × Document)} (perm : ms.Perm others)
    (h : r.Spelled (.object ms)) : r.Spelled (.object others) := by
  cases h with
  | object holds once shown =>
    obtain ⟨found, holds', same⟩ := holds_perm perm holds
    exact .object holds' ((same.map _).nodup_iff.1 once) (shown_congr (lookup_perm same once) shown)

def listNames : List String := ["filter_queries", "fields", "sort"]

/-- A list is never `null`. -/
theorem lookup_ne_null {r : Request} {found : List (String × Document)} (h : r.Shown found) {name : String}
    (list : name ∈ listNames) : found.lookup name ≠ some .null := by
  have array : ∀ {α : Type} {spells : α → Document → Prop} {as : List α},
      ¬ OrMissing [] (SpelledItems spells) as (some .null) := by
    intro α spells as shown
    cases shown with
    | written spelled => cases spelled
  intro null
  simp only [listNames, List.mem_cons, List.not_mem_nil, or_false] at list
  rcases list with rfl | rfl | rfl
  · exact array (null ▸ h.filters)
  · exact array (null ▸ h.fields)
  · exact array (null ▸ h.sort)

/-- Documents that are no request whatever else is in them. -/
inductive Refused : Document → Prop where
  /-- A field is there twice. -/
  | again {before between after : List (Key × Document)} {name : String} {d e : Document} (isField : name ∈ fieldNames) :
      Refused (.object (before ++ (some name, d) :: (between ++ (some name, e) :: after)))
  /-- The main query is missing. -/
  | noQuery {ms : List (Key × Document)} (missing : ∀ m ∈ ms, m.1 ≠ some "q") : Refused (.object ms)
  | empty : Refused (.array [])
  | nullMember {ms : List (Key × Document)} {name : String} (list : name ∈ listNames) (null : (some name, .null) ∈ ms) :
      Refused (.object ms)
  | nullItem {items : List Document} {name : String} {i : Nat} (list : name ∈ listNames) (place : fieldNames[i]? = some name)
      (null : items[i]? = some .null) : Refused (.array items)
  | tooMany {items : List Document} (more : fieldNames.length < items.length) : Refused (.array items)

theorem not_spelled_of_refused {d : Document} (refused : Refused d) (r : Request) : ¬ r.Spelled d := by
  rintro (⟨holds, once, shown⟩ | ⟨short, shown⟩)
  · cases refused with
    | again isField =>
      rw [keys_of_holds holds] at once
      simp [isField, List.nodup_append] at once
    | noQuery missing =>
      have mem := (lookup_eq_some_iff once).1 shown.q
      exact missing _ ((mem_of_holds holds).1 mem).2 rfl
    | nullMember list null =>
      have known := (by decide : ∀ name ∈ listNames, name ∈ fieldNames) _ list
      exact lookup_ne_null shown list ((lookup_eq_some_iff once).2 ((mem_of_holds holds).2 ⟨known, null⟩))
  · cases refused with
    | empty => cases shown.q
    | nullItem list place null =>
      refine lookup_ne_null shown list ?_
      rw [lookup_zip (by decide) place, null]
    | tooMany more => omega

/-! ## All spellings -/

/-- The text of the request that a text is read as. -/
def respelled (s : String) : Except Fault String := (readText read s).result.map fun r => r.document.text

/-- A request comes back from its own text, and a text is read as a request just if it
    spells the request; it may have the keys in any order. Whatever else there is, a text is
    malformed that has a field twice or no main query, `null` for a list or an item too many.
    The text of what was read is always the same, and spells itself. -/
theorem request_spellings (r : Request) (s : String) :
    (readText read r.document.text).result = .ok r ∧
      ((readText read s).result = .ok r ↔ (Parsed.ofText s).atEnd = true ∧ r.Spelled (Parsed.ofText s).document) ∧
      (∀ ms others, ms.Perm others → (r.Spelled (.object ms) ↔ r.Spelled (.object others))) ∧
      (Refused (Parsed.ofText s).document → (readText read s).result = .error .malformed) ∧
      (respelled s).bind respelled = respelled s := by
  refine ⟨r.result_readText_document, result_readText_iff s r, fun ms others perm => ?_, fun refused => ?_, ?_⟩
  · exact ⟨spelled_object_perm perm, spelled_object_perm perm.symm⟩
  · cases outcome : (readText read s).result with
    | error fault => rw [plain_readText s fault outcome]
    | ok r => exact absurd ((result_readText_iff s r).1 outcome).2 (not_spelled_of_refused refused r)
  · cases outcome : (readText read s).result with
    | error fault => simp [respelled, outcome, Except.map, Except.bind]
    | ok r => simp [respelled, outcome, Except.map, Except.bind, r.result_readText_document]

/-- `null` for a count that is not set, an empty list, a member that is skipped, an order as
    the key of `null` and the main query last; an array that ends early; and `null` for a
    list, which is no spelling. -/
theorem odd_spellings_are_read :
    (readText read (Document.obj [("rows", .null), ("note", .array [.null, .obj []]),
        ("sort", .array [.array [.str "id", .obj [("desc", .null)]]]), ("fields", .array []), ("q", .str "a")]).text).result =
      .ok ⟨"a", [], [], [("id", .desc)], none, none, none⟩ ∧
    (readText read (Document.array [.str "a", .array [], .array [.str "id"]]).text).result =
      .ok ⟨"a", [], ["id"], [], none, none, none⟩ ∧
    (readText read (Document.obj [("q", .str "a"), ("sort", .null)]).text).result = .error .malformed := by
  refine ⟨(request_spellings _ _).2.1.2 ?_, (request_spellings _ _).2.1.2 ?_,
    (request_spellings ⟨"a", [], [], [], none, none, none⟩ _).2.2.2.1 ?_⟩
  · rw [ofText_text]
    · refine ⟨rfl, .object (.known (by decide) (.skipped (by decide) (by decide) (.known (by decide) (.known (by decide)
        (.known (by decide) .nil))))) (by decide) ⟨rfl, .missing, .written (.array .nil), ?_, .missing, .written .null, .missing⟩⟩
      exact .written (.array (.cons (.pair .tagged) .nil))
    · exact ⟨trivial, ⟨trivial, trivial, trivial⟩, ⟨⟨trivial, ⟨trivial, trivial⟩, trivial⟩, trivial⟩, trivial, trivial, trivial⟩
  · rw [ofText_text]
    · exact ⟨rfl, .array (by decide) ⟨rfl, .written (.array .nil), .written (.array (.cons .string .nil)), .missing, .missing,
        .missing, .missing⟩⟩
    · exact ⟨trivial, trivial, ⟨trivial, trivial⟩, trivial⟩
  · rw [ofText_text]
    · exact .nullMember (by decide) (List.mem_cons_of_mem _ List.mem_cons_self)
    · exact ⟨trivial, trivial, trivial⟩

end Request

end SearchQuery
