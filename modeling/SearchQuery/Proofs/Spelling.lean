/-
  SearchQuery.Proofs.Spelling — reading an expression applies the checks of building, and
  nothing else. `Spelled` says which documents have the shape of an expression, whether or
  not its nodes would pass those checks, and in which order the bodies of the nodes end.

  `read_of_spelled`: however the expression is spelled, it is what is read if every node
  passes, and otherwise the first node that does not pass tells why nothing is read.
-/

import SearchQuery.Proofs.Checks
import SearchQuery.Proofs.Json.Record
import SearchQuery.Proofs.Json.Text

namespace SearchQuery

open Json Json.Reading Number Time

/-! ## Shapes -/

/-- A document has the shape of a bound. -/
inductive Bound.Spelled : Bound → Document → Prop where
  | date {s : String} {t : Instant} (stamp : Instant.read? s = some t) : Spelled (.date t) (.obj [("date", .str s)])
  | integer {literal : List Char} {n : Numeral} {i : Int128} (number : Numeral.read? literal = some n)
      (value : n.value? = some i.val) : Spelled (.integer i) (.obj [("integer", .number literal)])
  | decimal {literal : List Char} {n : Numeral} (number : Numeral.read? literal = some n)
      (finite : (n.nearest .double).isFinite = true) :
      Spelled (.decimal (n.nearest .double)) (.obj [("decimal", .number literal)])
  | token {s : String} : Spelled (.token s) (.obj [("token", .str s)])
  | unbounded : Spelled .unbounded (.str "unbounded")
  | unboundedBody : Spelled .unbounded (.obj [("unbounded", .null)])

namespace Expr

/-- The nodes of the branches of a choice, in the order in which the branches stand. -/
def branchOrder (yes no : List Expr) (fields : List (String × Document)) : List Expr :=
  fields.flatMap fun f => if f.1 = "then" then yes else if f.1 = "otherwise" then no else []

mutual

/-- A document has the shape of an expression, with at most `room` arrays and objects
    around one another where it is not skipped. The list has all nodes of the expression,
    in the order in which their bodies end. -/
inductive Spelled : Nat → Document → Expr → List Expr → Prop where
  | text {room : Nat} {s : String} : Spelled (room + 1) (.obj [("text", .str s)]) (.text s) [.text s]
  | range {room : Nat} {r : Range} {lower upper body : Document} {fields : List (String × Document)}
      (fromBound : r.lower.Spelled lower) (toBound : r.upper.Spelled upper)
      (shallow : lower.depth ≤ room ∧ upper.depth ≤ room) (written : Written ["from", "to"] fields body)
      (perm : fields.Perm [("from", lower), ("to", upper)]) :
      Spelled (room + 2) (.obj [("range", body)]) (.range r) [.range r]
  | field {room : Nat} {name : String} {child : Expr} {d body : Document} {order : List Expr}
      {fields : List (String × Document)} (part : Spelled room d child order)
      (written : Written ["name", "child"] fields body) (perm : fields.Perm [("name", .str name), ("child", d)]) :
      Spelled (room + 2) (.obj [("field", body)]) (.field name child) (order ++ [.field name child])
  | group {room : Nat} {j : Junction} {operands : List Expr} {items : List Document} {order : List Expr}
      (parts : AllSpelled room items operands order) :
      Spelled (room + 3) (.obj [("combinator", .obj [(j.tag, .array items)])]) (.group j operands)
        (order ++ [.group j operands])
  | signed {room : Nat} {s : Sign} {operand : Expr} {d : Document} {order : List Expr}
      (part : Spelled room d operand order) :
      Spelled (room + 2) (.obj [("combinator", .obj [(s.tag, d)])]) (.signed s operand) (order ++ [.signed s operand])
  | choice {room : Nat} {flag : Bool} {yes no : Expr} {y n body : Document} {yesOrder noOrder : List Expr}
      {fields : List (String × Document)} (first : Spelled room y yes yesOrder) (second : Spelled room n no noOrder)
      (written : Written ["flag", "then", "otherwise"] fields body)
      (perm : fields.Perm [("flag", .boolean flag), ("then", y), ("otherwise", n)]) :
      Spelled (room + 3) (.obj [("combinator", .obj [("conditional", body)])]) (.choice flag yes no)
        (branchOrder yesOrder noOrder fields ++ [.choice flag yes no])

/-- The items of an array, one for each operand. -/
inductive AllSpelled : Nat → List Document → List Expr → List Expr → Prop where
  | nil {room : Nat} : AllSpelled room [] [] []
  | cons {room : Nat} {d : Document} {ds : List Document} {e : Expr} {es : List Expr} {order rest : List Expr}
      (first : Spelled room d e order) (others : AllSpelled room ds es rest) :
      AllSpelled room (d :: ds) (e :: es) (order ++ rest)

end

end Expr

/-! ## Reading what is spelled -/

theorem Bound.read_spelled {b : Bound} {d : Document} (h : b.Spelled d) : Bound.read d = pure b := by
  cases h with
  | date stamp => show (Reading.ofOption _ >>= _) = _; rw [stamp]; rfl
  | @integer literal n i number value =>
    have fits : Int128.ofInt? i.val = some i := dif_pos ⟨i.lower, i.upper⟩
    show (do return Bound.integer (← Reading.ofOption (Int128.ofInt? (← Document.asInteger (.number literal))))) = _
    simp only [Document.asInteger, Document.asNumeral, number, value, Reading.ofOption, pure_bind, fits]
  | @decimal literal n number finite =>
    show (do return Bound.decimal (← Document.asDouble (.number literal))) = _
    simp only [Document.asDouble, Document.asNumeral, number, Reading.ofOption, pure_bind, finite, if_true]
  | token => rfl
  | unbounded => rfl
  | unboundedBody => rfl

/-- The bounds are there before either is checked. -/
theorem Range.read_written {r : Range} {lower upper body : Document} {fields : List (String × Document)}
    (fromBound : r.lower.Spelled lower) (toBound : r.upper.Spelled upper) (written : Written ["from", "to"] fields body)
    (perm : fields.Perm [("from", lower), ("to", upper)]) :
    Range.read body = checked (.ofExcept (Range.make r.lower r.upper)) := by
  have once : (fields.map (·.1)).Nodup := (perm.map Prod.fst).nodup_iff.2 (by simp)
  have readFrom : Document.needed fields "from" Bound.read = pure r.lower := by
    rw [← Bound.read_spelled fromBound]
    rcases eq_of_perm_pair perm with rfl | rfl <;> rfl
  have readTo : Document.needed fields "to" Bound.read = pure r.upper := by
    rw [← Bound.read_spelled toBound]
    rcases eq_of_perm_pair perm with rfl | rfl <;> rfl
  rw [Range.read, fields?_written written once]
  simp only [Reading.ofOption, pure_bind, readFrom, readTo]

namespace Expr

/-- A field or a choice that is written as an object is read from its fields alone. -/
theorem readFieldMembers_holds {ms : List (Key × Document)} {fields : List (String × Document)}
    (h : Holds ["name", "child"] ms fields) (name : Option String) (child : Option Expr) :
    readFieldMembers name child ms = readFieldMembers name child (fields.map fun f => (some f.1, f.2)) := by
  induction h generalizing name child with
  | nil => rfl
  | known _ _ ih => simp only [List.map_cons, readFieldMembers, ih]
  | @skipped key _ _ _ other whole _ ih =>
    obtain ⟨notName, notChild⟩ : key ≠ "name" ∧ key ≠ "child" := by simpa using other
    simp only [readFieldMembers, Option.some.injEq, notName, notChild, whole, Option.isSome_some, Bool.and_self,
      if_true, if_false, ih]

theorem readChoiceMembers_holds {ms : List (Key × Document)} {fields : List (String × Document)}
    (h : Holds ["flag", "then", "otherwise"] ms fields) (found : Branches) :
    readChoiceMembers found ms = readChoiceMembers found (fields.map fun f => (some f.1, f.2)) := by
  induction h generalizing found with
  | nil => rfl
  | known _ _ ih => simp only [List.map_cons, readChoiceMembers, ih]
  | @skipped key _ _ _ other whole _ ih =>
    obtain ⟨notFlag, notThen, notOtherwise⟩ : key ≠ "flag" ∧ key ≠ "then" ∧ key ≠ "otherwise" := by simpa using other
    simp only [readChoiceMembers, Option.some.injEq, notFlag, notThen, notOtherwise, whole, Option.isSome_some,
      Bool.and_self, if_true, if_false, ih]

theorem readField_written {name : String} {child : Expr} {d body : Document} {order : List Expr}
    {fields : List (String × Document)} (part : (read d).result = verdict order child)
    (written : Written ["name", "child"] fields body) (perm : fields.Perm [("name", .str name), ("child", d)]) :
    (readBody .field body).result = verdict (order ++ [.field name child]) (.field name child) := by
  have built : (read d >>= fun child => checked (inField name child)).result =
      verdict (order ++ [.field name child]) (.field name child) := by
    rw [Logged.result_bind, part]
    exact verdict_node rfl
  cases written with
  | array inOrder =>
    rcases eq_of_perm_pair perm with rfl | rfl
    · exact built
    · simp at inOrder
  | object holds =>
    show (readFieldMembers none none _).result = _
    rw [readFieldMembers_holds holds]
    rcases eq_of_perm_pair perm with rfl | rfl <;> exact built

theorem branchOrder_flag (yes no : List Expr) (d : Document) (fields : List (String × Document)) :
    branchOrder yes no (("flag", d) :: fields) = branchOrder yes no fields := rfl

theorem branchOrder_then (yes no : List Expr) (d : Document) (fields : List (String × Document)) :
    branchOrder yes no (("then", d) :: fields) = yes ++ branchOrder yes no fields := rfl

theorem branchOrder_otherwise (yes no : List Expr) (d : Document) (fields : List (String × Document)) :
    branchOrder yes no (("otherwise", d) :: fields) = no ++ branchOrder yes no fields := rfl

theorem branchOrder_nil (yes no : List Expr) : branchOrder yes no [] = [] := rfl

/-- Both branches are read, in the order of the text, whichever is selected. -/
theorem readChoice_written {flag : Bool} {yes no : Expr} {y n body : Document} {yesOrder noOrder : List Expr}
    {fields : List (String × Document)} (first : (read y).result = verdict yesOrder yes)
    (second : (read n).result = verdict noOrder no) (written : Written ["flag", "then", "otherwise"] fields body)
    (perm : fields.Perm [("flag", .boolean flag), ("then", y), ("otherwise", n)]) :
    (readChoice body).result = verdict (branchOrder yesOrder noOrder fields ++ [.choice flag yes no]) (.choice flag yes no) := by
  have yesFirst : (read y >>= fun yes => read n >>= fun no => pure (Expr.choice flag yes no)).result =
      verdict (yesOrder ++ (noOrder ++ [.choice flag yes no])) (.choice flag yes no) := by
    rw [Logged.result_bind, first]
    refine verdict_bind ?_
    rw [Logged.result_bind, second]
    exact verdict_node rfl
  have noFirst : (read n >>= fun no => read y >>= fun yes => pure (Expr.choice flag yes no)).result =
      verdict (noOrder ++ (yesOrder ++ [.choice flag yes no])) (.choice flag yes no) := by
    rw [Logged.result_bind, second]
    refine verdict_bind ?_
    rw [Logged.result_bind, first]
    exact verdict_node rfl
  cases written with
  | array inOrder =>
    rcases eq_of_perm_triple perm with rfl | rfl | rfl | rfl | rfl | rfl
    · simp only [branchOrder_flag, branchOrder_then, branchOrder_otherwise, branchOrder_nil, List.append_nil, List.append_assoc]
      exact yesFirst
    all_goals simp at inOrder
  | object holds =>
    show (readChoiceMembers _ _).result = _
    rw [readChoiceMembers_holds holds]
    rcases eq_of_perm_triple perm with rfl | rfl | rfl | rfl | rfl | rfl <;>
      simp only [branchOrder_flag, branchOrder_then, branchOrder_otherwise, branchOrder_nil, List.append_nil, List.append_assoc]
    · exact yesFirst
    · exact yesFirst
    · exact yesFirst
    · exact noFirst
    · exact noFirst
    · exact noFirst

/-! ### Behind the kind -/

theorem read_tagged (k : Kind) (d : Document) : read (tagged k d) = readBody k d := by
  cases k <;> exact bind_pure _

theorem readBody_range (d : Document) : readBody .range d = (do return .range (← Range.read d)) := by
  rw [readBody]

theorem readBody_group (j : Junction) (items : List Document) :
    readBody .combinator (.obj [(j.tag, .array items)]) = (do checked (join j (← readAll items))) := by
  cases j <;> rfl

theorem readBody_signed (s : Sign) (d : Document) :
    readBody .combinator (.obj [(s.tag, d)]) = (do return .signed s (← read d)) := by
  cases s <;> rfl

theorem readBody_choice (d : Document) : readBody .combinator (.obj [("conditional", d)]) = readChoice d := bind_pure _

mutual

/-- What is spelled is read node by node, each node as soon as its parts are there. -/
theorem result_read {room : Nat} {d : Document} {e : Expr} {order : List Expr} :
    Spelled room d e order → (read d).result = verdict order e
  | .text => rfl
  | @Spelled.range _ r _ _ body _ fromBound toBound _ written perm => by
    show (read (tagged .range body)).result = _
    rw [read_tagged, readBody_range, Range.read_written fromBound toBound written perm, verdict_self, make]
    cases Range.make r.lower r.upper <;> rfl
  | @Spelled.field _ _ _ _ body _ _ part written perm => by
    show (read (tagged .field body)).result = _
    rw [read_tagged]
    exact readField_written (result_read part) written perm
  | @Spelled.group _ j operands items _ parts => by
    show (read (tagged .combinator _)).result = _
    rw [read_tagged, readBody_group, Logged.result_bind, result_readAll parts]
    exact verdict_node rfl
  | @Spelled.signed _ s _ _ _ part => by
    show (read (tagged .combinator _)).result = _
    rw [read_tagged, readBody_signed, Logged.result_bind, result_read part]
    exact verdict_node rfl
  | @Spelled.choice _ _ _ _ _ _ body _ _ _ first second written perm => by
    show (read (tagged .combinator _)).result = _
    rw [read_tagged, readBody_choice]
    exact readChoice_written (result_read first) (result_read second) written perm

theorem result_readAll {room : Nat} {ds : List Document} {es order : List Expr} :
    AllSpelled room ds es order → (readAll ds).result = verdict order es
  | .nil => rfl
  | @AllSpelled.cons _ d ds e es _ rest first others => by
    show (read d >>= fun e => readAll ds >>= fun es => pure (e :: es)).result = _
    rw [Logged.result_bind, result_read first]
    refine verdict_bind ?_
    rw [Logged.result_bind, result_readAll others]
    exact verdict_map rest (e :: ·) es

end

mutual

theorem spelled_perm {room : Nat} {d : Document} {e : Expr} {order : List Expr} :
    Spelled room d e order → order.Perm e.nodes
  | .text => .refl _
  | .range .. => .refl _
  | .field part _ _ => (spelled_perm part).append_right _
  | .group parts => (allSpelled_perm parts).append_right _
  | .signed part => (spelled_perm part).append_right _
  | @Spelled.choice _ _ yes no _ _ _ yesOrder noOrder fields first second _ perm => by
    have either : (branchOrder yesOrder noOrder fields).Perm (yesOrder ++ noOrder) := by
      have swap := perm.flatMap_right fun f =>
        if f.1 = "then" then yesOrder else if f.1 = "otherwise" then noOrder else []
      simpa [branchOrder] using swap
    exact (either.trans ((spelled_perm first).append (spelled_perm second))).append_right _

theorem allSpelled_perm {room : Nat} {ds : List Document} {es order : List Expr} :
    AllSpelled room ds es order → order.Perm (allNodes es)
  | .nil => .refl _
  | .cons first others => (spelled_perm first).append (allSpelled_perm others)

end

/-! ## Texts -/

mutual

/-- Closing up what is too deep changes nothing but what is skipped. -/
theorem spelled_clip {room most : Nat} (le : room ≤ most) {d : Document} {e : Expr} {order : List Expr} :
    Spelled room d e order → Spelled room (d.clip most) e order
  | .text => by
    obtain ⟨m, rfl⟩ : ∃ m, most = m + 1 := ⟨most - 1, by omega⟩
    exact .text
  | @Spelled.range _ _ lower upper _ _ fromBound toBound shallow written perm => by
    obtain ⟨m, rfl⟩ : ∃ m, most = m + 2 := ⟨most - 2, by omega⟩
    have perm := perm_clipFields m perm
    rw [clipFields, clipFields, List.map_cons, List.map_cons, lower.clip_eq_self m (by omega),
      upper.clip_eq_self m (by omega)] at perm
    exact .range fromBound toBound shallow (written_clip m written) perm
  | .field part written perm => by
    obtain ⟨m, rfl⟩ : ∃ m, most = m + 2 := ⟨most - 2, by omega⟩
    have le := Nat.le_of_add_le_add_right le
    exact .field (spelled_clip le part) (written_clip m written) (perm_clipFields m perm)
  | .group parts => by
    obtain ⟨m, rfl⟩ : ∃ m, most = m + 3 := ⟨most - 3, by omega⟩
    have le := Nat.le_of_add_le_add_right le
    exact .group (allSpelled_clip le parts)
  | .signed part => by
    obtain ⟨m, rfl⟩ : ∃ m, most = m + 2 := ⟨most - 2, by omega⟩
    have le := Nat.le_of_add_le_add_right le
    exact .signed (spelled_clip le part)
  | @Spelled.choice _ _ _ _ _ _ _ yesOrder noOrder fields first second written perm => by
    obtain ⟨m, rfl⟩ : ∃ m, most = m + 3 := ⟨most - 3, by omega⟩
    have le := Nat.le_of_add_le_add_right le
    have order : branchOrder yesOrder noOrder (clipFields m fields) = branchOrder yesOrder noOrder fields := by
      rw [branchOrder, branchOrder, clipFields, List.flatMap_map]
    rw [← order]
    exact .choice (spelled_clip le first) (spelled_clip le second) (written_clip m written) (perm_clipFields m perm)

theorem allSpelled_clip {room most : Nat} (le : room ≤ most) {ds : List Document} {es order : List Expr} :
    AllSpelled room ds es order → AllSpelled room (Document.clipAll most ds) es order
  | .nil => .nil
  | .cons first others => .cons (spelled_clip le first) (allSpelled_clip le others)

end

theorem result_readText {room : Nat} {d : Document} {e : Expr} {order : List Expr} (spelled : Spelled room d e order)
    (le : room ≤ maxDepth) {s : String} (parsed : Parsed.ofText s = ⟨d, true⟩) :
    (readText read s).result = verdict order e := by
  rw [readText_of_parsed read parsed]
  exact result_read (spelled_clip le spelled)

/-- An expression that is spelled in a text is read if every node of it passes the check of
    its constructor, selected or not, and then it is the same for every spelling. If not,
    the first node to fail, in the order in which the bodies end, gives its reason. Only
    what is read may not be nested too deep. -/
theorem read_of_spelled {room : Nat} {d : Document} {e : Expr} {order : List Expr} (spelled : Spelled room d e order) :
    order.Perm e.nodes ∧ (read d).result = verdict order e ∧
      ((∃ made, (read d).result = .ok made) ↔ ∀ n ∈ e.nodes, n.make = .ok n) ∧
      ∀ s : String, Parsed.ofText s = ⟨d, true⟩ → room ≤ maxDepth → (readText read s).result = (read d).result := by
  have perm := spelled_perm spelled
  have result := result_read spelled
  refine ⟨perm, result, ?_, ?_⟩
  · rw [result, verdict_isOk_iff]
    exact ⟨fun passed n mem => passed n (perm.mem_iff.2 mem), fun passed n mem => passed n (perm.mem_iff.1 mem)⟩
  · intro s parsed le
    rw [result, result_readText spelled le parsed]

/-- Three faults in one text, with the keys the other way round: the one that is reported is
    the lower bound of the range, though the upper one stands before it. -/
theorem first_fault_is_reported :
    (readText read (Document.obj [("field", .obj [("note", .array [.null, .obj []]),
      ("child", .obj [("range", .obj [("to", .obj [("token", .str "")]), ("from", .obj [("token", .str "")])])]),
      ("name", .str "")])]).text).result = .error (.rejected (.emptyBound .lower)) := by
  have bounds : Bound.Spelled (.token "") (.obj [("token", .str "")]) := .token
  have child : Spelled 3 _ (.range ⟨.token "", .token ""⟩) _ :=
    .range bounds bounds ⟨by decide, by decide⟩
      (.object (.known (by decide) (.known (by decide) .nil))) (.swap ..)
  have whole : Spelled 5
      (.obj [("field", .obj [("note", .array [.null, .obj []]), ("child", _), ("name", .str "")])]) (.field "" _) _ :=
    .field child (.object (.skipped (by decide) (by decide) (.known (by decide) (.known (by decide) .nil)))) (.swap ..)
  obtain ⟨-, result, -, text⟩ := read_of_spelled whole
  rw [text _ rfl (by decide), result]
  rfl

/-! ### Too deep a nest -/

/-- A document behind a number of negations. -/
def denied : Nat → Document → Document
  | 0, d => d
  | n + 1, d => .obj [("combinator", .obj [("not", denied n d)])]

/-- An expression behind a number of negations. -/
def negated : Nat → Expr → Expr
  | 0, e => e
  | n + 1, e => .signed .not (negated n e)

theorem clip_denied (room : Nat) (d : Document) : ∀ n, (denied n d).clip (room + 2 * n) = denied n (d.clip room)
  | 0 => rfl
  | n + 1 => by
    show Document.obj [("combinator", .obj [("not", (denied n d).clip (room + 2 * n))])] = _
    rw [clip_denied room d n]
    rfl

theorem legible_denied {d : Document} (legible : d.Legible) : ∀ n, (denied n d).Legible
  | 0 => legible
  | n + 1 => by
    have inner := legible_denied legible n
    simp [denied, Document.obj, Document.Legible, Document.MembersLegible, inner]

theorem result_read_denied {d : Document} {fault : Fault} (failed : (read d).result = .error fault) :
    ∀ n, (read (denied n d)).result = .error fault
  | 0 => failed
  | n + 1 => by
    show (read (tagged .combinator (.obj [(Sign.not.tag, denied n d)]))).result = _
    rw [read_tagged, readBody_signed, Logged.result_bind, result_read_denied failed n]
    rfl

theorem spelled_denied {room : Nat} {d : Document} {e : Expr} {order : List Expr} (spelled : Spelled room d e order) :
    ∀ n, ∃ order, Spelled (room + 2 * n) (denied n d) (negated n e) order
  | 0 => ⟨order, spelled⟩
  | n + 1 => by
    obtain ⟨_, inner⟩ := spelled_denied spelled n
    exact ⟨_, @Spelled.signed _ .not _ _ _ inner⟩

theorem make_negated {e : Expr} (passed : ∀ n ∈ e.nodes, n.make = .ok n) :
    ∀ n, ∀ m ∈ (negated n e).nodes, m.make = .ok m
  | 0 => passed
  | n + 1 => by
    intro m mem
    rcases List.mem_append.1 mem with inner | last
    · exact make_negated passed n m inner
    · obtain rfl := List.mem_singleton.1 last
      rfl

/-- A text behind 64 negations is a good expression, but it has more arrays and objects
    around one another than are read. -/
theorem deep_nest_is_not_read :
    (∃ order, Spelled 129 (denied 64 (.obj [("text", .str "x")])) (negated 64 (.text "x")) order) ∧
      Parsed.ofText (denied 64 (.obj [("text", .str "x")])).text = ⟨denied 64 (.obj [("text", .str "x")]), true⟩ ∧
      (∀ n ∈ (negated 64 (.text "x")).nodes, n.make = .ok n) ∧
      (readText read (denied 64 (.obj [("text", .str "x")])).text).result = .error .malformed := by
  have parsed : Parsed.ofText (denied 64 (.obj [("text", .str "x")])).text =
      ⟨denied 64 (.obj [("text", .str "x")]), true⟩ :=
    ofText_text (legible_denied (by simp [Document.obj, Document.str, Document.Legible, Document.MembersLegible]) 64)
  refine ⟨spelled_denied .text 64, parsed, make_negated (by simp [nodes, make]) 64, ?_⟩
  rw [readText_of_parsed read parsed]
  show (read ((denied 63 (denied 1 (.obj [("text", .str "x")]))).clip (1 + 2 * 63))).result = _
  rw [clip_denied]
  exact result_read_denied rfl 63

end Expr

end SearchQuery
