/-
  SearchQuery.Proofs.QueryReader — a reader of query texts, and unique readability.

  The reader looks at one character to tell a group, a range, a phrase and a sign from a
  word; a word is a field's name when a colon follows it, and `NOT` with a space behind it
  is a sign. Under a field or a sign everything but a leaf stands in parentheses of its
  own, which the reader takes off. Behind the first operand of a group the text shows what
  joins the group. `fuel` only bounds how deep the reader goes; the length of the text is
  always enough.

  `read_chars`: what the shape of a clean expression writes is read back, whatever ends it.
  `render_eq_iff_shape_eq`: so clean expressions have the same text exactly when they have
  the same shape.
-/

import SearchQuery.Proofs.Clean

namespace SearchQuery.Shape

open Text

abbrev Reader := List Char → Option (Shape × List Char)

/-- What stands behind a given beginning. -/
def after? : List Char → List Char → Option (List Char)
  | [], cs => some cs
  | _ :: _, [] => none
  | a :: as, c :: cs => if a = c then after? as cs else none

/-- A range, behind its opening bracket. -/
def readRange (cs : List Char) : Option (Shape × List Char) := do
  let upper ← after? [' ', 'T', 'O', ' '] (cs.dropWhile (· ≠ ' '))
  let rest ← after? [']'] (upper.dropWhile (· ≠ ']'))
  return (.range (String.ofList (cs.takeWhile (· ≠ ' '))) (String.ofList (upper.takeWhile (· ≠ ']'))), rest)

/-- A phrase, behind its opening quotation mark. -/
def readPhrase (cs : List Char) : Option (Shape × List Char) := do
  let rest ← after? ['"'] (cs.dropWhile (· ≠ '"'))
  return (.text (String.ofList ('"' :: (cs.takeWhile (· ≠ '"') ++ ['"']))), rest)

/-- The operand of a field or a sign. -/
def readOperand (read : Reader) : Reader
  | '(' :: cs => do
    let (p, cs) ← read cs
    return (p, ← after? [')'] cs)
  | cs => read cs

def readSigned (read : Reader) (s : Sign) (cs : List Char) : Option (Shape × List Char) :=
  (readOperand read cs).map fun r => (.signed s r.1, r.2)

/-- What joins a group, seen from behind its first operand. -/
def junctionAhead (cs : List Char) : Junction :=
  if (after? Junction.and.separator.toList cs).isSome then .and
  else if (after? Junction.or.separator.toList cs).isSome then .or
  else .firstOf

/-- The operands behind the first one, up to the closing parenthesis. -/
def readAfter (read : Reader) (j : Junction) : Nat → List Char → Option (List Shape × List Char)
  | 0, _ => none
  | _ + 1, ')' :: cs => some ([], cs)
  | fuel + 1, cs => do
    let (p, cs) ← read (← after? j.separator.toList cs)
    let (ps, cs) ← readAfter read j fuel cs
    return (p :: ps, cs)

def ofOperands (j : Junction) (p : Shape) : List Shape → Shape
  | [] => .single p
  | ps => .group j (p :: ps)

/-- A group, behind its opening parenthesis. -/
def readGroup (read : Reader) (fuel : Nat) (cs : List Char) : Option (Shape × List Char) := do
  let (p, cs) ← read cs
  let (ps, rest) ← readAfter read (junctionAhead cs) fuel cs
  return (ofOperands (junctionAhead cs) p ps, rest)

/-- A text or a field, told apart by what follows the word. -/
def readNamed (read : Reader) (cs : List Char) : Option (Shape × List Char) :=
  match takeWord cs with
  | (name, ':' :: cs) => (readOperand read cs).map fun r => (.field (String.ofList name) r.1, r.2)
  | (word, cs) => some (.text (String.ofList word), cs)

def readWord (read : Reader) (cs : List Char) : Option (Shape × List Char) :=
  match after? Sign.not.lead.toList cs with
  | some cs => readSigned read .not cs
  | none => readNamed read cs

def read : Nat → Reader
  | 0, _ => none
  | fuel + 1, '(' :: cs => readGroup (read fuel) fuel cs
  | _ + 1, '[' :: cs => readRange cs
  | _ + 1, '"' :: cs => readPhrase cs
  | fuel + 1, '+' :: cs => readSigned (read fuel) .required cs
  | fuel + 1, '-' :: cs => readSigned (read fuel) .prohibited cs
  | fuel + 1, cs => readWord (read fuel) cs

/-- The shape that a whole text shows. -/
def read? (cs : List Char) : Option Shape :=
  match read cs.length cs with
  | some (p, []) => some p
  | _ => none

/-! ## Pieces -/

theorem after?_append (as cs : List Char) : after? as (as ++ cs) = some cs := by
  induction as with
  | nil => rfl
  | cons a as ih => rw [List.cons_append, after?, if_pos rfl, ih]

theorem eq_append_of_after? {as cs rest : List Char} (h : after? as cs = some rest) : cs = as ++ rest := by
  fun_induction after? as cs with
  | case1 cs => exact Option.some.inj h
  | case2 => cases h
  | case3 as c cs ih => rw [List.cons_append, ih h]
  | case4 => cases h

theorem takeWhile_ne {c : Char} {w : List Char} (h : c ∉ w) (rest : List Char) :
    (w ++ c :: rest).takeWhile (· ≠ c) = w := by
  rw [List.takeWhile_append_of_pos fun d hd => by simpa using fun e : d = c => h (e ▸ hd)]
  simp

theorem dropWhile_ne {c : Char} {w : List Char} (h : c ∉ w) (rest : List Char) :
    (w ++ c :: rest).dropWhile (· ≠ c) = c :: rest := by
  rw [List.dropWhile_append_of_pos fun d hd => by simpa using fun e : d = c => h (e ▸ hd)]
  simp

theorem readRange_chars {lower upper : String} (h : ' ' ∉ lower.toList) (h' : ']' ∉ upper.toList) (rest : List Char) :
    readRange (lower.toList ++ ([' ', 'T', 'O', ' '] ++ (upper.toList ++ ([']'] ++ rest)))) =
      some (.range lower upper, rest) := by
  unfold readRange
  rw [show [' ', 'T', 'O', ' '] ++ (upper.toList ++ ([']'] ++ rest)) =
    ' ' :: ('T' :: 'O' :: ' ' :: (upper.toList ++ ']' :: rest)) from rfl, dropWhile_ne h, takeWhile_ne h]
  show (after? [']'] ((upper.toList ++ ']' :: rest).dropWhile _)).bind _ = _
  rw [dropWhile_ne h', takeWhile_ne h', String.ofList_toList, String.ofList_toList]
  rfl

theorem readPhrase_chars {w : List Char} (h : '"' ∉ w) (rest : List Char) :
    readPhrase (w ++ '"' :: rest) = some (.text (String.ofList ('"' :: (w ++ ['"']))), rest) := by
  unfold readPhrase
  rw [dropWhile_ne h, takeWhile_ne h]
  rfl

/-! ## What comes next

  Between what the shapes of a query write there is only a space, a closing parenthesis or
  the end; and what a shape writes does not begin with an operator and a space, unless it
  is a sign. -/

def Ends (rest : List Char) : Prop := ∀ c ∈ rest.head?, c = ' ' ∨ c = ')'

theorem ends_space (cs : List Char) : Ends (' ' :: cs) := fun c hc => by cases hc; exact .inl rfl

theorem ends_close (cs : List Char) : Ends (')' :: cs) := fun c hc => by cases hc; exact .inr rfl

theorem ends_separator (j : Junction) (cs : List Char) : Ends (j.separator.toList ++ cs) := by
  cases j <;> exact ends_space _

theorem ends_after (j : Junction) (ps : List Shape) (rest : List Char) : Ends (charsAfter j ps ++ ')' :: rest) := by
  cases ps with
  | nil => exact ends_close _
  | cons p ps => rw [charsAfter, List.append_assoc, List.append_assoc]; exact ends_separator j _

theorem endsWord_of_ends {rest : List Char} (h : Ends rest) : EndsWord rest := by
  intro c hc
  rcases h c hc with rfl | rfl <;> decide

theorem endsWord_colon (cs : List Char) : EndsWord (':' :: cs) := fun c hc => by cases hc; decide

theorem not_operator_ahead {o : List Char} (ho : o ∈ operators) {cs : List Char}
    (h : (takeWord cs).1 = o → ∀ rest, (takeWord cs).2 ≠ ' ' :: rest) : after? (o ++ [' ']) cs = none := by
  cases found : after? (o ++ [' ']) cs with
  | none => rfl
  | some rest =>
    obtain rfl := eq_append_of_after? found
    rw [List.append_assoc, List.singleton_append, takeWord_operator ho] at h
    exact absurd rfl (h rfl rest)

theorem word_ahead {w rest : List Char} (h : IsWord w) (stop : Ends rest) {o : List Char} (ho : o ∈ operators) :
    after? (o ++ [' ']) (w ++ rest) = none := by
  apply not_operator_ahead ho
  rw [takeWord_append h.2.1 (endsWord_of_ends stop)]
  intro e
  have e : w = o := e
  exact absurd (e ▸ ho) h.2.2

theorem name_ahead {name : String} (h : CleanName name) (rest : List Char) {o : List Char} (ho : o ∈ operators) :
    after? (o ++ [' ']) (name.toList ++ ':' :: rest) = none := by
  apply not_operator_ahead ho
  rw [takeWord_append (guarded_name h).2 (endsWord_colon rest)]
  exact fun _ _ e => absurd (List.cons.inj e).1 (by decide)

theorem no_junction_ahead {p : Shape} (h : p.Clean) {rest : List Char} (stop : Ends rest) :
    after? ['A', 'N', 'D', ' '] (p.chars ++ rest) = none ∧ after? ['O', 'R', ' '] (p.chars ++ rest) = none := by
  cases p with
  | text content =>
    rcases h with word | ⟨w, e, -, -⟩
    · exact ⟨word_ahead word stop (o := ['A', 'N', 'D']) (by decide), word_ahead word stop (o := ['O', 'R']) (by decide)⟩
    · rw [chars, e]; exact ⟨rfl, rfl⟩
  | range lower upper => exact ⟨rfl, rfl⟩
  | field name child =>
    rw [chars, List.append_assoc]
    exact ⟨name_ahead h.1 _ (o := ['A', 'N', 'D']) (by decide), name_ahead h.1 _ (o := ['O', 'R']) (by decide)⟩
  | single operand => exact ⟨rfl, rfl⟩
  | group j operands =>
    cases operands with
    | nil => exact ⟨rfl, rfl⟩
    | cons q qs => exact ⟨rfl, rfl⟩
  | signed s operand => cases s <;> exact ⟨rfl, rfl⟩

theorem junctionAhead_space {cs : List Char} (h : after? ['A', 'N', 'D', ' '] cs = none)
    (h' : after? ['O', 'R', ' '] cs = none) : junctionAhead (' ' :: cs) = .firstOf := by
  have h : after? Junction.and.separator.toList (' ' :: cs) = none := h
  have h' : after? Junction.or.separator.toList (' ' :: cs) = none := h'
  rw [junctionAhead, h, h']; rfl

theorem junctionAhead_after {j : Junction} {p : Shape} (h : p.Clean) (ps : List Shape) (rest : List Char) :
    junctionAhead (charsAfter j (p :: ps) ++ ')' :: rest) = j := by
  rw [charsAfter, List.append_assoc, List.append_assoc]
  cases j with
  | and => rfl
  | or => rfl
  | firstOf =>
    obtain ⟨noAnd, noOr⟩ := no_junction_ahead h (ends_after .firstOf ps rest)
    exact junctionAhead_space noAnd noOr

/-! ## Reading back -/

theorem read_word {fuel : Nat} {cs : List Char} (h : (takeWord cs).1 ≠ []) :
    read (fuel + 1) cs = readWord (read fuel) cs := by
  have bare : ∀ {c : Char} {rest : List Char}, c ≠ '\\' → isWordChar c = false → cs ≠ c :: rest := by
    rintro c rest escape fit rfl
    rw [takeWord_cons escape, fit] at h
    exact h rfl
  rw [read.eq_def]
  split
  · cases ‹_ = 0›
  · exact absurd rfl (bare (by decide) (by decide))
  · exact absurd rfl (bare (by decide) (by decide))
  · exact absurd rfl (bare (by decide) (by decide))
  · exact absurd rfl (bare (by decide) (by decide))
  · exact absurd rfl (bare (by decide) (by decide))
  · rw [Nat.succ.inj ‹fuel + 1 = Nat.succ _›]

theorem read_signed (s : Sign) (fuel : Nat) (cs : List Char) :
    read (fuel + 1) (s.lead.toList ++ cs) = readSigned (read fuel) s cs := by
  cases s with
  | not =>
    have taken : takeWord (Sign.not.lead.toList ++ cs) = (['N', 'O', 'T'], _) :=
      takeWord_operator (o := ['N', 'O', 'T']) (by decide) cs
    have word : (takeWord (Sign.not.lead.toList ++ cs)).1 ≠ [] := by rw [taken]; exact List.cons_ne_nil _ _
    rw [read_word word, readWord, after?_append]
  | required => rfl
  | prohibited => rfl

theorem readOperand_word {read : Reader} {cs : List Char} (h : (takeWord cs).1 ≠ []) : readOperand read cs = read cs := by
  rw [readOperand.eq_def]
  split
  · rw [takeWord_cons (by decide)] at h
    exact absurd rfl h
  · rfl

theorem readOperand_leaf {read : Reader} {p : Shape} (h : p.Clean) (leaf : p.isLeaf = true) {rest : List Char}
    (stop : Ends rest) : readOperand read (p.chars ++ rest) = read (p.chars ++ rest) := by
  cases p with
  | text content =>
    rcases h with ⟨ne, guarded, -⟩ | ⟨w, e, -, -⟩
    · apply readOperand_word
      rw [chars, takeWord_append guarded (endsWord_of_ends stop)]
      exact ne
    · rw [chars, e]; rfl
  | range lower upper => rfl
  | _ => cases leaf

theorem readOperand_chars {read : Reader} {p : Shape} (h : p.Clean)
    (ih : ∀ rest, Ends rest → read (p.chars ++ rest) = some (p, rest)) {rest : List Char} (stop : Ends rest) :
    readOperand read (parenthesized p.isLeaf p.chars ++ rest) = some (p, rest) := by
  cases leaf : p.isLeaf with
  | true =>
    show readOperand read (p.chars ++ rest) = _
    rw [readOperand_leaf h leaf stop, ih rest stop]
  | false =>
    show readOperand read ('(' :: (p.chars ++ [')'] ++ rest)) = _
    rw [List.append_assoc, readOperand, List.singleton_append, ih _ (ends_close rest)]; rfl

theorem readNamed_word {read : Reader} {w rest : List Char} (h : isGuarded w = true) (stop : Ends rest) :
    readNamed read (w ++ rest) = some (.text (String.ofList w), rest) := by
  rw [readNamed, takeWord_append h (endsWord_of_ends stop)]
  split
  · rename_i e
    obtain ⟨-, rfl⟩ := Prod.mk.inj e
    rcases stop _ rfl with colon | colon <;> cases colon
  · rename_i e
    obtain ⟨rfl, rfl⟩ := Prod.mk.inj e
    rfl

theorem readNamed_name {read : Reader} {name : String} (h : CleanName name) (cs : List Char) :
    readNamed read (name.toList ++ ':' :: cs) = (readOperand read cs).map fun r => (.field name r.1, r.2) := by
  rw [readNamed, takeWord_append (guarded_name h).2 (endsWord_colon cs)]
  simp only [String.ofList_toList]

theorem readAfter_close (read : Reader) (j : Junction) (fuel : Nat) (cs : List Char) :
    readAfter read j (fuel + 1) (')' :: cs) = some ([], cs) := rfl

theorem readAfter_separator (read : Reader) (j : Junction) (fuel : Nat) (cs : List Char) :
    readAfter read j (fuel + 1) (j.separator.toList ++ cs) = (do
      let (p, cs) ← read cs
      let (ps, cs) ← readAfter read j fuel cs
      return (p :: ps, cs)) := by
  cases j <;> rfl

theorem readGroup_chars {read : Reader} {fuel : Nat} {p : Shape} {ps : List Shape} {tail rest : List Char}
    (first : read (p.chars ++ tail) = some (p, tail))
    (others : readAfter read (junctionAhead tail) fuel tail = some (ps, rest)) :
    readGroup read fuel (p.chars ++ tail) = some (ofOperands (junctionAhead tail) p ps, rest) := by
  rw [readGroup, first]
  show (readAfter read (junctionAhead tail) fuel tail).bind _ = _
  rw [others]; rfl

theorem length_chars_pos {p : Shape} (h : p.Clean) : 0 < p.chars.length := by
  cases p with
  | text content =>
    rcases h with ⟨ne, -, -⟩ | ⟨w, e, -, -⟩
    · exact List.length_pos_iff.mpr ne
    · rw [chars, e]; exact Nat.succ_pos _
  | field name child => rw [chars, List.length_append, List.length_cons]; omega
  | group j operands => cases operands <;> exact Nat.succ_pos _
  | signed s operand => cases s <;> exact Nat.succ_pos _
  | _ => exact Nat.succ_pos _

theorem length_parenthesized (leaf : Bool) (cs : List Char) : cs.length ≤ (parenthesized leaf cs).length := by
  cases leaf
  · show _ ≤ ('(' :: cs ++ [')']).length
    rw [List.length_append, List.length_cons]; omega
  · exact Nat.le_refl _

mutual

theorem read_chars : ∀ (p : Shape), p.Clean → ∀ (fuel : Nat) (rest : List Char), p.chars.length ≤ fuel → Ends rest →
    read fuel (p.chars ++ rest) = some (p, rest)
  | p, _, 0, _, enough, _ => absurd enough (by have := length_chars_pos ‹p.Clean›; omega)
  | .text content, h, fuel + 1, rest, _, stop => by
    rcases h with word | ⟨w, e, quote, -⟩
    · have taken := takeWord_append word.2.1 (endsWord_of_ends stop)
      rw [chars, read_word (by rw [taken]; exact word.1), readWord]
      have noSign : after? Sign.not.lead.toList (content.toList ++ rest) = none :=
        word_ahead word stop (o := ['N', 'O', 'T']) (by decide)
      rw [noSign]
      show readNamed _ _ = _
      rw [readNamed_word word.2.1 stop, String.ofList_toList]
    · rw [chars, e]
      show readPhrase (w ++ ['"'] ++ rest) = _
      rw [List.append_assoc, List.singleton_append, readPhrase_chars quote, ← e, String.ofList_toList]
  | .range lower upper, h, fuel + 1, rest, _, _ => by
    show readRange (lower.toList ++ ([' ', 'T', 'O', ' '] ++ (upper.toList ++ [']'])) ++ rest) = _
    rw [List.append_assoc, List.append_assoc, List.append_assoc]
    exact readRange_chars h.1 h.2 rest
  | .field name child, h, fuel + 1, rest, enough, stop => by
    rw [chars, List.length_append, List.length_cons] at enough
    have room := length_parenthesized child.isLeaf child.chars
    have operand := readOperand_chars h.2 (read_chars child h.2 fuel · (by omega)) stop
    rw [chars, List.append_assoc, List.cons_append]
    have taken := takeWord_append (guarded_name h.1).2 (endsWord_colon (parenthesized child.isLeaf child.chars ++ rest))
    rw [read_word (by rw [taken]; exact (guarded_name h.1).1), readWord]
    have noSign : after? Sign.not.lead.toList (name.toList ++ ':' :: (parenthesized child.isLeaf child.chars ++ rest)) = none :=
      name_ahead h.1 _ (o := ['N', 'O', 'T']) (by decide)
    rw [noSign]
    show readNamed _ _ = _
    rw [readNamed_name h.1, operand]; rfl
  | .single operand, h, fuel + 1, rest, enough, _ => by
    simp only [chars, List.length_append, List.length_cons, List.length_nil] at enough
    have pos := length_chars_pos (p := operand) h
    show readGroup (read fuel) fuel (operand.chars ++ [')'] ++ rest) = _
    rw [List.append_assoc, List.singleton_append]
    obtain ⟨n, rfl⟩ : ∃ n, fuel = n + 1 := ⟨fuel - 1, by omega⟩
    rw [readGroup_chars (read_chars operand h (n + 1) _ (by omega) (ends_close rest)) (readAfter_close _ _ n rest)]
    rfl
  | .group j [], h, fuel + 1, rest, enough, _ => by
    have two : 2 ≤ ([] : List Shape).length := h.1
    simp at two
  | .group j [p], h, fuel + 1, rest, enough, _ => by
    have two : 2 ≤ [p].length := h.1
    simp at two
  | .group j (p :: q :: ps), h, fuel + 1, rest, enough, _ => by
    obtain ⟨-, hp, hq, hps⟩ : _ ∧ p.Clean ∧ q.Clean ∧ AllClean ps := h
    simp only [chars, List.length_append, List.length_cons] at enough
    have ahead := junctionAhead_after (j := j) hq ps rest
    have others := readAfter_chars j (q :: ps) ⟨hq, hps⟩ fuel fuel rest (by omega) (by omega)
    have first := read_chars p hp fuel (charsAfter j (q :: ps) ++ ')' :: rest) (by omega) (ends_after j _ rest)
    have group := readGroup_chars first (by rw [ahead]; exact others)
    rw [ahead] at group
    show readGroup (read fuel) fuel (p.chars ++ charsAfter j (q :: ps) ++ [')'] ++ rest) = _
    rw [List.append_assoc, List.append_assoc]
    exact group
  | .signed s operand, h, fuel + 1, rest, enough, stop => by
    rw [chars, List.length_append] at enough
    have room := length_parenthesized operand.isLeaf operand.chars
    have lead : 0 < s.lead.toList.length := by cases s <;> exact Nat.succ_pos _
    have operand := readOperand_chars (p := operand) h (read_chars operand h fuel · (by omega)) stop
    rw [chars, List.append_assoc, read_signed, readSigned, operand]; rfl

theorem readAfter_chars (j : Junction) : ∀ (ps : List Shape), AllClean ps → ∀ (fuel n : Nat) (rest : List Char),
    (charsAfter j ps).length ≤ fuel → (charsAfter j ps).length < n →
    readAfter (read fuel) j n (charsAfter j ps ++ ')' :: rest) = some (ps, rest)
  | _, _, _, 0, _, _, more => absurd more (by omega)
  | [], _, fuel, n + 1, rest, _, _ => readAfter_close _ _ n rest
  | p :: ps, h, fuel, n + 1, rest, enough, more => by
    rw [charsAfter, List.length_append, List.length_append] at enough more
    have separator : 0 < j.separator.toList.length := by cases j <;> exact Nat.succ_pos _
    rw [charsAfter, List.append_assoc, List.append_assoc, readAfter_separator,
      read_chars p h.1 fuel _ (by omega) (ends_after j ps rest)]
    show (readAfter (read fuel) j n (charsAfter j ps ++ ')' :: rest)).bind _ = _
    rw [readAfter_chars j ps h.2 fuel n rest (by omega) (by omega)]; rfl

end

end SearchQuery.Shape

namespace SearchQuery.Expr

open Text

theorem read?_render {e : Expr} (h : e.Clean) : Shape.read? e.render.toList = e.shape? := by
  rw [render_eq_chars]
  cases shape : e.shape? with
  | none => rfl
  | some p =>
    have read := Shape.read_chars p (clean_shape h shape) p.chars.length [] (Nat.le_refl _) fun _ hc => by cases hc
    rw [List.append_nil] at read
    show Shape.read? p.chars = some p
    rw [Shape.read?, read]

theorem cleanText_of_guarded {s : String} (h : isGuarded s.toList = true) (word : s.toList ∉ operators) :
    CleanText s := by
  by_cases empty : s = ""
  · exact .inl empty
  · exact .inr (.inl ⟨fun e => empty (String.toList_eq_nil_iff.mp e), h, word⟩)

/-- Clean expressions have the same query text exactly when they have the same shape: the
    text never lets one structure pass for another. What the escapers write is clean unless
    it is an operator. -/
theorem render_eq_iff_shape_eq :
    (∀ s : String, ∀ t ∈ [escape s, escapeWildcard s], t.toList ∉ operators → CleanText t) ∧
    ∀ a b : Expr, a.Clean → b.Clean → (a.render = b.render ↔ a.shape? = b.shape?) := by
  refine ⟨fun s t ht word => ?_, fun a b ha hb => ⟨fun h => ?_, render_eq_of_shape_eq⟩⟩
  · simp only [List.mem_cons, List.not_mem_nil, or_false] at ht
    rcases ht with rfl | rfl
    · exact cleanText_of_guarded (guarded_escape s) word
    · exact cleanText_of_guarded (guarded_escapeWildcard s) word
  · rw [← read?_render ha, ← read?_render hb, h]

/-- Two trees of one shape, with choices, parts that stand for nothing, an escaped space and
    a phrase; and a third that differs from them by one pair of parentheses. -/
theorem shapes_decide_the_text :
    let a := field "AND" (group .firstOf [group .or [text "x\\ y", nothing], signed .not (text "\"u )\"")])
    let b := field "AND" (group .firstOf
      [choice true (group .and [nothing, text "x\\ y"]) (text "z"), signed .not (choice false nothing (text "\"u )\""))])
    let c := field "AND" (group .firstOf [text "x\\ y", signed .not (text "\"u )\"")])
    a.Clean ∧ b.Clean ∧ c.Clean ∧ a.render = b.render ∧ a.render ≠ c.render := by
  intro a b c
  have x : CleanText "x\\ y" := .inr (.inl (by unfold IsWord; decide))
  have u : CleanText "\"u )\"" := .inr (.inr ⟨['u', ' ', ')'], by decide, by decide, by decide⟩)
  have z : CleanText "z" := .inr (.inl (by unfold IsWord; decide))
  have name : CleanName "AND" := by
    refine .inr ⟨by decide, fun c mem => ?_⟩
    have letter : c ∈ ['A', 'N', 'D'] := mem
    simp only [List.mem_cons, List.not_mem_nil, or_false] at letter
    rcases letter with rfl | rfl | rfl <;> decide
  have ha : a.Clean := ⟨name, ⟨x, .inl rfl, trivial⟩, u, trivial⟩
  have hb : b.Clean := ⟨name, ⟨⟨.inl rfl, x, trivial⟩, z⟩, ⟨.inl rfl, u⟩, trivial⟩
  have hc : c.Clean := ⟨name, x, u, trivial⟩
  refine ⟨ha, hb, hc, (render_eq_iff_shape_eq.2 a b ha hb).mpr rfl, fun h => ?_⟩
  have shape : a.shape? = c.shape? := (render_eq_iff_shape_eq.2 a c ha hc).mp h
  simp [a, c, shape?, prune, pruneAll, Pruned.shape, Pruned.shapes, nothing] at shape

end SearchQuery.Expr
