/-
  SearchQuery.Proofs.Json.Scan — the text of a document is scanned into the tokens of the
  document, whatever follows it that does not go on a number or a word (`scan_chars`).

  A document is legible when every number in it is written as JSON writes numbers and
  nothing in it stands for text that is not known.
-/

import SearchQuery.Json.Document
import SearchQuery.Json.Token
import SearchQuery.Proofs.Number.Numeral

namespace SearchQuery.Json

open Number Number.Numeral

namespace Document

mutual

def Legible : Document → Prop
  | .number literal => (Numeral.read? literal).isSome = true
  | .array items => AllLegible items
  | .object members => MembersLegible members
  | .deep => False
  | .cut => False
  | _ => True

def AllLegible : List Document → Prop
  | [] => True
  | d :: ds => Legible d ∧ AllLegible ds

def MembersLegible : List (Key × Document) → Prop
  | [] => True
  | (_, d) :: ms => Legible d ∧ MembersLegible ms

end

theorem legible_array {items : List Document} (h : ∀ d ∈ items, d.Legible) : (array items).Legible := by
  show AllLegible items
  induction items with
  | nil => trivial
  | cons d ds ih => exact ⟨h d List.mem_cons_self, ih fun e mem => h e (List.mem_cons_of_mem d mem)⟩

theorem legible_obj {members : List (String × Document)} (h : ∀ m ∈ members, m.2.Legible) : (obj members).Legible := by
  show MembersLegible (members.map fun m => (some m.1, m.2))
  induction members with
  | nil => trivial
  | cons m ms ih => exact ⟨h m List.mem_cons_self, ih fun n mem => h n (List.mem_cons_of_mem m mem)⟩

theorem legible_single {name : String} {d : Document} (h : d.Legible) : (obj [(name, d)]).Legible := ⟨h, trivial⟩

mutual

def tokens : Document → List Token
  | .null => [.null]
  | .boolean b => [.boolean b]
  | .number literal => [.number literal]
  | .string s => [.string s]
  | .array [] => [.openArray, .closeArray]
  | .array (d :: ds) => .openArray :: (tokens d ++ restTokens ds)
  | .object [] => [.openObject, .closeObject]
  | .object ((k, d) :: ms) => .openObject :: .string k :: .colon :: (tokens d ++ restMemberTokens ms)
  | .deep => []
  | .cut => []

/-- What follows the first item of an array. -/
def restTokens : List Document → List Token
  | [] => [.closeArray]
  | d :: ds => .comma :: (tokens d ++ restTokens ds)

/-- What follows the first member of an object. -/
def restMemberTokens : List (Key × Document) → List Token
  | [] => [.closeObject]
  | (k, d) :: ms => .comma :: .string k :: .colon :: (tokens d ++ restMemberTokens ms)

end

end Document

/-! ## Numbers and words -/

/-- Nothing that could go on a number or a word comes next. -/
def Stops (rest : List Char) : Prop := ∀ c ∈ rest.head?, isNumberChar c = false ∧ c.isAlpha = false

theorem stops_nil : Stops [] := fun _ h => by cases h

theorem stops_comma (cs : List Char) : Stops (',' :: cs) := fun c h => by cases h; decide

theorem stops_closeArray (cs : List Char) : Stops (']' :: cs) := fun c h => by cases h; decide

theorem stops_closeObject (cs : List Char) : Stops ('}' :: cs) := fun c h => by cases h; decide

theorem stops_restChars (ds : List Document) (rest : List Char) : Stops (Document.restChars ds ++ ']' :: rest) := by
  cases ds with
  | nil => exact stops_closeArray rest
  | cons d ds => exact stops_comma _

theorem stops_restMembers (ms : List (Key × Document)) (rest : List Char) :
    Stops (Document.restMembers ms ++ '}' :: rest) := by
  cases ms with
  | nil => exact stops_closeObject rest
  | cons m ms => exact stops_comma _

/-- A character in the middle of a token only moves the scanner on. -/
theorem scan_within {m next : Mode} {c : Char} (step : m.step c = ([], next)) (cs : List Char) :
    scan m (c :: cs) = scan next cs := by
  rw [scan, step]
  rfl

/-- A token that ends where another character or the end of the text comes. -/
theorem scan_ended {m : Mode} {t : Token} {rest : List Char} (valid : t ≠ .invalid) (last : m.atEnd = [t])
    (step : ∀ c ∈ rest.head?, m.step c = Mode.finish t c) : scan m rest = t :: scan .between rest := by
  cases rest with
  | nil => exact last
  | cons c cs =>
    rw [scan, step c rfl, Mode.finish, if_neg valid]
    rfl

theorem scan_word {seen : List Char} (valid : Token.ofWord seen.reverse ≠ .invalid) {rest : List Char} (stop : Stops rest) :
    scan (.word seen) rest = Token.ofWord seen.reverse :: scan .between rest := by
  refine scan_ended valid rfl fun c next => ?_
  rw [Mode.step, (stop c next).2]
  rfl

theorem scan_number {seen : List Char} (valid : Token.ofNumber seen.reverse ≠ .invalid) {rest : List Char}
    (stop : Stops rest) : scan (.number seen) rest = Token.ofNumber seen.reverse :: scan .between rest := by
  refine scan_ended valid rfl fun c next => ?_
  rw [Mode.step, (stop c next).1]
  rfl

theorem scan_numberChars {literal : List Char} (h : NumberChars literal) (seen rest : List Char) :
    scan (.number seen) (literal ++ rest) = scan (.number (literal.reverse ++ seen)) rest := by
  induction literal generalizing seen with
  | nil => rfl
  | cons c cs ih =>
    have step : Mode.step (.number seen) c = ([], .number (c :: seen)) := if_pos (h c List.mem_cons_self)
    rw [List.cons_append, scan_within step, ih (fun d hd => h d (List.mem_cons_of_mem _ hd)), List.reverse_cons,
      List.append_assoc]
    rfl

theorem not_isAlpha_of_isDigit {c : Char} (h : c.isDigit = true) : c.isAlpha = false := by
  have digit : 48 ≤ c.val.toNat ∧ c.val.toNat ≤ 57 := digit_bounds h
  show (decide (c.val ≥ 'A'.val ∧ c.val ≤ 'Z'.val) || (c.val ≥ 'a'.val && c.val ≤ 'z'.val)) = false
  have upper : 'A'.val.toNat = 65 := rfl
  have lower : 'a'.val.toNat = 97 := rfl
  simp only [Bool.or_eq_false_iff, Bool.and_eq_false_iff, decide_eq_false_iff_not, ge_iff_le, UInt32.le_iff_toNat_le]
  omega

theorem start_number {c : Char} (h : c = '-' ∨ c.isDigit = true) : Mode.between.step c = ([], .number [c]) := by
  rcases h with rfl | digit
  · rfl
  · have ne : ∀ d : Char, d.isDigit = false → c ≠ d := by
      rintro d other rfl
      rw [digit] at other; cases other
    simp [Mode.step, Mode.start, not_isAlpha_of_isDigit digit, isNumberChar, digit, ne]

theorem scan_literal {literal : List Char} (read : (Numeral.read? literal).isSome = true) {rest : List Char}
    (stop : Stops rest) :
    scan .between (literal ++ rest) = .number literal :: scan .between rest := by
  obtain ⟨chars, c, first, start⟩ := numberChars_of_read? read
  cases literal with
  | nil => cases first
  | cons d cs =>
    obtain rfl := Option.some.inj first
    have token : Token.ofNumber (cs.reverse ++ [d]).reverse = .number (d :: cs) := by
      rw [List.reverse_append, List.reverse_reverse]
      exact if_pos read
    rw [List.cons_append, scan_within (start_number start),
      scan_numberChars (fun e he => chars e (List.mem_cons_of_mem _ he)), scan_number (by rw [token]; exact Token.noConfusion) stop, token]

/-! ## Strings -/

theorem hexValue_hexDigit : ∀ n < 16, hexValue? (Document.hexDigit n) = some n := by decide

theorem part_ofCode_control {c : Char} (control : c.toNat < 32) : Part.ofCode c.toNat = .char c := by
  have whole : (isHighHalf c.toNat || isLowHalf c.toNat) = false := by
    simp only [isHighHalf, isLowHalf, Bool.or_eq_false_iff, Bool.and_eq_false_iff, decide_eq_false_iff_not]
    omega
  simp [Part.ofCode, whole]

/-- One hexadecimal digit of an escape that is not the last. -/
theorem scan_hex {n : Nat} (small : n < 16) (seen : List Part) (left value : Nat) (rest : List Char) :
    scan (.hex seen (left + 1) value) (Document.hexDigit n :: rest) = scan (.hex seen left (value * 16 + n)) rest :=
  scan_within (by simp only [Mode.step, hexValue_hexDigit n small]) rest

/-- The last one. -/
theorem scan_lastHex {n : Nat} (small : n < 16) (seen : List Part) (value : Nat) (rest : List Char) :
    scan (.hex seen 0 value) (Document.hexDigit n :: rest) = scan (.inString (.ofCode (value * 16 + n) :: seen)) rest :=
  scan_within (by simp only [Mode.step, hexValue_hexDigit n small]) rest

theorem scan_control {c : Char} (control : c.toNat < 32) (seen : List Part) (rest : List Char) :
    scan (.inString seen)
        (['\\', 'u', '0', '0', Document.hexDigit (c.toNat / 16), Document.hexDigit (c.toNat % 16)] ++ rest) =
      scan (.inString (.char c :: seen)) rest := by
  show scan (.hex seen (2 + 1) 0) (Document.hexDigit 0 :: Document.hexDigit 0 :: _) = _
  rw [scan_hex (by omega), scan_hex (by omega)]
  show scan (.hex seen (0 + 1) 0) (Document.hexDigit _ :: Document.hexDigit _ :: rest) = _
  rw [scan_hex (by omega), scan_lastHex (by omega)]
  have code : (0 * 16 + c.toNat / 16) * 16 + c.toNat % 16 = c.toNat := by omega
  rw [code, part_ofCode_control control]

/-- A character of a string is read back from its escaped form. -/
theorem scan_escapeChar (c : Char) (seen : List Part) (rest : List Char) :
    scan (.inString seen) (Document.escapeChar c ++ rest) = scan (.inString (.char c :: seen)) rest := by
  by_cases special : c ∈ ['"', '\\', '\x08', '\x0c', '\n', '\r', '\t']
  · simp only [List.mem_cons, List.not_mem_nil, or_false] at special
    rcases special with rfl | rfl | rfl | rfl | rfl | rfl | rfl <;> rfl
  · simp only [List.mem_cons, List.not_mem_nil, or_false, not_or] at special
    obtain ⟨quote, backslash, b, f, n, r, t⟩ := special
    by_cases control : c.toNat < 32
    · simp only [Document.escapeChar, quote, backslash, b, f, n, r, t, control, if_true, if_false]
      exact scan_control control seen rest
    · simp only [Document.escapeChar, quote, backslash, b, f, n, r, t, control, if_false]
      exact scan_within (by simp only [Mode.step, quote, backslash, control, if_false]) rest

theorem joinParts_char (cs : List Char) : joinParts (cs.map .char) = some cs := by
  induction cs with
  | nil => rfl
  | cons c cs ih => rw [List.map_cons, joinParts, ih]; rfl

theorem scan_inString (cs : List Char) (seen : List Part) (rest : List Char) :
    scan (.inString seen) (cs.flatMap Document.escapeChar ++ '"' :: rest) =
      Token.ofParts (seen.reverse ++ cs.map .char) :: scan .between rest := by
  induction cs generalizing seen with
  | nil => rw [List.map_nil, List.append_nil]; rfl
  | cons c cs ih =>
    rw [List.flatMap_cons, List.append_assoc, scan_escapeChar, ih, List.reverse_cons, List.append_assoc]
    rfl

/-- A string is scanned back, one without text as one without text. -/
theorem scan_string (s : Option String) (rest : List Char) :
    scan .between (Document.stringChars s ++ rest) = .string s :: scan .between rest := by
  cases s with
  | none => rfl
  | some s =>
    show scan (.inString []) (s.toList.flatMap Document.escapeChar ++ ['"'] ++ rest) = _
    rw [List.append_assoc]
    show scan (.inString []) (s.toList.flatMap Document.escapeChar ++ '"' :: rest) = _
    rw [scan_inString, List.reverse_nil, List.nil_append, Token.ofParts, joinParts_char]
    simp

/-! ## Documents -/

open Document

mutual

theorem scan_chars : ∀ (d : Document) {rest : List Char}, d.Legible → Stops rest →
    scan .between (d.chars ++ rest) = d.tokens ++ scan .between rest
  | .null, _, _, stop => @scan_word ['l', 'l', 'u', 'n'] (by decide) _ stop
  | .boolean true, _, _, stop => @scan_word ['e', 'u', 'r', 't'] (by decide) _ stop
  | .boolean false, _, _, stop => @scan_word ['e', 's', 'l', 'a', 'f'] (by decide) _ stop
  | .number _, _, legible, stop => scan_literal legible stop
  | .string s, rest, _, _ => scan_string s rest
  | .array [], _, _, _ => rfl
  | .array (d :: ds), rest, legible, _ => by
    show .openArray :: scan .between (d.chars ++ restChars ds ++ [']'] ++ rest) = _
    rw [List.append_assoc, List.append_assoc]
    show _ :: scan .between (d.chars ++ (restChars ds ++ ']' :: rest)) = _
    rw [scan_chars d legible.1 (stops_restChars ds rest), scan_restChars ds rest legible.2, Document.tokens]
    simp
  | .object [], _, _, _ => rfl
  | .object ((k, d) :: ms), rest, legible, _ => by
    show .openObject :: scan .between (stringChars k ++ ':' :: d.chars ++ restMembers ms ++ ['}'] ++ rest) = _
    rw [List.append_assoc, List.append_assoc, List.append_assoc, scan_string]
    show _ :: _ :: .colon :: scan .between (d.chars ++ (restMembers ms ++ '}' :: rest)) = _
    rw [scan_chars d legible.1 (stops_restMembers ms rest), scan_restMembers ms rest legible.2, Document.tokens]
    simp
  | .deep, _, legible, _ => False.elim legible
  | .cut, _, legible, _ => False.elim legible

theorem scan_restChars : ∀ (ds : List Document) (rest : List Char), AllLegible ds →
    scan .between (restChars ds ++ ']' :: rest) = restTokens ds ++ scan .between rest
  | [], _, _ => rfl
  | d :: ds, rest, legible => by
    show .comma :: scan .between (d.chars ++ restChars ds ++ ']' :: rest) = _
    rw [List.append_assoc, scan_chars d legible.1 (stops_restChars ds rest), scan_restChars ds rest legible.2, restTokens]
    simp

theorem scan_restMembers : ∀ (ms : List (Key × Document)) (rest : List Char), MembersLegible ms →
    scan .between (restMembers ms ++ '}' :: rest) = restMemberTokens ms ++ scan .between rest
  | [], _, _ => rfl
  | (k, d) :: ms, rest, legible => by
    show .comma :: scan .between (stringChars k ++ ':' :: d.chars ++ restMembers ms ++ '}' :: rest) = _
    rw [List.append_assoc, List.append_assoc, scan_string]
    show _ :: _ :: .colon :: scan .between (d.chars ++ (restMembers ms ++ '}' :: rest)) = _
    rw [scan_chars d legible.1 (stops_restMembers ms rest), scan_restMembers ms rest legible.2, restMemberTokens]
    simp

end

end SearchQuery.Json
