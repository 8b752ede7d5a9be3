/-
  SearchQuery.Proofs.Json.Text — a legible document is read back from its text as itself
  (`ofText_text`), and a reader sees the whole of it unless it is nested too deep
  (`readText_text`).
-/

import SearchQuery.Json.Reading
import SearchQuery.Proofs.Json.Scan

namespace SearchQuery.Json

open Document State

/-! ## Trees from the tokens of a document -/

/-- A legible document begins with a token that does not close an array. -/
theorem tokens_cons : ∀ d : Document, d.Legible → ∃ t ts, d.tokens = t :: ts ∧ t ≠ .closeArray
  | .null, _ => ⟨_, _, rfl, nofun⟩
  | .boolean _, _ => ⟨_, _, rfl, nofun⟩
  | .number _, _ => ⟨_, _, rfl, nofun⟩
  | .string _, _ => ⟨_, _, rfl, nofun⟩
  | .array [], _ => ⟨_, _, rfl, nofun⟩
  | .array (_ :: _), _ => ⟨_, _, rfl, nofun⟩
  | .object [], _ => ⟨_, _, rfl, nofun⟩
  | .object (_ :: _), _ => ⟨_, _, rfl, nofun⟩
  | .deep, legible => False.elim legible
  | .cut, legible => False.elim legible

theorem next_firstItem {t : Token} (more : t ≠ .closeArray) (stack : List Frame) :
    State.next (.firstItem stack) t = State.next (.value (.array [] :: stack)) t := by
  cases t with
  | closeArray => exact absurd rfl more
  | _ => rfl

/-- The first item of an array is read like any other value. -/
theorem parse_firstItem {d : Document} (legible : d.Legible) (stack : List Frame) (ts : List Token) :
    parse (.firstItem stack) (d.tokens ++ ts) = parse (.value (.array [] :: stack)) (d.tokens ++ ts) := by
  obtain ⟨t, more, eq, open_⟩ := tokens_cons d legible
  simp only [eq, List.cons_append, parse, next_firstItem open_]
  rfl

mutual

theorem parse_tokens : ∀ (d : Document) (stack : List Frame) (ts : List Token), d.Legible →
    parse (.value stack) (d.tokens ++ ts) = parse (place d stack) ts
  | .null, _, _, _ => rfl
  | .boolean _, _, _, _ => rfl
  | .number _, _, _, _ => rfl
  | .string _, _, _, _ => rfl
  | .array [], _, _, _ => rfl
  | .array (d :: ds), stack, ts, legible => by
    show parse (.firstItem stack) (d.tokens ++ restTokens ds ++ ts) = _
    rw [List.append_assoc, parse_firstItem legible.1, parse_tokens d _ _ legible.1]
    exact parse_restTokens ds [d] stack ts legible.2
  | .object [], _, _, _ => rfl
  | .object ((k, d) :: ms), stack, ts, legible => by
    show parse (.value (.object [] k :: stack)) (d.tokens ++ restMemberTokens ms ++ ts) = _
    rw [List.append_assoc, parse_tokens d _ _ legible.1]
    exact parse_restMemberTokens ms [(k, d)] stack ts legible.2
  | .deep, _, _, legible => False.elim legible
  | .cut, _, _, legible => False.elim legible

theorem parse_restTokens : ∀ (ds before : List Document) (stack : List Frame) (ts : List Token), AllLegible ds →
    parse (.afterItem before stack) (restTokens ds ++ ts) = parse (place (.array (before.reverse ++ ds)) stack) ts
  | [], before, stack, ts, _ => by rw [List.append_nil]; rfl
  | d :: ds, before, stack, ts, legible => by
    show parse (.value (.array before :: stack)) (d.tokens ++ restTokens ds ++ ts) = _
    rw [List.append_assoc, parse_tokens d _ _ legible.1]
    show parse (.afterItem (d :: before) stack) _ = _
    rw [parse_restTokens ds (d :: before) stack ts legible.2, List.reverse_cons, List.append_assoc]
    rfl

theorem parse_restMemberTokens : ∀ (ms before : List (Key × Document)) (stack : List Frame) (ts : List Token),
    MembersLegible ms → parse (.afterMember before stack) (restMemberTokens ms ++ ts) =
      parse (place (.object (before.reverse ++ ms)) stack) ts
  | [], before, stack, ts, _ => by rw [List.append_nil]; rfl
  | (k, d) :: ms, before, stack, ts, legible => by
    show parse (.value (.object before k :: stack)) (d.tokens ++ restMemberTokens ms ++ ts) = _
    rw [List.append_assoc, parse_tokens d _ _ legible.1]
    show parse (.afterMember ((k, d) :: before) stack) _ = _
    rw [parse_restMemberTokens ms ((k, d) :: before) stack ts legible.2, List.reverse_cons, List.append_assoc]
    rfl

end

/-! ## Reading the text of a document -/

theorem ofText_text {d : Document} (legible : d.Legible) : Parsed.ofText d.text = ⟨d, true⟩ := by
  have scanned : tokens d.text = d.tokens := by
    have h := scan_chars d legible stops_nil
    rw [List.append_nil] at h
    rw [tokens, text, String.toList_ofList, h]
    exact List.append_nil _
  have parsed := parse_tokens d [] [] legible
  rw [List.append_nil] at parsed
  rw [Parsed.ofText, scanned, parsed]
  rfl

theorem readText_of_parsed {α : Type} (read : Document → Reading α) {s : String} {d : Document}
    (parsed : Parsed.ofText s = ⟨d, true⟩) : readText read s = read (d.clip maxDepth) := by
  rw [readText, parsed]
  exact bind_pure _

theorem readText_text {α : Type} (read : Document → Reading α) {d : Document} (legible : d.Legible)
    (shallow : d.depth ≤ maxDepth) : readText read d.text = read d := by
  rw [readText_of_parsed read (ofText_text legible), d.clip_eq_self maxDepth shallow]

end SearchQuery.Json
