/-
  SearchQuery.Text.Balance — parentheses that match. A scanner reads a text from left to
  right: a backslash takes the character after it out of account, a quotation mark opens or
  closes a quoted part, and outside quotes the parentheses are counted. A neutral text
  leaves the scanner as it was, so it can stand anywhere without unbalancing what is
  around it.
-/

namespace SearchQuery.Text

structure Scanner where
  depth : Nat
  quoted : Bool
  escaped : Bool
  deriving DecidableEq, Repr

namespace Scanner

def start : Scanner := ⟨0, false, false⟩

/-- Nothing once a parenthesis closes that none has opened. -/
def step (s : Scanner) (c : Char) : Option Scanner :=
  if s.escaped then some { s with escaped := false }
  else if c = '\\' then some { s with escaped := true }
  else if c = '"' then some { s with quoted := !s.quoted }
  else if s.quoted then some s
  else if c = '(' then some { s with depth := s.depth + 1 }
  else if c = ')' then (if s.depth = 0 then none else some { s with depth := s.depth - 1 })
  else some s

def scan (s : Scanner) (cs : List Char) : Option Scanner := cs.foldlM step s

theorem scan_append (s : Scanner) (cs ds : List Char) : s.scan (cs ++ ds) = (s.scan cs).bind (·.scan ds) :=
  List.foldlM_append

end Scanner

def Neutral (cs : List Char) : Prop := Scanner.start.scan cs = some .start

instance (cs : List Char) : Decidable (Neutral cs) := by unfold Neutral; infer_instance

/-- Every parenthesis outside quotes has its partner. -/
def Balanced (cs : List Char) : Prop := ∃ s, Scanner.start.scan cs = some s ∧ s.depth = 0

end SearchQuery.Text
