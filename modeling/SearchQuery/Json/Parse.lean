/-
  SearchQuery.Json.Parse — trees from tokens, with the unfinished arrays and objects on a
  stack. Where the tokens stop being JSON, everything unfinished is closed around a `cut`.
-/

import SearchQuery.Json.Document
import SearchQuery.Json.Token

namespace SearchQuery.Json

/-- An array or object around the value that is being read; its parts last first. -/
inductive Frame where
  | array (before : List Document)
  | object (before : List (Key × Document)) (key : Key)

def Frame.close (d : Document) : Frame → Document
  | .array before => .array (before.reverse ++ [d])
  | .object before key => .object (before.reverse ++ [(key, d)])

inductive State where
  | value (stack : List Frame)
  | firstItem (stack : List Frame)
  | afterItem (before : List Document) (stack : List Frame)
  | firstKey (stack : List Frame)
  | nextKey (before : List (Key × Document)) (stack : List Frame)
  | colon (before : List (Key × Document)) (key : Key) (stack : List Frame)
  | afterMember (before : List (Key × Document)) (stack : List Frame)
  | done (d : Document)

namespace State

def place (d : Document) : List Frame → State
  | [] => .done d
  | .array before :: stack => .afterItem (d :: before) stack
  | .object before key :: stack => .afterMember ((key, d) :: before) stack

def beginValue (stack : List Frame) : Token → Option State
  | .null => some (place .null stack)
  | .boolean b => some (place (.boolean b) stack)
  | .number literal => some (place (.number literal) stack)
  | .string s => some (place (.string s) stack)
  | .openArray => some (.firstItem stack)
  | .openObject => some (.firstKey stack)
  | _ => none

/-- The state after a token, if JSON allows it here. -/
def next : State → Token → Option State
  | .value stack, t => beginValue stack t
  | .firstItem stack, .closeArray => some (place (.array []) stack)
  | .firstItem stack, t => beginValue (.array [] :: stack) t
  | .afterItem before stack, .comma => some (.value (.array before :: stack))
  | .afterItem before stack, .closeArray => some (place (.array before.reverse) stack)
  | .firstKey stack, .closeObject => some (place (.object []) stack)
  | .firstKey stack, .string k => some (.colon [] k stack)
  | .nextKey before stack, .string k => some (.colon before k stack)
  | .colon before k stack, .colon => some (.value (.object before k :: stack))
  | .afterMember before stack, .comma => some (.nextKey before stack)
  | .afterMember before stack, .closeObject => some (place (.object before.reverse) stack)
  | _, _ => none

def unwind (d : Document) (stack : List Frame) : Document := stack.foldl (fun d f => f.close d) d

/-- The tree of a text that ends, as JSON, in this state. -/
def abandon : State → Document
  | .value stack => unwind .cut stack
  | .firstItem stack => unwind (.array [.cut]) stack
  | .afterItem before stack => unwind (.array (before.reverse ++ [.cut])) stack
  | .firstKey stack => unwind (.object [(none, .cut)]) stack
  | .nextKey before stack => unwind (.object (before.reverse ++ [(none, .cut)])) stack
  | .colon before k stack => unwind (.object (before.reverse ++ [(k, .cut)])) stack
  | .afterMember before stack => unwind (.object (before.reverse ++ [(none, .cut)])) stack
  | .done d => d

end State

/-- A tree, and whether the text ends with it. -/
structure Parsed where
  document : Document
  atEnd : Bool

def parse : State → List Token → Parsed
  | .done d, ts => ⟨d, ts.isEmpty⟩
  | s, [] => ⟨s.abandon, true⟩
  | s, t :: ts =>
    match s.next t with
    | some s' => parse s' ts
    | none => ⟨s.abandon, true⟩

def Parsed.ofText (s : String) : Parsed := parse (.value []) (tokens s)

end SearchQuery.Json
