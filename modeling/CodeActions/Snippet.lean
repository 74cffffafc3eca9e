/-!
# Snippets

A snippet is a text with holes that a person fills in after it has been inserted. An editor that
knows snippets gets it in the notation of its tab stops; anyone else inserts the plain text, in
which every hole holds its default.
-/

namespace CodeActions

/-- One piece of a snippet. -/
inductive Segment where
  /-- Text that is inserted as it is. -/
  | text (value : String)
  /-- A numbered tab stop and the text that it holds at first. -/
  | placeholder (index : UInt32) (initial : String)
  /-- Where the caret goes when all tab stops have been visited. -/
  | cursor
  deriving Repr, DecidableEq

/-- Texts and holes in order. -/
structure Snippet where
  segments : List Segment
  deriving Repr, DecidableEq

namespace Segment

/-- The piece without its hole. -/
def plain : Segment → List Char
  | text value => value.toList
  | placeholder _ initial => initial.toList
  | cursor => []

/-- A character of a text inside the notation: `$`, `}` and the backslash are escaped. -/
def escape (c : Char) : List Char :=
  if c = '$' ∨ c = '\x7d' ∨ c = '\\' then ['\\', c] else [c]

/-- The piece in the notation: `$n` and `${n:default}` are tab stops, `$0` is the caret. -/
def render : Segment → List Char
  | text value => value.toList.flatMap escape
  | placeholder index initial =>
    if initial.isEmpty then
      '$' :: Nat.toDigits 10 index.toNat
    else
      ['$', '\x7b'] ++ Nat.toDigits 10 index.toNat ++ [':'] ++ initial.toList.flatMap escape ++
        ['\x7d']
  | cursor => ['$', '0']

end Segment

namespace Snippet

/-- The text without its holes. -/
def plain (s : Snippet) : String := String.ofList (s.segments.flatMap Segment.plain)

/-- The snippet in the notation of tab stops. -/
def render (s : Snippet) : String := String.ofList (s.segments.flatMap Segment.render)

end Snippet

end CodeActions
