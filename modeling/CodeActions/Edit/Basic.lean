import CodeActions.Position
import CodeActions.Snippet
import CodeActions.Span

/-!
# Edits

An edit replaces a span of a text. It names the span twice, by offsets and by positions; only the
offsets count when it is applied.
-/

namespace CodeActions

/-- What an edit puts in place of a span. -/
inductive Replacement where
  | text (value : String)
  | snippet (value : Snippet)
  deriving Repr, DecidableEq

namespace Replacement

/-- The text to insert where nobody fills in holes. -/
def plain : Replacement → String
  | text value => value
  | snippet value => value.plain

/-- The replacement has holes. -/
def isSnippet : Replacement → Bool
  | text _ => false
  | snippet _ => true

end Replacement

/-- The replacement of a span. -/
structure Edit where
  span : Span
  /-- Where the span starts. -/
  start : Position
  /-- Where the span ends. -/
  stop : Position
  replacement : Replacement
  deriving Repr, DecidableEq

/-- The text after the edit: what stood before the span, the plain replacement, what stood after the
span. Only the two cuts can fail; a span whose ends are in the wrong order doubles what lies
between. -/
def Edit.applyTo (e : Edit) (source : String) : Cut String := do
  let front ← Text.upTo source e.span.start
  let back ← Text.onwards source e.span.stop
  return front ++ e.replacement.plain ++ back

end CodeActions
