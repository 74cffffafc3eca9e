/-!
# Spans

A span of a text is given by two byte offsets, the second one excluded. Nothing forces the offsets
to be in order: a selection may be given backwards.
-/

namespace CodeActions

/-- A stretch of a text between two byte offsets. -/
structure Span where
  start : Nat
  stop : Nat
  deriving Repr, DecidableEq, Inhabited

namespace Span

/-- Both ends coincide. -/
def isEmpty (s : Span) : Bool := s.start == s.stop

/-- The other span lies entirely within this one. -/
def contains (s other : Span) : Bool := s.start ≤ other.start && other.stop ≤ s.stop

/-- The ends are in the wrong order. -/
def isReversed (s : Span) : Bool := s.stop < s.start

end Span

end CodeActions
