import CodeActions.Transform

/-!
# Wraps

Two transforms that fit any expression: a type assertion around it, and a call. Both leave open what
only a person can know, so they are snippets.
-/

namespace CodeActions

/-- The part occurs in the text. -/
def Text.occursIn (part : List Char) : List Char → Bool
  | [] => part.isEmpty
  | c :: cs => part.isPrefixOf (c :: cs) || occursIn part cs

/-- A kind of expression: its name says so, and it is not the statement that holds one. -/
def isExpressionKind (kind : String) : Bool :=
  Text.occursIn "expression".toList kind.toList && kind != "expression_statement"

/-- What becomes of an expression, given the snippet around its text. -/
def Reshaping.ofExpression (source : String) (t : Tree) (wrap : String → Snippet) : Reshaping :=
  if isExpressionKind t.kind then do
    return some (.snippet (wrap (← t.text source)))
  else
    return none

namespace Snippet

/-- `(text as …)`. -/
def cast (text : String) : Snippet :=
  ⟨[.text ("(" ++ text ++ " as "), .placeholder 1 "", .text ")"]⟩

/-- `…(text)`. -/
def call (text : String) : Snippet := ⟨[.cursor, .text ("(" ++ text ++ ")")]⟩

end Snippet

namespace Transform

/-- An expression gets a type assertion. -/
def wrapInCast : Transform where
  name := "wrap_in_cast"
  description := "Wrap an expression in a type assertion"
  run source n := Reshaping.ofExpression source n.tree Snippet.cast

/-- An expression becomes the argument of a call. -/
def wrapInCall : Transform where
  name := "wrap_in_call"
  description := "Wrap an expression in a call to a function you type"
  run source n := Reshaping.ofExpression source n.tree Snippet.call

end Transform

end CodeActions
