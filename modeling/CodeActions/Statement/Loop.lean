import CodeActions.Transform

/-!
# Loops

`while` and `do … while` change into each other. Only the form changes: whether the body runs before
the first test does not stay the same.
-/

namespace CodeActions

/-- The parts of a loop. -/
structure Loop where
  condition : Tree
  body : Tree
  deriving Repr

namespace Loop

/-- The parts of a loop of a kind. -/
def ofKind? (kind : String) (t : Tree) : Option Loop := do
  if t.kind = kind then
    return ⟨← t.field? "condition", ← t.field? "body"⟩
  else
    none

/-- `do body while condition`; the condition has its parentheses. -/
def renderDoWhile (source : String) (l : Loop) : Cut String := do
  return "do " ++ (← l.body.text source) ++ " while " ++ (← l.condition.text source)

/-- `while condition body`; the condition has its parentheses. -/
def renderWhile (source : String) (l : Loop) : Cut String := do
  return "while " ++ (← l.condition.text source) ++ " " ++ (← l.body.text source)

end Loop

namespace Transform

/-- `while` becomes `do … while`. -/
def whileToDoWhile : Transform where
  name := "while_to_do_while"
  description := "Rewrite a while loop as a do-while loop"
  run source n :=
    Reshaping.ofShape (Loop.ofKind? "while_statement" n.tree) (Loop.renderDoWhile source)

/-- `do … while` becomes `while`. -/
def doWhileToWhile : Transform where
  name := "do_while_to_while"
  description := "Rewrite a do-while loop as a while loop"
  run source n := Reshaping.ofShape (Loop.ofKind? "do_statement" n.tree) (Loop.renderWhile source)

end Transform

end CodeActions
