import CodeActions.Transform

/-!
# Swapped branches

The two branches of a conditional expression or of an `if` change places. The test stays as it is.
-/

namespace CodeActions

/-- The parts of a construct with a test and two branches. -/
structure TwoBranches where
  condition : Tree
  consequence : Tree
  alternative : Tree
  deriving Repr

namespace TwoBranches

/-- The parts of a conditional expression. -/
def ofTernary? (t : Tree) : Option TwoBranches := do
  if t.kind = "ternary_expression" then
    return ⟨← t.field? "condition", ← t.field? "consequence", ← t.field? "alternative"⟩
  else
    none

/-- The parts of an `if` statement with an `else`. -/
def ofIf? (t : Tree) : Option TwoBranches := do
  if t.kind = "if_statement" then
    let alternative ← (← t.field? "alternative").firstCode?
    return ⟨← t.field? "condition", ← t.field? "consequence", alternative⟩
  else
    none

/-- `condition ? alternative : consequence`. -/
def renderTernary (source : String) (b : TwoBranches) : Cut String := do
  return (← b.condition.text source) ++ " ? " ++ (← b.alternative.text source) ++ " : " ++
    (← b.consequence.text source)

/-- `if condition alternative else consequence`; the condition has its parentheses. -/
def renderIf (source : String) (b : TwoBranches) : Cut String := do
  return "if " ++ (← b.condition.text source) ++ " " ++ (← b.alternative.text source) ++ " else " ++
    (← b.consequence.text source)

end TwoBranches

namespace Transform

/-- The branches of a conditional expression change places. -/
def swapTernaryBranches : Transform where
  name := "swap_ternary_branches"
  description := "Swap the two operands of a conditional expression"
  run source n :=
    Reshaping.ofShape (TwoBranches.ofTernary? n.tree) (TwoBranches.renderTernary source)

/-- The branches of an `if` change places. -/
def swapIfElseBranches : Transform where
  name := "swap_if_else_branches"
  description := "Swap the then and else bodies of an if statement"
  run source n := Reshaping.ofShape (TwoBranches.ofIf? n.tree) (TwoBranches.renderIf source)

end Transform

end CodeActions
