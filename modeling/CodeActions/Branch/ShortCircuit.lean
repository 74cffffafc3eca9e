import CodeActions.Statement.Guard
import CodeActions.Transform
import CodeActions.Tree.Statement

/-!
# Short circuits

An `if` without `else` whose body consists of expressions does what a short circuit does:
`c && (a, b)` runs the right side exactly if `c` holds, `c || (a, b)` exactly if it does not.
-/

namespace CodeActions

/-- The two operators that may leave their right side alone. -/
inductive Logical where
  | and
  | or
  deriving Repr, DecidableEq

namespace Logical

/-- How the operator is written. -/
def symbol : Logical → String
  | and => "&&"
  | or => "||"

/-- The place on the left of the operator. -/
def operandOf : Logical → Tree.OperandOf
  | and => .and
  | or => .or

/-- The operator that a symbol stands for. -/
def ofSymbol? (symbol : String) : Option Logical :=
  if symbol = "&&" then some and else if symbol = "||" then some or else none

end Logical

/-- A test and the expressions that it lets run, or that its failure lets run. -/
structure ShortCircuit where
  operator : Logical
  left : Tree
  right : List Tree
  deriving Repr

namespace ShortCircuit

/-- The short circuit that does what an `if` does. A negated test becomes the test of `||`. -/
def ofIf? (t : Tree) : Option ShortCircuit := do
  if t.kind = "if_statement" ∧ (t.field? "alternative").isNone then
    let condition := (← t.field? "condition").unwrapParens
    let body ← t.field? "consequence"
    let right ← Tree.expressions? body.statements
    if right.isEmpty then
      none
    else if condition.kind = "unary_expression" ∧ condition.operator? = some "!" then
      return ⟨.or, ← condition.field? "argument", right⟩
    else
      return ⟨.and, condition, right⟩
  else
    none

/-- `left && (e₁, …, eₙ)` or `left || (e₁, …, eₙ)`. -/
def render (source : String) (s : ShortCircuit) : Cut String := do
  let left ← s.left.asOperand source s.operator.operandOf
  let right ← Tree.joinTexts source ", " s.right
  return left ++ " " ++ s.operator.symbol ++ " (" ++ right ++ ")"

end ShortCircuit

/-- An `if` without `else` becomes a short circuit. -/
def Transform.ifToBinary : Transform where
  name := "if_to_binary"
  description := "Rewrite an else-less if as a short-circuit expression"
  run source n := Reshaping.ofShape (ShortCircuit.ofIf? n.tree) fun shape => do
    n.guarded source (← shape.render source)

end CodeActions
