import CodeActions.Transform
import CodeActions.Tree.Statement

/-!
# Bodies of functions and arrows

An arrow may have an expression for a body, which is its result; a function has a block. A comma
sequence and a block of expression statements are two forms of the same thing: expressions evaluated
in order, the last one the result. A block without `return` gives `undefined`.
-/

namespace CodeActions

/-- The body of a function that is to be written. -/
inductive FunctionBody where
  /-- A block that stays as it is. -/
  | kept (block : Tree)
  /-- Expressions as statements, and what is returned behind them. -/
  | statements (effects : List Tree) (result : Option Tree)
  deriving Repr

namespace FunctionBody

/-- The body for the body of an arrow. An `undefined` behind other expressions need not be
returned. -/
def ofArrow (body : Tree) : FunctionBody :=
  if body.kind = "statement_block" then
    .kept body
  else
    let elements := body.unwrapParens.sequence
    match elements.getLast? with
    | none => .statements [] none
    | some last =>
      -- behind nothing else it is kept, so that the body does not become empty
      if last.kind = "undefined" ∧ !elements.dropLast.isEmpty then
        .statements elements.dropLast none
      else .statements elements.dropLast (some last)

/-- The statement that returns the result. -/
def returnTexts (source : String) : Option Tree → Cut (List String)
  | some result => do return ["return " ++ (← result.text source)]
  | none => return []

/-- The block on one line. -/
def render (source : String) : FunctionBody → Cut String
  | .kept block => block.text source
  | .statements effects result => do
    let effects ← effects.mapM fun e => e.asStatement source
    match effects ++ (← returnTexts source result) with
    | [] => return "\x7b\x7d"
    | texts => return "\x7b " ++ "; ".intercalate texts ++ " \x7d"

end FunctionBody

/-- The body of an arrow that is to be written. -/
inductive ArrowBody where
  /-- A block that stays as it is. -/
  | kept (block : Tree)
  /-- A comma sequence that ends with the result; without one it ends with `undefined`. -/
  | sequence (effects : List Tree) (result : Option Tree)
  deriving Repr

namespace ArrowBody

/-- The sequence for a block of expression statements that may end with the return of an
expression. -/
def collapse? (block : Tree) : Option ArrowBody := do
  let last ← block.statements.getLast?
  if last.kind = "return_statement" then
    return .sequence (← Tree.expressions? block.statements.dropLast) (some (← last.firstCode?))
  else
    return .sequence (← Tree.expressions? block.statements) none

/-- The body for the block of a function. -/
def ofFunction (block : Tree) : ArrowBody := (collapse? block).getD (.kept block)

/-- The text of the result. -/
def resultText (source : String) : Option Tree → Cut String
  | some result => result.text source
  | none => return "undefined"

/-- The block, or the sequence in parentheses. -/
def render (source : String) : ArrowBody → Cut String
  | .kept block => block.text source
  | .sequence effects result => do
    let effects ← effects.mapM fun e => e.text source
    return "(" ++ ", ".intercalate (effects ++ [← resultText source result]) ++ ")"

end ArrowBody

end CodeActions
