import CodeActions.Branch.Chain
import CodeActions.Statement.Guard
import CodeActions.Transform
import CodeActions.Tree.Statement

/-!
# Conditional expressions from `if` statements

A chain of branches that hold nothing but expressions is a conditional expression. If the branches
end with `return`, all of them have to, and the expression is returned as a whole.
-/

namespace CodeActions

/-- How a branch ends. -/
inductive Ending where
  /-- Control goes on behind the statement. -/
  | falls
  /-- The branch returns, with or without a value. -/
  | returns (value : Option Tree)
  deriving Repr

/-- What a branch evaluates. -/
structure ArmValue where
  /-- The expressions of its statements in order. -/
  effects : List Tree
  ending : Ending
  deriving Repr

namespace ArmValue

/-- What a body evaluates, if it is a run of expression statements that may end in a `return`. -/
def ofBody? (body : Tree) : Option ArmValue :=
  match body.statements.getLast? with
  | none => some ⟨[], .falls⟩
  | some last =>
    if last.kind = "return_statement" then do
      return ⟨← Tree.expressions? body.statements.dropLast, .returns last.firstCode?⟩
    else do
      return ⟨← Tree.expressions? body.statements, .falls⟩

/-- The branch ends with `return`. -/
def isReturn (v : ArmValue) : Bool :=
  match v.ending with
  | .falls => false
  | .returns _ => true

/-- The branch does nothing at all. -/
def isEmpty (v : ArmValue) : Bool := v.effects.isEmpty && !v.isReturn

/-- The text of what is returned. -/
def endingTexts (source : String) (v : ArmValue) : Cut (List String) :=
  match v.ending with
  | .falls => return []
  | .returns none => return ["undefined"]
  | .returns (some value) => do return [← value.text source]

/-- A parenthesized comma sequence, or `undefined` if there is nothing to evaluate. -/
def render (source : String) (v : ArmValue) : Cut String := do
  let effects ← v.effects.mapM fun e => e.text source
  let ending ← v.endingTexts source
  match effects ++ ending with
  | [] => return "undefined"
  | texts => return "(" ++ ", ".intercalate texts ++ ")"

end ArmValue

/-- A conditional expression that is to be written. -/
structure Conditional where
  branches : List (Tree × ArmValue)
  otherwise : Option ArmValue
  /-- The expression is returned. -/
  returned : Bool
  deriving Repr

namespace Conditional

/-- The values of a chain's branches in order. -/
def values (c : Conditional) : List ArmValue := c.branches.map Prod.snd ++ c.otherwise.toList

/-- Either all branches return or none does, a chain that returns does so in any case, and something
is evaluated. -/
def isUniform (c : Conditional) : Bool :=
  c.values.all (fun v => v.isReturn == c.returned) &&
    (!c.returned || c.otherwise.isSome) &&
    !c.values.all ArmValue.isEmpty

/-- The values of the branches of a chain, and whether the first one returns. -/
def ofChain? (chain : Chain) : Option Conditional := do
  let branches ← chain.branches.mapM fun branch => do
    return (branch.condition, ← ArmValue.ofBody? branch.body)
  let otherwise ← chain.otherwise.mapM ArmValue.ofBody?
  let (_, first) ← branches.head?
  return ⟨branches, otherwise, first.isReturn⟩

/-- The expression for an `if` statement. -/
def ofIf? (t : Tree) : Option Conditional := do
  let conditional ← ofChain? (← t.ifChain?)
  if conditional.isUniform then some conditional else none

/-- `c₁ ? v₁ : c₂ ? v₂ : v₃`. A missing `else` is `undefined`. -/
def render (source : String) (c : Conditional) : Cut String := do
  let branches ← c.branches.mapM fun (condition, value) => do
    return (← condition.asOperand source .conditional) ++ " ? " ++ (← value.render source) ++ " : "
  let otherwise ← match c.otherwise with
    | some value => value.render source
    | none => pure "undefined"
  return (if c.returned then "return " else "") ++ String.join branches ++ otherwise

end Conditional

/-- An `if` becomes a conditional expression. -/
def Transform.ifToTernary : Transform where
  name := "if_to_ternary"
  description := "Rewrite an if/else chain as a conditional expression"
  run source n := Reshaping.ofShape (Conditional.ofIf? n.tree) fun shape => do
    n.guarded source (← shape.render source)

end CodeActions
