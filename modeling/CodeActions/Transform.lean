import CodeActions.Edit.Basic
import CodeActions.Tree.Expression
import CodeActions.Tree.Node

/-!
# Transforms

A transform is one named way to reshape a construct. Asked about a node it cuts the pieces it needs
out of the source and either hands out what to put in the node's place or declines, because the node
does not have the shape it is made for.
-/

namespace CodeActions

/-- What a transform says about a node: nothing if it declines. -/
abbrev Reshaping : Type := Cut (Option Replacement)

/-- The answer of a transform that has found its shape: the text that it makes of it. -/
def Reshaping.ofShape {α : Type} (shape : Option α) (render : α → Cut String) : Reshaping :=
  match shape with
  | none => return none
  | some shape => do return some (.text (← render shape))

/-- A named way to reshape a construct. -/
structure Transform where
  /-- The name in action titles. -/
  name : String
  /-- One line for people. -/
  description : String
  /-- What the transform makes of a node of the source. -/
  run : String → Node → Reshaping

/-- The texts of the trees with a separator between them. -/
def Tree.joinTexts (source : String) (separator : String) (ts : List Tree) : Cut String := do
  return separator.intercalate (← ts.mapM fun t => t.text source)

end CodeActions
