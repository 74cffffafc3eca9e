import CodeActions.Literal.Chunk
import CodeActions.Transform

/-!
# Templates from concatenations

A chain of `+` with a string in it is a template literal: strings become text and other operands
become holes. Up to the first string the operands may be numbers that are added, so all of them
together become one hole.
-/

namespace CodeActions

/-- An operand of a chain of `+`. -/
structure PlusOperand where
  leaf : Tree
  /-- The part of the chain that ends with the operand. -/
  upTo : Tree
  deriving Repr

/-- The expression is a sum. -/
def Tree.isPlus (t : Tree) : Bool := t.kind == "binary_expression" && t.operator? == some "+"

/-- The operands of a chain of `+` from left to right. Only the left sides are followed, through
their parentheses. -/
def Tree.plusOperands? (t : Tree) : Option (List PlusOperand) :=
  if t.isPlus then
    match _h : t.field? "left", t.field? "right" with
    | some left, some right => left.unwrapParens.plusOperands?.map (· ++ [⟨right, t⟩])
    | _, _ => none
  else
    some [⟨t, t⟩]
termination_by t.size
decreasing_by exact Nat.lt_of_le_of_lt (Tree.size_unwrapParens_le left) (Tree.size_lt_of_field? _h)

/-- A piece of the template that is to be written. -/
inductive ConcatPiece where
  /-- A quoted string, whose contents become text. -/
  | quoted (literal : Tree)
  /-- A template, whose contents are taken over with their holes. -/
  | template (literal : Tree)
  | hole (expression : Tree)
  deriving Repr

namespace ConcatPiece

/-- The expression is a quoted string or a template. -/
def isStringLike (t : Tree) : Bool := t.kind == "string" || t.kind == "template_string"

/-- The piece that an operand becomes. -/
def ofLeaf (t : Tree) : ConcatPiece :=
  if t.kind = "string" then .quoted t
  else if t.kind = "template_string" then .template t
  else .hole t

/-- The pieces for a chain of operands that has a string: one hole for everything before the first
string, then one piece for each operand. -/
def ofOperands? (operands : List PlusOperand) : Option (List ConcatPiece) :=
  match operands.span fun operand => !isStringLike operand.leaf.unwrapParens with
  | (_, []) => none
  | (before, after) =>
    some (before.getLast?.toList.map (fun operand => .hole operand.upTo.unwrapParens) ++
      after.map fun operand => ofLeaf operand.leaf.unwrapParens)

/-- The pieces for a sum. -/
def ofTree? (t : Tree) : Option (List ConcatPiece) := do
  if t.isPlus then ofOperands? (← t.plusOperands?) else none

/-- The piece inside the template. -/
def render (source : String) : ConcatPiece → Cut String
  | .quoted literal => do return Literal.stringToTemplate (← literal.text source)
  | .template literal => do return Literal.inner (← literal.text source)
  | .hole expression => do return "$\x7b" ++ (← expression.text source) ++ "\x7d"

/-- The template with its delimiters. -/
def templateLiteral (source : String) (pieces : List ConcatPiece) : Cut String := do
  return "\x60" ++ String.join (← pieces.mapM (render source)) ++ "\x60"

end ConcatPiece

/-- A concatenation becomes a template. -/
def Transform.concatToTemplate : Transform where
  name := "concat_to_template"
  description := "Rewrite a string concatenation as a template literal"
  run source n :=
    Reshaping.ofShape (ConcatPiece.ofTree? n.tree) (ConcatPiece.templateLiteral source)

end CodeActions
