import CodeActions.Literal.Chunk
import CodeActions.Transform

/-!
# Concatenations from templates

A template literal is text with holes. As a concatenation its chunks of text become quoted literals
and its holes parenthesized operands, with `+` between them.
-/

namespace CodeActions

/-- The node is the template of a tagged template, which is a call. -/
def Node.isTagged (n : Node) : Bool :=
  n.parent?.any (fun parent => parent.kind == "call_expression") && n.isField "arguments"

/-- A piece of a template. -/
inductive TemplatePart where
  /-- Text as it is written in the template. -/
  | chunk (raw : String)
  | hole (expression : Tree)
  deriving Repr

namespace TemplatePart

/-- The text between two offsets, if there is any. -/
def chunkBetween (source : String) (start stop : Nat) : Cut (List TemplatePart) := do
  if start < stop then
    return [.chunk (← Text.slice source start stop)]
  return []

/-- The pieces from an offset on, given the holes that are left. A hole without an expression spoils
the template. -/
def between (source : String) (stop : Nat) : Nat → List Tree → Cut (Option (List TemplatePart))
  | start, [] => do return some (← chunkBetween source start stop)
  | start, slot :: slots => do
    let chunk ← chunkBetween source start slot.span.start
    match slot.firstCode? with
    | none => return none
    | some expression =>
      let rest ← between source stop slot.span.stop slots
      return rest.map fun rest => chunk ++ .hole expression :: rest

/-- The pieces between the delimiters of a template that is not tagged. -/
def ofNode? (source : String) (n : Node) : Cut (Option (List TemplatePart)) :=
  if n.kind = "template_string" ∧ !n.isTagged ∧ n.span.stop ≠ 0 then
    between source (n.span.stop - 1) (n.span.start + 1)
      (n.tree.namedChildren.filter fun t => t.kind == "template_substitution")
  else
    return none

/-- No string stands early enough for `+` to join strings: there is nothing, or a hole alone, or two
holes come first. -/
def needsEmptyString : List TemplatePart → Bool
  | [] => true
  | [.hole _] => true
  | .hole _ :: .hole _ :: _ => true
  | _ => false

/-- The operands of the concatenation: the pieces, behind an empty string if they need one. -/
def operands (parts : List TemplatePart) : List TemplatePart :=
  if needsEmptyString parts then .chunk "" :: parts else parts

/-- An operand of the concatenation. -/
def render (source : String) : TemplatePart → Cut String
  | .chunk raw => return String.ofList (Literal.quoteChunk raw.toList)
  | .hole expression => expression.textIn source true

/-- The operands with `+` between them. -/
def concatenation (source : String) (parts : List TemplatePart) : Cut String := do
  return " + ".intercalate (← (operands parts).mapM (render source))

end TemplatePart

/-- A template becomes a concatenation. -/
def Transform.templateToConcat : Transform where
  name := "template_to_concat"
  description := "Rewrite a template literal as string concatenation"
  run source n := do
    Reshaping.ofShape (← TemplatePart.ofNode? source n) (TemplatePart.concatenation source)

end CodeActions
