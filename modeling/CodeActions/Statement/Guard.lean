import CodeActions.Text.Blank
import CodeActions.Tree.Expression
import CodeActions.Tree.Node

/-!
# Guarding a statement against its neighbours

Where a statement is not ended by a semicolon, a line that begins with an opening parenthesis or the
like goes on with the statement before it. A new statement that ends or begins without a semicolon
is therefore guarded by semicolons of its own.
-/

namespace CodeActions

/-- The characters with which a line goes on with the expression on the line before. The third one
is the backtick. -/
def continuationStarts : List Char := ['(', '[', '\x60', '+', '-', '/']

/-- The kinds of statements that end with an expression, so that a closing brace does not end
them. -/
def expressionEndedKinds : List String :=
  ["expression_statement", "lexical_declaration", "variable_declaration"]

/-- The text opens with one of the characters. -/
def Text.opensWith (chars : List Char) (s : String) : Bool :=
  match s.toList with
  | c :: _ => chars.contains c
  | [] => false

/-- The text, white space at its end left aside, ends with the character. -/
def Text.endsWith (mark : Char) (s : String) : Bool :=
  (trimEnd s.toList).getLast? == some mark

namespace Node

/-- The statement before the node is not ended by a semicolon, nor by the brace of a block. -/
def followsUnterminated (source : String) (n : Node) : Cut Bool :=
  match n.previousCode? with
  | none => return false
  | some previous => do
    let body ← previous.text source
    let block := !expressionEndedKinds.contains previous.kind && Text.endsWith '\x7d' body
    return !(Text.endsWith ';' body || block)

/-- Nothing but white space lies between the node and the end of its block or of the text. -/
def endsBlock (source : String) (n : Node) : Cut Bool := do
  let rest ← Text.onwards source n.span.stop
  match Text.trimStart rest.toList with
  | [] => return true
  | c :: _ => return c = '\x7d'

/-- A statement that is to replace the node, with the semicolons that keep it apart: one behind it
unless it is the last in its block, one before it if it would go on with the statement before. -/
def guarded (source : String) (n : Node) (statement : String) : Cut String := do
  let closed := if ← n.endsBlock source then statement else statement ++ ";"
  -- the closing semicolon comes first, so that an empty statement opens with it
  if Text.opensWith continuationStarts closed then
    if ← n.followsUnterminated source then
      return ";" ++ closed
  return closed

end Node

end CodeActions
