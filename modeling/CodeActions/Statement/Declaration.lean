import CodeActions.Text.Blank
import CodeActions.Statement.Guard
import CodeActions.Transform

/-!
# Splitting declarations

A declaration of several variables becomes one declaration for each, every one on a line of its own
with the indentation of the first.
-/

namespace CodeActions

/-- The characters that indent a line. -/
def Text.isIndent (c : Char) : Bool := c == ' ' || c == '\t'

/-- The offset at which the last line of a text starts. -/
def Text.lastLineStart (s : String) : Nat :=
  size (s.toList.reverse.dropWhile (· != '\n')).reverse

/-- The number of bytes that indent a line. -/
def Text.indentWidth (line : String) : Nat := size (line.toList.takeWhile isIndent)

/-- What indents the line that an offset lies on. -/
def Text.lineIndent (source : String) (offset : Nat) : Cut String := do
  let front ← upTo source offset
  let line ← onwards source (lastLineStart front)
  upTo line (indentWidth line)

/-- The declaration stands where only one can stand. -/
def Node.isSingleDeclaration (n : Node) : Bool :=
  match n.parent? with
  | some parent => ["for_statement", "for_in_statement", "export_statement"].contains parent.kind
  | none => false

/-- A declaration of variables taken apart. -/
structure Declaration where
  keyword : Tree
  declarators : List Tree
  deriving Repr

namespace Declaration

/-- The kinds of statements that declare variables. -/
def kinds : List String := ["lexical_declaration", "variable_declaration"]

/-- The parts of a declaration that can become several: two variables or more and no comments. -/
def ofNode? (n : Node) : Option Declaration := do
  let declarators := n.tree.namedChildren.filter fun t => t.kind == "variable_declarator"
  if kinds.contains n.kind ∧ !n.isSingleDeclaration ∧
      !n.tree.namedChildren.any (fun t => t.kind == "comment") ∧ 2 ≤ declarators.length then
    return ⟨← n.tree.children.head?, declarators⟩
  else
    none

/-- One declaration to a line. Each ends with a semicolon if the whole one did. -/
def render (source : String) (n : Node) (d : Declaration) : Cut String := do
  let keyword ← d.keyword.text source
  let terminator := if Text.endsWith ';' (← n.tree.text source) then ";" else ""
  let indent ← Text.lineIndent source n.span.start
  let lines ← d.declarators.mapM fun t => do
    return keyword ++ " " ++ (← t.text source) ++ terminator
  return ("\n" ++ indent).intercalate lines

end Declaration

/-- A declaration of several variables becomes several declarations. -/
def Transform.splitDeclaration : Transform where
  name := "split_declaration"
  description := "Split a multi-variable declaration into one declaration per variable"
  run source n := Reshaping.ofShape (Declaration.ofNode? n) (Declaration.render source n)

end CodeActions
