import CodeActions.Dialect
import CodeActions.Selection
import CodeActions.Tree.Basic

/-!
# Documents

A document is a text with the tree that a parser made of it. Parsers are not part of this library:
whoever opens a document brings one.
-/

namespace CodeActions

/-- What makes a tree of a text in a dialect. -/
abbrev Parser : Type := Dialect → String → Tree

/-- A text and its tree. -/
structure Document where
  source : String
  tree : Tree
  dialect : Dialect
  deriving Inhabited

/-- The complaint about a position that a document does not have. -/
def Position.outsideMessage (p : Position) : String :=
  s!"Position {p.row}:{p.column} is outside the document"

namespace Document

/-- The document of a text. -/
def parse (parser : Parser) (dialect : Dialect) (source : String) : Document :=
  { source, tree := parser dialect source, dialect }

/-- The length of the text in bytes. -/
def byteSize (d : Document) : Nat := Text.byteSize d.source

/-- The offset of a position, if the text has it. -/
def offsetAt? (d : Document) (p : Position) : Option Nat := Text.offsetAt? d.source.toList p

/-- The position of an offset, if it lies on a character boundary. -/
def positionAt? (d : Document) (offset : Nat) : Option Position :=
  Text.positionAt? d.source.toList offset

/-- The offset of a position; a position that the text does not have is the error. -/
def resolve (d : Document) (p : Position) : Except Position Nat :=
  match d.offsetAt? p with
  | some offset => .ok offset
  | none => .error p

/-- The span of a selection; the first position that the text does not have is the error. -/
def spanOf (d : Document) (s : Selection) : Except Position Span := do
  return ⟨← d.resolve s.start, ← d.resolve s.stop⟩

end Document

end CodeActions
