import CodeActions.Text.Cut

/-!
# Rows and columns

A position is a row and a column, both counted from zero, the column in bytes. Rows end at line
feeds, which belong to the row they end. An offset and a position name the same place of a text in
two ways; either can be turned into the other where it names a place at all.
-/

namespace CodeActions

/-- A place in a text by row and byte column. -/
structure Position where
  row : Nat
  column : Nat
  deriving Repr, DecidableEq, Inhabited

namespace Position

/-- The first place of a text. -/
def origin : Position := ⟨0, 0⟩

/-- The place seen from one character earlier: a line feed adds a row, any other character moves
the places of its own row to the right. -/
def behind (c : Char) (p : Position) : Position :=
  if c = '\n' then ⟨p.row + 1, p.column⟩
  else if p.row = 0 then ⟨0, p.column + c.utf8Size⟩
  else p

end Position

namespace Text

/-! ## §1 From offsets to positions -/

/-- The row is the number of line feeds before the offset, the column the number of bytes since the
last of them. -/
def pointAt : List Char → Nat → Position
  | [], offset => ⟨0, offset⟩
  | c :: cs, offset =>
    if offset < c.utf8Size then ⟨0, offset⟩ else (pointAt cs (offset - c.utf8Size)).behind c

/-- The position of an offset that lies on a character boundary. -/
def positionAt? (cs : List Char) (offset : Nat) : Option Position :=
  if isBoundary cs offset then some (pointAt cs offset) else none

/-! ## §2 From positions to offsets -/

/-- The offset of a column of the first row, which has to end at the column or after it and to have
a character boundary there. -/
def columnOffset? : List Char → Nat → Option Nat
  | _, 0 => some 0
  | [], _ + 1 => none
  | c :: cs, column + 1 =>
    if c = '\n' then none
    else if c.utf8Size ≤ column + 1 then
      (columnOffset? cs (column + 1 - c.utf8Size)).map (c.utf8Size + ·)
    else none

/-- The offset of a position, if the text has it. -/
def offsetAt? : List Char → Position → Option Nat
  | cs, ⟨0, column⟩ => columnOffset? cs column
  | [], ⟨_ + 1, _⟩ => none
  | c :: cs, ⟨row + 1, column⟩ =>
    (offsetAt? cs ⟨if c = '\n' then row else row + 1, column⟩).map (c.utf8Size + ·)

end Text

end CodeActions
