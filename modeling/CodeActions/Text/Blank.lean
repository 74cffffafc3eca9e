import CodeActions.Text.Ranges

/-!
# White space

White space is what carries the Unicode property `White_Space`. Around it a text can be trimmed,
taken apart into words, or stripped of its layout altogether.
-/

namespace CodeActions.Text

/-- The ranges of code points that have the property `White_Space`, in order. -/
def blankRanges : List (Nat × Nat) :=
  [(0x09, 0x0D), (0x20, 0x20), (0x85, 0x85), (0xA0, 0xA0), (0x1680, 0x1680), (0x2000, 0x200A),
   (0x2028, 0x2029), (0x202F, 0x202F), (0x205F, 0x205F), (0x3000, 0x3000)]

/-- White space of any kind, line ends included. -/
def isBlank (c : Char) : Bool := inRanges blankRanges c

/-! ## §1 Trimming -/

/-- The characters without the white space in front of them. -/
def trimStart (cs : List Char) : List Char := cs.dropWhile isBlank

/-- The characters without the white space behind them. -/
def trimEnd (cs : List Char) : List Char := (cs.reverse.dropWhile isBlank).reverse

/-- The characters without the white space on both sides. -/
def trim (cs : List Char) : List Char := trimEnd (trimStart cs)

/-- The characters that are not white space. -/
def squash (cs : List Char) : List Char := cs.filter fun c => !isBlank c

/-! ## §2 Words -/

/-- The word under construction, if it has begun, joins the finished ones. -/
def flushWord : List Char × List (List Char) → List (List Char)
  | ([], words) => words
  | (word, words) => word :: words

/-- The character opens the word under construction, or ends it if it is white space. -/
def growWord (c : Char) (state : List Char × List (List Char)) : List Char × List (List Char) :=
  if isBlank c then ([], flushWord state) else (c :: state.1, state.2)

/-- The maximal runs of characters that are not white space, in order. -/
def words (cs : List Char) : List (List Char) :=
  flushWord (cs.foldr growWord ([], []))

end CodeActions.Text
