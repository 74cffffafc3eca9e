/-!
# Unsigned numbers in decimal

A number is written as one or more ASCII digits with at most one `+` in front, and has to stay
below a bound. The characters are read from the left and the first one at fault decides what is
wrong: a character that is no digit is noticed before the bound is.
-/

namespace CodeActions

/-- What is wrong with the text of a number. -/
inductive UnsignedError where
  | empty
  | invalidDigit
  | tooLarge
  deriving Repr, DecidableEq

/-- The wording of each fault. -/
def UnsignedError.message : UnsignedError → String
  | .empty => "cannot parse integer from empty string"
  | .invalidDigit => "invalid digit found in string"
  | .tooLarge => "number too large to fit in target type"

namespace Unsigned

/-- The bound of numbers that fit in 64 bits. -/
def bound64 : Nat := UInt64.size

/-- The digit's value. -/
def digitValue (c : Char) : Nat := c.toNat - '0'.toNat

/-- Reads digits behind a number read so far. -/
def readDigits (bound : Nat) : Nat → List Char → Except UnsignedError Nat
  | value, [] => .ok value
  | value, c :: cs =>
    if !c.isDigit then
      .error .invalidDigit
    else if bound ≤ 10 * value + digitValue c then
      .error .tooLarge
    else
      readDigits bound (10 * value + digitValue c) cs

/-- Reads a number below the bound. -/
def parse (bound : Nat) : List Char → Except UnsignedError Nat
  | [] => .error .empty
  | ['+'] => .error .invalidDigit
  | '+' :: cs => readDigits bound 0 cs
  | cs => readDigits bound 0 cs

end Unsigned

end CodeActions
