/-!
# JSON values
-/

namespace CodeActions

/-- A JSON value. The entries of an object are kept in order, repeated keys included. -/
inductive Json where
  | null
  | bool (value : Bool)
  /-- A number written as digits alone. -/
  | nat (value : Nat)
  /-- Any other number, as it is written. -/
  | number (literal : String)
  | str (value : String)
  | arr (items : List Json)
  | obj (entries : List (String × Json))
  /-- A value that follows the grammar but that no text can hold: a string with half of a surrogate
  pair, or an object with such a key. -/
  | broken
  deriving Repr, Inhabited

namespace Json

/-- The text of a string. -/
def str? : Json → Option String
  | str value => some value
  | _ => none

/-- The truth value of a boolean. -/
def bool? : Json → Option Bool
  | bool value => some value
  | _ => none

/-- A number written as digits alone that lies below the bound. -/
def natBelow? (bound : Nat) : Json → Option Nat
  | nat value => if value < bound then some value else none
  | _ => none

/-- The items of a list. -/
def arr? : Json → Option (List Json)
  | arr items => some items
  | _ => none

/-- The fields of a record, in the order of their names. A record is an object that has each of
them, and perhaps other entries, or the list of the fields in order. -/
def record? (names : List String) : Json → Option (List Json)
  | obj entries => names.mapM fun name => entries.lookup name
  | arr items => if items.length = names.length then some items else none
  | _ => none

end Json

end CodeActions
