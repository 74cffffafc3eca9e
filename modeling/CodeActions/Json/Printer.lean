import CodeActions.Json.Basic

/-!
# Writing JSON

Values are laid out over several lines, with two spaces for each level. Characters outside of ASCII
are written as they are.
-/

namespace CodeActions.Json

namespace Printer

/-- Two hexadecimal digits. -/
def hexPair (n : Nat) : List Char := [Nat.digitChar (n / 16), Nat.digitChar (n % 16)]

/-- A character inside a string. -/
def escape (c : Char) : List Char :=
  if c = '"' then ['\\', '"']
  else if c = '\\' then ['\\', '\\']
  else if c = '\x08' then ['\\', 'b']
  else if c = '\x0c' then ['\\', 'f']
  else if c = '\n' then ['\\', 'n']
  else if c = '\r' then ['\\', 'r']
  else if c = '\t' then ['\\', 't']
  else if c.toNat < 0x20 then ['\\', 'u', '0', '0'] ++ hexPair c.toNat
  else [c]

/-- A string in its quotes. -/
def quote (s : String) : String := "\"" ++ String.ofList (s.toList.flatMap escape) ++ "\""

/-- A new line at a level. -/
def newline (level : Nat) : String := "\n" ++ String.ofList (List.replicate (2 * level) ' ')

/-- Parts between brackets, each on a line of its own one level deeper. Without parts the brackets
stand together. -/
def bracket (opening closing : String) (level : Nat) : List String → String
  | [] => opening ++ closing
  | parts =>
    opening ++ newline (level + 1) ++ ("," ++ newline (level + 1)).intercalate parts ++
      newline level ++ closing

mutual

/-- A value that starts at a level. A value that no text can hold is written as `null`. -/
def value (level : Nat) : Json → String
  | null | broken => "null"
  | bool true => "true"
  | bool false => "false"
  | nat n => toString n
  | number literal => literal
  | str s => quote s
  | arr list => bracket "[" "]" level (items (level + 1) list)
  | obj list => bracket "\x7b" "\x7d" level (entries (level + 1) list)

/-- The items of a list. -/
def items (level : Nat) : List Json → List String
  | [] => []
  | item :: rest => value level item :: items level rest

/-- The entries of an object. -/
def entries (level : Nat) : List (String × Json) → List String
  | [] => []
  | (key, item) :: rest => (quote key ++ ": " ++ value level item) :: entries level rest

end

end Printer

/-- The value laid out over lines. -/
def pretty (j : Json) : String := Printer.value 0 j

end CodeActions.Json
