import CodeActions.Dialect
import CodeActions.Selection
import CodeActions.Text.Unsigned

/-!
# Arguments

The words behind the name of the program: options, each at most once, and at most one file. Words
are read from left to right; the first one that makes no sense ends the reading, and so does a
request for the version or for help.
-/

namespace CodeActions.CommandLine

/-- What the program is asked to do. -/
structure Arguments where
  file : Option String := none
  /-- The selection as it is written. -/
  place : Option String := none
  /-- The number of the action to run. -/
  apply : Option Nat := none
  json : Bool := false
  dialect : Option Dialect := none
  /-- The configuration file. -/
  config : Option String := none
  interactive : Bool := false
  debug : Bool := false
  deriving Repr, DecidableEq

/-- The outcome of reading the arguments. -/
inductive Invocation where
  | run (arguments : Arguments)
  | version
  | help
  | refused
  deriving Repr, DecidableEq

/-- The shapes of a word. -/
inductive Word where
  /-- Everything behind it is a file. -/
  | separator
  /-- An option by its long name, perhaps with a value behind an equals sign. -/
  | long (name : String) (value : Option String)
  /-- Options by their letters. -/
  | short (letters : List Char)
  | plain
  deriving Repr, DecidableEq

/-- The shape of a word. A lone dash is a plain word. -/
def Word.ofArgument (argument : String) : Word :=
  match argument.toList with
  | ['-', '-'] => .separator
  | '-' :: '-' :: rest =>
    match Text.splitOnce? '=' rest with
    | some (name, value) => .long (String.ofList name) (some (String.ofList value))
    | none => .long (String.ofList rest) none
  | ['-'] => .plain
  | '-' :: letters => .short letters
  | _ => .plain

namespace Arguments

/-- The option takes a value. -/
def takesValue (name : String) : Bool := ["at", "apply", "dialect", "config"].contains name

/-- An option with its value, unless the option has one already or the value does not fit it. -/
def setValue? (a : Arguments) (name value : String) : Option Arguments :=
  match name with
  | "at" => if a.place.isSome then none else some { a with place := some value }
  | "apply" =>
    match a.apply, Unsigned.parse Unsigned.bound64 value.toList with
    | none, .ok number => some { a with apply := some number }
    | _, _ => none
  | "dialect" =>
    match a.dialect, Dialect.ofTag? value with
    | none, some dialect => some { a with dialect := some dialect }
    | _, _ => none
  | "config" => if a.config.isSome then none else some { a with config := some value }
  | _ => none

/-- A switch, unless it is set already. -/
def setSwitch? (a : Arguments) (name : String) : Option Arguments :=
  match name with
  | "json" => if a.json then none else some { a with json := true }
  | "interactive" => if a.interactive then none else some { a with interactive := true }
  | "debug" => if a.debug then none else some { a with debug := true }
  | _ => none

/-- The file, unless there is one already. -/
def setFile? (a : Arguments) (path : String) : Option Arguments :=
  if a.file.isSome then none else some { a with file := some path }

/-- Files only, without options. -/
def readFiles (a : Arguments) : List String → Invocation
  | [] => .run a
  | path :: rest =>
    match a.setFile? path with
    | some a => readFiles a rest
    | none => .refused

/-- Single letters. Either the reading ends with them or it goes on with what they set. -/
def readLetters (a : Arguments) : List Char → Invocation ⊕ Arguments
  | [] => .inr a
  | 'V' :: _ => .inl .version
  | 'h' :: _ => .inl .help
  | 'i' :: rest =>
    match a.setSwitch? "interactive" with
    | some a => readLetters a rest
    | none => .inl .refused
  | _ => .inl .refused

/-- The words from left to right. An option that takes a value has it behind an equals sign or in
the next word, which must be a plain one. -/
def read (a : Arguments) : List String → Invocation
  | [] => .run a
  | word :: rest =>
    match Word.ofArgument word with
    | .separator => readFiles a rest
    | .plain =>
      match a.setFile? word with
      | some a => read a rest
      | none => .refused
    | .short letters =>
      match a.readLetters letters with
      | .inl invocation => invocation
      | .inr a => read a rest
    | .long name (some value) =>
      match a.setValue? name value with
      | some a => read a rest
      | none => .refused
    | .long name none =>
      if name = "version" then .version
      else if name = "help" then .help
      else if takesValue name then
        match rest with
        | [] => .refused
        | value :: rest =>
          -- a lone dash is plain, so it can be a value; an option cannot
          match Word.ofArgument value, a.setValue? name value with
          | .plain, some a => read a rest
          | _, _ => .refused
      else
        match a.setSwitch? name with
        | some a => read a rest
        | none => .refused

/-- The arguments of a call of the program. -/
def parse (words : List String) : Invocation := read {} words

end Arguments

end CodeActions.CommandLine
