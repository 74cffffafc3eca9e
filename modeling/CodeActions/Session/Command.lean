import CodeActions.Selection

/-!
# Commands

A command is a word behind a dot, followed by its argument if it takes one. Words after a command
that takes none are passed over.
-/

namespace CodeActions

/-- What a session can be told to do. -/
inductive Command where
  | help
  | quit
  /-- Move the selection and list the actions there. -/
  | select (selection : Selection)
  /-- List the actions at the selection. -/
  | actions
  /-- Show the constructs around the selection. -/
  | path
  /-- Run an action of the listing by its number. -/
  | apply (index : Nat)
  /-- Print the text. -/
  | print
  /-- Save the text, under its own name unless another one is given. -/
  | write (path : Option String)
  | load (path : String)
  /-- Switch between short and detailed output. -/
  | debug
  deriving Repr, DecidableEq

/-- Why a line is no command. -/
inductive CommandError where
  | noDot
  | empty
  | selectUsage
  | applyUsage
  | writeUsage
  | loadUsage
  | badIndex (word : String) (cause : UnsignedError)
  | badSelection (error : SelectionError)
  | unknown (word : String)
  deriving Repr, DecidableEq

namespace CommandError

/-- The wording of each fault. -/
def message : CommandError → String
  | noDot => "Commands must start with '.'"
  | empty => "Empty command"
  | selectUsage => "Usage: .at LINE:COL[-LINE:COL]"
  | applyUsage => "Usage: .apply <number>"
  | writeUsage => "Usage: .write [path]"
  | loadUsage => "Usage: .load <file>"
  | badIndex word _ => s!"'{word}' is not an action number"
  | badSelection error => error.message
  | unknown word => s!"Unknown command: .{word}"

/-- What is wrong with the number, if it is a number that is wrong. -/
def cause? : CommandError → Option UnsignedError
  | badIndex _ cause => some cause
  | badSelection error => error.cause?
  | _ => none

end CommandError

namespace Command

/-- The command that a word and the words after it make up. -/
def ofWords (word : String) (arguments : List (List Char)) : Except CommandError Command :=
  if word = "help" ∨ word = "h" then
    .ok .help
  else if word = "quit" ∨ word = "q" ∨ word = "exit" then
    .ok .quit
  else if word = "at" then
    match arguments with
    | [selection] =>
      match Selection.parse selection with
      | .ok selection => .ok (.select selection)
      | .error error => .error (.badSelection error)
    | _ => .error .selectUsage
  else if word = "actions" ∨ word = "ls" then
    .ok .actions
  else if word = "path" then
    .ok .path
  else if word = "apply" ∨ word = "a" then
    match arguments with
    | [index] =>
      match Unsigned.parse Unsigned.bound64 index with
      | .ok index => .ok (.apply index)
      | .error cause => .error (.badIndex (String.ofList index) cause)
    | _ => .error .applyUsage
  else if word = "show" ∨ word = "cat" then
    .ok .print
  else if word = "write" ∨ word = "w" then
    match arguments with
    | [] => .ok (.write none)
    | [file] => .ok (.write (some (String.ofList file)))
    | _ => .error .writeUsage
  else if word = "load" then
    match arguments with
    | [file] => .ok (.load (String.ofList file))
    | _ => .error .loadUsage
  else if word = "debug" then
    .ok .debug
  else
    .error (.unknown word)

/-- The command that a line holds. -/
def parse (line : List Char) : Except CommandError Command :=
  match Text.trim line with
  | '.' :: rest =>
    match Text.words rest with
    | [] => .error .empty
    | word :: arguments => ofWords (String.ofList word) arguments
  | _ => .error .noDot

end Command

end CodeActions
