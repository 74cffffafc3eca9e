import CodeActions.CommandLine.Run
import CodeActions.Json.Reader
import CodeActions.Tree.Bank

/-!
# The command

The outermost layer: it reads the files that the program is about to ask for, hands lines over to
the session and prints what comes back. The program has no grammar built in. Trees come from a tree
bank in JSON, in the file that the environment variable `TREE_BANK` names.
-/

namespace CodeActions.Main

/-- The text of a file, if it can be read. -/
def readText? (path : String) : IO (Option String) := do
  try
    return some (← IO.FS.readFile path)
  catch _ =>
    return none

/-- The files with what a path leads to now. -/
def refresh (files : Files) (path : String) : IO Files := do
  match ← readText? path with
  | some text => return (files.write? path text).getD files
  | none => return { files with entries := files.entries.filter fun (name, _) => name != path }

/-- Saves the entries that have changed. -/
def save (before after : Files) : IO Unit := do
  for (name, text) in after.entries do
    if before.entries.lookup name != some text then
      IO.FS.writeFile name text

/-- The files that the arguments name. -/
def argumentFiles (words : List String) : List String :=
  match CommandLine.Arguments.parse words with
  | .run a => a.config.toList ++ a.file.toList
  | _ => []

/-- The files that a line reads. -/
def lineFiles (line : String) : List String :=
  match Command.ofLine (Text.trim line.toList) with
  | .ok (.load path) => [path]
  | _ => []

/-- The parser that looks texts up in the tree bank of the environment. -/
def environmentParser : IO Parser := do
  let bank ← match ← IO.getEnv "TREE_BANK" with
    | none => pure none
    | some path => readText? path
  return ((bank.bind Json.parse?).bind Tree.Bank.ofJson?).getD {} |>.parser

/-- Prints to the two outputs. -/
def emit (printed : CommandLine.Printed) : IO Unit := do
  IO.print printed.out
  (← IO.getStdout).flush
  IO.eprint printed.err

/-- Answers lines until the session or the input ends. -/
partial def converseWith (parser : Parser) (w : Workspace) : IO Unit := do
  let line ← (← IO.getStdin).getLine
  match CommandLine.typedLines line with
  | [] => emit CommandLine.farewell
  | line :: _ =>
    let files ← (lineFiles line).foldlM refresh w.files
    let w := { w with files }
    let (next, printed) := CommandLine.answerLine parser w line
    save w.files next.files
    emit printed
    if next.session.running then
      converseWith parser next

/-- A call of the program. -/
def run (words : List String) : IO UInt32 := do
  let parser ← environmentParser
  let files ← (argumentFiles words).foldlM refresh { locate := some }
  match CommandLine.begin parser files words with
  | .over code printed =>
    emit printed
    return UInt32.ofNat code
  | .session w printed =>
    emit printed
    converseWith parser w
    return 0

end CodeActions.Main

def main (words : List String) : IO UInt32 := CodeActions.Main.run words
