import CodeActions.CommandLine.Arguments
import CodeActions.Json.Printer
import CodeActions.Session.Workspace
import CodeActions.Text.Cluster

/-!
# The program

With a file, the program answers one question about it: which actions there are at a place, or what
one of them does. Without a file, or when asked to, it opens a session and reads lines.
-/

namespace CodeActions.CommandLine

/-! ## §1 Output -/

/-- What goes to the two outputs. -/
structure Printed where
  out : String := ""
  err : String := ""
  deriving Repr, DecidableEq, Inhabited

namespace Printed

/-- One output after the other. -/
def append (p q : Printed) : Printed := ⟨p.out ++ q.out, p.err ++ q.err⟩

instance : Append Printed := ⟨append⟩

/-- A line on the first output. -/
def line (s : String) : Printed := { out := s ++ "\n" }

/-- A line on the second output. -/
def complaint (s : String) : Printed := { err := s ++ "\n" }

/-- A notice on the console. Empty output is not shown. An action ends in its duration when details
are wanted; actions are quick. -/
def ofNotice : Notice → Printed
  | .output text => if text.isEmpty then {} else line text
  | .result applied debug => line ("=> " ++ applied.summary debug ++ if debug then " (0ms)" else "")
  | .error reason => complaint ("Error: " ++ reason.message)

end Printed

/-- The name and the version of the program. -/
def versionText : String := "turnabout 0.1.0"

/-- How to call the program. -/
def usage : String :=
  "\n".intercalate [
    "Usage: turnabout [OPTIONS] [FILE]",
    "",
    "  --at LINE:COL[-LINE:COL]  Cursor or selection, 1-based",
    "  --apply N                 Apply action N and print the resulting source",
    "  --json                    Print actions or the edit as JSON",
    "  --dialect DIALECT         js, javascript, ts, typescript or tsx",
    "  --config PATH             Configuration file (JSON)",
    "  -i, --interactive         Start an interactive session",
    "  --debug                   Enable debug mode",
    "  -h, --help                Print help",
    "  -V, --version             Print version"]

/-- Why the program fails. -/
inductive Failure where
  | config (error : ConfigError)
  | selection (error : SelectionError)
  | session (error : SessionError)
  /-- The action does not apply at the place. -/
  | declined (number : Nat) (place : String)
  deriving Repr, DecidableEq

/-- The wording of each failure. -/
def Failure.message : Failure → String
  | config error => error.message
  | selection error => error.message
  | session error => error.message
  | declined number place => s!"Action {number} does not apply at {place}"

/-! ## §2 One question -/

/-- The selection as it is written; without one the start of the text is meant. -/
def Arguments.placeText (a : Arguments) : String := a.place.getD "1:1"

/-- The listing of the actions at the selection. -/
def listing (a : Arguments) (offers : List Offer) : String :=
  if a.json then
    (Json.arr (offers.map Offer.toJson)).pretty ++ "\n"
  else if offers.isEmpty then
    "No actions at " ++ a.placeText ++ "\n"
  else
    String.join (offers.map fun o => o.line ++ "\n")

/-- The edit as JSON, or the text after it. -/
def editText (a : Arguments) (source : String) (edit : Edit) : Cut String :=
  if a.json then return edit.toJson.pretty ++ "\n" else edit.applyTo source

/-- The answer to one question: a listing, or what an action does. -/
def oneShot (parser : Parser) (a : Arguments) (s : Session) : Except Failure String := do
  let selection ← (Selection.parse a.placeText.toList).mapError .selection
  let s := { s with selection }
  match a.apply with
  | none => return listing a (← s.offers.mapError .session)
  | some number =>
    match ← (s.editFor parser number).mapError .session with
    | none => throw (.declined number a.placeText)
    | some edit =>
      let d ← s.current.mapError .session
      (editText a d.source edit).mapError fun error => .session (.cut error)

/-! ## §3 Sessions -/

/-- The greeting of a session. -/
def greeting (loaded : Option String) : Printed :=
  let file := match loaded with
    | some report => "Loaded " ++ report
    | none => "No file loaded, use .load <file>"
  .line "Turnabout v0.1.0" ++ .line file ++ .line "Type .help for help, .quit to exit" ++ .line ""

/-- The lines of the input. A line ends in a line feed, perhaps with a carriage return before it;
the last line need not end. -/
def inputLines : List Char → List (List Char)
  | [] => []
  | '\n' :: cs => [] :: inputLines cs
  | '\r' :: '\n' :: cs => [] :: inputLines cs
  | c :: cs =>
    match inputLines cs with
    | [] => [[c]]
    | line :: lines => (c :: line) :: lines

/-- The lines of the input as they were meant, after the backspaces in them. -/
def typedLines (input : String) : List String :=
  (inputLines input.toList).map fun line => String.ofList (Text.typed line)

/-- Answers one line, which is printed first. -/
def answerLine (parser : Parser) (w : Workspace) (line : String) : Workspace × Printed :=
  let (w, notice) := w.processLine parser line
  (w, .line ("turnabout> " ++ line) ++ (notice.map Printed.ofNotice).getD {})

/-- What is printed when the input ends before the session does. -/
def farewell : Printed := .line "Goodbye!"

/-- Answers lines until the session or the input ends. -/
def converse (parser : Parser) (w : Workspace) : List String → Workspace × Printed
  | [] => (w, farewell)
  | line :: rest =>
    let (w, printed) := answerLine parser w line
    if w.session.running then
      let (w, later) := converse parser w rest
      (w, printed ++ later)
    else
      (w, printed)

/-! ## §4 The whole program -/

/-- How a call of the program begins. -/
inductive Beginning where
  /-- It is over: the exit code and the output. -/
  | over (code : Nat) (printed : Printed)
  /-- A session is open and has greeted. -/
  | session (workspace : Workspace) (printed : Printed)

/-- The session of the arguments, with the file loaded and the report on it. -/
def prepare (parser : Parser) (files : Files) (a : Arguments) :
    Except Failure (Session × Option String) := do
  let config ← match a.config with
    | some path => (Config.load path (files.read path)).mapError .config
    | none => pure {}
  -- files that are loaded later are read in this dialect too, unless their extension says another
  let config := { config with dialect := a.dialect.getD config.dialect }
  let s : Session := { engine := { config }, debug := a.debug }
  match a.file with
  | none => return (s, none)
  | some path =>
    let (s, report) ← (s.loadFile parser files path a.dialect).mapError .session
    return (s, some report)

/-- Answers one question or opens a session. -/
def begin (parser : Parser) (files : Files) (words : List String) : Beginning :=
  match Arguments.parse words with
  | .refused => .over 2 {}
  | .version => .over 0 (.line versionText)
  | .help => .over 0 (.line usage)
  | .run a =>
    match prepare parser files a with
    | .error failure => .over 1 (.complaint ("Error: " ++ failure.message))
    | .ok (s, loaded) =>
      if a.interactive || a.file.isNone then
        .session { session := s, files } (greeting loaded)
      else
        match oneShot parser a s with
        | .ok text => .over 0 { out := text }
        | .error failure => .over 1 (.complaint ("Error: " ++ failure.message))

/-- What a call of the program leaves behind. -/
structure Outcome where
  code : Nat
  printed : Printed
  files : Files

/-- A call of the program on the given files and input. -/
def run (parser : Parser) (files : Files) (words : List String) (input : String) : Outcome :=
  match begin parser files words with
  | .over code printed => { code, printed, files }
  | .session w printed =>
    let (w, later) := converse parser w (typedLines input)
    { code := 0, printed := printed ++ later, files := w.files }

end CodeActions.CommandLine
