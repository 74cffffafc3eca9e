import CodeActions.Session.Basic

/-!
# Lines of a session

A workspace is a session with the files it works on. Lines are fed to it one by one; each line that
is not blank changes the workspace or not and brings up one notice.
-/

namespace CodeActions

/-- A session and the files it works on. -/
structure Workspace where
  session : Session := {}
  files : Files := {}

/-- What a session has to say about a line. -/
inductive Notice where
  | output (text : String)
  /-- What came of an action, with or without details. -/
  | result (applied : Applied) (debug : Bool)
  | error (reason : SessionError)
  deriving Repr, DecidableEq

namespace Notice

/-- The notice as a line of a log. -/
def logged : Notice → String
  | output text => text
  | result applied debug => "=> " ++ applied.summary debug
  | error reason => "error: Error: " ++ reason.message

end Notice

/-- The commands of a session, one per line. -/
def Command.overview : String :=
  "\n".intercalate [
    "Turnabout Commands:",
    "  .help              - Show this help message",
    "  .quit              - Exit the REPL",
    "  .at LINE:COL       - Select a position (or LINE:COL-LINE:COL) and list actions",
    "  .actions           - List actions at the current selection",
    "  .path              - Show the enclosing constructs, innermost first",
    "  .apply N           - Apply action N from the listing",
    "  .show              - Print the current source",
    "  .write [PATH]      - Save the current source (default: the loaded file)",
    "  .load PATH         - Load another file",
    "  .debug             - Toggle debug mode (ranges and replaced text)",
    "",
    "A bare LINE:COL works like .at. Lines and columns start at 1."]

/-- The command on a line: a line without a dot in front is a selection. -/
def Command.ofLine (line : List Char) : Except CommandError Command :=
  match line with
  | '.' :: _ => Command.parse line
  | _ =>
    match Selection.parse line with
    | .ok selection => .ok (.select selection)
    | .error error => .error (.badSelection error)

namespace Workspace

/-- The workspace with another session. -/
def withSession (w : Workspace) (s : Session) : Workspace := { w with session := s }

/-- Runs a command: what the workspace is afterwards, and what there is to print. -/
def handle (parser : Parser) (w : Workspace) : Command → Workspace × Except SessionError String
  | .help => (w, .ok Command.overview)
  | .quit => (w.withSession { w.session with running := false }, .ok "Goodbye!")
  | .select selection =>
    -- the selection stays even if it lies outside and the listing fails
    let s := { w.session with selection }
    (w.withSession s, s.listing)
  | .actions => (w, w.session.listing)
  | .path => (w, w.session.pathKinds.map fun kinds => " < ".intercalate kinds)
  | .apply number =>
    match w.session.applyAction parser number with
    | .ok (s, applied) => (w.withSession s, .ok (applied.summary w.session.debug))
    | .error error => (w, .error error)
  | .print => (w, w.session.current.map Document.source)
  | .write path? =>
    match w.session.write w.files path? with
    | .ok (files, report) => ({ w with files }, .ok report)
    | .error error => (w, .error error)
  | .load path =>
    match w.session.loadFile parser w.files path none with
    | .ok (s, report) => (w.withSession s, .ok ("Loaded " ++ report))
    | .error error => (w, .error error)
  | .debug =>
    let debug := !w.session.debug
    (w.withSession { w.session with debug }, .ok ("Debug mode: " ++ if debug then "on" else "off"))

/-- Runs a command and reports on it. What came of an action is a notice of its own kind. -/
def perform (parser : Parser) (w : Workspace) : Command → Workspace × Notice
  | .apply number =>
    match w.session.applyAction parser number with
    | .ok (s, applied) => (w.withSession s, .result applied w.session.debug)
    | .error error => (w, .error error)
  | command =>
    match w.handle parser command with
    | (w, .ok text) => (w, .output text)
    | (w, .error error) => (w, .error error)

/-- Feeds one line to the session. A blank line does nothing. -/
def processLine (parser : Parser) (w : Workspace) (line : String) : Workspace × Option Notice :=
  match Text.trim line.toList with
  | [] => (w, none)
  | trimmed =>
    match Command.ofLine trimmed with
    | .error error => (w, some (.error (.command error)))
    | .ok command =>
      let (w, notice) := w.perform parser command
      (w, some notice)

end Workspace

end CodeActions
