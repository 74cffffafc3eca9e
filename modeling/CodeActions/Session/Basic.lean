import CodeActions.Engine
import CodeActions.Files
import CodeActions.Session.Command
import CodeActions.Session.Offer
import CodeActions.Text.Quoted

/-!
# Sessions

A session works on one document at a time. It remembers which file the document came from and what
is selected in it. Every operation either succeeds and says what the session has become, or gives
the reason why nothing happened.
-/

namespace CodeActions

/-- The state of a session. -/
structure Session where
  engine : Engine := {}
  document : Option Document := none
  /-- Where the document came from, and where it is saved by default. -/
  file : Option String := none
  selection : Selection := .atOrigin
  running : Bool := true
  /-- Detailed output. -/
  debug : Bool := false

/-- Why a session did not do what it was told. -/
inductive SessionError where
  | command (error : CommandError)
  /-- The selection is not in the document. -/
  | outside (position : Position)
  | noDocument
  | noFile
  | unreadable (path : String)
  | unwritable (path : String)
  | noAction (number count : Nat)
  /-- The tree does not fit its text. -/
  | cut (error : CutError)
  deriving Repr, DecidableEq

/-- The wording of each reason. -/
def SessionError.message : SessionError → String
  | command error => error.message
  | outside position => position.outsideMessage
  | noDocument => "No document loaded, use .load <file>"
  | noFile => "No file to write to, use .write <path>"
  | unreadable path => "Failed to read " ++ path
  | unwritable path => "Failed to write " ++ path
  | noAction number count => s!"No action {number}; there are {count}"
  | cut error => error.message

/-- The length, the dialect and the state of a document. -/
def Document.summary (d : Document) : String :=
  s!"{d.byteSize} bytes of {d.dialect.name}" ++
    if d.tree.hasError then ", with syntax errors" else ""

/-- What came of an action. -/
inductive Applied where
  /-- The action does not fit; nothing changed. -/
  | declined
  /-- The document was edited. The text that was replaced is kept for the report. -/
  | edited (edit : Edit) (replaced : String)
  deriving Repr, DecidableEq

/-- The report on an action. Detailed output shows the texts, short output only the place. -/
def Applied.summary (debug : Bool) : Applied → String
  | declined => "Action does not apply here; nothing changed"
  | edited edit replaced =>
    if debug then
      "replaced " ++ Text.quoted replaced ++ " with " ++ Text.quoted edit.replacement.plain
    else
      s!"rewrote {edit.start.row + 1}:{edit.start.column + 1}-{edit.stop.row + 1}:{edit.stop.column + 1}"

namespace Session

/-! ## §1 Looking -/

/-- The document at hand. -/
def current (s : Session) : Except SessionError Document :=
  match s.document with
  | some d => .ok d
  | none => .error .noDocument

/-- The actions at the selection. -/
def actions (s : Session) : Except SessionError (List Action) := do
  let d ← s.current
  (s.engine.actionsAtSelection d s.selection).mapError .outside

/-- The listing of the actions at the selection. -/
def offers (s : Session) : Except SessionError (List Offer) := do
  return Offer.numbered (← s.actions)

/-- The listing as text. -/
def listing (s : Session) : Except SessionError String := do
  match ← s.offers with
  | [] => return "No actions here."
  | offers => return "\n".intercalate (offers.map (Offer.sessionLine s.debug))

/-- The kinds of the constructs around the selection, from the inside out. -/
def pathKinds (s : Session) : Except SessionError (List String) := do
  let d ← s.current
  let span ← (d.spanOf s.selection).mapError .outside
  return (d.path span).map Node.kind

/-- The edit of the action with a number, if the action fits. -/
def editFor (parser : Parser) (s : Session) (number : Nat) : Except SessionError (Option Edit) := do
  let actions ← s.actions
  match number with
  | 0 => throw (.noAction 0 actions.length)
  | index + 1 =>
    match actions[index]? with
    | none => throw (.noAction (index + 1) actions.length)
    | some action => (action.apply parser).mapError .cut

/-! ## §2 Changing -/

/-- Takes a document up, with nothing selected and no file. -/
def openDocument (s : Session) (d : Document) : Session :=
  { s with document := some d, file := none, selection := .atOrigin }

/-- Reads a file. Its dialect is the one given, else the one of its extension, else the configured
one. -/
def loadFile (parser : Parser) (files : Files) (s : Session) (path : String)
    (dialect? : Option Dialect) : Except SessionError (Session × String) :=
  match files.read? path with
  | none => .error (.unreadable path)
  | some source =>
    let dialect := (dialect? <|> Dialect.ofPath? path).getD s.engine.config.dialect
    let d := Document.parse parser dialect source
    .ok ({ s.openDocument d with file := some path }, path ++ " (" ++ d.summary ++ ")")

/-- Runs the action with a number and parses the edited text again. -/
def applyAction (parser : Parser) (s : Session) (number : Nat) :
    Except SessionError (Session × Applied) := do
  let d ← s.current
  match ← s.editFor parser number with
  | none => return (s, .declined)
  | some edit =>
    -- the selection stays: its rows and columns are read against the new text
    let source ← (edit.applyTo d.source).mapError .cut
    let replaced ← (Text.slice d.source edit.span.start edit.span.stop).mapError .cut
    return ({ s with document := some (Document.parse parser d.dialect source) },
      .edited edit replaced)

/-- Saves the document to a path, or to the file it came from. -/
def write (files : Files) (s : Session) (path? : Option String) :
    Except SessionError (Files × String) := do
  -- where to write is settled before there has to be something to write
  match path? <|> s.file with
  | none => throw .noFile
  | some path =>
    let d ← s.current
    match files.write? path d.source with
    | none => throw (.unwritable path)
    | some files => return (files, s!"Wrote {d.byteSize} bytes to {path}")

end Session

end CodeActions
