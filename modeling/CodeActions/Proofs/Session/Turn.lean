import CodeActions.Proofs.Text.Slice
import CodeActions.Session.Workspace

/-!
# Turns of a session

A turn is one line fed to a workspace. What a turn can do is said once, by the relation
`Workspace.Performs` with one constructor for each way a command can go, and everything else about
sessions is read off it. A run is a list of lines fed one after the other; its turns are listed in
order.

Main statements: `Workspace.perform_performs`, what a command does is one of the listed ways;
`Turn.document_cases`, a turn takes a document up, edits it or leaves it alone.
-/

namespace CodeActions

/-! ## §1 The command on a line -/

namespace Command

/-- The command that a line holds, or what is wrong with it. A blank line holds nothing. -/
def onLine? (line : String) : Option (Except CommandError Command) :=
  match Text.trim line.toList with
  | [] => none
  | trimmed => some (ofLine trimmed)

/-- The command only asks for something to be shown. -/
def onlyShows : Command → Bool
  | help | actions | path | print => true
  | _ => false

end Command

/-! ## §2 What a command can do -/

/-- Running a command turns the workspace into another one and brings up a notice. -/
inductive Workspace.Performs (parser : Parser) (w : Workspace) :
    Command → Workspace → Notice → Prop where
  /-- Something is shown. -/
  | shows {command : Command} (text : String) (hshows : command.onlyShows = true) :
      Performs parser w command w (.output text)
  | quits (text : String) :
      Performs parser w .quit (w.withSession { w.session with running := false }) (.output text)
  | togglesDebug (text : String) :
      Performs parser w .debug (w.withSession { w.session with debug := !w.session.debug })
        (.output text)
  /-- The selection moves, whether or not there is something to list at its new place. -/
  | selects (selection : Selection) (notice : Notice)
      (hnotice : (∃ text, notice = .output text) ∨ ∃ reason, notice = .error reason) :
      Performs parser w (.select selection) (w.withSession { w.session with selection }) notice
  /-- The action does not fit. -/
  | declines (number : Nat) :
      Performs parser w (.apply number) w (.result .declined w.session.debug)
  /-- The text is edited and parsed again in its dialect. -/
  | edits {number : Nat} {d : Document} {edit : Edit} {replaced source : String}
      (hdocument : w.session.document = some d)
      (hedit : w.session.editFor parser number = .ok (some edit))
      (hsource : edit.applyTo d.source = .ok source)
      (hreplaced : Text.slice d.source edit.span.start edit.span.stop = .ok replaced) :
      Performs parser w (.apply number)
        (w.withSession { w.session with document := some (Document.parse parser d.dialect source) })
        (.result (.edited edit replaced) w.session.debug)
  /-- The text is saved to the path given, else to the file of the session. -/
  | writes {path? : Option String} {path : String} {d : Document} {files : Files} (text : String)
      (hpath : path?.or w.session.file = some path)
      (hdocument : w.session.document = some d)
      (hfiles : w.files.write? path d.source = some files) :
      Performs parser w (.write path?) { w with files } (.output text)
  /-- A file is taken up. -/
  | loads {path source : String} (dialect : Dialect) (text : String)
      (hsource : w.files.read? path = some source) :
      Performs parser w (.load path)
        (w.withSession
          { w.session.openDocument (Document.parse parser dialect source) with file := some path })
        (.output text)
  /-- Nothing but a selection survives its own failure. -/
  | fails {command : Command} (reason : SessionError) (hcommand : ∀ s, command ≠ .select s) :
      Performs parser w command w (.error reason)

theorem Session.current_eq_ok_iff {s : Session} {d : Document} :
    s.current = .ok d ↔ s.document = some d := by
  unfold Session.current
  cases s.document with
  | none => simp
  | some d' => simp

/-- Saving fails if there is no path, no document or no place for it. Else the text of the document
goes to the path. -/
theorem Session.write_cases (files : Files) (s : Session) (path? : Option String) :
    (∃ reason, s.write files path? = .error reason ∧
      ∀ path d, path?.or s.file = some path → s.document = some d →
        files.write? path d.source = none) ∨
    ∃ path d files' report, path?.or s.file = some path ∧ s.document = some d ∧
      files.write? path d.source = some files' ∧ s.write files path? = .ok (files', report) := by
  unfold Session.write Session.current
  simp only [Option.orElse_eq_orElse, Option.orElse_eq_or]
  cases hpath : path?.or s.file with
  | none => exact .inl ⟨.noFile, rfl, by simp⟩
  | some path =>
    cases hdocument : s.document with
    | none => exact .inl ⟨.noDocument, rfl, by simp⟩
    | some d =>
      cases hwrite : files.write? path d.source with
      | none =>
        refine .inl ⟨.unwritable path, by simp only [bind, Except.bind, hwrite]; rfl, ?_⟩
        rintro _ _ ⟨⟩ ⟨⟩
        exact hwrite
      | some files' =>
        exact .inr ⟨path, d, files', _, rfl, rfl, hwrite,
          by simp only [bind, Except.bind, hwrite]; rfl⟩

namespace Workspace

/-- Applying an action edits the document, finds that the action does not fit, or fails. -/
theorem apply_performs (parser : Parser) (w : Workspace) (number : Nat) :
    Performs parser w (.apply number) (w.perform parser (.apply number)).1
      (w.perform parser (.apply number)).2 := by
  simp only [perform]
  cases h : w.session.applyAction parser number with
  | error reason => exact .fails reason nofun
  | ok result =>
    -- an action may turn out to have nothing to offer, and then nothing is edited
    unfold Session.applyAction at h
    obtain ⟨d, hd, h⟩ := bind_eq_ok_iff.mp h
    obtain ⟨edit?, hedit, h⟩ := bind_eq_ok_iff.mp h
    cases edit? with
    | none =>
      cases h
      exact .declines number
    | some edit =>
      obtain ⟨source, hsource, h⟩ := bind_eq_ok_iff.mp h
      obtain ⟨replaced, hreplaced, h⟩ := bind_eq_ok_iff.mp h
      cases h
      have hdocument : w.session.document = some d := Session.current_eq_ok_iff.mp hd
      exact .edits hdocument hedit (mapError_eq_ok_iff.mp hsource) (mapError_eq_ok_iff.mp hreplaced)

/-- Saving writes one file or fails. -/
theorem write_performs (parser : Parser) (w : Workspace) (path? : Option String) :
    Performs parser w (.write path?) (w.perform parser (.write path?)).1
      (w.perform parser (.write path?)).2 := by
  simp only [perform, handle]
  rcases w.session.write_cases w.files path? with
    ⟨reason, hwrite, _⟩ | ⟨path, d, files, text, hpath, hdocument, hfiles, hwrite⟩
  · rw [hwrite]
    exact .fails reason nofun
  · rw [hwrite]
    exact .writes text hpath hdocument hfiles

/-- Loading takes a file up or fails. -/
theorem load_performs (parser : Parser) (w : Workspace) (path : String) :
    Performs parser w (.load path) (w.perform parser (.load path)).1
      (w.perform parser (.load path)).2 := by
  simp only [perform, handle]
  cases h : w.session.loadFile parser w.files path none with
  | error reason => exact .fails reason nofun
  | ok result =>
    unfold Session.loadFile at h
    split at h
    case h_1 => cases h
    case h_2 source hsource =>
      cases h
      exact .loads _ _ hsource

/-- What a command does is one of the ways that `Performs` lists. -/
theorem perform_performs (parser : Parser) (w : Workspace) (command : Command) :
    Performs parser w command (w.perform parser command).1 (w.perform parser command).2 := by
  cases command with
  | help => exact .shows _ rfl
  | quit => exact .quits _
  -- the selection moves before there is anything to list
  | select selection =>
    simp only [perform, handle]
    cases ({ w.session with selection } : Session).listing with
    | ok text => exact .selects selection _ (.inl ⟨text, rfl⟩)
    | error reason => exact .selects selection _ (.inr ⟨reason, rfl⟩)
  | actions =>
    simp only [perform, handle]
    cases w.session.listing with
    | ok text => exact .shows text rfl
    | error reason => exact .fails reason nofun
  | path =>
    simp only [perform, handle]
    cases w.session.pathKinds with
    | ok kinds => exact .shows _ rfl
    | error reason => exact .fails reason nofun
  | apply number => exact apply_performs parser w number
  | print =>
    simp only [perform, handle]
    cases w.session.current with
    | ok d => exact .shows _ rfl
    | error reason => exact .fails reason nofun
  | write path? => exact write_performs parser w path?
  | load path => exact load_performs parser w path
  | debug => exact .togglesDebug _

/-- What becomes of a line depends on the command that it holds. -/
theorem processLine_eq (parser : Parser) (w : Workspace) (line : String) :
    w.processLine parser line =
      match Command.onLine? line with
      | none => (w, none)
      | some (.error error) => (w, some (.error (.command error)))
      | some (.ok command) =>
          ((w.perform parser command).1, some (w.perform parser command).2) := by
  unfold processLine Command.onLine?
  cases Text.trim line.toList with
  | nil => rfl
  | cons c cs =>
    simp only
    cases Command.ofLine (c :: cs) with
    | error error => rfl
    | ok command => rfl

end Workspace

/-! ## §3 Turns -/

/-- A line fed to a workspace. -/
structure Turn where
  before : Workspace
  line : String

namespace Turn

/-- The workspace after the turn. -/
def after (parser : Parser) (t : Turn) : Workspace := (t.before.processLine parser t.line).1

/-- What the session has to say in the turn. -/
def notice? (parser : Parser) (t : Turn) : Option Notice := (t.before.processLine parser t.line).2

/-- The path of the file that is taken up in the turn. -/
def loaded? (parser : Parser) (t : Turn) : Option String :=
  match Command.onLine? t.line, t.notice? parser with
  | some (.ok (.load path)), some (.output _) => some path
  | _, _ => none

/-- The edit that is made in the turn. -/
def edit? (parser : Parser) (t : Turn) : Option Edit :=
  match t.notice? parser with
  | some (.result (.edited edit _) _) => some edit
  | _ => none

/-- A turn does nothing on a blank line, complains about a line that holds no command, or does what
the command on the line does. -/
theorem line_cases (parser : Parser) (t : Turn) :
    (Command.onLine? t.line = none ∧ t.after parser = t.before ∧ t.notice? parser = none) ∨
    (∃ error, Command.onLine? t.line = some (.error error) ∧ t.after parser = t.before ∧
      t.notice? parser = some (.error (.command error))) ∨
    ∃ command notice, Command.onLine? t.line = some (.ok command) ∧
      Workspace.Performs parser t.before command (t.after parser) notice ∧
      t.notice? parser = some notice := by
  unfold after notice?
  rw [Workspace.processLine_eq]
  -- the session is asked only if the line holds a command
  cases hline : Command.onLine? t.line with
  | none => exact .inl ⟨rfl, rfl, rfl⟩
  | some read =>
    cases read with
    | error error => exact .inr (.inl ⟨error, rfl, rfl, rfl⟩)
    | ok command =>
      exact .inr (.inr ⟨command, _, rfl, Workspace.perform_performs parser t.before command, rfl⟩)

/-- A selection moves, whatever there is to list. -/
theorem after_of_select {parser : Parser} {t : Turn} {s : Selection}
    (hline : Command.onLine? t.line = some (.ok (.select s))) :
    t.after parser = t.before.withSession { t.before.session with selection := s } := by
  unfold after
  rw [Workspace.processLine_eq, hline]
  simp only [Workspace.perform, Workspace.handle]
  cases ({ t.before.session with selection := s } : Session).listing <;> rfl

/-- What an action does in a turn is what it does to the session. -/
theorem of_applyAction_eq_ok {parser : Parser} {t : Turn} {number : Nat} {s : Session}
    {applied : Applied} (hline : Command.onLine? t.line = some (.ok (.apply number)))
    (h : t.before.session.applyAction parser number = .ok (s, applied)) :
    t.after parser = t.before.withSession s ∧
    t.notice? parser = some (.result applied t.before.session.debug) := by
  unfold after notice?
  rw [Workspace.processLine_eq, hline]
  simp only [Workspace.perform, h, and_self]

/-- An action that fails changes nothing and says why. -/
theorem of_applyAction_eq_error {parser : Parser} {t : Turn} {number : Nat} {reason : SessionError}
    (hline : Command.onLine? t.line = some (.ok (.apply number)))
    (h : t.before.session.applyAction parser number = .error reason) :
    t.after parser = t.before ∧ t.notice? parser = some (.error reason) := by
  unfold after notice?
  rw [Workspace.processLine_eq, hline]
  simp only [Workspace.perform, h, and_self]

/-- The engine stays what it is. -/
theorem after_engine (parser : Parser) (t : Turn) :
    (t.after parser).session.engine = t.before.session.engine := by
  rcases t.line_cases parser with ⟨_, hafter, _⟩ | ⟨_, _, hafter, _⟩ |
    ⟨command, notice, _, hperforms, _⟩
  · rw [hafter]
  · rw [hafter]
  · generalize t.after parser = next at hperforms ⊢
    cases hperforms <;> rfl

/-- A turn leaves the document and its file alone, takes another file up, or edits the document that
is there. -/
theorem document_cases (parser : Parser) (t : Turn) :
    (t.loaded? parser = none ∧ t.edit? parser = none ∧
      (t.after parser).session.document = t.before.session.document ∧
      (t.after parser).session.file = t.before.session.file) ∨
    (∃ path source dialect, t.loaded? parser = some path ∧ t.edit? parser = none ∧
      t.before.files.read? path = some source ∧
      (t.after parser).session.document = some (Document.parse parser dialect source) ∧
      (t.after parser).session.file = some path) ∨
    ∃ number d edit source replaced, t.loaded? parser = none ∧ t.edit? parser = some edit ∧
      Command.onLine? t.line = some (.ok (.apply number)) ∧
      t.before.session.document = some d ∧
      t.before.session.editFor parser number = .ok (some edit) ∧
      edit.applyTo d.source = .ok source ∧
      Text.slice d.source edit.span.start edit.span.stop = .ok replaced ∧
      (t.after parser).session.document = some (Document.parse parser d.dialect source) ∧
      (t.after parser).session.file = t.before.session.file := by
  rcases t.line_cases parser with ⟨hline, hafter, hnotice⟩ | ⟨_, hline, hafter, hnotice⟩ |
    ⟨command, notice, hline, hperforms, hnotice⟩
  · exact .inl (by simp [loaded?, edit?, hline, hafter, hnotice])
  · exact .inl (by simp [loaded?, edit?, hline, hafter, hnotice])
  -- of all that a command can do only loading and editing touch the document
  · generalize t.after parser = next at hperforms ⊢
    cases hperforms with
    | shows text hshows =>
      refine .inl ⟨?_, by simp [edit?, hnotice], rfl, rfl⟩
      cases command <;> simp_all [loaded?, Command.onlyShows]
    | quits text | togglesDebug text | declines number | writes text hpath hdocument hfiles =>
      exact .inl ⟨by simp [loaded?, hline], by simp [edit?, hnotice], rfl, rfl⟩
    | selects selection notice hnotice' =>
      refine .inl ⟨by simp [loaded?, hline], ?_, rfl, rfl⟩
      rcases hnotice' with ⟨text, rfl⟩ | ⟨reason, rfl⟩ <;> simp [edit?, hnotice]
    | fails reason hcommand =>
      refine .inl ⟨?_, by simp [edit?, hnotice], rfl, rfl⟩
      unfold loaded?
      rw [hline, hnotice]
      cases command <;> rfl
    | loads dialect text hsource =>
      exact .inr (.inl ⟨_, _, dialect, by simp [loaded?, hline, hnotice], by simp [edit?, hnotice],
        hsource, rfl, rfl⟩)
    | edits hdocument hedit hsource hreplaced =>
      exact .inr (.inr ⟨_, _, _, _, _, by simp [loaded?, hline], by simp [edit?, hnotice], hline,
        hdocument, hedit, hsource, hreplaced, rfl, rfl⟩)

end Turn

/-! ## §4 Runs -/

namespace Workspace

/-- The workspace after a number of lines. -/
def run (parser : Parser) : Workspace → List String → Workspace
  | w, [] => w
  | w, line :: lines => run parser (Turn.after parser ⟨w, line⟩) lines

/-- The turns that the lines make, in order. -/
def turns (parser : Parser) : Workspace → List String → List Turn
  | _, [] => []
  | w, line :: lines => ⟨w, line⟩ :: turns parser (Turn.after parser ⟨w, line⟩) lines

@[simp] theorem run_nil (parser : Parser) (w : Workspace) : w.run parser [] = w := rfl

@[simp] theorem run_cons (parser : Parser) (w : Workspace) (line : String) (lines : List String) :
    w.run parser (line :: lines) = (Turn.after parser ⟨w, line⟩).run parser lines := rfl

@[simp] theorem turns_nil (parser : Parser) (w : Workspace) : w.turns parser [] = [] := rfl

@[simp] theorem turns_cons (parser : Parser) (w : Workspace) (line : String) (lines : List String) :
    w.turns parser (line :: lines) =
      ⟨w, line⟩ :: (Turn.after parser ⟨w, line⟩).turns parser lines := rfl

theorem run_append (parser : Parser) (w : Workspace) (lines lines' : List String) :
    w.run parser (lines ++ lines') = (w.run parser lines).run parser lines' := by
  induction lines generalizing w with
  | nil => rfl
  | cons line lines ih => exact ih (Turn.after parser ⟨w, line⟩)

theorem turns_append (parser : Parser) (w : Workspace) (lines lines' : List String) :
    w.turns parser (lines ++ lines') =
      w.turns parser lines ++ (w.run parser lines).turns parser lines' := by
  induction lines generalizing w with
  | nil => rfl
  | cons line lines ih => simp [ih]

/-- The turns before a turn of a run are those of the lines before its line, and it begins where
these lines have led. -/
theorem of_turns_eq_append {parser : Parser} {w : Workspace} {lines : List String}
    {earlier later : List Turn} {t : Turn} (h : w.turns parser lines = earlier ++ t :: later) :
    ∃ lines', earlier = w.turns parser lines' ∧ t.before = w.run parser lines' := by
  -- each of the earlier turns takes one line off
  induction earlier generalizing w lines with
  | nil =>
    cases lines with
    | nil => simp at h
    | cons line lines =>
      obtain ⟨rfl, _⟩ := List.cons.inj h
      exact ⟨[], rfl, rfl⟩
  | cons first earlier ih =>
    cases lines with
    | nil => simp at h
    | cons line lines =>
      obtain ⟨rfl, hrest⟩ := List.cons.inj h
      obtain ⟨lines', hearlier, hbefore⟩ := ih hrest
      exact ⟨line :: lines', by rw [turns_cons, hearlier], hbefore⟩

/-- The turns behind a turn of a run are a run of their own, from where that turn leads to. -/
theorem of_turns_eq_append_cons {parser : Parser} {w : Workspace} {lines : List String}
    {earlier later : List Turn} {t : Turn} (h : w.turns parser lines = earlier ++ t :: later) :
    ∃ lines', later = (t.after parser).turns parser lines' ∧
      w.run parser lines = (t.after parser).run parser lines' := by
  induction earlier generalizing w lines with
  | nil =>
    cases lines with
    | nil => simp at h
    | cons line lines =>
      obtain ⟨rfl, hlater⟩ := List.cons.inj h
      exact ⟨lines, hlater.symm, rfl⟩
  -- the run goes on from where its first turn leads to
  | cons first earlier ih =>
    cases lines with
    | nil => simp at h
    | cons line lines =>
      obtain ⟨_, hrest⟩ := List.cons.inj h
      rw [run_cons]
      exact ih hrest

/-- A turn of a run begins where the run has got to. -/
theorem before_of_mem_turns {parser : Parser} {w : Workspace} {lines : List String} {t : Turn}
    (h : t ∈ w.turns parser lines) : ∃ lines', t.before = w.run parser lines' := by
  obtain ⟨earlier, later, hturns⟩ := List.append_of_mem h
  obtain ⟨lines', _, hbefore⟩ := of_turns_eq_append hturns
  exact ⟨lines', hbefore⟩

/-- What all turns of a run hand on is handed on by the run. -/
theorem run_of_turns {parser : Parser} (holds : Workspace → Prop) {w : Workspace}
    {lines : List String}
    (hturns : ∀ t ∈ w.turns parser lines, holds t.before → holds (t.after parser)) (hw : holds w) :
    holds (w.run parser lines) := by
  induction lines generalizing w with
  | nil => exact hw
  | cons line lines ih =>
    rw [turns_cons, List.forall_mem_cons] at hturns
    exact ih hturns.2 (hturns.1 hw)

/-- What every turn hands on, from wherever it starts, is handed on by every run. -/
theorem run_of_turn {parser : Parser} (holds : Workspace → Prop)
    (hturn : ∀ t : Turn, holds t.before → holds (t.after parser))
    {w : Workspace} (hw : holds w) (lines : List String) : holds (w.run parser lines) :=
  run_of_turns holds (fun t _ => hturn t) hw

end Workspace

/-! ## §5 A sample

One file with a loop and a stray parenthesis behind it. The parser knows that text, and finds an
error in every other one. -/

namespace Sample

/-- A construct that is not looked into. -/
def leaf (kind : String) (start stop : Nat) : Tree := .node { kind, span := ⟨start, stop⟩ } [] []

/-- An error. -/
def stray (start stop : Nat) : Tree :=
  .node { kind := "ERROR", span := ⟨start, stop⟩, isError := true, hasError := true } [] []

/-- The tree of `while (é) y )`. -/
def loop : Tree :=
  .node { kind := "program", span := ⟨0, 14⟩, hasError := true } [] [
    .node { kind := "while_statement", span := ⟨0, 12⟩ } [("condition", 0), ("body", 1)]
      [leaf "parenthesized_expression" 6 10, leaf "expression_statement" 11 12],
    stray 13 14]

def parser : Parser := fun _ source =>
  if source = "while (é) y )" then loop else stray 0 (Text.byteSize source)

def engine : Engine := { config := { genericWraps := false } }

def workspace : Workspace where
  session := { engine }
  files := { entries := [("a.js", "while (é) y )")] }

end Sample

end CodeActions
