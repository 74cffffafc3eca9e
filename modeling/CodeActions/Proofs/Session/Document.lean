import CodeActions.Proofs.Catalog
import CodeActions.Proofs.Session.Turn

/-!
# The document of a session

The document of a session is always the parse of its text. It changes only when a file is taken up
and when an action is applied. If the engine verifies edits and offers no generic transforms, an
applied action changes only the text of its target and brings in no syntax errors, so the number of
errors never grows until the next file is taken up.

Main statement: `Workspace.run_never_adds_errors`.
-/

namespace CodeActions

/-! ## §1 Actions of a session -/

namespace Session

/-- Actions are those of the engine, at the selection of the document that is open. -/
theorem of_actions_eq_ok {s : Session} {actions : List Action} (h : s.actions = .ok actions) :
    ∃ d span, s.document = some d ∧ d.spanOf s.selection = .ok span ∧
      actions = s.engine.actionsAt d span := by
  unfold Session.actions at h
  obtain ⟨d, hd, h⟩ := bind_eq_ok_iff.mp h
  obtain ⟨span, hspan, h⟩ := bind_eq_ok_iff.mp (mapError_eq_ok_iff.mp h)
  cases h
  exact ⟨d, span, current_eq_ok_iff.mp hd, hspan, rfl⟩

/-- The edit for a number is what the action with that number gives. -/
theorem of_editFor_eq_ok {parser : Parser} {s : Session} {number : Nat} {edit? : Option Edit}
    (h : s.editFor parser number = .ok edit?) :
    ∃ actions action, s.actions = .ok actions ∧ 0 < number ∧ actions[number - 1]? = some action ∧
      action.apply parser = .ok edit? := by
  unfold editFor at h
  obtain ⟨actions, hactions, h⟩ := bind_eq_ok_iff.mp h
  cases number with
  | zero => cases h
  | succ index =>
    simp only at h
    split at h
    case h_1 => cases h
    case h_2 action haction =>
      exact ⟨actions, action, hactions, Nat.succ_pos index, haction, mapError_eq_ok_iff.mp h⟩

end Session

/-! ## §2 Reachable workspaces -/

/-- The workspaces that can be got to with an engine: lines and commands are fed to a session, a
text or a file is handed to it, its selection and its way of reporting are set. The files may change
at any time, since others work on them too. -/
inductive Workspace.Reachable (parser : Parser) (engine : Engine) : Workspace → Prop where
  | fresh (files : Files) : Reachable parser engine { session := { engine }, files }
  | line {w : Workspace} (line : String) (hw : Reachable parser engine w) :
      Reachable parser engine (Turn.after parser ⟨w, line⟩)
  | command {w : Workspace} (command : Command) (hw : Reachable parser engine w) :
      Reachable parser engine (w.handle parser command).1
  | opened {w : Workspace} (dialect : Dialect) (source : String) (hw : Reachable parser engine w) :
      Reachable parser engine
        (w.withSession (w.session.openDocument (Document.parse parser dialect source)))
  | loaded {w : Workspace} {s : Session} {path report : String} {dialect? : Option Dialect}
      (hw : Reachable parser engine w)
      (hload : w.session.loadFile parser w.files path dialect? = .ok (s, report)) :
      Reachable parser engine (w.withSession s)
  | selected {w : Workspace} (selection : Selection) (hw : Reachable parser engine w) :
      Reachable parser engine (w.withSession { w.session with selection })
  | reporting {w : Workspace} (debug : Bool) (hw : Reachable parser engine w) :
      Reachable parser engine (w.withSession { w.session with debug })
  | files {w : Workspace} (files : Files) (hw : Reachable parser engine w) :
      Reachable parser engine { w with files }

/-- The engine is the given one, and a document is the parse of its text. -/
structure Workspace.Sound (parser : Parser) (engine : Engine) (w : Workspace) : Prop where
  engine_eq : w.session.engine = engine
  parsed : ∀ d, w.session.document = some d → d.tree = parser d.dialect d.source

namespace Workspace

/-- A document that comes from the parser may be taken up at any time. -/
theorem Sound.withDocument {parser : Parser} {engine : Engine} {w : Workspace} {s : Session}
    {dialect : Dialect} {source : String} (hengine : s.engine = engine)
    (hdocument : s.document = some (Document.parse parser dialect source)) :
    Sound parser engine (w.withSession s) where
  engine_eq := hengine
  parsed d hd := by
    rw [show (w.withSession s).session.document = s.document from rfl, hdocument] at hd
    cases hd
    rfl

/-- No command replaces a document by anything but a parse, and none changes the engine. -/
theorem Performs.sound {parser : Parser} {engine : Engine} {w w' : Workspace} {command : Command}
    {notice : Notice} (h : w.Performs parser command w' notice) (hw : w.Sound parser engine) :
    w'.Sound parser engine := by
  cases h with
  | shows | declines | fails => exact hw
  | quits | togglesDebug | selects | writes => exact ⟨hw.engine_eq, hw.parsed⟩
  | edits | loads => exact .withDocument hw.engine_eq rfl

/-- So a line keeps a workspace sound, whatever it says. -/
theorem Sound.after {parser : Parser} {engine : Engine} {t : Turn}
    (h : t.before.Sound parser engine) : (t.after parser).Sound parser engine := by
  rcases t.line_cases parser with ⟨_, hafter, _⟩ | ⟨_, _, hafter, _⟩ | ⟨_, _, _, hperforms, _⟩
  · rwa [hafter]
  · rwa [hafter]
  · exact hperforms.sound h

/-- Reports differ, but what a command does to the workspace is the same however it is given. -/
theorem fst_handle (parser : Parser) (w : Workspace) (command : Command) :
    (w.handle parser command).1 = (w.perform parser command).1 := by
  cases command with
  | apply number =>
    simp only [handle, perform]
    cases w.session.applyAction parser number <;> rfl
  | _ =>
    simp only [perform]
    split <;> simp_all

/-- A workspace that can be reached is sound. -/
theorem Reachable.sound {parser : Parser} {engine : Engine} {w : Workspace}
    (h : w.Reachable parser engine) : w.Sound parser engine := by
  induction h with
  | fresh files => exact ⟨rfl, nofun⟩
  | line line _ ih => exact ih.after
  | command command _ ih =>
    rw [fst_handle]
    exact (perform_performs parser _ command).sound ih
  | opened dialect source _ ih => exact .withDocument ih.engine_eq rfl
  -- a dialect that is given by hand changes nothing: the text is parsed in it all the same
  | loaded _ hload ih =>
    unfold Session.loadFile at hload
    split at hload
    case h_1 => cases hload
    case h_2 =>
      cases hload
      exact .withDocument ih.engine_eq rfl
  | selected | reporting | files => rename_i ih; exact ⟨ih.engine_eq, ih.parsed⟩

end Workspace

/-! ## §3 Edits of a strict engine -/

/-- The engine looks for the standard transforms only, and checks what they give. -/
structure Engine.IsStrict (e : Engine) : Prop where
  registry : e.registry = .standard
  verifyOutput : e.config.verifyOutput = true
  genericWraps : e.config.genericWraps = false

/-- The two texts differ at most in the span, which is a span of the first. -/
def Text.DifferWithin (span : Span) (old new : String) : Prop :=
  ∃ front mid mid' back, old = front ++ mid ++ back ∧ new = front ++ mid' ++ back ∧
    byteSize front = span.start ∧ byteSize (front ++ mid) = span.stop

/-- An edit changes the text in its own span only. -/
theorem Edit.differWithin {edit : Edit} {old new replaced : String}
    (hreplaced : Text.slice old edit.span.start edit.span.stop = .ok replaced)
    (hnew : edit.applyTo old = .ok new) : Text.DifferWithin edit.span old new := by
  obtain ⟨front, back, hold, hstart, hstop, happly⟩ := Edit.applyTo_of_slice hreplaced
  rw [happly] at hnew
  cases hnew
  exact ⟨front, replaced, edit.replacement.plain, back, hold, rfl, hstart, hstop⟩

/-- What a strict engine offers is verified and gives finished text. -/
theorem Engine.IsStrict.of_mem_actionsAt {e : Engine} (he : e.IsStrict) {d : Document} {span : Span}
    {a : Action} (ha : a ∈ e.actionsAt d span) :
    a.document = d ∧ a.verify = true ∧ a.transform.GivesText := by
  obtain ⟨hdocument, _, htransform, hverify⟩ := Engine.mem_actionsAt_iff.mp ha
  refine ⟨hdocument, hverify.trans he.verifyOutput, ?_⟩
  -- without the generic transforms only the table of kinds is left
  simp only [Engine.offered, he.registry, he.genericWraps, Bool.false_and, Bool.false_eq_true,
    if_false, List.append_nil] at htransform
  have hassigned := Registry.mem_transformsFor_standard_iff.mp htransform
  exact Transform.givesText_specific _ (Registry.mem_specific_of_mem_assignments hassigned)

/-- An edit that a strict engine comes up with brings in no errors, for any text that it leads
to. -/
theorem Engine.IsStrict.errorCount_le {e : Engine} (he : e.IsStrict) {parser : Parser}
    {d : Document} {span : Span} {a : Action} (ha : a ∈ e.actionsAt d span) {edit : Edit}
    (happly : a.apply parser = .ok (some edit)) {source : String}
    (hsource : edit.applyTo d.source = .ok source) :
    (parser d.dialect source).errorCount ≤ d.tree.errorCount := by
  obtain ⟨rfl, hverify, htext⟩ := he.of_mem_actionsAt ha
  obtain ⟨_, replacement, hrun, _, hverified⟩ := Action.of_apply_eq_some happly
  obtain ⟨source', hsource', hcount⟩ := hverified hverify (htext _ _ _ hrun)
  -- the text that was checked is the text that the edit leads to
  obtain rfl : source' = source := Except.ok.inj (hsource'.symm.trans hsource)
  exact hcount

/-! ## §4 Runs of a strict engine -/

/-- The document is in the same dialect as another one and has no more errors. -/
structure Document.NoWorseThan (d d' : Document) : Prop where
  dialect_eq : d.dialect = d'.dialect
  errorCount_le : d.tree.errorCount ≤ d'.tree.errorCount

theorem Document.NoWorseThan.trans {d₁ d₂ d₃ : Document} (h : d₁.NoWorseThan d₂)
    (h' : d₂.NoWorseThan d₃) : d₁.NoWorseThan d₃ :=
  ⟨h.dialect_eq.trans h'.dialect_eq, Nat.le_trans h.errorCount_le h'.errorCount_le⟩

/-- There is no document before and after, or there is one and it got no worse. -/
def Session.Maintains (before after : Session) : Prop :=
  Option.Rel Document.NoWorseThan after.document before.document

namespace Session.Maintains

/-- A document that stays has got no worse. -/
theorem of_eq {s s' : Session} (h : s'.document = s.document) : s.Maintains s' := by
  unfold Session.Maintains
  rw [h]
  cases s.document with
  | none => exact .none
  | some d => exact .some ⟨rfl, Nat.le_refl _⟩

theorem trans {s₁ s₂ s₃ : Session} (h : s₁.Maintains s₂) (h' : s₂.Maintains s₃) :
    s₁.Maintains s₃ := by
  unfold Session.Maintains at h h' ⊢
  -- without a document in the middle there is none at either end
  generalize s₁.document = d₁? at h ⊢
  generalize s₂.document = d₂? at h h'
  generalize s₃.document = d₃? at h' ⊢
  cases h with
  | none => exact h'
  | some h =>
    cases h' with
    | some h' => exact .some (h'.trans h)

theorem dialect_eq {s s' : Session} (h : s.Maintains s') :
    s'.document.map Document.dialect = s.document.map Document.dialect := by
  unfold Session.Maintains at h
  generalize s.document = d? at h ⊢
  generalize s'.document = d'? at h ⊢
  cases h with
  | none => rfl
  | some h => exact congrArg some h.dialect_eq

end Session.Maintains

namespace Turn

/-- A turn that makes an edit runs the action with the number on the line. The action's target has
no errors, the text changes nowhere else, and the document gets no worse. -/
theorem of_edit?_eq_some {parser : Parser} {t : Turn} (he : t.before.session.engine.IsStrict)
    {edit : Edit} (h : t.edit? parser = some edit) :
    ∃ number d d' actions a, Command.onLine? t.line = some (.ok (.apply number)) ∧
      t.before.session.document = some d ∧ (t.after parser).session.document = some d' ∧
      t.before.session.actions = .ok actions ∧ 0 < number ∧ actions[number - 1]? = some a ∧
      a.apply parser = .ok (some edit) ∧ edit.applyTo d.source = .ok d'.source ∧
      a.target.tree.hasError = false ∧ Text.DifferWithin a.target.span d.source d'.source ∧
      d'.NoWorseThan d := by
  rcases t.document_cases parser with ⟨_, hnone, _⟩ | ⟨_, _, _, _, hnone, _⟩ |
    ⟨number, d, edit', source, replaced, _, hedit, hline, hdocument, hfor, hsource, hreplaced,
      hafter, _⟩
  · rw [hnone] at h
    cases h
  · rw [hnone] at h
    cases h
  · obtain rfl : edit' = edit := Option.some.inj (hedit.symm.trans h)
    obtain ⟨actions, a, hactions, hpos, ha, happly⟩ := Session.of_editFor_eq_ok hfor
    obtain ⟨herror, replacement, _, hwith, _⟩ := Action.of_apply_eq_some happly
    -- the edit takes the place of the target, so the text changes there only
    have hspan : edit'.span = a.target.span := by rw [hwith]; rfl
    obtain ⟨d₀, span, hd₀, _, rfl⟩ := Session.of_actions_eq_ok hactions
    obtain rfl : d₀ = d := Option.some.inj (hd₀.symm.trans hdocument)
    exact ⟨number, d₀, _, _, a, hline, hdocument, hafter, hactions, hpos, ha, happly,
      hsource, herror, hspan ▸ Edit.differWithin hreplaced hsource,
      rfl, he.errorCount_le (List.mem_of_getElem? ha) happly hsource⟩

/-- Without a file taken up and without an edit the document stays. -/
theorem document_of_quiet {parser : Parser} {t : Turn} (hloaded : t.loaded? parser = none)
    (hedit : t.edit? parser = none) :
    (t.after parser).session.document = t.before.session.document := by
  rcases t.document_cases parser with ⟨_, _, hdocument, _⟩ | ⟨_, _, _, hsome, _⟩ |
    ⟨_, _, _, _, _, _, hsome, _⟩
  · exact hdocument
  · rw [hsome] at hloaded
    cases hloaded
  · rw [hsome] at hedit
    cases hedit

/-- A turn that takes no file up maintains the document. -/
theorem maintains {parser : Parser} {t : Turn} (he : t.before.session.engine.IsStrict)
    (h : t.loaded? parser = none) : t.before.session.Maintains (t.after parser).session := by
  cases hedit : t.edit? parser with
  | none => exact .of_eq (document_of_quiet h hedit)
  | some edit =>
    obtain ⟨_, d, d', _, _, _, hbefore, hafter, _, _, _, _, _, _, _, hworse⟩ :=
      of_edit?_eq_some he hedit
    unfold Session.Maintains
    rw [hbefore, hafter]
    exact .some hworse

end Turn

namespace Workspace

/-- As long as no file is taken up, the document is maintained. -/
theorem run_maintains {parser : Parser} {w : Workspace} (he : w.session.engine.IsStrict)
    {lines : List String} (h : ∀ t ∈ w.turns parser lines, t.loaded? parser = none) :
    w.session.Maintains (w.run parser lines).session := by
  -- no turn changes the engine, so it is strict in each of them
  refine (run_of_turns (fun w' => w'.session.engine.IsStrict ∧ w.session.Maintains w'.session)
    (fun t ht => ?_) ⟨he, .of_eq rfl⟩).2
  rintro ⟨hstrict, hmaintains⟩
  exact ⟨t.after_engine parser ▸ hstrict, hmaintains.trans (Turn.maintains hstrict (h t ht))⟩

/-- What a run leads to can be reached. -/
theorem Reachable.run {parser : Parser} {engine : Engine} {w : Workspace}
    (h : w.Reachable parser engine) (lines : List String) :
    (w.run parser lines).Reachable parser engine :=
  run_of_turn (Workspace.Reachable parser engine) (fun t ht => .line t.line ht) h lines

end Workspace

/-! ## §5 What a run does to documents -/

/-- In a run of a strict engine from any workspace that can be reached, a document is always the
parse of its text, and only a file that is taken up changes the dialect. A turn changes the text
only by the action that its line asks for, inside of a target without errors, and with no more
errors afterwards. So from one file to the next the number of errors never grows. -/
theorem Workspace.run_never_adds_errors {parser : Parser} {engine : Engine}
    (hengine : engine.IsStrict) {w : Workspace} (hw : w.Reachable parser engine)
    (lines : List String) :
    (∀ d, (w.run parser lines).session.document = some d → d.tree = parser d.dialect d.source) ∧
    (∀ t ∈ w.turns parser lines, t.loaded? parser = none →
      (t.after parser).session.document.map Document.dialect =
        t.before.session.document.map Document.dialect ∧
      (t.edit? parser = none → (t.after parser).session.document = t.before.session.document)) ∧
    (∀ t ∈ w.turns parser lines, ∀ edit, t.edit? parser = some edit →
      ∃ number d d' actions a, Command.onLine? t.line = some (.ok (.apply number)) ∧
        t.before.session.document = some d ∧ (t.after parser).session.document = some d' ∧
        t.before.session.actions = .ok actions ∧ 0 < number ∧ actions[number - 1]? = some a ∧
        a.apply parser = .ok (some edit) ∧ edit.applyTo d.source = .ok d'.source ∧
        a.target.tree.hasError = false ∧ Text.DifferWithin a.target.span d.source d'.source ∧
        d'.NoWorseThan d) ∧
    ∀ further, (∀ t ∈ (w.run parser lines).turns parser further, t.loaded? parser = none) →
      (w.run parser lines).session.Maintains (w.run parser (lines ++ further)).session := by
  -- every turn of the run begins in a workspace that can be reached, and there the engine is the
  -- same
  have strict : ∀ w' : Workspace, w'.Reachable parser engine → w'.session.engine.IsStrict :=
    fun w' hw' => hw'.sound.engine_eq ▸ hengine
  have strict_before : ∀ t ∈ w.turns parser lines, t.before.session.engine.IsStrict := by
    intro t ht
    obtain ⟨earlier, hbefore⟩ := before_of_mem_turns ht
    exact strict _ (hbefore ▸ hw.run earlier)
  refine ⟨(hw.run lines).sound.parsed, ?_, ?_, ?_⟩
  · intro t ht hloaded
    exact ⟨(Turn.maintains (strict_before t ht) hloaded).dialect_eq, Turn.document_of_quiet hloaded⟩
  · intro t ht edit hedit
    exact Turn.of_edit?_eq_some (strict_before t ht) hedit
  · intro further hfurther
    rw [run_append]
    exact run_maintains (strict _ (hw.run lines)) hfurther

/-- The loop is turned around; the stray parenthesis behind it is still the only error. -/
theorem Workspace.run_never_adds_errors_loop :
    Sample.engine.IsStrict ∧ Sample.workspace.Reachable Sample.parser Sample.engine ∧
    (Sample.workspace.run Sample.parser [".load a.js"]).session.document.map Document.source =
      some "while (é) y )" ∧
    (Sample.workspace.run Sample.parser [".load a.js", "1:3", ".apply 1"]).session.document.map
      Document.source = some "do y while (é) )" ∧
    (Sample.workspace.run Sample.parser [".load a.js"]).session.Maintains
      (Sample.workspace.run Sample.parser [".load a.js", "1:3", ".apply 1"]).session := by
  have hstrict : Sample.engine.IsStrict := ⟨rfl, rfl, rfl⟩
  have hreachable : Sample.workspace.Reachable Sample.parser Sample.engine := .fresh _
  refine ⟨hstrict, hreachable, by decide +kernel, by decide +kernel, ?_⟩
  exact (Workspace.run_never_adds_errors hstrict hreachable [".load a.js"]).2.2.2
    ["1:3", ".apply 1"] (by decide +kernel)

end CodeActions
