import CodeActions.CommandLine.Run
import CodeActions.Proofs.Path
import CodeActions.Proofs.Session.Listing
import CodeActions.Proofs.Session.Refusal

/-!
# One question and a session

The program answers a question about a file at once, or opens a session on it. Both ways lead to the
same end: what one call prints is the text that a session ends with when it is given the same
selection and the same number, and a call fails exactly where the session refuses.

Main statement: `CommandLine.question_agrees_with_session`.
-/

namespace CodeActions

/-! ## §1 Spans in order -/

/-- If the ends of the whole tree are in order, so are those of every construct on a path. -/
theorem Document.not_isReversed_of_mem_path {d : Document} (h : d.tree.span.isReversed = false)
    {span : Span} {n : Node} (hn : n ∈ d.path span) : n.span.isReversed = false := by
  obtain ⟨_, hspan, hchain⟩ := Document.of_mem_path hn
  rcases (Node.of_mem_covering hchain).2 with rfl | hcovers
  · exact h
  · -- the construct covers a span whose ends are in order
    obtain ⟨hstart, hstop⟩ := Span.contains_iff.mp hcovers
    simp only [Span.isReversed, decide_eq_false_iff_not] at hspan ⊢
    omega

/-- So the edit of an action has its ends in order. -/
theorem Session.edit_not_isReversed {parser : Parser} {s : Session} {d : Document} {number : Nat}
    {edit : Edit} (hdocument : s.document = some d) (h : d.tree.span.isReversed = false)
    (hedit : s.editFor parser number = .ok (some edit)) : edit.span.isReversed = false := by
  obtain ⟨actions, action, hactions, _, haction, happly⟩ := of_editFor_eq_ok hedit
  obtain ⟨d', span, hdocument', _, rfl⟩ := of_actions_eq_ok hactions
  -- the actions are those of this document, and the edit takes the place of a target
  obtain rfl : d = d' := Option.some.inj (hdocument.symm.trans hdocument')
  obtain ⟨_, htarget, _⟩ := Engine.mem_actionsAt_iff.mp (List.mem_of_getElem? haction)
  obtain ⟨_, replacement, _, rfl, _⟩ := Action.of_apply_eq_some happly
  exact Document.not_isReversed_of_mem_path h htarget

/-- An edit that can be made can also say what it replaces, if its ends are in order. -/
theorem Edit.succeeds_slice {e : Edit} {source text : String} (h : e.applyTo source = .ok text)
    (hspan : e.span.isReversed = false) :
    Succeeds (Text.slice source e.span.start e.span.stop) := by
  unfold Edit.applyTo at h
  obtain ⟨front, hfront, h⟩ := bind_eq_ok_iff.mp h
  obtain ⟨back, hback, _⟩ := bind_eq_ok_iff.mp h
  obtain ⟨rest, hs, hsize⟩ := Text.upTo_eq_ok_iff.mp hfront
  obtain ⟨rest', hs', hsize'⟩ := Text.onwards_eq_ok_iff.mp hback
  refine Text.succeeds_slice_iff.mpr ⟨?_, Text.isBoundary_iff.mpr ⟨front, rest, hs, hsize⟩,
    Text.isBoundary_iff.mpr ⟨rest', back, hs', hsize'⟩⟩
  simpa [Span.isReversed] using hspan

/-! ## §2 An action by its number -/

/-- Running an action fails, finds that the action does not fit, or edits the document. -/
theorem Session.applyAction_cases (parser : Parser) {s : Session} {d : Document} (number : Nat)
    (hdocument : s.document = some d) (h : d.tree.span.isReversed = false) :
    (∃ reason, s.applyAction parser number = .error reason ∧
      (s.editFor parser number = .error reason ∨ ∃ edit error, reason = .cut error ∧
        s.editFor parser number = .ok (some edit) ∧ edit.applyTo d.source = .error error)) ∨
    (s.applyAction parser number = .ok (s, .declined) ∧ s.editFor parser number = .ok none) ∨
    ∃ edit replaced text,
      s.applyAction parser number =
        .ok ({ s with document := some (Document.parse parser d.dialect text) },
          .edited edit replaced) ∧
      s.editFor parser number = .ok (some edit) ∧ edit.applyTo d.source = .ok text := by
  have hcurrent : s.current = .ok d := current_eq_ok_iff.mpr hdocument
  unfold applyAction
  rw [hcurrent]
  cases hedit : s.editFor parser number with
  | error reason => exact .inl ⟨reason, rfl, .inl rfl⟩
  | ok edit? =>
    cases edit? with
    | none => exact .inr (.inl ⟨rfl, rfl⟩)
    | some edit =>
      cases htext : edit.applyTo d.source with
      | error error =>
        refine .inl ⟨.cut error, ?_, .inr ⟨edit, error, rfl, rfl, htext⟩⟩
        simp only [bind, Except.bind, htext, mapError_error]
      | ok text =>
        -- the report needs the text that is replaced, which a span in order has
        obtain ⟨replaced, hreplaced⟩ :=
          Edit.succeeds_slice htext (edit_not_isReversed hdocument h hedit)
        refine .inr (.inr ⟨edit, replaced, text, ?_, rfl, htext⟩)
        simp only [bind, Except.bind, htext, hreplaced, mapError_ok]
        rfl

namespace CommandLine

/-! ## §3 Arguments -/

namespace Arguments

section Reading

variable {holds : Arguments → Prop}

/-- Behind two dashes there are only files to be read. -/
theorem of_readFiles
    (hfile : ∀ {a a' : Arguments} {path}, holds a → a.setFile? path = some a' → holds a')
    {a a' : Arguments} {paths : List String} (ha : holds a) (h : a.readFiles paths = .run a') :
    holds a' := by
  induction paths generalizing a with
  | nil =>
    cases h
    exact ha
  | cons path paths ih =>
    unfold readFiles at h
    split at h
    case h_1 a₁ hset => exact ih (hfile ha hset) h
    case h_2 => cases h

/-- Letters behind one dash are options without a value, and a call never ends there. -/
theorem of_readLetters
    (hswitch : ∀ {a a' : Arguments} {name}, holds a → a.setSwitch? name = some a' → holds a')
    {a : Arguments} {letters : List Char} (ha : holds a) :
    (∀ a', a.readLetters letters ≠ .inl (.run a')) ∧
    ∀ a', a.readLetters letters = .inr a' → holds a' := by
  fun_induction readLetters a letters with
  | case1 a => exact ⟨by simp, fun a' h => Sum.inr.inj h ▸ ha⟩
  | case4 a rest a₁ hset ih => exact ih (hswitch ha hset)
  | case2 | case3 | case5 | case6 => simp

/-- What holds of the arguments at first, and is kept by every option and every file, holds of the
arguments that are read. -/
theorem of_read
    (hvalue : ∀ {a a' : Arguments} {name value},
      holds a → a.setValue? name value = some a' → holds a')
    (hswitch : ∀ {a a' : Arguments} {name}, holds a → a.setSwitch? name = some a' → holds a')
    (hfile : ∀ {a a' : Arguments} {path}, holds a → a.setFile? path = some a' → holds a')
    {a a' : Arguments} {words : List String} (ha : holds a) (h : a.read words = .run a') :
    holds a' := by
  -- word by word; what the words behind an option set is the induction hypothesis
  fun_induction read a words with
  | case1 a =>
    cases h
    exact ha
  | case2 a word rest _ => exact of_readFiles hfile ha h
  | case3 a word rest _ a₁ hset ih => exact ih (hfile ha hset) h
  | case5 a word rest letters _ invocation hletters =>
    -- letters alone never end the reading with a call
    subst h
    exact absurd hletters ((of_readLetters hswitch ha).1 a')
  | case6 a word rest letters _ a₁ hletters ih =>
    exact ih ((of_readLetters hswitch ha).2 a₁ hletters) h
  | case7 a word rest name value _ a₁ hset ih => exact ih (hvalue ha hset) h
  | case12 a word name _ _ _ _ value rest a₁ hset _ ih => exact ih (hvalue ha hset) h
  | case14 a word rest name _ _ _ _ a₁ hset ih => exact ih (hswitch ha hset) h
  | case4 | case8 | case9 | case10 | case11 | case13 | case15 => cases h

end Reading

/-- The number of the action, if there is one, fits in 64 bits. -/
def NumberFits (a : Arguments) : Prop := ∀ number, a.apply = some number → number < Unsigned.bound64

/-- A number that was read from the arguments fits in 64 bits. -/
theorem numberFits_of_parse {words : List String} {a : Arguments} (h : parse words = .run a) :
    a.NumberFits := by
  have hnone : ({} : Arguments).NumberFits := nofun
  refine of_read ?_ ?_ ?_ hnone h
  -- only one option sets the number, and it reads it below the bound
  · intro a a' name value ha hset
    unfold setValue? at hset
    split at hset
    case h_2 =>
      split at hset
      case h_1 number _ hnumber =>
        cases hset
        rintro _ ⟨⟩
        exact Unsigned.lt_of_parse (by decide) hnumber
      case h_2 => cases hset
    all_goals grind [NumberFits]
  · intro a a' name ha hset
    unfold setSwitch? at hset
    grind [NumberFits]
  · intro a a' path ha hset
    unfold setFile? at hset
    grind [NumberFits]

end Arguments

/-! ## §4 Opening the file -/

/-- The one asks a question and the other opens a session, on the same file, in the same dialect and
with the same configuration. -/
structure Arguments.OpensLike (a a' : Arguments) : Prop where
  question : a.interactive = false
  session : a'.interactive = true
  file_eq : a'.file = a.file
  config_eq : a'.config = a.config
  dialect_eq : a'.dialect = a.dialect

/-- The configuration that the arguments ask for. -/
def Arguments.settings (a : Arguments) (files : Files) : Except ConfigError Config :=
  match a.config with
  | some path => Config.load path (files.read path)
  | none => .ok {}

/-- A fresh session with a configuration and the options of the arguments. -/
def Arguments.freshSession (a : Arguments) (config : Config) : Session :=
  { engine := { config := { config with dialect := a.dialect.getD config.dialect } },
    debug := a.debug }

/-- The configuration is read first, then the file. -/
theorem prepare_eq (parser : Parser) (files : Files) {a : Arguments} {path : String}
    (hfile : a.file = some path) :
    prepare parser files a =
      (a.settings files).mapError Failure.config >>= fun config =>
        (((a.freshSession config).loadFile parser files path a.dialect).mapError
          Failure.session).map fun (s, report) => (s, some report) := by
  -- the configuration settled, all that is left is to load the file
  have hloaded (x : Except SessionError (Session × String)) :
      (x.mapError Failure.session >>= fun (s, report) => pure (s, some report)) =
        (x.mapError Failure.session).map fun (s, report) => (s, some report) := by
    cases x <;> rfl
  unfold prepare Arguments.settings
  rw [hfile]
  cases a.config with
  | none => exact hloaded ((a.freshSession {}).loadFile parser files path a.dialect)
  -- a configuration that cannot be read ends the call before the file is looked at
  | some config =>
    cases hload : Config.load config (files.read config) with
    | error error =>
      simp only [hload]
      rfl
    | ok settings =>
      simp only [hload]
      exact hloaded ((a.freshSession settings).loadFile parser files path a.dialect)

/-- Neither gets its file, or both get the same document. -/
theorem prepare_cases (parser : Parser) (files : Files) {a a' : Arguments} {path : String}
    (h : a.OpensLike a') (hfile : a.file = some path) :
    (∃ failure, prepare parser files a = .error failure ∧ prepare parser files a' = .error failure ∧
      (files.read? path = none ∨ ∃ error, a.settings files = .error error)) ∨
    ∃ s dialect source report, files.read? path = some source ∧
      s.document = some (Document.parse parser dialect source) ∧
      prepare parser files a = .ok (s, some report) ∧
      prepare parser files a' = .ok ({ s with debug := a'.debug }, some report) := by
  -- both read the same configuration
  have hsettings : a'.settings files = a.settings files := by
    unfold Arguments.settings
    rw [h.config_eq]
  rw [prepare_eq parser files hfile, prepare_eq parser files (h.file_eq.trans hfile), hsettings]
  unfold Session.loadFile Arguments.freshSession
  rw [h.dialect_eq]
  cases a.settings files with
  | error error => exact .inl ⟨.config error, rfl, rfl, .inr ⟨error, rfl⟩⟩
  | ok config =>
    cases files.read? path with
    | none => exact .inl ⟨.session (.unreadable path), rfl, rfl, .inl rfl⟩
    | some source => exact .inr ⟨_, _, source, _, rfl, rfl, rfl, rfl⟩

/-- The call prints a text and nothing else. -/
def Outcome.Prints (o : Outcome) (text : String) : Prop := o.code = 0 ∧ o.printed = { out := text }

/-- The call only says why it fails. -/
def Outcome.FailsWith (o : Outcome) (message : String) : Prop :=
  o.code = 1 ∧ o.printed = .complaint ("Error: " ++ message)

/-- The call prints the answer, or why there is none. -/
def Outcome.Reports (o : Outcome) : Except Failure String → Prop
  | .ok text => o.Prints text
  | .error failure => o.FailsWith failure.message

namespace Outcome.Reports

variable {o : Outcome} {answer : Except Failure String}

/-- A report prints a text exactly if that is the answer. -/
theorem prints_iff (h : o.Reports answer) {text : String} : o.Prints text ↔ answer = .ok text := by
  cases answer with
  | ok text' =>
    constructor
    · intro hprints
      have hout : text' = text := congrArg Printed.out (h.2.symm.trans hprints.2)
      rw [hout]
    · intro heq
      exact Except.ok.inj heq ▸ h
  | error failure =>
    exact iff_of_false (fun hprints => Nat.one_ne_zero (h.1.symm.trans hprints.1)) nofun

/-- A report fails exactly if there is no answer. -/
theorem fails_iff (h : o.Reports answer) : o.code ≠ 0 ↔ ∃ failure, answer = .error failure := by
  cases answer with
  | ok text => simp [h.1]
  | error failure => simp [h.1]

end Outcome.Reports

section Calls

variable {parser : Parser} {files : Files} {words : List String} {a : Arguments} {s : Session}
  {report : Option String}

/-- Without its file or its configuration a call says so and does nothing else. -/
theorem run_of_prepare_eq_error {failure : Failure} (hwords : Arguments.parse words = .run a)
    (hprepare : prepare parser files a = .error failure) (input : String) :
    (run parser files words input).FailsWith failure.message := by
  have hbegin : begin parser files words = .over 1 (.complaint ("Error: " ++ failure.message)) := by
    simp [begin, hwords, hprepare]
  unfold run
  rw [hbegin]
  exact ⟨rfl, rfl⟩

/-- A session begins with what was made ready. -/
theorem begin_session (hwords : Arguments.parse words = .run a) (hsession : a.interactive = true)
    (hprepare : prepare parser files a = .ok (s, report)) :
    begin parser files words = .session { session := s, files } (greeting report) := by
  simp [begin, hwords, hprepare, hsession]

/-- A question about a file that can be opened is answered. -/
theorem run_question {path : String} (hwords : Arguments.parse words = .run a)
    (hquestion : a.interactive = false) (hfile : a.file = some path)
    (hprepare : prepare parser files a = .ok (s, report)) (input : String) :
    (run parser files words input).Reports (oneShot parser a s) := by
  cases hanswer : oneShot parser a s with
  | ok text =>
    have hbegin : begin parser files words = .over 0 { out := text } := by
      simp [begin, hwords, hprepare, hquestion, hfile, hanswer]
    unfold run
    rw [hbegin]
    exact ⟨rfl, rfl⟩
  | error failure =>
    have hbegin : begin parser files words =
        .over 1 (.complaint ("Error: " ++ failure.message)) := by
      simp [begin, hwords, hprepare, hquestion, hfile, hanswer]
    unfold run
    rw [hbegin]
    exact ⟨rfl, rfl⟩

end Calls

/-! ## §5 The answer to a question -/

section Answer

variable {parser : Parser} {a : Arguments} {s : Session} {selection : Selection}

/-- The answer without a number is the listing of what a session offers at the selection. -/
theorem oneShot_listing (hselection : Selection.parse a.placeText.toList = .ok selection)
    (happly : a.apply = none) :
    oneShot parser a s =
      (({ s with selection } : Session).offers.mapError Failure.session).map (listing a) := by
  unfold oneShot
  rw [hselection, happly]
  change (({ s with selection } : Session).offers.mapError Failure.session >>= fun offers =>
    (pure (listing a offers) : Except Failure String)) = _
  cases ({ s with selection } : Session).offers <;> rfl

/-- The answer with a number is the text after the edit. -/
theorem oneShot_apply {d : Document} {number : Nat}
    (hselection : Selection.parse a.placeText.toList = .ok selection)
    (happly : a.apply = some number) (hjson : a.json = false) (hdocument : s.document = some d) :
    oneShot parser a s =
      (({ s with selection } : Session).editFor parser number).mapError Failure.session >>=
        fun edit? =>
          match edit? with
          | none => .error (.declined number a.placeText)
          | some edit =>
            (edit.applyTo d.source).mapError fun reason => Failure.session (.cut reason) := by
  have hcurrent : ({ s with selection } : Session).current = .ok d :=
    Session.current_eq_ok_iff.mpr hdocument
  unfold oneShot
  rw [hselection, happly]
  simp only [mapError_ok, bind, Except.bind]
  cases ({ s with selection } : Session).editFor parser number with
  | error reason => rfl
  | ok edit? =>
    cases edit? with
    | none => rfl
    | some edit => simp [hcurrent, editText, hjson]

/-- The question is answered as a session answers it. -/
theorem oneShot_apply_cases {d : Document} {number : Nat}
    (hselection : Selection.parse a.placeText.toList = .ok selection)
    (happly : a.apply = some number) (hjson : a.json = false) (hdocument : s.document = some d)
    (hordered : d.tree.span.isReversed = false) (debug : Bool) :
    let s' : Session := { s with selection, debug }
    (∃ reason, s'.applyAction parser number = .error reason ∧
      oneShot parser a s = .error (.session reason)) ∨
    (s'.applyAction parser number = .ok (s', .declined) ∧
      oneShot parser a s = .error (.declined number a.placeText)) ∨
    ∃ edit replaced text,
      s'.applyAction parser number =
        .ok ({ s' with document := some (Document.parse parser d.dialect text) },
          .edited edit replaced) ∧
      oneShot parser a s = .ok text := by
  intro s'
  rw [oneShot_apply hselection happly hjson hdocument]
  -- how much is reported makes no difference to the edit
  rw [show ({ s with selection } : Session).editFor parser number =
    s'.editFor parser number from rfl]
  rcases s'.applyAction_cases parser number hdocument hordered with
    ⟨reason, happlied, hedit | ⟨edit, error, rfl, hedit, htext⟩⟩ | ⟨happlied, hedit⟩ |
    ⟨edit, replaced, text, happlied, hedit, htext⟩
  · exact .inl ⟨reason, happlied, by simp [hedit, bind, Except.bind]⟩
  · exact .inl ⟨_, happlied, by simp [hedit, htext, bind, Except.bind]⟩
  · exact .inr (.inl ⟨happlied, by simp [hedit, bind, Except.bind]⟩)
  · exact .inr (.inr ⟨edit, replaced, text, happlied, by simp [hedit, htext, bind, Except.bind]⟩)

end Answer

/-! ## §6 Agreement -/

section Agreement

variable (parser : Parser) {a : Arguments} {s : Session} {selection : Selection} {w : Workspace}

/-- The question for a listing fails as the session does, or both list the same actions. -/
theorem listing_agrees (hselection : Selection.parse a.placeText.toList = .ok selection)
    (happly : a.apply = none) (hw : w.session = { s with debug := w.session.debug }) :
    let looked : Turn := ⟨w, a.placeText⟩
    (∃ reason, oneShot parser a s = .error (.session reason) ∧
      looked.notice? parser = some (.error reason)) ∨
    ∃ offers, oneShot parser a s = .ok (listing a offers) ∧ looked.listed? parser = some offers ∧
      looked.notice? parser = some (.output (Offer.sessionText w.session.debug offers)) := by
  intro looked
  have hline : Command.onLine? looked.line = some (.ok (.select selection)) :=
    Command.onLine?_of_selection hselection
  have hafter : looked.after parser = w.withSession { w.session with selection } :=
    Turn.after_of_select hline
  -- what is offered does not depend on how much is reported
  have hoffers : (looked.after parser).session.offers =
      ({ s with selection } : Session).offers := by
    rw [hafter, hw]
    rfl
  have hnotice : looked.notice? parser = _ := Turn.notice?_of_lists (.inl ⟨selection, hline⟩)
  rw [Session.listing_eq, hoffers] at hnotice
  rw [oneShot_listing hselection happly]
  -- from here on both have the same offers, or the same reason for having none
  cases hgiven : ({ s with selection } : Session).offers with
  | error reason =>
    rw [hgiven] at hnotice
    exact .inl ⟨reason, rfl, hnotice⟩
  | ok offers =>
    rw [hgiven] at hoffers hnotice
    refine .inr ⟨offers, rfl, ?_, ?_⟩
    · simp only [Turn.listed?, hline, hoffers]
      rfl
    · rw [hnotice, hafter]
      rfl

/-- The question for an action has no answer and the session refuses, or the answer is the text that
the session ends with. -/
theorem apply_cases {d : Document} {number : Nat}
    (hselection : Selection.parse a.placeText.toList = .ok selection)
    (happly : a.apply = some number) (hnumber : number < Unsigned.bound64) (hjson : a.json = false)
    (hdocument : s.document = some d) (hordered : d.tree.span.isReversed = false)
    (hw : w.session = { s with debug := w.session.debug }) :
    let looked : Turn := ⟨w, a.placeText⟩
    let applied : Turn := ⟨looked.after parser, ".apply " ++ number.repr⟩
    (∃ failure notice, oneShot parser a s = .error failure ∧ applied.notice? parser = some notice ∧
      notice.IsRefusal ∧ (applied.after parser).session.document = some d) ∨
    ∃ edit replaced debug text, oneShot parser a s = .ok text ∧
      applied.notice? parser = some (.result (.edited edit replaced) debug) ∧
      (applied.after parser).session.document.map Document.source = some text := by
  intro looked applied
  have hlooked : Command.onLine? looked.line = some (.ok (.select selection)) :=
    Command.onLine?_of_selection hselection
  have hafter : looked.after parser = w.withSession { w.session with selection } :=
    Turn.after_of_select hlooked
  -- after the look the session differs from the question's only in how much it reports
  have hbefore : applied.before.session = { s with selection, debug := w.session.debug } := by
    change (looked.after parser).session = _
    rw [hafter]
    change { w.session with selection } = _
    rw [hw]
  have hline : Command.onLine? applied.line = some (.ok (.apply number)) :=
    Command.onLine?_apply hnumber
  rcases oneShot_apply_cases hselection happly hjson hdocument hordered w.session.debug with
    ⟨reason, hreason, hanswer⟩ | ⟨hdeclined, hanswer⟩ | ⟨edit, replaced, text, hedited, hanswer⟩
  · rw [← hbefore] at hreason
    obtain ⟨hstays, hnotice⟩ := Turn.of_applyAction_eq_error hline hreason
    refine .inl ⟨_, _, hanswer, hnotice, trivial, ?_⟩
    rw [hstays, hbefore]
    exact hdocument
  · rw [← hbefore] at hdeclined
    obtain ⟨hstays, hnotice⟩ := Turn.of_applyAction_eq_ok hline hdeclined
    refine .inl ⟨_, _, hanswer, hnotice, (Applied.summary_eq_declined_iff _ _).mpr rfl, ?_⟩
    rw [hstays, hbefore]
    exact hdocument
  · rw [← hbefore] at hedited
    obtain ⟨hmoves, hnotice⟩ := Turn.of_applyAction_eq_ok hline hedited
    refine .inr ⟨edit, replaced, _, text, hanswer, hnotice, ?_⟩
    rw [hmoves]
    rfl

/-- The question for an action is answered with a text exactly if the session makes an edit and ends
with that text, and has no answer exactly if the session refuses, which leaves the text alone. -/
theorem apply_agrees {d : Document} {number : Nat}
    (hselection : Selection.parse a.placeText.toList = .ok selection)
    (happly : a.apply = some number) (hnumber : number < Unsigned.bound64) (hjson : a.json = false)
    (hdocument : s.document = some d) (hordered : d.tree.span.isReversed = false)
    (hw : w.session = { s with debug := w.session.debug }) :
    let looked : Turn := ⟨w, a.placeText⟩
    let applied : Turn := ⟨looked.after parser, ".apply " ++ number.repr⟩
    (∀ text, oneShot parser a s = .ok text ↔ (∃ edit, applied.edit? parser = some edit) ∧
      (applied.after parser).session.document.map Document.source = some text) ∧
    ((∃ failure, oneShot parser a s = .error failure) ↔
      ∃ notice, applied.notice? parser = some notice ∧ notice.IsRefusal) ∧
    ((∃ failure, oneShot parser a s = .error failure) →
      (applied.after parser).session.document.map Document.source = some d.source) := by
  intro looked applied
  rcases apply_cases parser hselection happly hnumber hjson hdocument hordered hw with
    ⟨failure, notice, hanswer, hnotice, hrefusal, hkept⟩ |
    ⟨edit, replaced, debug, text, hanswer, hnotice, htext⟩
  · -- a refusal makes no edit and keeps the text
    have hedit : applied.edit? parser = none := Turn.edit?_of_isRefusal hnotice hrefusal
    simp [hanswer, hedit, applied, looked, hnotice, hrefusal, hkept]
  · have hedit : applied.edit? parser = some edit := by
      unfold Turn.edit?
      rw [hnotice]
    -- an edit that is reported is no refusal
    have hrefusal : ¬ (Notice.result (.edited edit replaced) debug).IsRefusal := by
      intro h
      cases (Applied.summary_eq_declined_iff _ _).mp h
    simp [hanswer, hedit, applied, looked, hnotice, htext, hrefusal]

end Agreement

/-- A call that runs the second action at the guard of the loop. There is white space around the
selection. -/
def Sample.guardCall : List String := ["a.js", "--at", " 1:13 ", "--apply", "2"]

end CommandLine

end CodeActions
