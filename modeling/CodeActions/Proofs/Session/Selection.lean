import CodeActions.Proofs.Offset
import CodeActions.Proofs.Session.Listing

/-!
# Selections and edits

A selection is kept by row and column while the text changes under it. An edit leaves the positions
up to its start where they are, so the selection stays in the document as long as nothing before its
end is edited. An end that lies behind the start of an edit stays exactly if the new text has it.

Main statements: `Turn.offsetAt?_of_edit`, `Workspace.selection_stays_unless_overwritten`,
`Workspace.selection_can_be_lost`.
-/

namespace CodeActions

/-! ## §1 Selections in a document -/

/-- The session has a document, and its selection is the span there. -/
def Session.Selects (s : Session) (span : Span) : Prop :=
  ∃ d, s.document = some d ∧ d.spanOf s.selection = .ok span

/-! ## §2 Positions after an edit -/

/-- After an edit the positions up to its start are what they were, and behind it they are those of
the replacement with the text behind the edit, counted from the start of the edit. -/
theorem Turn.offsetAt?_of_edit {parser : Parser} {t : Turn} {edit : Edit}
    (h : t.edit? parser = some edit) :
    ∃ d d' back, t.before.session.document = some d ∧ (t.after parser).session.document = some d' ∧
      Text.onwards d.source edit.span.stop = .ok back ∧
      ∀ p, d'.offsetAt? p =
        if p ≤ edit.start then d.offsetAt? p
        else (Text.offsetAt? (edit.replacement.plain ++ back).toList (p.countedFrom edit.start)).map
          (edit.span.start + ·) := by
  rcases t.document_cases parser with ⟨_, hnone, _⟩ | ⟨_, _, _, _, hnone, _⟩ |
    ⟨number, d, edit', source, replaced, _, hedit, _, hd, hfor, hsource, hreplaced, hafter, _⟩
  · rw [hnone] at h
    cases h
  · rw [hnone] at h
    cases h
  obtain rfl : edit' = edit := Option.some.inj (hedit.symm.trans h)
  obtain ⟨front, back, hold, hstart, hstop, hnew⟩ := Edit.applyTo_of_slice hreplaced
  rw [hsource] at hnew
  cases hnew
  -- the edit says where it starts, which is where the text before it ends
  have hpoint : edit'.start = Text.endPoint front.toList := by
    obtain ⟨actions, a, hactions, _, ha, happly⟩ := Session.of_editFor_eq_ok hfor
    obtain ⟨_, replacement, _, rfl, _⟩ := Action.of_apply_eq_some happly
    obtain ⟨d₀, span, hd₀, _, rfl⟩ := Session.of_actions_eq_ok hactions
    obtain rfl : d₀ = d := Option.some.inj (hd₀.symm.trans hd)
    obtain ⟨hdocument, _⟩ := Engine.mem_actionsAt_iff.mp (List.mem_of_getElem? ha)
    have hlist : d₀.source.toList = front.toList ++ (replaced ++ back).toList := by
      rw [hold, String.append_assoc, String.toList_append]
    have hsize : a.target.span.start = Text.size front.toList := hstart.symm
    calc Text.pointAt a.document.source.toList a.target.span.start
        = Text.pointAt (front.toList ++ (replaced ++ back).toList) (Text.size front.toList) := by
          rw [hdocument, hlist, hsize]
      _ = Text.endPoint front.toList := Text.pointAt_size _ _
  refine ⟨d, _, back, hd, hafter, Text.onwards_eq_ok_iff.mpr ⟨front ++ replaced, hold, hstop⟩,
    fun p => ?_⟩
  have hsize : edit'.span.start = Text.size front.toList := hstart.symm
  -- both texts have the same front, so up to its end they have the same positions
  have hd' :
      (Document.parse parser d.dialect (front ++ edit'.replacement.plain ++ back)).offsetAt? p =
        Text.offsetAt? (front.toList ++ (edit'.replacement.plain ++ back).toList) p := by
    simp only [Document.offsetAt?, Document.parse, String.append_assoc, String.toList_append]
  have hd'' : d.offsetAt? p = Text.offsetAt? (front.toList ++ (replaced ++ back).toList) p := by
    simp only [Document.offsetAt?, hold, String.append_assoc, String.toList_append]
  rw [hd', hd'', Text.offsetAt?_append, Text.offsetAt?_append, hpoint, hsize]
  split
  · rfl
  · rfl

/-! ## §3 Turns that spare the selection -/

namespace Turn

/-- An edit in the turn begins at or behind both ends of the selection. -/
def SparesSelection (parser : Parser) (t : Turn) : Prop :=
  ∀ edit, t.edit? parser = some edit →
    t.before.session.selection.start ≤ edit.start ∧ t.before.session.selection.stop ≤ edit.start

/-- A selection that is spared and not moved stays what it is. -/
theorem selects_after {parser : Parser} {t : Turn} {span : Span} (hloaded : t.loaded? parser = none)
    (hselect : ∀ s, Command.onLine? t.line ≠ some (.ok (.select s)))
    (hspares : t.SparesSelection parser) (h : t.before.session.Selects span) :
    (t.after parser).session.Selects span := by
  obtain ⟨d, hd, hspan⟩ := h
  have hselection := selection_eq hloaded hselect
  cases hedit : t.edit? parser with
  | none => exact ⟨d, (document_of_quiet hloaded hedit).trans hd, hselection ▸ hspan⟩
  -- neither end of the selection lies behind the start of the edit
  | some edit =>
    obtain ⟨hstart, hstop⟩ := hspares edit hedit
    obtain ⟨d₀, d', _, hd₀, hd', _, hoffsets⟩ := offsetAt?_of_edit hedit
    obtain rfl : d₀ = d := Option.some.inj (hd₀.symm.trans hd)
    refine ⟨d', hd', ?_⟩
    rw [Document.spanOf_eq_ok_iff] at hspan ⊢
    rw [hselection, hoffsets, hoffsets, if_pos hstart, if_pos hstop]
    exact hspan

/-- A file is taken up with its start selected. -/
theorem selects_of_loaded? {parser : Parser} {t : Turn} {path : String}
    (h : t.loaded? parser = some path) : (t.after parser).session.Selects ⟨0, 0⟩ := by
  rcases t.line_cases parser with ⟨hline, _⟩ | ⟨_, hline, _⟩ |
    ⟨command, notice, hline, hperforms, hnotice⟩
  · simp [loaded?, hline] at h
  · simp [loaded?, hline] at h
  · -- only loading ends with a file taken up, and it selects the start
    generalize t.after parser = next at hperforms ⊢
    cases hperforms with
    | loads dialect text hsource =>
      refine ⟨_, rfl, Document.spanOf_eq_ok_iff.mpr ⟨?_, ?_⟩⟩
      · exact Text.offsetAt?_origin _
      · exact Text.offsetAt?_origin _
    | shows text hshows => cases command <;> simp_all [loaded?, Command.onlyShows]
    | fails => cases command <;> simp_all [loaded?]
    | quits | togglesDebug | selects | declines | edits | writes => simp [loaded?, hline] at h

/-- A selection that brings up a listing lies in the document. -/
theorem selects_of_output {parser : Parser} {t : Turn} {s : Selection} {text : String}
    (hline : Command.onLine? t.line = some (.ok (.select s)))
    (hnotice : t.notice? parser = some (.output text)) :
    ∃ span, (t.after parser).session.Selects span := by
  rw [notice?_of_lists (.inl ⟨s, hline⟩)] at hnotice
  cases hlisting : (t.after parser).session.listing with
  | error reason => simp [hlisting] at hnotice
  -- a listing was made, so there was a document and a span in it
  | ok text' =>
    rw [Session.listing_eq, Session.offers_eq] at hlisting
    obtain ⟨_, hoffers, _⟩ := map_eq_ok_iff.mp hlisting
    obtain ⟨actions, hactions, _⟩ := map_eq_ok_iff.mp hoffers
    obtain ⟨d, span, hd, hspan, _⟩ := Session.of_actions_eq_ok hactions
    exact ⟨span, d, hd, hspan⟩

/-- A document never goes away. -/
theorem document_isSome {parser : Parser} {t : Turn} (h : t.before.session.document.isSome = true) :
    (t.after parser).session.document.isSome = true := by
  rcases t.document_cases parser with ⟨_, _, hdocument, _⟩ | ⟨_, _, _, _, _, _, hdocument, _⟩ |
    ⟨_, _, _, _, _, _, _, _, _, _, _, _, hdocument, _⟩
  · rw [hdocument]
    exact h
  · rw [hdocument]
    rfl
  · rw [hdocument]
    rfl

end Turn

namespace Workspace

/-- Over a whole run too, as long as nothing moves the selection and every edit spares it. -/
theorem selects_run {parser : Parser} {w : Workspace} {lines : List String} {span : Span}
    (hw : w.session.Selects span)
    (h : ∀ t ∈ w.turns parser lines, t.loaded? parser = none ∧
      (∀ s, Command.onLine? t.line ≠ some (.ok (.select s))) ∧ t.SparesSelection parser) :
    (w.run parser lines).session.Selects span := by
  refine run_of_turns (fun w => w.session.Selects span) (fun t ht => ?_) hw
  obtain ⟨hloaded, hselect, hspares⟩ := h t ht
  exact Turn.selects_after hloaded hselect hspares

end Workspace

/-! ## §4 Selections outside of the document -/

namespace Session

/-- The actions of a session complain about the selection exactly if it lies outside of the
document. -/
theorem actions_eq_outside_iff {s : Session} {p : Position} :
    s.actions = .error (.outside p) ↔
      ∃ d, s.document = some d ∧ d.spanOf s.selection = .error p := by
  unfold actions current
  cases s.document with
  | none => simp [bind, Except.bind]
  | some d =>
    have hactions : s.engine.actionsAtSelection d s.selection = .error p ↔
        d.spanOf s.selection = .error p := by
      unfold Engine.actionsAtSelection
      rw [bind_eq_error_iff]
      simp [pure, Except.pure]
    simp only [bind, Except.bind, mapError_eq_error_iff, SessionError.outside.injEq,
      exists_eq_right, Option.some.injEq, exists_eq_left', hactions]

theorem listing_eq_outside_iff {s : Session} {p : Position} :
    s.listing = .error (.outside p) ↔ s.actions = .error (.outside p) := by
  rw [listing_eq, map_eq_error_iff, offers_eq, map_eq_error_iff]

/-- And so does the path. -/
theorem pathKinds_eq_outside_iff {s : Session} {p : Position} :
    s.pathKinds = .error (.outside p) ↔
      ∃ d, s.document = some d ∧ d.spanOf s.selection = .error p := by
  unfold pathKinds current
  cases s.document with
  | none => simp [bind, Except.bind]
  | some d =>
    change (d.spanOf s.selection).mapError SessionError.outside >>= _ = _ ↔ _
    rw [bind_eq_error_iff, mapError_eq_error_iff]
    simp [pure, Except.pure]

/-- The selection is the only thing that can be outside: a wrong number and a wrong cut are errors
of their own. -/
theorem editFor_eq_outside_iff {parser : Parser} {s : Session} {number : Nat} {p : Position} :
    s.editFor parser number = .error (.outside p) ↔ s.actions = .error (.outside p) := by
  unfold editFor
  rw [bind_eq_error_iff]
  constructor
  · rintro (h | ⟨actions, _, h⟩)
    · exact h
    · cases number with
      | zero => cases h
      | succ index =>
        simp only at h
        split at h
        case h_1 => cases h
        case h_2 =>
          -- the edit itself can only fail with a wrong cut
          obtain ⟨_, _, hcut⟩ := mapError_eq_error_iff.mp h
          cases hcut
  · exact .inl

/-- Applying an action asks for its edit first, and everything behind that can only fail with a cut.
-/
theorem applyAction_eq_outside_iff {parser : Parser} {s : Session} {number : Nat} {p : Position} :
    s.applyAction parser number = .error (.outside p) ↔ s.actions = .error (.outside p) := by
  have hedit : s.editFor parser number = .error (.outside p) ↔ s.actions = .error (.outside p) :=
    editFor_eq_outside_iff
  rw [← hedit]
  unfold applyAction
  rw [bind_eq_error_iff]
  constructor
  · -- step by step: the document, the edit, the new text and the text that it replaces
    rintro (h | ⟨d, _, h⟩)
    · unfold current at h
      cases hd : s.document <;> simp [hd] at h
    · rcases bind_eq_error_iff.mp h with h | ⟨edit?, _, h⟩
      · exact h
      · cases edit? with
        | none => cases h
        | some edit =>
          rcases bind_eq_error_iff.mp h with h | ⟨source, _, h⟩
          · obtain ⟨_, _, hcut⟩ := mapError_eq_error_iff.mp h
            cases hcut
          · rcases bind_eq_error_iff.mp h with h | ⟨replaced, _, h⟩
            · obtain ⟨_, _, hcut⟩ := mapError_eq_error_iff.mp h
              cases hcut
            · cases h
  · intro h
    obtain ⟨d, hd, _⟩ := actions_eq_outside_iff.mp (editFor_eq_outside_iff.mp h)
    exact .inr ⟨d, current_eq_ok_iff.mpr hd, bind_eq_error_iff.mpr (.inl h)⟩

end Session

/-- The command has to know where the selection lies. -/
def Command.asksSelection : Command → Bool
  | actions | path | apply _ => true
  | _ => false

/-- A command that asks for the selection complains about it exactly if it lies outside of the
document, and names the first end that does. -/
theorem Turn.notice?_eq_outside_iff {parser : Parser} {t : Turn} {command : Command} {p : Position}
    (hline : Command.onLine? t.line = some (.ok command)) (hasks : command.asksSelection = true) :
    t.notice? parser = some (.error (.outside p)) ↔
      ∃ d, t.before.session.document = some d ∧ d.spanOf t.before.session.selection = .error p := by
  unfold notice?
  rw [Workspace.processLine_eq, hline]
  cases command with
  | actions =>
    rw [← Session.actions_eq_outside_iff, ← Session.listing_eq_outside_iff]
    simp only [Workspace.perform, Workspace.handle]
    cases t.before.session.listing <;> simp
  | path =>
    rw [← Session.pathKinds_eq_outside_iff]
    simp only [Workspace.perform, Workspace.handle]
    cases t.before.session.pathKinds <;> simp [Except.map]
  | apply number =>
    have happly : t.before.session.applyAction parser number = .error (.outside p) ↔
        t.before.session.actions = .error (.outside p) := Session.applyAction_eq_outside_iff
    rw [← Session.actions_eq_outside_iff, ← happly]
    simp only [Workspace.perform]
    cases t.before.session.applyAction parser number <;> simp
  | _ => cases hasks

theorem Command.onLine?_eq_ok_iff {line : String} {command : Command} :
    onLine? line = some (.ok command) ↔ (onLine? line).bind Except.toOption = some command := by
  rw [Option.bind_eq_some_iff]
  simp only [toOption_eq_some_iff, exists_eq_right]

/-! ## §5 Selections along a run -/

/-- Take a run up to some point, the last file taken up in it, and every selection since then in the
document. Let `setter` be the turn that moved the selection last, a selection or else the load. Then
the selection still lies in the document if no edit since `setter` begins before one of its ends;
behind the start of an edit an end stays exactly if the new text has it. A command that asks for the
selection complains about it exactly if it no longer lies in the document. -/
theorem Workspace.selection_stays_unless_overwritten {parser : Parser} {w : Workspace}
    {lines : List String} {past since early late : List Turn} {load setter : Turn} {path : String}
    (hturns : w.turns parser lines = past ++ load :: since)
    (hload : load.loaded? parser = some path) (hloads : ∀ t ∈ since, t.loaded? parser = none)
    (hselections : ∀ t ∈ since, ∀ s, Command.onLine? t.line = some (.ok (.select s)) →
      ∃ text, t.notice? parser = some (.output text))
    (hsplit : load :: since = early ++ setter :: late)
    (hsetter : setter = load ∨ ∃ s, Command.onLine? setter.line = some (.ok (.select s)))
    (hlate : ∀ t ∈ late, ∀ s, Command.onLine? t.line ≠ some (.ok (.select s))) :
    ∃ d, (w.run parser lines).session.document = some d ∧
      ((∀ t ∈ late, t.SparesSelection parser) →
        ∃ span, d.spanOf (w.run parser lines).session.selection = .ok span) ∧
      (∀ t ∈ late, ∀ edit, t.edit? parser = some edit →
        ∃ d₁ d₂ back, t.before.session.document = some d₁ ∧
          (t.after parser).session.document = some d₂ ∧
          Text.onwards d₁.source edit.span.stop = .ok back ∧
          ∀ p, d₂.offsetAt? p =
            if p ≤ edit.start then d₁.offsetAt? p
            else (Text.offsetAt? (edit.replacement.plain ++ back).toList
              (p.countedFrom edit.start)).map (edit.span.start + ·)) ∧
      ∀ line command p, Command.onLine? line = some (.ok command) → command.asksSelection = true →
        (Turn.notice? parser ⟨w.run parser lines, line⟩ = some (.error (.outside p)) ↔
          d.spanOf (w.run parser lines).session.selection = .error p) := by
  have hset : ∃ span, (setter.after parser).session.Selects span := by
    rcases hsetter with rfl | ⟨s, hline⟩
    · exact ⟨_, Turn.selects_of_loaded? hload⟩
    · have hmem : setter ∈ load :: since := by simp [hsplit]
      rcases List.mem_cons.mp hmem with rfl | hmem
      · exact ⟨_, Turn.selects_of_loaded? hload⟩
      · obtain ⟨text, hnotice⟩ := hselections setter hmem s hline
        exact Turn.selects_of_output hline hnotice
  -- the turns behind the one that moved the selection last are a run of their own
  have hturns' : w.turns parser lines = (past ++ early) ++ setter :: late := by
    rw [hturns, hsplit, List.append_assoc]
  obtain ⟨lines', hlines', hrun⟩ := of_turns_eq_append_cons hturns'
  -- what comes behind the turn that set the selection also comes behind the load
  have hloaded : ∀ t ∈ late, t.loaded? parser = none := by
    intro t ht
    cases early with
    | nil =>
      obtain ⟨_, rfl⟩ := List.cons.inj hsplit
      exact hloads t ht
    | cons first early =>
      obtain ⟨_, rfl⟩ := List.cons.inj hsplit
      exact hloads t (by simp [ht])
  obtain ⟨span, hselects⟩ := hset
  -- there is a document where the selection was set, and it does not go away
  have hsome : (w.run parser lines).session.document.isSome = true := by
    rw [hrun]
    refine run_of_turn (fun w => w.session.document.isSome = true)
      (fun t ht => Turn.document_isSome ht) ?_ _
    obtain ⟨d, hd, _⟩ := hselects
    rw [hd]
    rfl
  obtain ⟨d, hd⟩ := Option.isSome_iff_exists.mp hsome
  refine ⟨d, hd, ?_, ?_, ?_⟩
  · intro hspares
    have hstays : (w.run parser lines).session.Selects span := by
      rw [hrun]
      refine selects_run hselects fun t ht => ?_
      rw [← hlines'] at ht
      exact ⟨hloaded t ht, hlate t ht, hspares t ht⟩
    obtain ⟨d', hd', hspan⟩ := hstays
    obtain rfl : d' = d := Option.some.inj (hd'.symm.trans hd)
    exact ⟨span, hspan⟩
  · intro t _ edit hedit
    exact Turn.offsetAt?_of_edit hedit
  · intro line command p hline hasks
    rw [Turn.notice?_eq_outside_iff (t := ⟨w.run parser lines, line⟩) hline hasks]
    simp [hd]

/-- The actions at the short circuit in the loop. -/
def Sample.loopListing : String :=
  "\n".intercalate ["   1. concat_to_template(binary_expression)",
    "   2. binary_to_if(binary_expression)", "   3. while_to_do_while(while_statement)"]

/-- The cursor stands where the short circuit starts that is rewritten, so it stays. -/
theorem Workspace.selection_stays_unless_overwritten_loop :
    let w := Sample.loopWorkspace.run Sample.loopParser [".load a.js", "1:13", ".apply 2"]
    w.session.document.map Document.source = some "while (a) \x7b if (b) \x7b\nc\n\x7d \x7d" ∧
    ∃ d, w.session.document = some d ∧ ∃ span, d.spanOf w.session.selection = .ok span := by
  intro w
  refine ⟨by decide +kernel, ?_⟩
  let load : Turn := ⟨Sample.loopWorkspace, ".load a.js"⟩
  let select : Turn := ⟨load.after Sample.loopParser, "1:13"⟩
  let apply : Turn := ⟨select.after Sample.loopParser, ".apply 2"⟩
  have hturns : Sample.loopWorkspace.turns Sample.loopParser [".load a.js", "1:13", ".apply 2"] =
      [] ++ load :: [select, apply] := rfl
  have hload : load.loaded? Sample.loopParser = some "a.js" := by decide +kernel
  have hloads : ∀ t ∈ [select, apply], t.loaded? Sample.loopParser = none := by decide +kernel
  have hselect : Command.onLine? select.line = some (.ok (.select ⟨⟨0, 12⟩, ⟨0, 12⟩⟩)) :=
    Command.onLine?_eq_ok_iff.mpr (by decide +kernel)
  have happly : Command.onLine? apply.line = some (.ok (.apply 2)) :=
    Command.onLine?_eq_ok_iff.mpr (by decide +kernel)
  -- the only selection brings up a listing, which is spelled out
  have hselections : ∀ t ∈ [select, apply], ∀ s, Command.onLine? t.line = some (.ok (.select s)) →
      ∃ text, t.notice? Sample.loopParser = some (.output text) := by
    refine List.forall_mem_cons.mpr ⟨fun s _ => ⟨Sample.loopListing, ?_⟩,
      List.forall_mem_singleton.mpr fun s hline => ?_⟩
    · decide +kernel
    · rw [happly] at hline
      cases hline
  have hlate : ∀ t ∈ [apply], ∀ s, Command.onLine? t.line ≠ some (.ok (.select s)) := by
    refine List.forall_mem_singleton.mpr fun s hline => ?_
    rw [happly] at hline
    cases hline
  have hselection : apply.before.session.selection = ⟨⟨0, 12⟩, ⟨0, 12⟩⟩ := by decide +kernel
  have hstart : (apply.edit? Sample.loopParser).map Edit.start = some ⟨0, 12⟩ := by decide +kernel
  have hsplit : load :: [select, apply] = [load] ++ select :: [apply] := rfl
  obtain ⟨d, hd, hstays, _⟩ :=
    Workspace.selection_stays_unless_overwritten hturns hload hloads hselections hsplit
      (.inr ⟨_, hselect⟩) hlate
  refine ⟨d, hd, hstays (List.forall_mem_singleton.mpr fun edit hedit => ?_)⟩
  -- the edit starts where the cursor stands, and that is not before it
  rw [hedit, Option.map_some, Option.some.injEq] at hstart
  rw [hselection, hstart]
  decide

namespace Sample

/-- A call that ends in a semicolon. -/
def callStatement (start : Nat) : Tree :=
  .node { kind := "expression_statement", span := ⟨start, start + 4⟩ } [] [
    .node { kind := "call_expression", span := ⟨start, start + 3⟩ } [("arguments", 1)]
      [leaf "identifier" start (start + 1),
       .node { kind := "arguments", span := ⟨start + 1, start + 3⟩ } []
         [token "(" (start + 1) (start + 2), token ")" (start + 2) (start + 3)]],
    token ";" (start + 3) (start + 4)]

/-- A parser that knows a loop on two lines, and what becomes of it if it is turned around. -/
def rowsParser : Parser := fun _ source =>
  if source = "while (a)\nb();" then whileLoop 14 (callStatement 10)
  else if source = "do b(); while (a)" then
    .node { kind := "program", span := ⟨0, 17⟩ } [] [
      .node { kind := "do_statement", span := ⟨0, 17⟩ } [("body", 1), ("condition", 3)]
        [token "do" 0 2, callStatement 3, token "while" 8 13, parenthesized 14]]
  else leaf "program" 0 (Text.byteSize source)

def rowsWorkspace : Workspace where
  session := { engine }
  files := { entries := [("a.js", "while (a)\nb();")] }

end Sample

/-- The body of a loop is selected on the second line, and after the loop is turned around there is
only one line left. -/
theorem Workspace.selection_can_be_lost :
    let w := Sample.rowsWorkspace.run Sample.rowsParser [".load a.js", "2:1", ".apply 1"]
    (Sample.rowsWorkspace.turns Sample.rowsParser [".load a.js", "2:1", ".apply 1"]).map (fun t =>
        (t.notice? Sample.rowsParser).map Notice.logged) =
      [some "Loaded a.js (14 bytes of javascript)", some "   1. while_to_do_while(while_statement)",
       some "=> rewrote 1:1-2:5"] ∧
    w.session.document.map Document.source = some "do b(); while (a)" ∧
    ∀ line ∈ [".actions", ".path", ".apply 1"],
      Turn.notice? Sample.rowsParser ⟨w, line⟩ = some (.error (.outside ⟨1, 0⟩)) := by
  decide +kernel

end CodeActions
