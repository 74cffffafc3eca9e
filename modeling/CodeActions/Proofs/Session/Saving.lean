import Mathlib.Data.List.Induction
import CodeActions.Proofs.Session.Turn

/-!
# Saving

Files change only when the document is saved, and then one file only. A document is saved to the
path given, else to the path of the last file that was taken up. What is saved is the text of that
file with the edits since then, whatever else happened on the way.

Main statement: `Workspace.saves_last_loaded`.
-/

namespace CodeActions

/-! ## §1 Where a document comes from -/

/-- The last file taken up in the turns is the one at the path, and the text is what was read there
with the edits since then, one after the other. -/
def Turn.LeadTo (parser : Parser) (turns : List Turn) (path text : String) : Prop :=
  ∃ past load since read, turns = past ++ load :: since ∧
    load.loaded? parser = some path ∧ load.before.files.read? path = some read ∧
    (∀ t ∈ since, t.loaded? parser = none) ∧
    (since.filterMap (Turn.edit? parser)).foldlM (fun source edit => edit.applyTo source) read =
      .ok text

namespace Turn.LeadTo

/-- A file that has just been taken up is the last one, with no edits since. -/
theorem load {parser : Parser} {t : Turn} {path text : String} (turns : List Turn)
    (hloaded : t.loaded? parser = some path) (hread : t.before.files.read? path = some text) :
    LeadTo parser (turns ++ [t]) path text :=
  ⟨turns, t, [], text, rfl, hloaded, hread, by simp, rfl⟩

/-- A turn that neither takes a file up nor edits changes nothing about it. -/
theorem skip {parser : Parser} {turns : List Turn} {t : Turn} {path text : String}
    (h : LeadTo parser turns path text) (hloaded : t.loaded? parser = none)
    (hedit : t.edit? parser = none) : LeadTo parser (turns ++ [t]) path text := by
  obtain ⟨past, load, since, read, rfl, hload, hread, hsince, hedits⟩ := h
  refine ⟨past, load, since ++ [t], read, by simp, hload, hread, ?_, ?_⟩
  · simpa [or_imp, forall_and, hloaded] using hsince
  · simpa [hedit] using hedits

/-- An edit comes behind those before it. -/
theorem edit {parser : Parser} {turns : List Turn} {t : Turn} {path text text' : String}
    {edit : Edit} (h : LeadTo parser turns path text) (hloaded : t.loaded? parser = none)
    (hedit : t.edit? parser = some edit) (happly : edit.applyTo text = .ok text') :
    LeadTo parser (turns ++ [t]) path text' := by
  obtain ⟨past, load, since, read, rfl, hload, hread, hsince, hedits⟩ := h
  refine ⟨past, load, since ++ [t], read, by simp, hload, hread, ?_, ?_⟩
  · simpa [or_imp, forall_and, hloaded] using hsince
  · -- the edits so far lead to the text that this one was made in
    rw [List.filterMap_append, List.foldlM_append, hedits]
    simp only [List.filterMap_cons, hedit, List.filterMap_nil, List.foldlM_cons, List.foldlM_nil,
      bind_pure]
    exact happly

end Turn.LeadTo

/-- Either no file was taken up yet, and there is neither a document nor a file, or both come from
the last file that was. -/
def Session.ComesFrom (parser : Parser) (turns : List Turn) (s : Session) : Prop :=
  (s.document = none ∧ s.file = none ∧ ∀ t ∈ turns, t.loaded? parser = none) ∨
  ∃ d path, s.document = some d ∧ s.file = some path ∧ Turn.LeadTo parser turns path d.source

/-- One more turn keeps the document and its file to what was taken up last. -/
theorem Session.ComesFrom.after {parser : Parser} {turns : List Turn} {t : Turn}
    (h : t.before.session.ComesFrom parser turns) :
    (t.after parser).session.ComesFrom parser (turns ++ [t]) := by
  rcases t.document_cases parser with ⟨hloaded, hedit, hdocument, hfile⟩ |
    ⟨path, source, dialect, hloaded, _, hread, hdocument, hfile⟩ |
    ⟨_, d, edit, source, _, hloaded, hedit, _, hd, _, happly, _, hdocument, hfile⟩
  -- a turn that leaves the document alone also leaves its file alone
  · rw [Session.ComesFrom, hdocument, hfile]
    rcases h with ⟨hnone, hnofile, hturns⟩ | ⟨d, path, hd, hpath, hlead⟩
    · exact .inl ⟨hnone, hnofile, by simpa [or_imp, forall_and, hloaded] using hturns⟩
    · exact .inr ⟨d, path, hd, hpath, hlead.skip hloaded hedit⟩
  · exact .inr ⟨_, path, hdocument, hfile, .load turns hloaded hread⟩
  -- an edit needs a document, so there was a load before
  · rcases h with ⟨hnone, _, _⟩ | ⟨d', path, hd', hpath, hlead⟩
    · rw [hnone] at hd
      cases hd
    · obtain rfl : d' = d := Option.some.inj (hd'.symm.trans hd)
      exact .inr ⟨_, path, hdocument, hfile.trans hpath, hlead.edit hloaded hedit happly⟩

/-- Along a run from a fresh session the document comes from the last file that was taken up. -/
theorem Workspace.run_comesFrom (parser : Parser) (engine : Engine) (files : Files)
    (lines : List String) :
    Session.ComesFrom parser (Workspace.turns parser { session := { engine }, files } lines)
      (Workspace.run parser { session := { engine }, files } lines).session := by
  -- the history grows at its end, so the last line is the one to take off
  induction lines using List.reverseRecOn with
  | nil => exact .inl ⟨rfl, rfl, by simp⟩
  | append_singleton lines line ih =>
    rw [run_append, turns_append]
    exact Session.ComesFrom.after (t := ⟨_, line⟩) ih

/-! ## §2 What saving does -/

/-- Writing does not change which file a path leads to. -/
theorem Files.locate_write? {files files' : Files} {path text : String}
    (h : files.write? path text = some files') : files'.locate = files.locate := by
  obtain ⟨name, _, h⟩ := Option.bind_eq_some_iff.mp h
  cases h
  rfl

/-- Only a command to save changes the files. -/
theorem Workspace.Performs.files_eq {parser : Parser} {w w' : Workspace} {command : Command}
    {notice : Notice} (h : w.Performs parser command w' notice)
    (hcommand : ∀ path?, command ≠ .write path?) : w'.files = w.files := by
  cases h with
  | writes => exact absurd rfl (hcommand _)
  | shows | quits | togglesDebug | selects | declines | edits | loads | fails => rfl

/-- Whatever a line says, unless it is to save, it leaves the files alone. -/
theorem Turn.files_eq {parser : Parser} {t : Turn}
    (h : ∀ path?, Command.onLine? t.line ≠ some (.ok (.write path?))) :
    (t.after parser).files = t.before.files := by
  rcases t.line_cases parser with ⟨_, hafter, _⟩ | ⟨_, _, hafter, _⟩ |
    ⟨command, _, hline, hperforms, _⟩
  · rw [hafter]
  · rw [hafter]
  · refine hperforms.files_eq fun path? hcommand => h path? ?_
    rw [hline, hcommand]

/-- A line that is to save does so, or says why it cannot and changes nothing. -/
theorem Turn.of_write {parser : Parser} {t : Turn} {path? : Option String}
    (hline : Command.onLine? t.line = some (.ok (.write path?))) :
    (∃ reason, t.notice? parser = some (.error reason) ∧ t.after parser = t.before ∧
      ∀ path d, path?.or t.before.session.file = some path → t.before.session.document = some d →
        t.before.files.write? path d.source = none) ∨
    ∃ path d report, path?.or t.before.session.file = some path ∧
      t.before.session.document = some d ∧
      t.before.files.write? path d.source = some (t.after parser).files ∧
      t.notice? parser = some (.output report) := by
  unfold Turn.notice? Turn.after
  rw [Workspace.processLine_eq, hline]
  simp only [Workspace.perform, Workspace.handle]
  rcases t.before.session.write_cases t.before.files path? with
    ⟨reason, hwrite, hnone⟩ | ⟨path, d, files', report, hpath, hdocument, hfiles, hwrite⟩
  · rw [hwrite]
    exact .inl ⟨reason, rfl, rfl, hnone⟩
  · rw [hwrite]
    exact .inr ⟨path, d, report, hpath, hdocument, hfiles, rfl⟩

/-! ## §3 Saving in a run -/

/-- In a run from a fresh session only saving changes the files. Saving goes to the path given, else
to that of the last file taken up, and writes the text read there with the edits since then; no path
to another file is touched. It fails, and changes nothing, only if no file was taken up yet or the
path cannot be written. -/
theorem Workspace.saves_last_loaded (parser : Parser) (engine : Engine) (files : Files)
    (lines : List String) {earlier later : List Turn} {t : Turn}
    (h : Workspace.turns parser { session := { engine }, files } lines = earlier ++ t :: later) :
    ((∀ path?, Command.onLine? t.line ≠ some (.ok (.write path?))) →
      (t.after parser).files = t.before.files) ∧
    ∀ path?, Command.onLine? t.line = some (.ok (.write path?)) →
      (∃ reason, t.notice? parser = some (.error reason) ∧ t.after parser = t.before ∧
        ((∀ t' ∈ earlier, t'.loaded? parser = none) ∨
          ∃ path text, Turn.LeadTo parser earlier path text ∧
            t.before.files.write? (path?.getD path) text = none)) ∨
      ∃ path text report, Turn.LeadTo parser earlier path text ∧
        t.notice? parser = some (.output report) ∧
        (t.after parser).files.read? (path?.getD path) = some text ∧
        (t.after parser).files.locate = t.before.files.locate ∧
        ∀ other, t.before.files.locate other ≠ t.before.files.locate (path?.getD path) →
          (t.after parser).files.read? other = t.before.files.read? other := by
  have hcomes : t.before.session.ComesFrom parser earlier := by
    obtain ⟨lines', rfl, hbefore⟩ := of_turns_eq_append h
    rw [hbefore]
    exact run_comesFrom parser engine files lines'
  refine ⟨Turn.files_eq, fun path? hline => ?_⟩
  -- document and file are there together or not at all, so a path without a document is no case
  rcases Turn.of_write hline with
    ⟨reason, hnotice, hafter, hnone⟩ | ⟨target, d, report, htarget, hd, hwrite, hnotice⟩
  · refine .inl ⟨reason, hnotice, hafter, ?_⟩
    rcases hcomes with ⟨_, _, hturns⟩ | ⟨d, path, hd, hfile, hlead⟩
    · exact .inl hturns
    · refine .inr ⟨path, d.source, hlead, hnone _ d ?_ hd⟩
      rw [hfile, Option.or_some]
  · rcases hcomes with ⟨hdocument, _, _⟩ | ⟨d', path, hd', hfile, hlead⟩
    · rw [hdocument] at hd
      cases hd
    · obtain rfl : d' = d := Option.some.inj (hd'.symm.trans hd)
      -- the session has a file, so a path that is not given is that of the file
      obtain rfl : path?.getD path = target := by
        rwa [hfile, Option.or_some, Option.some_inj] at htarget
      refine .inr ⟨path, d'.source, report, hlead, hnotice, ?_, Files.locate_write? hwrite, ?_⟩
      · rw [Files.read?_write? hwrite, if_pos rfl]
      · intro other hother
        rw [Files.read?_write? hwrite, if_neg hother]

/-- Neither a failed load nor saving elsewhere redirects what is saved. -/
theorem Workspace.saves_last_loaded_loop :
    let lines := [".load a.js", ".write b.js", ".load missing.js", "1:3", ".apply 1"]
    let saved := Sample.workspace.run Sample.parser (lines ++ [".write"])
    saved.files.read? "a.js" = some "do y while (é) )" ∧
    saved.files.read? "b.js" = some "while (é) y )" ∧
    ∃ path text, Turn.LeadTo Sample.parser (Sample.workspace.turns Sample.parser lines) path text ∧
      saved.files.read? path = some text := by
  intro lines saved
  refine ⟨by decide +kernel, by decide +kernel, ?_⟩
  have hline : Command.onLine? ".write" = some (.ok (.write none)) := by with_unfolding_all rfl
  let save : Turn := ⟨Sample.workspace.run Sample.parser lines, ".write"⟩
  have hnotice : save.notice? Sample.parser = some (.output "Wrote 17 bytes to a.js") := by
    decide +kernel
  have hafter : save.after Sample.parser = saved := (run_append _ _ lines [".write"]).symm
  have hturns : Sample.workspace.turns Sample.parser (lines ++ [".write"]) =
      Sample.workspace.turns Sample.parser lines ++ save :: [] := turns_append _ _ _ _
  have h := Workspace.saves_last_loaded Sample.parser Sample.engine Sample.workspace.files _ hturns
  -- it was saved, as the notice says, so it is the second case
  rcases h.2 none hline with ⟨reason, herror, _⟩ | ⟨path, text, _, hlead, _, hread, _⟩
  · rw [hnotice] at herror
    cases herror
  · exact ⟨path, text, hlead, hafter ▸ hread⟩

end CodeActions
