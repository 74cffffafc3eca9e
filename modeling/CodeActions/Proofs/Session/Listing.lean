import CodeActions.Proofs.Session.Document

/-!
# Numbers and listings

An action is picked by its number. The number counts in the listing of the document as it is when
the action is picked, which need not be the listing that was shown last: it is the same as long as
no action was applied in between, and after one that was it can be another.

Main statements: `Workspace.number_means_last_listing`, `Workspace.number_changes_its_meaning`.
-/

namespace CodeActions

/-! ## §1 Listings -/

namespace Offer

/-- The text of a listing in a session. -/
def sessionText (debug : Bool) (offers : List Offer) : String :=
  if offers.isEmpty then "No actions here." else "\n".intercalate (offers.map (sessionLine debug))

/-- An action has the number of its place in the list. -/
theorem mem_numbered_iff {actions : List Action} {o : Offer} :
    o ∈ numbered actions ↔ 0 < o.number ∧ actions[o.number - 1]? = some o.action := by
  obtain ⟨number, action⟩ := o
  unfold numbered
  simp only [List.mem_map, Prod.exists, List.mem_zipIdx_iff_getElem?, Offer.mk.injEq]
  constructor
  · rintro ⟨a, index, hindex, rfl, rfl⟩
    exact ⟨Nat.succ_pos index, hindex⟩
  · rintro ⟨hpos, haction⟩
    exact ⟨action, number - 1, haction, by omega, rfl⟩

end Offer

namespace Session

theorem offers_eq (s : Session) : s.offers = s.actions.map Offer.numbered := by
  unfold offers
  cases s.actions <;> rfl

/-- The listing is the text of what is offered. -/
theorem listing_eq (s : Session) : s.listing = s.offers.map (Offer.sessionText s.debug) := by
  unfold listing
  cases s.offers with
  | error reason => rfl
  | ok offers => cases offers <;> rfl

/-- What is offered depends on the engine, the document and the selection only. -/
theorem offers_congr {s s' : Session} (hengine : s'.engine = s.engine)
    (hdocument : s'.document = s.document) (hselection : s'.selection = s.selection) :
    s'.offers = s.offers := by
  unfold offers actions current
  rw [hengine, hdocument, hselection]

end Session

/-! ## §2 Turns that show a listing -/

namespace Turn

/-- The listing that is shown in the turn. -/
def listed? (parser : Parser) (t : Turn) : Option (List Offer) :=
  match Command.onLine? t.line with
  | some (.ok (.select _)) | some (.ok .actions) => (t.after parser).session.offers.toOption
  | _ => none

/-- The action that makes the edit of the turn, with the number that it was picked by. -/
def ran? (parser : Parser) (t : Turn) : Option Offer :=
  match Command.onLine? t.line, t.edit? parser with
  | some (.ok (.apply number)), some _ =>
    (t.before.session.actions.toOption.bind (·[number - 1]?)).map fun action => { number, action }
  | _, _ => none

/-- A turn that is to list the actions says what there is to list. -/
theorem notice?_of_lists {parser : Parser} {t : Turn}
    (h : (∃ s, Command.onLine? t.line = some (.ok (.select s))) ∨
      Command.onLine? t.line = some (.ok .actions)) :
    t.notice? parser = some
      (match (t.after parser).session.listing with
       | .ok text => .output text
       | .error reason => .error reason) := by
  unfold notice? after
  rw [Workspace.processLine_eq]
  rcases h with ⟨s, hline⟩ | hline
  · -- the selection has moved already when its listing is made
    rw [hline]
    simp only [Workspace.perform, Workspace.handle]
    cases hlisting : ({ t.before.session with selection := s } : Session).listing <;>
      simp [Workspace.withSession, hlisting]
  · rw [hline]
    simp only [Workspace.perform, Workspace.handle]
    cases hlisting : t.before.session.listing <;> simp [hlisting]

/-- A listing is shown as text. -/
theorem notice?_of_listed? {parser : Parser} {t : Turn} {offers : List Offer}
    (h : t.listed? parser = some offers) :
    (t.after parser).session.offers = .ok offers ∧
    t.notice? parser =
      some (.output (Offer.sessionText (t.after parser).session.debug offers)) := by
  -- a listing comes from a selection or from the command for it
  have hlists : (∃ s, Command.onLine? t.line = some (.ok (.select s))) ∨
      Command.onLine? t.line = some (.ok .actions) := by
    unfold listed? at h
    split at h
    case h_1 s hline => exact .inl ⟨s, hline⟩
    case h_2 hline => exact .inr hline
    case h_3 => cases h
  have hoffers : (t.after parser).session.offers = .ok offers := by
    unfold listed? at h
    rcases hlists with ⟨s, hline⟩ | hline
    all_goals
      rw [hline] at h
      exact toOption_eq_some_iff.mp h
  refine ⟨hoffers, ?_⟩
  rw [notice?_of_lists hlists, Session.listing_eq, hoffers]
  rfl

/-- Only a selection and a file that is taken up move the selection. -/
theorem selection_eq {parser : Parser} {t : Turn} (hloaded : t.loaded? parser = none)
    (hselect : ∀ s, Command.onLine? t.line ≠ some (.ok (.select s))) :
    (t.after parser).session.selection = t.before.session.selection := by
  rcases t.line_cases parser with ⟨_, hafter, _⟩ | ⟨_, _, hafter, _⟩ |
    ⟨command, notice, hline, hperforms, hnotice⟩
  · rw [hafter]
  · rw [hafter]
  · -- of all that a command can do, only two things move the selection
    generalize t.after parser = next at hperforms ⊢
    cases hperforms with
    | selects selection => exact absurd hline (hselect selection)
    | loads => simp [loaded?, hline, hnotice] at hloaded
    | shows | quits | togglesDebug | declines | edits | writes | fails => rfl

end Turn

/-! ## §3 Listings that stay -/

/-- If the session offers anything, it is what the listing says. -/
def Session.StillOffers (offers : List Offer) (s : Session) : Prop :=
  ∀ now, s.offers = .ok now → now = offers

/-- A turn that shows no listing, takes no file up and edits nothing leaves the offers as they
are. -/
theorem Turn.stillOffers {parser : Parser} {t : Turn} {offers : List Offer}
    (hlisted : t.listed? parser = none) (hloaded : t.loaded? parser = none)
    (hedit : t.edit? parser = none) (h : t.before.session.StillOffers offers) :
    (t.after parser).session.StillOffers offers := by
  by_cases hselect : ∃ s, Command.onLine? t.line = some (.ok (.select s))
  · -- a selection without a listing lies outside of the document, and there nothing is offered
    obtain ⟨s, hline⟩ := hselect
    intro now hnow
    simp [listed?, hline, hnow, Except.toOption] at hlisted
  · have hselection := selection_eq hloaded fun s hline => hselect ⟨s, hline⟩
    have hdocument := document_of_quiet hloaded hedit
    intro now hnow
    rw [Session.offers_congr (t.after_engine parser) hdocument hselection] at hnow
    exact h now hnow

/-- As long as turns are quiet, the listing keeps its meaning. -/
theorem Workspace.stillOffers_run {parser : Parser} {w : Workspace} {lines : List String}
    {offers : List Offer} (hw : w.session.StillOffers offers)
    (h : ∀ t ∈ w.turns parser lines,
      t.listed? parser = none ∧ t.loaded? parser = none ∧ t.edit? parser = none) :
    (w.run parser lines).session.StillOffers offers := by
  refine run_of_turns (fun w => w.session.StillOffers offers) (fun t ht => ?_) hw
  obtain ⟨hlisted, hloaded, hedit⟩ := h t ht
  exact Turn.stillOffers hlisted hloaded hedit

/-! ## §4 What a number means -/

/-- An edit is made by the action that has the number on the line in the listing of that moment. -/
theorem Turn.of_edit?_eq_some_number {parser : Parser} {t : Turn} {edit : Edit}
    (h : t.edit? parser = some edit) :
    ∃ o offers, t.ran? parser = some o ∧ Command.onLine? t.line = some (.ok (.apply o.number)) ∧
      o.action.apply parser = .ok (some edit) ∧ t.before.session.offers = .ok offers ∧
        o ∈ offers := by
  rcases t.document_cases parser with ⟨_, hnone, _⟩ | ⟨_, _, _, _, hnone, _⟩ |
    ⟨number, _, edit', _, _, _, hedit, hline, _, hfor, _⟩
  · rw [hnone] at h
    cases h
  · rw [hnone] at h
    cases h
  · obtain rfl : edit' = edit := Option.some.inj (hedit.symm.trans h)
    obtain ⟨actions, a, hactions, hpos, ha, happly⟩ := Session.of_editFor_eq_ok hfor
    -- the number was looked up in the actions of that moment, which are what was offered
    refine ⟨⟨number, a⟩, Offer.numbered actions, ?_, hline, happly, ?_, ?_⟩
    · simp [ran?, hline, hedit, hactions, Except.toOption, ha]
    · rw [Session.offers_eq, hactions]
      rfl
    · exact Offer.mem_numbered_iff.mpr ⟨hpos, ha⟩

/-- In a run in which a listing has been shown, and no file taken up since then, an edit is made by
the action that has the number on the line in the listing of that moment. If nothing was edited
since the last listing that was shown, that action has its number there as well. -/
theorem Workspace.number_means_last_listing {parser : Parser} {w : Workspace} {lines : List String}
    {past since later : List Turn} {shown t : Turn} {offers : List Offer}
    (hturns : w.turns parser lines = past ++ shown :: (since ++ t :: later))
    (hshown : shown.listed? parser = some offers)
    (hlast : ∀ t' ∈ since, t'.listed? parser = none ∧ t'.loaded? parser = none)
    {edit : Edit} (hedit : t.edit? parser = some edit) :
    shown.notice? parser =
      some (.output (Offer.sessionText (shown.after parser).session.debug offers)) ∧
    ∃ o now, t.ran? parser = some o ∧ Command.onLine? t.line = some (.ok (.apply o.number)) ∧
      o.action.apply parser = .ok (some edit) ∧ t.before.session.offers = .ok now ∧ o ∈ now ∧
      ((∀ t' ∈ since, t'.edit? parser = none) → o ∈ offers) := by
  obtain ⟨hoffers, hnotice⟩ := Turn.notice?_of_listed? hshown
  refine ⟨hnotice, ?_⟩
  obtain ⟨o, now, hran, hline, happly, hnow, ho⟩ := Turn.of_edit?_eq_some_number hedit
  refine ⟨o, now, hran, hline, happly, hnow, ho, fun hquiet => ?_⟩
  -- the turns since the listing are a run of their own, which begins with the listing shown
  obtain ⟨_, hlater, _⟩ := of_turns_eq_append_cons hturns
  obtain ⟨lines', hsince, hbefore⟩ := of_turns_eq_append hlater.symm
  have hstill : t.before.session.StillOffers offers := by
    rw [hbefore]
    refine stillOffers_run ?_ ?_
    · intro now' hnow'
      exact Except.ok.inj (hnow'.symm.trans hoffers)
    · intro t' ht'
      rw [← hsince] at ht'
      exact ⟨(hlast t' ht').1, (hlast t' ht').2, hquiet t' ht'⟩
  exact hstill now hnow ▸ ho

/-! ## §5 A sample of loops

Trees of the text `while (a)` with a body behind it. -/

namespace Sample

/-- A token. -/
def token (kind : String) (start stop : Nat) : Tree :=
  .node { kind, span := ⟨start, stop⟩, named := false } [] []

/-- A name in parentheses. -/
def parenthesized (start : Nat) : Tree :=
  .node { kind := "parenthesized_expression", span := ⟨start, start + 3⟩ } []
    [token "(" start (start + 1), leaf "identifier" (start + 1) (start + 2),
     token ")" (start + 2) (start + 3)]

/-- A block with one statement. -/
def block (start stop : Nat) (statement : Tree) : Tree :=
  .node { kind := "statement_block", span := ⟨start, stop⟩ } []
    [token "\x7b" start (start + 1), statement, token "\x7d" (stop - 1) stop]

/-- A document that is one loop. -/
def whileLoop (stop : Nat) (body : Tree) : Tree :=
  .node { kind := "program", span := ⟨0, stop⟩ } [] [
    .node { kind := "while_statement", span := ⟨0, stop⟩ } [("condition", 1), ("body", 2)]
      [token "while" 0 5, parenthesized 6, body]]

/-- The loop around `b && c`. -/
def guardedLoop : Tree :=
  whileLoop 20 (block 10 20 (.node { kind := "expression_statement", span := ⟨12, 18⟩ } [] [
    .node { kind := "binary_expression", span := ⟨12, 18⟩ }
      [("left", 0), ("operator", 1), ("right", 2)]
      [leaf "identifier" 12 13, token "&&" 14 16, leaf "identifier" 17 18]]))

/-- The loop around `if (b)` with a block of three lines behind it. -/
def branchingLoop : Tree :=
  whileLoop 26 (block 10 26 (
    .node { kind := "if_statement", span := ⟨12, 24⟩ } [("condition", 1), ("consequence", 2)]
      [token "if" 12 14, parenthesized 15,
       block 19 24 (.node { kind := "expression_statement", span := ⟨21, 22⟩ } []
         [leaf "identifier" 21 22])]))

/-- A parser that knows both loops. -/
def loopParser : Parser := fun _ source =>
  if source = "while (a) \x7b b && c \x7d" then guardedLoop
  else if source = "while (a) \x7b if (b) \x7b\nc\n\x7d \x7d" then branchingLoop
  else leaf "program" 0 (Text.byteSize source)

def loopWorkspace : Workspace where
  session := { engine }
  files := { entries := [("a.js", "while (a) \x7b b && c \x7d")] }

end Sample

/-- The second action of the listing is applied after another look at the path, and it is the one
that was shown. -/
theorem Workspace.number_means_last_listing_loop :
    let w := Sample.loopWorkspace.run Sample.loopParser [".load a.js"]
    let shown : Turn := ⟨w, "1:13"⟩
    let asked : Turn := ⟨shown.after Sample.loopParser, ".path"⟩
    let t : Turn := ⟨asked.after Sample.loopParser, ".apply 2"⟩
    ∃ offers o, shown.listed? Sample.loopParser = some offers ∧ t.ran? Sample.loopParser = some o ∧
      o ∈ offers := by
  intro w shown asked t
  have hsome : (shown.listed? Sample.loopParser).isSome = true := by decide +kernel
  obtain ⟨offers, hoffers⟩ := Option.isSome_iff_exists.mp hsome
  have hedited : (t.edit? Sample.loopParser).isSome = true := by decide +kernel
  obtain ⟨edit, hedit⟩ := Option.isSome_iff_exists.mp hedited
  have hasked : (asked.listed? Sample.loopParser).isNone = true ∧
      asked.loaded? Sample.loopParser = none ∧ asked.edit? Sample.loopParser = none := by
    decide +kernel
  have hturns : w.turns Sample.loopParser ["1:13", ".path", ".apply 2"] =
      [] ++ shown :: ([asked] ++ t :: []) := rfl
  -- looking at the path shows no listing, takes up no file and edits nothing
  obtain ⟨_, o, now, hran, _, _, _, _, hmem⟩ := Workspace.number_means_last_listing hturns hoffers
    (List.forall_mem_singleton.mpr ⟨Option.isNone_iff_eq_none.mp hasked.1, hasked.2.1⟩) hedit
  exact ⟨offers, o, hoffers, hran, hmem (List.forall_mem_singleton.mpr hasked.2.2)⟩

/-- After an edit a number of the listing picks another action: the third action that was shown
turns the loop around, and the third action that is run makes a switch. -/
theorem Workspace.number_changes_its_meaning :
    let lines := [".load a.js", "1:13", ".apply 2", ".apply 3"]
    let entry : Offer → Nat × String := fun o => (o.number, o.action.title)
    (Sample.loopWorkspace.turns Sample.loopParser lines).map (fun t =>
        ((t.listed? Sample.loopParser).map (·.map entry), (t.ran? Sample.loopParser).map entry)) =
      [(none, none),
       (some [(1, "concat_to_template(binary_expression)"), (2, "binary_to_if(binary_expression)"),
          (3, "while_to_do_while(while_statement)")], none),
       (none, some (2, "binary_to_if(binary_expression)")),
       (none, some (3, "if_to_switch(if_statement)"))] := by
  decide +kernel

end CodeActions
