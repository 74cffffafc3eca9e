import CodeActions.Proofs.Branch.Dispatch
import CodeActions.Proofs.Tree.Search

/-!
# What a `break` leaves

A `break` leaves the innermost loop or `switch` around it, or the statement with its label. A chain
that becomes a `switch` puts a new one around its bodies, which would catch what was meant for a
loop further out. So a body is refused if a `break` without a label stands in it and nothing in the
body catches it. A `break` with a label is not caught by a `switch`.

The search does not look into the loops and functions that it meets, but it does look into the body
where it starts. So a loop that is the whole body of a branch is searched for breaks that it catches
itself, and the same loop in a block is not.

Main statements: `Transform.switch_keeps_break_targets`, each `break` in a body of an accepted `if`
statement leaves the same construct before and after, and `Transform.ifToSwitch_accepts_iff`, which
`if` statements are accepted.
-/

namespace CodeActions

/-! ## §1 Constructs around a statement -/

/-- What a `break` without a label leaves. -/
def loopsAndSwitches : List String :=
  ["for_statement", "for_in_statement", "while_statement", "do_statement", "switch_statement"]

/-- What no `break` gets out of. -/
def functionsAndClasses : List String :=
  ["function_expression", "function_declaration", "generator_function",
    "generator_function_declaration", "arrow_function", "method_definition", "class_body"]

/-- A construct around a statement. -/
inductive Frame where
  /-- A construct of the source. -/
  | source (t : Tree)
  /-- A construct of some kind that is written anew. -/
  | written (kind : String)

namespace Tree

/-- A `break` without a label. -/
def IsPlainBreak (t : Tree) : Prop := t.kind = "break_statement" ∧ t.field? "label" = none

/-- A `break` without a label that stands inside does not get out. -/
def keepsBreaks (t : Tree) : Bool :=
  loopsAndSwitches.contains t.kind || functionsAndClasses.contains t.kind

/-- The trees are written with the same text. -/
def sameText (source : String) (t u : Tree) : Bool :=
  match t.text source, u.text source with
  | .ok text, .ok text' => text == text'
  | _, _ => false

/-- The body of a branch of an `if` statement, and the trees that are around the body there, the
innermost first. -/
inductive HasBody : Tree → Tree → List Tree → Prop where
  | consequence {t body : Tree} (h : t.field? "consequence" = some body) : HasBody t body [t]
  | otherwise {t clause body : Tree} (h : t.field? "alternative" = some clause)
      (h' : clause.firstCode? = some body) (ends : body.kind ≠ "if_statement") :
      HasBody t body [clause, t]
  | next {t clause inner body : Tree} {nest : List Tree} (h : t.field? "alternative" = some clause)
      (h' : clause.firstCode? = some inner) (goesOn : inner.kind = "if_statement")
      (rest : HasBody inner body nest) : HasBody t body (nest ++ [clause, t])

end Tree

namespace Frame

/-- The kind of the construct. -/
def kind : Frame → String
  | source t => t.kind
  | written kind => kind

/-- The label of the construct. -/
def label? : Frame → Option Tree
  | source t => t.field? "label"
  | written _ => none

/-- The `break` can leave the construct. -/
def catches (source : String) (statement : Tree) (frame : Frame) : Bool :=
  match statement.field? "label" with
  | none => loopsAndSwitches.contains frame.kind
  | some label => frame.kind == "labeled_statement" && frame.label?.any (label.sameText source)

/-- What the `break` leaves: the innermost construct that it can leave, if no function comes
first. -/
def target (source : String) (statement : Tree) : List Frame → Option Frame
  | [] => none
  | frame :: frames =>
    if frame.catches source statement then some frame
    else if functionsAndClasses.contains frame.kind then none
    else target source statement frames

/-- Nothing further out matters to the `break`. -/
def settles (source : String) (statement : Tree) (frame : Frame) : Bool :=
  frame.catches source statement || functionsAndClasses.contains frame.kind

variable {source : String} {statement : Tree} {inside before after : List Frame}

/-- A `break` that is settled inside does not see what is further out. -/
theorem target_append_of_settled (h : inside.any (settles source statement) = true)
    (outer : List Frame) :
    target source statement (inside ++ outer) = target source statement inside := by
  induction inside with
  | nil => cases h
  | cons frame inside ih =>
    simp only [List.cons_append, target]
    split
    case isTrue => rfl
    case isFalse hcatches =>
      split
      case isTrue => rfl
      case isFalse hfunction =>
        -- a frame that lets the `break` pass does not settle it, so another one inside does
        refine ih ((Bool.or_eq_true_iff.mp h).resolve_left ?_)
        rw [settles, Bool.or_eq_true]
        exact not_or.mpr ⟨hcatches, hfunction⟩

/-- A `break` that is not settled inside sees only what is further out. -/
theorem target_append_of_unsettled (h : inside.any (settles source statement) = false)
    (outer : List Frame) :
    target source statement (inside ++ outer) = target source statement outer := by
  induction inside with
  | nil => rfl
  | cons frame inside ih =>
    obtain ⟨hframe, hinside⟩ := Bool.or_eq_false_iff.mp h
    obtain ⟨hcatches, hfunction⟩ := Bool.or_eq_false_iff.mp hframe
    simp only [List.cons_append, target, hcatches, hfunction]
    exact ih hinside

/-- What is between the inner and the outer constructs may be exchanged, if the `break` does not get
there or nothing matters to it there. -/
theorem target_exchange
    (h : inside.any (settles source statement) = true ∨
      before.any (settles source statement) = false ∧ after.any (settles source statement) = false)
    (outer : List Frame) :
    target source statement (inside ++ (before ++ outer)) =
      target source statement (inside ++ (after ++ outer)) := by
  cases hinside : inside.any (settles source statement) with
  | true => rw [target_append_of_settled hinside, target_append_of_settled hinside]
  | false =>
    obtain ⟨hbefore, hafter⟩ := h.resolve_left (by simp [hinside])
    rw [target_append_of_unsettled hinside, target_append_of_unsettled hinside,
      target_append_of_unsettled hbefore, target_append_of_unsettled hafter]

end Frame

/-! ## §2 Breaks in a body -/

namespace Tree

variable {t body b : Tree} {around : List Tree}

/-- The search for a `break` that would be caught. A body that is a loop itself is looked into all
the same. -/
theorem hasFreeBreak_iff :
    t.hasFreeBreak = true ↔ t.IsPlainBreak ∨ t.HasBelow keepsBreaks IsPlainBreak := by
  have hplain (u : Tree) : u.isPlainBreak = true ↔ u.IsPlainBreak := by
    simp [isPlainBreak, IsPlainBreak]
  -- the lists of the code and of the language are the same
  have hclosed : stopsAt breakableKinds = keepsBreaks := funext fun u => Bool.or_comm _ _
  simp only [hasFreeBreak, Bool.or_eq_true, containsWithin_iff, hplain, hclosed]

/-- What is not found below a tree is behind something closed below the tree. -/
theorem Leads.exists_closed {closed : Tree → Bool} {test : Tree → Prop} (h : t.Leads around b)
    (hb : test b) (hself : ¬ test t) (hbelow : ¬ t.HasBelow closed test) :
    ∃ below, around = below ++ [t] ∧ ∃ u ∈ below, closed u = true := by
  cases h with
  | here => exact absurd hb hself
  | inside hu h =>
    refine ⟨_, rfl, ?_⟩
    -- otherwise the search would have come as far as the `break`
    by_contra hnone
    simp only [not_exists, not_and, Bool.not_eq_true] at hnone
    exact hbelow ⟨_, hu, h.has hnone hb⟩

/-- The block that the statements of a body stand in. -/
def ownBlock (body : Tree) : List Tree := if body.kind = "statement_block" then [body] else []

/-- What stands in a body and is not a block stands in one of its statements. -/
theorem Leads.exists_statement (h : body.Leads around b) (hb : b.kind ≠ "statement_block") :
    ∃ u ∈ body.statements, ∃ inside, u.Leads inside b ∧ around = inside ++ body.ownBlock := by
  unfold statements ownBlock
  split
  -- a body that is no block is its only statement
  case isFalse =>
    exact ⟨body, List.mem_singleton_self body, around, h, (List.append_nil around).symm⟩
  case isTrue hblock =>
    cases h with
    | here => exact absurd hblock hb
    | inside hu h => exact ⟨_, hu, _, h, rfl⟩

/-- The bodies of the branches are those of the chain. -/
theorem HasBody.mem_bodies {nest : List Tree} (h : t.HasBody body nest) {chain : Chain}
    (hchain : ChainForm.statement.Flattens t chain) : body ∈ chain.bodies := by
  induction h generalizing chain with
  | @consequence t body hbody =>
    -- each level of the chain begins with the body of its own branch
    have hfirst {first : Branch} (hbranch : t.branch? = some first) : first.body = body := by
      obtain ⟨_, _, _, hconsequence⟩ := Tree.of_branch? hbranch
      exact Option.some.inj (hconsequence.symm.trans hbody)
    cases hchain with
    | alone branch => simp [Chain.bodies, hfirst branch]
    | last branch => simp [Chain.bodies, hfirst branch]
    | more branch => simp [Chain.bodies, Chain.cons, hfirst branch]
  -- the nest ends here, so this is what the chain has left
  | @otherwise t clause body hclause hbody hends =>
    have halternative : ChainForm.statement.alternative? t = some body := by
      simp only [ChainForm.alternative?, hclause, Option.bind_some, hbody]
    cases hchain with
    | alone _ nothing => cases hclause.symm.trans nothing
    | last _ alternative =>
      cases halternative.symm.trans alternative
      simp [Chain.bodies]
    | more _ alternative goesOn =>
      cases halternative.symm.trans alternative
      exact absurd goesOn hends
  -- the nest goes on here, so the body is in the rest of the chain
  | @next t clause inner body nest hclause hinner hgoesOn _ ih =>
    have halternative : ChainForm.statement.alternative? t = some inner := by
      simp only [ChainForm.alternative?, hclause, Option.bind_some, hinner]
    cases hchain with
    | alone _ nothing => cases hclause.symm.trans nothing
    | last _ alternative ends =>
      cases halternative.symm.trans alternative
      exact absurd hgoesOn ends
    | more _ alternative _ rest =>
      cases halternative.symm.trans alternative
      exact List.mem_cons_of_mem _ (ih rest)

end Tree

/-! ## §3 The new `switch` -/

/-- What is written around the statements of a clause, the innermost first. -/
def Switch.Clause.frames (c : Switch.Clause) : List Frame :=
  (if c.inBlock then [.written "statement_block"] else []) ++
    [.written (if c.label.isSome then "switch_case" else "switch_default"), .written "switch_body",
      .written "switch_statement"]

/-- The kinds of what is around a body in an `if` statement. -/
def ifKinds : List String := ["if_statement", "else_clause"]

/-- The kinds of what is around a statement in a `switch`, and of blocks. -/
def switchKinds : List String :=
  ["statement_block", "switch_case", "switch_default", "switch_body", "switch_statement"]

theorem kind_mem_of_mem_frames {clause : Switch.Clause} :
    ∀ frame ∈ clause.frames, frame.kind ∈ switchKinds := by
  unfold Switch.Clause.frames
  cases clause.inBlock <;> cases clause.label.isSome <;> simp [Frame.kind, switchKinds]

namespace Frame

variable {source : String} {b : Tree}

/-- A `break` with a label sees only labels and functions. -/
theorem any_settles_eq_false {label : Tree} (hlabel : b.field? "label" = some label)
    {frames : List Frame} (hframes : ∀ frame ∈ frames, frame.kind ∈ ifKinds ++ switchKinds) :
    frames.any (settles source b) = false := by
  have hkinds : ∀ kind ∈ ifKinds ++ switchKinds,
      kind ≠ "labeled_statement" ∧ kind ∉ functionsAndClasses := by decide
  refine List.any_eq_false.mpr fun frame hframe => ?_
  obtain ⟨hkind, hfunction⟩ := hkinds frame.kind (hframes frame hframe)
  simp [settles, catches, hlabel, hkind, hfunction]

theorem settles_of_keepsBreaks (hb : b.IsPlainBreak) {t : Tree} (h : t.keepsBreaks = true) :
    settles source b (.source t) = true := by
  simp only [settles, catches, hb.2]
  exact h

end Frame

namespace Tree

variable {source : String} {body b : Tree} {around : List Tree}

/-- A `break` in a body without free ones leaves the same construct in the clause that the body
becomes. -/
theorem Leads.target_eq (h : body.Leads around b) (hb : b.kind = "break_statement")
    (hself : ¬ body.IsPlainBreak) (hbelow : ¬ body.HasBelow keepsBreaks IsPlainBreak)
    {nest : List Tree} (hnest : ∀ t ∈ nest, t.kind ∈ ifKinds) (clause : Switch.Clause) :
    ∃ u ∈ body.statements, ∃ inside, u.Leads inside b ∧ around = inside ++ body.ownBlock ∧
      ∀ outer, Frame.target source b ((around ++ nest).map .source ++ outer) =
        Frame.target source b (inside.map .source ++ (clause.frames ++ outer)) := by
  obtain ⟨u, hu, inside, hleads, haround⟩ := h.exists_statement (by simp [hb])
  refine ⟨u, hu, inside, hleads, haround, fun outer => ?_⟩
  rw [haround, List.append_assoc, List.map_append, List.append_assoc]
  apply Frame.target_exchange
  cases hlabel : b.field? "label" with
  | none =>
    -- a `break` without a label that is not free is caught below the body
    left
    have hplain : b.IsPlainBreak := ⟨hb, hlabel⟩
    obtain ⟨below, hsplit, v, hv, hcloses⟩ := h.exists_closed hplain hself hbelow
    have hmem : v ∈ inside := by
      rw [hsplit] at haround
      unfold ownBlock at haround
      split at haround
      case isTrue => exact (List.append_inj' haround rfl).1 ▸ hv
      case isFalse => exact List.append_nil inside ▸ haround ▸ List.mem_append_left _ hv
    exact List.any_eq_true.mpr
      ⟨.source v, List.mem_map_of_mem hmem, Frame.settles_of_keepsBreaks hplain hcloses⟩
  | some label =>
    -- one with a label passes blocks and branches as well as clauses
    right
    constructor
    · apply Frame.any_settles_eq_false hlabel
      simp only [List.forall_mem_map, List.forall_mem_append]
      refine ⟨fun t ht => ?_, fun t ht => List.mem_append_left _ (hnest t ht)⟩
      obtain ⟨hblock, ht⟩ := List.mem_ite_nil_right.mp ht
      obtain rfl := List.mem_singleton.mp ht
      simp [Frame.kind, hblock, switchKinds]
    · exact Frame.any_settles_eq_false hlabel fun frame hframe =>
        List.mem_append_right _ (kind_mem_of_mem_frames frame hframe)

end Tree

namespace Switch

variable {source : String} {transform : Transform} {n : Node} {replacement : Replacement}

/-- The bodies of an accepted `if` statement have no free `break`. -/
theorem not_hasFreeBreak_of_statementChain {t : Tree} {chain : Chain}
    (h : statementChain? t = some chain) :
    ∀ body ∈ chain.bodies,
      ¬ body.IsPlainBreak ∧ ¬ body.HasBelow Tree.keepsBreaks Tree.IsPlainBreak := by
  intro body hbody
  obtain ⟨chain', hchain', h⟩ := Option.bind_eq_some_iff.mp h
  obtain ⟨hfree, h⟩ := Option.ite_none_left_eq_some.mp h
  cases h
  rw [← not_or, ← Tree.hasFreeBreak_iff]
  -- one free `break` is enough for the chain to be refused
  intro hbreak
  exact hfree (List.any_eq_true.mpr ⟨body, hbody, hbreak⟩)

/-- Both ways to make a `switch` of an `if` statement write a clause for each body of its chain. -/
theorem of_statement (htransform : transform = .ifToSwitch ∨ transform = .ifToSwitchOnValue)
    (hrun : transform.run source n = .ok (some replacement)) :
    ∃ chain label discriminant text, statementChain? n.tree = some chain ∧
      replacement = .text text ∧
      Switch.print source discriminant (chain.arms.map (ChainForm.statement.clauseWith label)) =
        .ok text := by
  -- the check for a free `break` and the writer read the chain on their own, and find the same
  have hsame {chain found : Chain} (hfound : statementChain? n.tree = some found)
      (hchain : ChainForm.statement.chain? n.tree = some chain) :
      statementChain? n.tree = some chain :=
    hfound.trans ((ifChain_of_statementChain hfound).symm.trans hchain)
  -- on `true` and on a value the clauses differ in their labels alone
  rcases htransform with rfl | rfl
  · obtain ⟨_, _, hfound, _⟩ := Reshaping.ofShape_eq_ok_some_iff.mp hrun
    obtain ⟨found, hfound, _⟩ := Option.map_eq_some_iff.mp hfound
    have hrun : ChainForm.statement.toSwitch.run source n = .ok (some replacement) := hrun
    obtain ⟨chain, text, hchain, hreplacement, hprint⟩ := ChainForm.of_toSwitch hrun
    exact ⟨chain, Label.ofCondition, "true", text, hsame hfound hchain, hreplacement, hprint⟩
  · obtain ⟨found, _, _, hfound, _⟩ := ChainForm.tests_of_reshapeOnValue hrun
    have hrun : ChainForm.statement.toSwitchOnValue.run source n = .ok (some replacement) := hrun
    obtain ⟨chain, _, discriminant, text, hchain, _, _, hreplacement, hprint⟩ :=
      ChainForm.of_toSwitchOnValue hrun
    exact ⟨chain, ChainForm.operandLabel, discriminant, text, hsame hfound hchain,
      hreplacement, hprint⟩

end Switch

/-- In an `if` statement that becomes a `switch`, no body is or holds a `break` without a label that
can be reached without passing through a loop, a `switch` or a function. The statements of each body
are those of a clause, and a `break` in them leaves the same construct in the new `switch` as in the
`if` statement, wherever that stands, where nothing but `if` and `else` is around the body. -/
theorem Transform.switch_keeps_break_targets {transform : Transform} {source : String} {n : Node}
    {replacement : Replacement}
    (htransform : transform = .ifToSwitch ∨ transform = .ifToSwitchOnValue)
    (hrun : transform.run source n = .ok (some replacement)) :
    ∃ discriminant clauses text, replacement = .text text ∧
      Switch.print source discriminant clauses = .ok text ∧
      ∀ body nest, n.tree.HasBody body nest →
        ¬ body.IsPlainBreak ∧ ¬ body.HasBelow Tree.keepsBreaks Tree.IsPlainBreak ∧
        ∃ clause ∈ clauses, clause.statements = body.statements.map .source ∧
          ∀ around b, body.Leads around b → b.kind = "break_statement" →
            (∀ t ∈ nest, t.kind ∈ ifKinds) →
            ∃ u ∈ body.statements, ∃ inside, u.Leads inside b ∧ around = inside ++ body.ownBlock ∧
              ∀ outer, Frame.target source b ((around ++ nest).map .source ++ outer) =
                Frame.target source b (inside.map .source ++ (clause.frames ++ outer)) := by
  obtain ⟨chain, label, discriminant, text, hchain, hreplacement, hprint⟩ :=
    Switch.of_statement htransform hrun
  refine ⟨discriminant, _, text, hreplacement, hprint, fun body nest hbody => ?_⟩
  -- the clause of the body is the one that its arm becomes
  have hmem : body ∈ chain.bodies :=
    hbody.mem_bodies (ChainForm.flattens_of_ifChain? (Switch.ifChain_of_statementChain hchain))
  obtain ⟨hself, hbelow⟩ := Switch.not_hasFreeBreak_of_statementChain hchain body hmem
  rw [Chain.bodies, ← ChainForm.bodies_eq] at hmem
  obtain ⟨arm, harm, rfl⟩ := List.mem_map.mp hmem
  refine ⟨hself, hbelow, ChainForm.statement.clauseWith label arm, List.mem_map_of_mem harm,
    rfl, ?_⟩
  intro around b hleads hb hnest
  exact hleads.target_eq hb hself hbelow hnest _

namespace Sample

/-- A `break` without a label. -/
def plainBreak : Tree := construct "break_statement" 20 25 [] [mark "break" 20 25]

/-- The block around it. -/
def loopBody : Tree :=
  construct "statement_block" 18 27 [] [mark "\x7b" 18 19, plainBreak, mark "\x7d" 26 27]

/-- `for (;;) { break }`. -/
def endlessLoop : Tree :=
  construct "for_statement" 9 27 [("initializer", 2), ("condition", 3), ("body", 5)]
    [mark "for" 9 12, mark "(" 13 14, construct "empty_statement" 14 15 [] [],
      construct "empty_statement" 15 16 [] [], mark ")" 16 17, loopBody]

/-- `{ for (;;) { break } break a }`. -/
def loopBlock : Tree :=
  let labelled := construct "break_statement" 28 35 [("label", 1)]
    [mark "break" 28 33, construct "statement_identifier" 34 35 [] []]
  construct "statement_block" 7 37 [] [mark "\x7b" 7 8, endlessLoop, labelled, mark "\x7d" 36 37]

/-- `if (x) { for (;;) { break } break a }`. -/
def loopIf : Tree :=
  construct "if_statement" 0 37 [("condition", 1), ("consequence", 2)]
    [mark "if" 0 2, header 3 6, loopBlock]

end Sample

/-- The `break` in the loop leaves the loop, and the one with the label stands free. -/
theorem Transform.switch_keeps_break_targets_loop :
    let source := "if (x) \x7b for (;;) \x7b break \x7d break a \x7d"
    let n := Node.root Sample.loopIf
    let body := Sample.loopBlock
    let around := [Sample.loopBody, Sample.endlessLoop, body]
    let b := Sample.plainBreak
    let replacement := Replacement.text
      "switch (true) \x7b\ncase !!x:\nfor (;;) \x7b break \x7d\nbreak a\n\x7d"
    ifToSwitch.run source n = .ok (some replacement) ∧ n.tree.HasBody body [n.tree] ∧
      body.Leads around b ∧ b.IsPlainBreak ∧ n.tree.kind ∈ ifKinds ∧
      ∃ discriminant clauses text, replacement = .text text ∧
        Switch.print source discriminant clauses = .ok text ∧
        ¬ body.IsPlainBreak ∧ ¬ body.HasBelow Tree.keepsBreaks Tree.IsPlainBreak ∧
        ∃ clause ∈ clauses, clause.statements = body.statements.map .source ∧
          ∃ u ∈ body.statements, ∃ inside, u.Leads inside b ∧ around = inside ++ body.ownBlock ∧
            ∀ outer, Frame.target source b ((around ++ [n.tree]).map .source ++ outer) =
              Frame.target source b (inside.map .source ++ (clause.frames ++ outer)) := by
  intro source n body around b replacement
  have hrun : ifToSwitch.run source n = .ok (some replacement) := by with_unfolding_all decide
  have hbody : n.tree.HasBody body [n.tree] := .consequence rfl
  -- the way goes through the loop, which catches the `break`
  have hloop : Sample.endlessLoop.Leads [Sample.loopBody, Sample.endlessLoop] b :=
    .inside (.tail _ (.tail _ (.head _))) (.inside (.head _) (.here b))
  have hleads : body.Leads around b := .inside (.head _) hloop
  have hkind : n.tree.kind ∈ ifKinds := .head _
  obtain ⟨discriminant, clauses, text, hreplacement, hprint, hbodies⟩ :=
    switch_keeps_break_targets (.inl rfl) hrun
  obtain ⟨hself, hbelow, clause, hclause, hstatements, htargets⟩ := hbodies body [n.tree] hbody
  exact ⟨hrun, hbody, hleads, ⟨rfl, rfl⟩, hkind, discriminant, clauses, text, hreplacement, hprint,
    hself, hbelow, clause, hclause, hstatements,
    htargets around b hleads rfl (List.forall_mem_singleton.mpr hkind)⟩

/-! ## §4 Bodies that are refused -/

namespace Tree

variable {t body : Tree}

/-- Each `break` without a label is inside a loop, a `switch` or a function that is part of the
body. The body itself may be that construct. -/
def CatchesBreaks (body : Tree) : Prop :=
  ∀ around b, body.Leads around b → b.IsPlainBreak → ∃ u ∈ around, u.keepsBreaks = true

/-- The body is itself a loop, a `switch` or a function, and there is a `break` that nothing inside
it catches. -/
def HasOwnBreak (body : Tree) : Prop :=
  body.keepsBreaks = true ∧ body.HasBelow keepsBreaks IsPlainBreak

theorem catchesBreaks_iff : body.CatchesBreaks ↔ ¬ body.Has keepsBreaks IsPlainBreak := by
  rw [has_iff_exists_leads]
  constructor
  · rintro h ⟨around, b, hleads, hopen, hb⟩
    obtain ⟨u, hu, hkeeps⟩ := h around b hleads hb
    rw [hopen u hu] at hkeeps
    cases hkeeps
  · -- a way without anything that catches would be one for the search
    intro h around b hleads hb
    by_contra hnone
    simp only [not_exists, not_and, Bool.not_eq_true] at hnone
    exact h ⟨around, b, hleads, hnone, hb⟩

/-- The search reports a `break` that is not caught, but also one that the body itself catches. -/
theorem hasFreeBreak_iff_or :
    body.hasFreeBreak = true ↔ ¬ body.CatchesBreaks ∨ body.HasOwnBreak := by
  rw [hasFreeBreak_iff, catchesBreaks_iff, not_not, has_iff, HasOwnBreak]
  cases body.keepsBreaks <;> simp

instance : DecidablePred IsPlainBreak := fun t =>
  inferInstanceAs (Decidable (t.kind = "break_statement" ∧ t.field? "label" = none))

end Tree

/-- A chain is accepted exactly if all breaks are caught inside of its bodies. -/
theorem Switch.exists_statementChain?_iff {t : Tree} {chain : Chain}
    (hchain : t.ifChain? = some chain) :
    (∃ found, statementChain? t = some found) ↔
      ∀ body ∈ chain.bodies, body.CatchesBreaks ∧ ¬ body.HasOwnBreak := by
  have hfree : chain.bodies.any Tree.hasFreeBreak = true ↔
      ∃ body ∈ chain.bodies, ¬ body.CatchesBreaks ∨ body.HasOwnBreak := by
    simp only [List.any_eq_true, Tree.hasFreeBreak_iff_or]
  have hshape : statementChain? t =
      if chain.bodies.any Tree.hasFreeBreak then none else some chain := by
    rw [statementChain?, hchain]
    rfl
  rw [hshape]
  constructor
  · rintro ⟨found, hfound⟩ body hbody
    obtain ⟨hnone, _⟩ := Option.ite_none_left_eq_some.mp hfound
    have hnot := fun h => hnone (hfree.mpr ⟨body, hbody, h⟩)
    exact ⟨not_not.mp fun h => hnot (.inl h), fun h => hnot (.inr h)⟩
  · intro h
    refine ⟨chain, if_neg fun hany => ?_⟩
    obtain ⟨body, hbody, hbreak⟩ := hfree.mp hany
    exact hbreak.elim (fun hcatches => hcatches (h body hbody).1) (h body hbody).2

/-- An `if` statement with a chain becomes a `switch` if and only if in each of its bodies all
breaks are caught, and no body that is itself a loop or a `switch` is what catches one of them. -/
theorem Transform.ifToSwitch_accepts_iff {source : String} {n : Node} {chain : Chain}
    (hn : n.Fits source) (hkind : n.kind = "if_statement")
    (hchain : ChainForm.statement.Flattens n.tree chain) :
    ∃ answer, ifToSwitch.run source n = .ok answer ∧
      (answer.isSome = true ↔ ∀ body ∈ chain.bodies, body.CatchesBreaks ∧ ¬ body.HasOwnBreak) := by
  -- on a fitting node the transform always answers
  obtain ⟨answer, hanswer⟩ : Succeeds (ifToSwitch.run source n) := by
    refine Reshaping.succeeds_ofShape fun s hs => ?_
    obtain ⟨found, hfound, rfl⟩ := Option.map_eq_some_iff.mp hs
    exact (Switch.Fits.onTruth (Switch.fits_statementChain hn.tree hfound)).renderStatement
  refine ⟨answer, hanswer, ?_⟩
  rw [← Switch.exists_statementChain?_iff (ChainForm.ifChain?_of_flattens hkind hchain)]
  rw [Reshaping.isSome_iff_of_ofShape hanswer]
  simp only [Option.map_eq_some_iff, exists_comm, exists_eq_right']

namespace Sample

/-- `for (;;) break`. -/
def bareLoop (start : Nat) : Tree :=
  construct "for_statement" start (start + 14) [("condition", 3), ("body", 5)]
    [mark "for" start (start + 3), mark "(" (start + 4) (start + 5),
      construct "empty_statement" (start + 5) (start + 6) [] [],
      construct "empty_statement" (start + 6) (start + 7) [] [], mark ")" (start + 7) (start + 8),
      construct "break_statement" (start + 9) (start + 14) []
        [mark "break" (start + 9) (start + 14)]]

/-- `if (x) for (;;) break`. -/
def bareLoopIf : Tree :=
  construct "if_statement" 0 21 [("condition", 1), ("consequence", 2)]
    [mark "if" 0 2, header 3 6, bareLoop 7]

/-- `if (x) { for (;;) break }`. -/
def bracedLoopIf : Tree :=
  construct "if_statement" 0 25 [("condition", 1), ("consequence", 2)]
    [mark "if" 0 2, header 3 6,
      construct "statement_block" 7 25 [] [mark "\x7b" 7 8, bareLoop 9, mark "\x7d" 24 25]]

end Sample

/-- In a block the loop is left alone, and the `if` statement becomes a `switch`. -/
theorem Transform.ifToSwitch_accepts_iff_braced :
    let source := "if (x) \x7b for (;;) break \x7d"
    let n := Node.root Sample.bracedLoopIf
    n.Fits source ∧ n.kind = "if_statement" ∧
      ifToSwitch.run source n =
        .ok (some (.text "switch (true) \x7b\ncase !!x:\nfor (;;) break\nbreak\n\x7d")) ∧
      ∃ chain, ChainForm.statement.Flattens n.tree chain ∧
        ∀ body ∈ chain.bodies, body.CatchesBreaks ∧ ¬ body.HasOwnBreak := by
  intro source n
  have hn : n.Fits source := .root (.of_fitsPlainly (by with_unfolding_all decide))
  have hkind : n.kind = "if_statement" := rfl
  have hrun : ifToSwitch.run source n =
      .ok (some (.text "switch (true) \x7b\ncase !!x:\nfor (;;) break\nbreak\n\x7d")) := by
    with_unfolding_all decide
  have hchain : ChainForm.statement.Flattens n.tree _ := .alone rfl rfl
  obtain ⟨answer, hanswer, haccepts⟩ := ifToSwitch_accepts_iff hn hkind hchain
  cases hrun.symm.trans hanswer
  exact ⟨hn, hkind, hrun, _, hchain, haccepts.mp rfl⟩

/-- The loop catches its `break`, so a `switch` around it would not. But as the whole body of the
branch the loop is searched, and the `if` statement is refused. -/
theorem Transform.loop_for_a_body_is_refused :
    let source := "if (x) for (;;) break"
    let n := Node.root Sample.bareLoopIf
    n.Fits source ∧ n.kind = "if_statement" ∧
      (∃ chain, ChainForm.statement.Flattens n.tree chain ∧
        ∀ body ∈ chain.bodies, body.CatchesBreaks) ∧
      ifToSwitch.run source n = .ok none := by
  intro source n
  have hchain : ChainForm.statement.Flattens n.tree ⟨[⟨_, Sample.bareLoop 7⟩], none⟩ :=
    .alone rfl rfl
  -- what is caught is decided by searching the loop as part of something else
  have hcaught : (Sample.bareLoop 7).CatchesBreaks := by
    rw [Tree.catchesBreaks_iff]
    with_unfolding_all decide
  refine ⟨.root (.of_fitsPlainly (by with_unfolding_all decide)), rfl, ⟨_, hchain, ?_⟩,
    by with_unfolding_all decide⟩
  intro body hbody
  obtain rfl : body = Sample.bareLoop 7 := by simpa [Chain.bodies] using hbody
  exact hcaught

end CodeActions
