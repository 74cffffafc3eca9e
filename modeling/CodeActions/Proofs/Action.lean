import CodeActions.Proofs.Branch
import CodeActions.Proofs.Catalog
import CodeActions.Proofs.Function
import CodeActions.Proofs.Literal

/-!
# Actions on fitting documents

If the tree of a document fits its text, every action that is offered on it can be applied: the
answer is an edit or that there is none, and the edit can be made. No cut is out of bounds or inside
of a character, whatever the kinds, fields and children of the tree are.

Main statement: `Action.apply_never_fails`.
-/

namespace CodeActions

/-! ## §1 The other transforms -/

/-- The test and the body of a loop in a fitting tree fit. -/
theorem Loop.fits_of_ofKind? {source kind : String} {t : Tree} (h : t.Fits source) {l : Loop}
    (hl : Loop.ofKind? kind t = some l) : l.condition.Fits source ∧ l.body.Fits source := by
  unfold Loop.ofKind? at hl
  obtain ⟨_, hl⟩ := Option.ite_none_right_eq_some.mp hl
  obtain ⟨condition, hcondition, hl⟩ := Option.bind_eq_some_iff.mp hl
  obtain ⟨body, hbody, hl⟩ := Option.bind_eq_some_iff.mp hl
  cases hl
  exact ⟨h.field hcondition, h.field hbody⟩

/-- A wrap cuts out the expression that it goes around. -/
theorem Reshaping.succeeds_ofExpression {source : String} {t : Tree} (h : t.Fits source)
    (wrap : String → Snippet) : Succeeds (Reshaping.ofExpression source t wrap) := by
  unfold Reshaping.ofExpression
  split
  · exact h.text.bind fun _ _ => .pure _
  · exact .pure none

/-- Besides its declarators a declaration is split along the indentation of its line. -/
theorem Declaration.succeeds_render {source : String} {n : Node} (hn : n.Fits source)
    {d : Declaration} (hd : ofNode? n = some d) : Succeeds (d.render source n) := by
  unfold ofNode? at hd
  simp only at hd
  obtain ⟨_, hd⟩ := Option.ite_none_right_eq_some.mp hd
  obtain ⟨keyword, hkeyword, hd⟩ := Option.bind_eq_some_iff.mp hd
  cases hd
  have hkeyword' : keyword.Fits source := hn.tree.child (List.mem_of_mem_head? hkeyword)
  have hindent : Succeeds (Text.lineIndent source n.span.start) :=
    Text.succeeds_lineIndent hn.tree.lies.start
  -- three cuts, and then one for each declarator
  refine hkeyword'.text.bind fun _ _ => hn.tree.text.bind fun _ _ => hindent.bind fun _ _ => ?_
  refine Succeeds.bind (.mapM fun t ht => ?_) fun _ _ => .pure _
  have hfits : t.Fits source := hn.tree.namedChild (List.mem_filter.mp ht).1
  exact hfits.text.bind fun _ _ => .pure _

namespace Transform

/-- Loops are written with their parts exchanged, so all of their text is cut out. -/
theorem answers_whileToDoWhile : whileToDoWhile.Answers := by
  intro source n hn _
  refine Reshaping.succeeds_ofShape fun l hl => ?_
  obtain ⟨hcondition, hbody⟩ := Loop.fits_of_ofKind? hn.tree hl
  exact hbody.text.bind fun _ _ => hcondition.text.bind fun _ _ => .pure _

theorem answers_doWhileToWhile : doWhileToWhile.Answers := by
  intro source n hn _
  refine Reshaping.succeeds_ofShape fun l hl => ?_
  obtain ⟨hcondition, hbody⟩ := Loop.fits_of_ofKind? hn.tree hl
  exact hcondition.text.bind fun _ _ => hbody.text.bind fun _ _ => .pure _

theorem answers_splitDeclaration : splitDeclaration.Answers :=
  fun _ _ hn _ => Reshaping.succeeds_ofShape fun _ hd => Declaration.succeeds_render hn hd

theorem answers_wrapInCast : wrapInCast.Answers :=
  fun _ _ hn _ => Reshaping.succeeds_ofExpression hn.tree Snippet.cast

theorem answers_wrapInCall : wrapInCall.Answers :=
  fun _ _ hn _ => Reshaping.succeeds_ofExpression hn.tree Snippet.call

/-- Every transform of the catalog has an answer for every fitting node without errors. -/
theorem answers_all : ∀ t ∈ Transform.all, t.Answers := by
  simp only [Transform.all, Transform.specific, Transform.generic, List.cons_append,
    List.nil_append, List.forall_mem_cons]
  exact ⟨answers_templateToConcat, answers_concatToTemplate, answers_binaryToIf, answers_ifToBinary,
    answers_ifToTernary, answers_ifToSwitch, answers_ifToSwitchOnValue, answers_swapIfElseBranches,
    answers_ternaryToIf, answers_ternaryToSwitch, answers_ternaryToSwitchOnValue,
    answers_swapTernaryBranches, answers_returnTernaryToIf, answers_whileToDoWhile,
    answers_doWhileToWhile, answers_arrowToFunction, answers_functionToArrow,
    answers_functionDeclarationToArrow, answers_arrowBindingToFunction, answers_splitDeclaration,
    answers_wrapInCast, answers_wrapInCall, by simp⟩

end Transform

/-! ## §2 Applying actions -/

namespace Action

variable {a : Action}

/-- An edit in the place of a fitting node can be made. -/
theorem succeeds_applyTo (h : a.target.Fits a.document.source) (replacement : Replacement) :
    Succeeds ((a.editWith replacement).applyTo a.document.source) :=
  (Text.succeeds_upTo h.tree.lies.start).bind fun _ _ =>
    (Text.succeeds_onwards h.tree.lies.stop).bind fun _ _ => .pure _

/-- An action answers if its transform does, whether its edit is verified or not. -/
theorem succeeds_apply (parser : Parser) (h : a.target.Fits a.document.source)
    (htransform : a.transform.Answers) : Succeeds (a.apply parser) := by
  unfold Action.apply
  cases herror : a.target.tree.hasError with
  -- a target with errors is declined before anything is cut
  | true => exact .pure none
  | false =>
    simp only [Bool.false_eq_true, if_false]
    refine (htransform _ _ h herror).bind fun replacement? _ => ?_
    cases replacement? with
    | none => exact .pure none
    | some replacement =>
      simp only
      -- verifying makes the edit once more, and can fail only there
      split
      · have hparses : Succeeds (a.stillParses parser (a.editWith replacement)) :=
          (succeeds_applyTo h replacement).bind fun _ _ => .pure _
        refine hparses.bind fun parses _ => ?_
        cases parses with
        | true => exact .pure _
        | false => exact .pure none
      · exact .pure _

end Action

/-- On a document whose tree fits its text, applying any action that is offered anywhere gives an
answer, and if the answer is an edit, the edit can be made. Positions are safe as well: the first
string of a sum is found in the list of operands, and the part before it in the list of parts; and
where a chain compares one value, every branch has its label. -/
theorem Action.apply_never_fails (parser : Parser) (config : Config) {d : Document}
    (hfits : d.tree.Fits d.source) (span : Span) {a : Action}
    (ha : a ∈ ({ config } : Engine).actionsAt d span) :
    (∃ edit?, a.apply parser = .ok edit? ∧ ∀ edit ∈ edit?, Succeeds (edit.applyTo d.source)) ∧
    (∀ pieces, ConcatPiece.ofTree? a.target.tree = some pieces →
      ∃ leaves parts i, a.target.tree.collectPlus? [] [] = some (leaves, parts) ∧
        leaves.findIdx? ConcatPiece.startsText = some i ∧ i < leaves.length ∧
        (0 < i → i - 1 < parts.length) ∧
        pieces =
          (if i = 0 then [] else parts[i - 1]?.toList.map fun part => .hole part.unwrapParens) ++
          (leaves.drop i).map fun leaf => .ofLeaf leaf.unwrapParens) ∧
    ∀ chain tests, a.target.tree.ifChain? = some chain ∨ a.target.tree.ternaryChain? = some chain →
      chain.equalityTests? d.source = .ok (some tests) →
        tests.labels.length = chain.branches.length := by
  obtain ⟨hdocument, htarget, htransform, _⟩ := Engine.mem_actionsAt_iff.mp ha
  subst hdocument
  have hnode : a.target.Fits a.document.source := Node.Fits.path hfits span a.target htarget
  -- an engine offers nothing but transforms of the catalog
  have hanswers : a.transform.Answers :=
    Transform.answers_all _ (Engine.mem_all_of_mem_offered rfl htransform)
  refine ⟨?_, fun pieces hpieces => ConcatPiece.found_by_position hpieces,
    fun chain tests _ htests => Chain.length_labels htests⟩
  -- an edit that comes out replaces the target, whose span can be cut
  obtain ⟨edit?, happly⟩ := Action.succeeds_apply parser hnode hanswers
  refine ⟨edit?, happly, fun edit hedit => ?_⟩
  subst hedit
  obtain ⟨_, replacement, _, rfl, _⟩ := Action.of_apply_eq_some happly
  exact Action.succeeds_applyTo hnode replacement

namespace Sample

/-- The hole of the template. -/
def hole : Tree :=
  .node { kind := "template_substitution", span := ⟨3, 7⟩ } []
    [.node { kind := "identifier", span := ⟨5, 6⟩ } [] []]

/-- A template that begins with a character of two bytes and ends with a hole. -/
def template : Document where
  source := "\x60é$\x7ba\x7d\x60"
  tree :=
    .node { kind := "program", span := ⟨0, 8⟩ } [] [
      .node { kind := "template_string", span := ⟨0, 8⟩ } [] [hole]]
  dialect := .javaScript

theorem fits_template : template.tree.Fits template.source := by
  have hhole : hole.Fits template.source := by
    refine .intro ⟨by decide, by decide, by decide, fun h => absurd h (by decide)⟩ ?_
    refine List.forall_mem_singleton.mpr (.intro ⟨by decide, by decide, by decide, ?_⟩ (by simp))
    exact fun h => absurd h (by decide)
  refine .intro ⟨by decide, by decide, by decide, fun h => absurd h (by decide)⟩ ?_
  refine List.forall_mem_singleton.mpr (.intro ⟨by decide, by decide, by decide, fun _ _ => ?_⟩ ?_)
  · exact ⟨"é$\x7ba\x7d", by rfl⟩
  · exact List.forall_mem_singleton.mpr hhole

end Sample

/-- The template is cut behind its first byte, around its hole and before its last byte. -/
theorem Action.apply_never_fails_template :
    let parser : Parser := fun _ _ => Sample.template.tree
    let actions := ({} : Engine).actionsAt Sample.template ⟨1, 3⟩
    actions.map
      (fun a => (a.title, (a.apply parser).toOption.join.map fun edit => edit.replacement.plain)) =
      [("template_to_concat(template_string)", some "'é' + (a)")] ∧
    ∀ a ∈ actions, ∃ edit?, a.apply parser = .ok edit? ∧
      ∀ edit ∈ edit?, Succeeds (edit.applyTo Sample.template.source) := by
  intro parser actions
  refine ⟨by decide +kernel, fun a ha => ?_⟩
  exact (Action.apply_never_fails parser {} Sample.fits_template ⟨1, 3⟩ ha).1

end CodeActions
