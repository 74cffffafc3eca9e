import CodeActions.Proofs.Branch.Equality
import CodeActions.Proofs.Branch.Switch

/-!
# Chains as `switch` statements on a value

If all tests of a chain compare one value, the chain is a `switch` on that value. Its labels are the
right operands of the tests. They are kept in a list of their own, apart from the bodies, and put
together with them by position.

A test asks whether two values are strictly equal, and so does a `switch` for each of its labels.
But a test evaluates its own left operand, while a `switch` evaluates one for all of them, and only
once. So the two agree if operands that are written alike have the same value wherever they are
evaluated, and if nothing else happens then.

Main statements: `ChainForm.sections_onValue`, the labels are put together with the right bodies,
and `ChainForm.value_switch_keeps_dispatch`, the `switch` enters the clause of the branch that the
nest takes.
-/

namespace CodeActions

/-! ## §1 Merged tests -/

namespace Tree

/-- The texts of the expressions agree in all characters that are not white space. -/
def WrittenAlike (source : String) (t u : Tree) : Prop :=
  ∃ text text', t.text source = .ok text ∧ u.text source = .ok text' ∧
    Text.squash text.toList = Text.squash text'.toList

/-- The left operand of an expression, parentheses left out. -/
def leftOperand? (t : Tree) : Option Tree := (t.field? "left").map unwrapParens

theorem of_equality? {t left right : Tree} (h : t.equality? = some (left, right)) :
    t.kind = "binary_expression" ∧ t.leftOperand? = some left ∧ t.field? "right" = some right := by
  obtain ⟨hkind, operand, hoperand, hleft, hright⟩ := sides_of_equality? h
  refine ⟨hkind, ?_, hright⟩
  rw [leftOperand?, hoperand, Option.map_some, hleft]

end Tree

/-- Each member of the first list has a partner in the second. -/
theorem exists_of_mem_forall₂ {α β : Type} {P : α → β → Prop} {xs : List α} {ys : List β}
    (h : List.Forall₂ P xs ys) {x : α} (hx : x ∈ xs) : ∃ y ∈ ys, P x y := by
  induction h with
  | nil => cases hx
  | cons hxy _ ih =>
    rcases List.mem_cons.mp hx with rfl | hx
    · exact ⟨_, List.mem_cons_self, hxy⟩
    · obtain ⟨y, hy, hxy⟩ := ih hx
      exact ⟨y, List.mem_cons_of_mem _ hy, hxy⟩

/-- The branch tests whether the label is equal to something that is written like the value. -/
def Branch.Tests (source : String) (value : Tree) (branch : Branch) (label : Tree) : Prop :=
  ∃ left, branch.condition.equality? = some (left, label) ∧ value.WrittenAlike source left

namespace Chain

variable {source : String} {chain : Chain} {tests : EqualityTests}

/-- The left operands of the tests. -/
def leftOperands (chain : Chain) : List Tree :=
  chain.branches.filterMap fun branch => branch.condition.leftOperand?

/-- If the tests of a chain are merged, each branch has its own label. -/
theorem tests_of_equalityTests (htests : chain.equalityTests? source = .ok (some tests)) :
    List.Forall₂ (Branch.Tests source tests.value) chain.branches tests.labels := by
  unfold equalityTests? at htests
  split at htests
  -- some test is none for equality, or there is no test
  case h_1 | h_2 => cases htests
  case h_3 value label rest hsides =>
    obtain ⟨first, hfirst, htests⟩ := bind_eq_ok_iff.mp htests
    obtain ⟨others, hothers, htests⟩ := bind_eq_ok_iff.mp htests
    split at htests
    case isFalse => cases htests
    case isTrue hsame =>
      cases htests
      -- each left operand has been compared with the first
      have halike : ∀ side ∈ (value, label) :: rest, value.WrittenAlike source side.1 := by
        refine List.forall_mem_cons.mpr ⟨⟨first, first, hfirst, hfirst, rfl⟩, fun side hside => ?_⟩
        obtain ⟨other, hother, htext⟩ := exists_of_mem_forall₂ (mapM_eq_ok_iff.mp hothers) hside
        exact ⟨first, other, hfirst, htext, beq_iff_eq.mp (List.all_eq_true.mp hsame other hother)⟩
      -- the labels are the right sides, so what is shown of the sides is shown of the labels
      have hpaired := (List.forall₂_and_left _ _).mpr ⟨halike, (mapM_eq_some_iff.mp hsides).flip⟩
      show List.Forall₂ _ chain.branches (((value, label) :: rest).map Prod.snd)
      rw [List.forall₂_map_right_iff]
      exact hpaired.flip.imp fun branch side h => ⟨side.1, h.2, h.1⟩

/-- The value is the left operand of the first test. -/
theorem head_of_equalityTests (htests : chain.equalityTests? source = .ok (some tests)) :
    ∃ first, chain.branches.head? = some first ∧
      first.condition.leftOperand? = some tests.value := by
  obtain ⟨sides, hsides, _, hvalue⟩ := of_equalityTests htests
  obtain ⟨side, hside, hvalue⟩ := Option.map_eq_some_iff.mp hvalue
  obtain ⟨rest, rfl⟩ := List.head?_eq_some_iff.mp hside
  -- the first pair of sides belongs to the first branch
  obtain ⟨first, others, hfirst, _, hbranches⟩ :=
    List.forall₂_cons_right_iff.mp (mapM_eq_some_iff.mp hsides)
  rw [hbranches]
  exact ⟨first, rfl, hvalue ▸ (Tree.of_equality? hfirst).2.1⟩

theorem mem_leftOperands {branch : Branch} {left : Tree} (hbranch : branch ∈ chain.branches)
    (hleft : branch.condition.leftOperand? = some left) : left ∈ chain.leftOperands :=
  List.mem_filterMap.mpr ⟨branch, hbranch, hleft⟩

end Chain

/-! ## §2 The clauses -/

namespace ChainForm

open Switch

variable {source : String} {form : ChainForm} {chain : Chain} {tests : EqualityTests}

/-- The transform to a `switch` on the value that is compared. -/
def toSwitchOnValue : ChainForm → Transform
  | statement => Transform.ifToSwitchOnValue
  | expression => Transform.ternaryToSwitchOnValue

/-- The right operand of a test. Each test for equality has one. -/
def rightOperand (condition : Tree) : Tree := (condition.field? "right").getD condition

/-- The label of a test for equality: its right operand as it is written. -/
def operandLabel (condition : Tree) : Switch.Label := ⟨rightOperand condition, false, false⟩

/-- What the value is compared with for a test. -/
def operandTest (condition : Tree) : CaseTest := .value (rightOperand condition)

theorem render_operandLabel (source : String) (condition : Tree) :
    (operandLabel condition).render source = (operandTest condition).render source := rfl

/-- The clause stands for the arm, whose test is one for equality. -/
structure WritesOperand (form : ChainForm) (arm : Arm) (clause : Clause) : Prop where
  label : ∀ condition ∈ arm.condition,
    ∃ right, condition.field? "right" = some right ∧ clause.label = some ⟨right, false, false⟩
  default : arm.condition = none → clause.label = none
  statements : clause.statements = form.contents arm.body
  /-- Only behind a case stands a `break`. -/
  leaves : clause.leaves = true → arm.condition.isSome = true
  /-- Control does not fall out of a case. -/
  jumps : arm.condition.isSome = true → clause.items.getLast?.any Item.isJump = true

theorem rightOperand_of_tests {value label : Tree} {branch : Branch}
    (h : branch.Tests source value label) :
    branch.condition.field? "right" = some label ∧ rightOperand branch.condition = label := by
  obtain ⟨left, hsides, _⟩ := h
  have hright := (Tree.of_equality? hsides).2.2
  exact ⟨hright, by rw [rightOperand, hright]; rfl⟩

theorem zipWith_labels {value : Tree} {branches : List Branch} {labels : List Tree}
    (h : List.Forall₂ (Branch.Tests source value) branches labels) :
    branches.zipWith (fun branch label => (⟨some (.value label), branch.body⟩ : Section)) labels =
      branches.map fun branch => ⟨some (operandTest branch.condition), branch.body⟩ := by
  -- the two lists are equally long, and no label is left without a branch
  induction h with
  | nil => rfl
  | cons hfirst _ ih =>
    rw [List.zipWith_cons_cons, List.map_cons, ih, operandTest, (rightOperand_of_tests hfirst).2]

/-- The labels, which are a list of their own, come to the bodies of their branches. -/
theorem sections_onValue (htests : chain.equalityTests? source = .ok (some tests)) :
    (onValue tests chain).sections = chain.arms.map (sectionWith operandTest) := by
  simp only [onValue, zipWith_labels (Chain.tests_of_equalityTests htests), Chain.arms,
    List.map_append, List.map_map]
  rfl

/-- The clause of an arm stands for it, whose label is the right operand of its test. -/
theorem writesOperand_clauseWith (htests : chain.equalityTests? source = .ok (some tests)) :
    ∀ arm ∈ chain.arms, form.WritesOperand arm (form.clauseWith operandLabel arm) := by
  intro arm harm
  refine ⟨fun condition hcondition => ?_, fun hnone => by simp [clauseWith, hnone], rfl, ?_,
    jumps_clauseWith⟩
  · -- an arm with a condition is one of the branches, all of which have a right operand
    obtain ⟨branch, hbranch, rfl⟩ : ∃ branch ∈ chain.branches, branch.condition = condition := by
      rcases List.mem_append.mp harm with harm | harm
      · obtain ⟨branch, hbranch, rfl⟩ := List.mem_map.mp harm
        exact ⟨branch, hbranch, Option.mem_some_iff.mp hcondition⟩
      · obtain ⟨body, _, rfl⟩ := List.mem_map.mp harm
        cases hcondition
    obtain ⟨label, _, hlabel⟩ := exists_of_mem_forall₂ (Chain.tests_of_equalityTests htests) hbranch
    obtain ⟨hright, hoperand⟩ := rightOperand_of_tests hlabel
    refine ⟨label, hright, ?_⟩
    simp only [clauseWith, operandLabel, Option.mem_def.mp hcondition, Option.map_some, hoperand]
  · intro hleaves
    exact (Bool.and_eq_true_iff.mp hleaves).1

theorem tests_of_reshapeOnValue {found : Option Chain} {render : Switch → Cut String}
    {replacement : Replacement} (h : reshapeOnValue source found render = .ok (some replacement)) :
    ∃ chain tests text, found = some chain ∧ chain.equalityTests? source = .ok (some tests) ∧
      render (onValue tests chain) = .ok text ∧ replacement = .text text := by
  cases found with
  | none => cases h
  | some chain =>
    obtain ⟨merged, htests, h⟩ := bind_eq_ok_iff.mp h
    obtain ⟨_, text, hs, hrender, rfl⟩ := Reshaping.ofShape_eq_ok_some_iff.mp h
    obtain ⟨tests, rfl, rfl⟩ := Option.map_eq_some_iff.mp hs
    exact ⟨chain, tests, text, rfl, htests, hrender, rfl⟩

/-- An accepted chain is written as a `switch` on the first left operand. -/
theorem of_toSwitchOnValue {n : Node} {replacement : Replacement}
    (hrun : form.toSwitchOnValue.run source n = .ok (some replacement)) :
    ∃ chain tests discriminant text, form.chain? n.tree = some chain ∧
      chain.equalityTests? source = .ok (some tests) ∧ tests.value.text source = .ok discriminant ∧
      replacement = .text (form.embed text) ∧
      Switch.print source discriminant (chain.arms.map (form.clauseWith operandLabel)) =
        .ok text := by
  obtain ⟨chain, tests, text, hchain, htests, hwrite, rfl⟩ :
    ∃ chain tests text, form.chain? n.tree = some chain ∧
      chain.equalityTests? source = .ok (some tests) ∧
      form.write source (onValue tests chain) = .ok text ∧ replacement = .text text := by
    -- whatever a form refuses, what it takes is the chain of the tree
    cases form with
    | statement =>
      obtain ⟨chain, tests, text, hchain, h⟩ := tests_of_reshapeOnValue hrun
      exact ⟨chain, tests, text, ifChain_of_statementChain hchain, h⟩
    | expression =>
      obtain ⟨chain, tests, text, hchain, h⟩ := tests_of_reshapeOnValue hrun
      exact ⟨chain, tests, text, ternaryChain_of_expressionChain hchain, h⟩
  obtain ⟨discriminant, inner, hdiscriminant, rfl, hprint⟩ :=
    of_write (render_operandLabel source) (sections_onValue htests) hwrite
  exact ⟨chain, tests, discriminant, inner, hchain, htests, hdiscriminant, rfl, hprint⟩

end ChainForm

/-! ## §3 Evaluation -/

namespace Valuation

variable {α σ : Type} (v : Valuation α σ)

/-- `===` evaluates both of its sides, the left one first, and says whether the values are the
same. -/
def ComparesBy (same : Value α → Value α → Bool) : Prop :=
  ∀ ⦃t left right : Tree⦄, t.kind = "binary_expression" → t.operator? = some "===" →
    t.field? "left" = some left → t.field? "right" = some right → ∀ s,
      let (x, s') := v.eval left s
      let (y, s'') := v.eval right s'
      v.eval t s = (.boolean (same x y), s'')

/-- Operands that are written alike have the same value in all states, and nothing happens when they
are evaluated. If there is only one state, this just says that they have the same value. -/
structure Steady (source : String) (operands : List Tree) : Prop where
  keep : ∀ t ∈ operands, ∀ s, (v.eval t s).2 = s
  agree : ∀ t ∈ operands, ∀ u ∈ operands, t.WrittenAlike source u →
    ∀ s s', (v.eval t s).1 = (v.eval u s').1

variable {v}

/-- A strict test holds exactly if its right operand is the same as the value of the first left
one. -/
theorem matches_operandLabel {same : Value α → Value α → Bool} (htransparent : v.Transparent)
    (hcompares : v.ComparesBy same) {source : String} {operands : List Tree}
    (hsteady : v.Steady source operands) {value label : Tree} (hvalue : value ∈ operands)
    {branch : Branch} (htests : branch.Tests source value label)
    (hleft : ∀ left ∈ branch.condition.leftOperand?, left ∈ operands)
    (hstrict : branch.condition.operator? = some "===") (start : σ) :
    (ChainForm.operandLabel branch.condition).Matches v (same (v.eval value start).1)
      branch.condition := by
  intro s
  obtain ⟨hright, hoperand⟩ := ChainForm.rightOperand_of_tests htests
  obtain ⟨unwrapped, hsides, halike⟩ := htests
  obtain ⟨hkind, hunwrapped, _⟩ := Tree.of_equality? hsides
  have hmem := hleft unwrapped hunwrapped
  obtain ⟨left, hfield, rfl⟩ := Option.map_eq_some_iff.mp hunwrapped
  -- the left operand has the value of the first one and leaves the state as it is
  have heval : v.eval left s = ((v.eval value start).1, s) := by
    rw [← htransparent.eval_unwrapParens left]
    exact Prod.ext (hsteady.agree _ hvalue _ hmem halike start s).symm (hsteady.keep _ hmem s)
  -- so the test compares the value with the right operand, which is all that the label does
  have htest := hcompares hkind hstrict hfield hright s
  simp only [heval] at htest
  simp [htest, Switch.Label.eval, ChainForm.operandLabel, hoperand, holds]

end Valuation

namespace ChainForm

open Switch

section

variable {α σ : Type} {v : Valuation α σ}

/-- To each test that is evaluated belongs its right operand. -/
theorem rightOperands_tested {source : String} {value : Tree} {branches : List Branch}
    {labels : List Tree} (h : List.Forall₂ (Branch.Tests source value) branches labels)
    (last : Option Tree) (s : σ) :
    List.Forall₂ (fun test label => test.field? "right" = some label)
      (choose v last branches s).tested
      ((branches.take (choose v last branches s).tested.length).map fun branch =>
        (operandLabel branch.condition).expression) := by
  -- the tests are those of the first branches, each of which has its right operand
  nth_rewrite 1 [← tested_choose]
  rw [List.forall₂_map_left_iff, List.forall₂_map_right_iff, List.forall₂_same]
  intro branch hbranch
  obtain ⟨label, _, htests⟩ := exists_of_mem_forall₂ h (List.mem_of_mem_take hbranch)
  obtain ⟨hright, hoperand⟩ := rightOperand_of_tests htests
  obtain ⟨left, hsides, _⟩ := htests
  rw [Tree.unwrapParens_of_kind_ne (by simp [(Tree.of_equality? hsides).1]), hright]
  exact congrArg some hoperand.symm

/-- The clause that a conditional expression enters returns the value that is chosen. -/
theorem executed_of_chosen {t : Tree} {chain : Chain} (hchain : expression.chain? t = some chain)
    {label : Tree → Switch.Label} {s : σ} {i : Nat}
    (hchosen : (chain.choose v s).chosen = chain.arms[i]?.map Arm.body) :
    ∃ body, (chain.choose v s).chosen = some body ∧
      executed ((chain.arms.map (expression.clauseWith label)).drop i) =
        [.result body.unwrapParens] := by
  -- something is left when all tests fail, so there is always a value
  obtain ⟨_, last, hlast⟩ := Tree.of_ternaryChain? hchain
  obtain ⟨body, hbody⟩ := Option.isSome_iff_exists.mp (isSome_chosen v hlast s)
  obtain ⟨arm, harm, rfl⟩ := Option.map_eq_some_iff.mp (hchosen.symm.trans hbody)
  refine ⟨arm.body, hbody, ?_⟩
  rw [executed_clausesWith, List.getElem?_map, harm]
  exact executed_expression arm

end

/-- A chain that is accepted becomes a `switch` on the left operand of its first test, with a clause
for each of its arms, in order: a test becomes its right operand, what is left becomes the default,
and a body becomes its statements or the return of its value. If all tests are strict and their left
operands steady, the `switch` evaluates the right operands of the tests that the nest evaluates, in
the same order, and enters the clause of the branch that the nest takes. Control does not leave it
for the next. -/
theorem value_switch_keeps_dispatch {source : String} {n : Node} {replacement : Replacement}
    (form : ChainForm) (hrun : form.toSwitchOnValue.run source n = .ok (some replacement)) :
    ∃ chain first value discriminant clauses text, form.chain? n.tree = some chain ∧
      chain.branches.head? = some first ∧ first.condition.leftOperand? = some value ∧
      value.text source = .ok discriminant ∧ replacement = .text (form.embed text) ∧
      Switch.print source discriminant clauses = .ok text ∧
      List.Forall₂ form.WritesOperand chain.arms clauses ∧
      (∀ i, executed (clauses.drop i) = executed clauses[i]?.toList) ∧
      ∀ {α σ : Type} {v : Valuation α σ} {same : Value α → Value α → Bool},
        v.Transparent → v.ComparesBy same →
        (∀ branch ∈ chain.branches, branch.condition.operator? = some "===") →
        v.Steady source chain.leftOperands → ∀ s, ∃ i choice labels,
          (∀ c, Takes v form n.tree s c ↔ c = choice) ∧
          choice.chosen = chain.arms[i]?.map Arm.body ∧
          List.Forall₂ (fun test label => test.field? "right" = some label) choice.tested labels ∧
          enter v (same (v.eval value s).1) clauses (v.eval value s).2 =
            ⟨clauses.drop i, labels, choice.state⟩ ∧
          (form = .expression → ∃ body e, choice.chosen = some body ∧
            executed (clauses.drop i) = [.result e] ∧ v.eval e = v.eval body) := by
  obtain ⟨chain, tests, discriminant, text, hchain, htests, hdiscriminant, hreplacement, hprint⟩ :=
    of_toSwitchOnValue hrun
  obtain ⟨first, hfirst, hvalue⟩ := Chain.head_of_equalityTests htests
  refine ⟨chain, first, tests.value, discriminant, chain.arms.map (form.clauseWith operandLabel),
    text, hchain, hfirst, hvalue, hdiscriminant, hreplacement, hprint, ?_,
    form.executed_clausesWith chain, ?_⟩
  · exact List.forall₂_map_right_iff.mpr (List.forall₂_same.mpr (writesOperand_clauseWith htests))
  · intro α σ v same htransparent hcompares hstrict hsteady s
    have hmem : tests.value ∈ chain.leftOperands :=
      Chain.mem_leftOperands (List.mem_of_mem_head? hfirst) hvalue
    -- each label hits exactly if its test holds
    have hmatches : ∀ branch ∈ chain.branches,
        (operandLabel branch.condition).Matches v (same (v.eval tests.value s).1)
          branch.condition := by
      intro branch hbranch
      obtain ⟨label, _, hlabel⟩ :=
        exists_of_mem_forall₂ (Chain.tests_of_equalityTests htests) hbranch
      exact Valuation.matches_operandLabel htransparent hcompares hsteady hmem hlabel
        (fun left hleft => Chain.mem_leftOperands hbranch hleft) (hstrict branch hbranch) s
    obtain ⟨i, hchosen, henter⟩ := form.enter_clausesWith chain hmatches s
    have hlabels :=
      rightOperands_tested (v := v) (Chain.tests_of_equalityTests htests) chain.otherwise s
    refine ⟨i, chain.choose v s, _,
      (flattens_of_chain? hchain).takes_iff_of_transparent htransparent s, hchosen, hlabels, ?_, ?_⟩
    · rw [hsteady.keep _ hmem s]
      exact henter
    · rintro rfl
      obtain ⟨body, hbody, hresult⟩ := executed_of_chosen hchain hchosen
      exact ⟨body, body.unwrapParens, hbody, hresult, htransparent.eval_unwrapParens body⟩

end ChainForm

namespace Sample

/-- What stands for a text: for `a.b` the number that it is in the sample, and else the text
itself. -/
def valueOfText (text : String) : String :=
  if Text.squash text.toList = "a.b".toList then "2" else String.ofList (Text.squash text.toList)

/-- The value of an expression. Only parentheses and `===` are evaluated. -/
def strictValue (source : String) (t : Tree) : Value String :=
  if t.kind = "parenthesized_expression" then
    match _h : t.firstCode? with
    | some inner => strictValue source inner
    | none => .other ""
  else if t.kind = "binary_expression" ∧ t.operator? = some "===" then
    match _h : t.field? "left", _h' : t.field? "right" with
    | some left, some right => .boolean (strictValue source left == strictValue source right)
    | _, _ => .other ""
  else
    match t.text source with
    | .ok text => .other (valueOfText text)
    | .error _ => .other ""
termination_by t.size
decreasing_by
  · exact Tree.size_lt_of_firstCode? _h
  · exact Tree.size_lt_of_field? _h
  · exact Tree.size_lt_of_field? _h'

/-- The valuation that goes with it, without states. -/
def strictly (source : String) : Valuation String Unit where
  counts text := text != ""
  eval t s := (strictValue source t, s)

theorem transparent_strictly (source : String) : (strictly source).Transparent := by
  intro t inner hkind hinner
  have hvalue : strictValue source t = strictValue source inner := by
    rw [strictValue, if_pos hkind]
    split <;> simp_all
  simp only [strictly, hvalue]

theorem comparesBy_strictly (source : String) : (strictly source).ComparesBy (· == ·) := by
  intro t left right hkind hoperator hleft hright s
  have hvalue : strictValue source t =
      .boolean (strictValue source left == strictValue source right) := by
    rw [strictValue, if_neg (by simp [hkind]), if_pos ⟨hkind, hoperator⟩]
    split <;> simp_all
  simp only [strictly, hvalue]

/-- A member of an object has the value of its text. -/
theorem strictValue_of_member {source text : String} {t : Tree}
    (hkind : t.kind = "member_expression") (htext : t.text source = .ok text) :
    strictValue source t = .other (valueOfText text) := by
  rw [strictValue, if_neg (by simp [hkind]), if_neg (by simp [hkind]), htext]

/-- Members of objects have the values of their texts, so those that are written alike have the
same. -/
theorem steady_strictly {source : String} {operands : List Tree}
    (h : ∀ t ∈ operands, t.kind = "member_expression") :
    (strictly source).Steady source operands where
  keep _ _ _ := rfl
  agree := by
    intro t ht u hu halike s s'
    obtain ⟨text, text', htext, htext', hsquash⟩ := halike
    show strictValue source t = strictValue source u
    rw [strictValue_of_member (h t ht) htext, strictValue_of_member (h u hu) htext', valueOfText,
      valueOfText, hsquash]

/-- A strict test with a blank on each side of the sign. -/
def strictTest (left right : Tree) : Tree :=
  construct "binary_expression" left.span.start right.span.stop
    [("left", 0), ("operator", 1), ("right", 2)]
    [left, mark "===" (left.span.stop + 1) (left.span.stop + 4), right]

/-- A conditional expression with a blank on each side of the signs. -/
def conditional (test value other : Tree) : Tree :=
  construct "ternary_expression" test.span.start other.span.stop
    [("condition", 0), ("consequence", 2), ("alternative", 4)]
    [test, mark "?" (test.span.stop + 1) (test.span.stop + 2), value,
      mark ":" (value.span.stop + 1) (value.span.stop + 2), other]

/-- `a.b === 1 ? p : a . b === 2 ? q : z`. -/
def memberNest : Tree :=
  let name (start : Nat) := construct "identifier" start (start + 1) [] []
  let number (start : Nat) := construct "number" start (start + 1) [] []
  conditional (strictTest (member 0 1 2) (number 8)) (name 12)
    (conditional (strictTest (member 16 18 20) (number 26)) (name 30) (name 34))

end Sample

namespace ChainForm

open Switch

/-- The value is written in two ways, and the second label is the one that it is equal to. -/
theorem value_switch_keeps_dispatch_members :
    let source := "a.b === 1 ? p : a . b === 2 ? q : z"
    let n := Node.root Sample.memberNest
    let v := Sample.strictly source
    let replacement := Replacement.text
      "(() => \x7b\nswitch (a.b) \x7b\ncase 1:\nreturn (p)\ncase 2:\nreturn (q)\ndefault:\nreturn (z)\n\x7d\n\x7d)()"
    expression.toSwitchOnValue.run source n = .ok (some replacement) ∧ v.Transparent ∧
      v.ComparesBy (· == ·) ∧
      ∃ chain first value discriminant clauses text, expression.chain? n.tree = some chain ∧
        (∀ branch ∈ chain.branches, branch.condition.operator? = some "===") ∧
        v.Steady source chain.leftOperands ∧
        chain.branches.head? = some first ∧ first.condition.leftOperand? = some value ∧
        value.text source = .ok discriminant ∧ replacement = .text (expression.embed text) ∧
        Switch.print source discriminant clauses = .ok text ∧
        List.Forall₂ expression.WritesOperand chain.arms clauses ∧
        (∀ i, executed (clauses.drop i) = executed clauses[i]?.toList) ∧
        ∃ i choice labels, (∀ c, Takes v .expression n.tree () c ↔ c = choice) ∧
          choice.chosen = chain.arms[i]?.map Arm.body ∧
          List.Forall₂ (fun test label => test.field? "right" = some label) choice.tested labels ∧
          enter v ((v.eval value ()).1 == ·) clauses () = ⟨clauses.drop i, labels, choice.state⟩ ∧
          ∃ body e, choice.chosen = some body ∧ executed (clauses.drop i) = [.result e] ∧
            v.eval e = v.eval body := by
  intro source n v replacement
  have hrun : expression.toSwitchOnValue.run source n = .ok (some replacement) := by
    with_unfolding_all decide
  obtain ⟨chain, first, value, discriminant, clauses, text, hchain, hfirst, hvalue, hdiscriminant,
    htext, hprint, hwrites, hstays, henters⟩ := value_switch_keeps_dispatch expression hrun
  -- what is asked of the tests is checked on the chain of the sample
  have hbranches : ∀ branch ∈ chain.branches, branch.condition.operator? = some "===" ∧
      branch.condition.leftOperand?.all (fun left => left.kind == "member_expression") = true := by
    have hall : ((expression.chain? n.tree).all fun chain => chain.branches.all fun branch =>
        branch.condition.operator? == some "===" &&
          branch.condition.leftOperand?.all fun left =>
            left.kind == "member_expression") = true := by
      with_unfolding_all decide
    simpa [hchain] using hall
  have hstrict : ∀ branch ∈ chain.branches, branch.condition.operator? = some "===" :=
    fun branch hbranch => (hbranches branch hbranch).1
  have hsteady : v.Steady source chain.leftOperands := by
    refine Sample.steady_strictly fun t ht => ?_
    obtain ⟨branch, hbranch, hleft⟩ := List.mem_filterMap.mp ht
    simpa [hleft] using (hbranches branch hbranch).2
  have htransparent := Sample.transparent_strictly source
  have hcompares := Sample.comparesBy_strictly source
  obtain ⟨i, choice, labels, htakes, hchosen, hlabels, henter, hresult⟩ :=
    henters htransparent hcompares hstrict hsteady ()
  exact ⟨hrun, htransparent, hcompares, chain, first, value, discriminant, clauses, text, hchain,
    hstrict, hsteady, hfirst, hvalue, hdiscriminant, htext, hprint, hwrites, hstays, i, choice,
    labels, htakes, hchosen, hlabels, henter, hresult rfl⟩

end ChainForm

end CodeActions
