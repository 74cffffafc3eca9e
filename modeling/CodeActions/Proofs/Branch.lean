import CodeActions.Branch.Conditional
import CodeActions.Branch.If
import CodeActions.Branch.ShortCircuit
import CodeActions.Branch.Swap
import CodeActions.Branch.Switch
import CodeActions.Proofs.Tree.Fits

/-!
# Branches of fitting trees

The shapes that the transforms of branches find in a fitting tree are made of fitting trees, so they
can always be written.

Main statements: `Tree.Fits.ifChain`, `Tree.Fits.ternaryChain`, `Chain.length_labels`, and one
statement `Transform.answers_…` for each transform.
-/

namespace CodeActions

/-! ## §1 Chains -/

/-- The chain is made of fitting trees. -/
structure Chain.Fits (source : String) (c : Chain) : Prop where
  branches : ∀ b ∈ c.branches, b.condition.Fits source ∧ b.body.Fits source
  otherwise : ∀ t ∈ c.otherwise, t.Fits source

theorem Chain.Fits.cons {source : String} {c : Chain} {b : Branch} (h : c.Fits source)
    (hb : b.condition.Fits source ∧ b.body.Fits source) : (c.cons b).Fits source :=
  ⟨List.forall_mem_cons.mpr ⟨hb, h.branches⟩, h.otherwise⟩

theorem Chain.Fits.single {source : String} {b : Branch} {otherwise : Option Tree}
    (hb : b.condition.Fits source ∧ b.body.Fits source) (ho : ∀ t ∈ otherwise, t.Fits source) :
    Chain.Fits source ⟨[b], otherwise⟩ :=
  ⟨by simpa using hb, ho⟩

/-- The sides of a test for equality are its operands, the left one without its parentheses. -/
theorem Tree.sides_of_equality? {t : Tree} {sides : Tree × Tree} (h : t.equality? = some sides) :
    t.kind = "binary_expression" ∧
      ∃ left, t.field? "left" = some left ∧ left.unwrapParens = sides.1 ∧
        t.field? "right" = some sides.2 := by
  obtain ⟨⟨hkind, _⟩, h⟩ := Option.ite_none_right_eq_some.mp h
  obtain ⟨left, hleft, h⟩ := Option.bind_eq_some_iff.mp h
  obtain ⟨right, hright, h⟩ := Option.bind_eq_some_iff.mp h
  cases h
  exact ⟨hkind, left, hleft, rfl, hright⟩

namespace Tree.Fits

variable {source : String} {t : Tree}

/-- The test of a branch comes without its parentheses, its body as it stands. -/
theorem branch (h : t.Fits source) {b : Branch} (hb : t.branch? = some b) :
    b.condition.Fits source ∧ b.body.Fits source := by
  obtain ⟨condition, hcondition, hb⟩ := Option.bind_eq_some_iff.mp hb
  obtain ⟨body, hbody, hb⟩ := Option.bind_eq_some_iff.mp hb
  cases hb
  exact ⟨(h.field hcondition).unwrapParens, h.field hbody⟩

/-- The chain of an `if` in a fitting tree fits. -/
theorem ifChain (h : t.Fits source) {chain : Chain} (hchain : t.ifChain? = some chain) :
    chain.Fits source := by
  fun_induction Tree.ifChain? t generalizing chain with
  | case1 | case3 | case6 => cases hchain
  | case2 t _ b hb _ =>
    cases hchain
    exact .single (h.branch hb) (by simp)
  -- the `else` goes on with another `if`, whose chain is the rest of this one
  | case4 t _ b hb clause hclause statement hstatement _ ih =>
    obtain ⟨rest, hrest, rfl⟩ := Option.map_eq_some_iff.mp hchain
    have hfits : statement.Fits source := (h.field hclause).firstCode hstatement
    exact (ih hfits hrest).cons (h.branch hb)
  | case5 t _ b hb clause hclause statement hstatement _ =>
    cases hchain
    exact .single (h.branch hb) (by simpa using (h.field hclause).firstCode hstatement)

/-- The chain of a conditional expression in a fitting tree fits. -/
theorem ternaryChain (h : t.Fits source) {chain : Chain} (hchain : t.ternaryChain? = some chain) :
    chain.Fits source := by
  fun_induction Tree.ternaryChain? t generalizing chain with
  | case1 | case2 | case5 => cases hchain
  -- the alternative is another conditional expression, perhaps in parentheses
  | case3 t _ b hb alternative halternative _ ih =>
    obtain ⟨rest, hrest, rfl⟩ := Option.map_eq_some_iff.mp hchain
    exact (ih (h.field halternative).unwrapParens hrest).cons (h.branch hb)
  | case4 t _ b hb alternative halternative _ =>
    cases hchain
    exact .single (h.branch hb) (by simpa using h.field halternative)

/-- Both sides of a test for equality fit. -/
theorem equality (h : t.Fits source) {sides : Tree × Tree} (hsides : t.equality? = some sides) :
    sides.1.Fits source ∧ sides.2.Fits source := by
  obtain ⟨_, left, hleft, hvalue, hright⟩ := Tree.sides_of_equality? hsides
  exact ⟨hvalue ▸ (h.field hleft).unwrapParens, h.field hright⟩

end Tree.Fits

/-- A chain of conditional expressions has a test, and something is left when all fail. -/
theorem Tree.of_ternaryChain? {t : Tree} {chain : Chain} (h : t.ternaryChain? = some chain) :
    chain.branches ≠ [] ∧ ∃ last, chain.otherwise = some last := by
  fun_induction Tree.ternaryChain? t generalizing chain with
  | case3 t _ branch _ alternative _ _ ih =>
    -- a nested conditional expression brings what is left at the end
    obtain ⟨inner, hinner, rfl⟩ := Option.map_eq_some_iff.mp h
    exact ⟨by simp [Chain.cons], (ih hinner).2⟩
  | case4 t _ branch _ alternative _ _ =>
    cases h
    exact ⟨by simp, alternative, rfl⟩
  | _ => cases h

namespace Chain

variable {source : String} {chain : Chain}

/-- The two sides of all tests of a chain fit. -/
theorem Fits.equalities (h : chain.Fits source) {sides : List (Tree × Tree)}
    (hsides : (chain.branches.mapM fun branch => branch.condition.equality?) = some sides) :
    ∀ side ∈ sides, side.1.Fits source ∧ side.2.Fits source := by
  intro side hside
  obtain ⟨branch, hbranch, hequality⟩ := exists_of_mem_mapM hsides hside
  exact (h.branches branch hbranch).1.equality hequality

/-- To compare the left sides of the tests their texts are cut out. -/
theorem Fits.equalityTests (h : chain.Fits source) : Succeeds (chain.equalityTests? source) := by
  unfold equalityTests?
  split
  case h_1 | h_2 => exact .pure none
  -- only here is there a text to cut out: every test compares, and there is one
  case h_3 value label rest hsides =>
    obtain ⟨hfirst, hrest⟩ := List.forall_mem_cons.mp (h.equalities hsides)
    have hothers : Succeeds (rest.mapM fun side => side.1.text source) :=
      .mapM fun side hside => (hrest side hside).1.text
    refine hfirst.1.text.bind fun first _ => hothers.bind fun others _ => ?_
    split
    · exact .pure _
    · exact .pure none

/-- The labels are the right sides of the tests, and the value is the left side of the first one. -/
theorem of_equalityTests {tests : EqualityTests}
    (htests : chain.equalityTests? source = .ok (some tests)) :
    ∃ sides, (chain.branches.mapM fun branch => branch.condition.equality?) = some sides ∧
      tests.labels = sides.map Prod.snd ∧ sides.head?.map Prod.fst = some tests.value := by
  unfold equalityTests? at htests
  split at htests
  case h_1 | h_2 => cases htests
  case h_3 value label rest hsides =>
    obtain ⟨first, _, htests⟩ := bind_eq_ok_iff.mp htests
    obtain ⟨others, _, htests⟩ := bind_eq_ok_iff.mp htests
    split at htests
    · cases htests
      exact ⟨_, hsides, rfl, rfl⟩
    · cases htests

/-- There is one label for each branch. -/
theorem length_labels {tests : EqualityTests}
    (htests : chain.equalityTests? source = .ok (some tests)) :
    tests.labels.length = chain.branches.length := by
  obtain ⟨sides, hsides, hlabels, _⟩ := of_equalityTests htests
  rw [hlabels, List.length_map, length_of_mapM hsides]

/-- The value and the labels of a fitting chain fit. -/
theorem Fits.tests (h : chain.Fits source) {tests : EqualityTests}
    (htests : chain.equalityTests? source = .ok (some tests)) :
    tests.value.Fits source ∧ ∀ label ∈ tests.labels, label.Fits source := by
  obtain ⟨sides, hsides, hlabels, hvalue⟩ := of_equalityTests htests
  have hfits := h.equalities hsides
  obtain ⟨first, hfirst, hvalue⟩ := Option.map_eq_some_iff.mp hvalue
  constructor
  · rw [← hvalue]
    exact (hfits first (List.mem_of_mem_head? hfirst)).1
  · rw [hlabels, List.forall_mem_map]
    exact fun side hside => (hfits side hside).2

end Chain

/-! ## §2 Conditional expressions -/

namespace ArmValue

variable {source : String}

/-- The branch evaluates fitting trees. -/
structure Fits (source : String) (v : ArmValue) : Prop where
  effects : ∀ e ∈ v.effects, e.Fits source
  ending : ∀ value, v.ending = .returns (some value) → value.Fits source

/-- What a body comes to as an expression is made of fitting trees. -/
theorem Fits.ofBody {body : Tree} (h : body.Fits source) {v : ArmValue}
    (hv : ofBody? body = some v) : v.Fits source := by
  unfold ofBody? at hv
  split at hv
  case h_1 =>
    cases hv
    exact ⟨by simp, nofun⟩
  case h_2 last hlast =>
    split at hv
    case isTrue =>
      -- the last statement returns, so only those before it are effects
      obtain ⟨effects, heffects, hv⟩ := Option.bind_eq_some_iff.mp hv
      cases hv
      refine ⟨Tree.Fits.expressions (Tree.Fits.dropLast h.statements) heffects, ?_⟩
      intro value hvalue
      exact (Tree.Fits.getLast h.statements hlast).firstCode (Ending.returns.inj hvalue)
    case isFalse =>
      obtain ⟨effects, heffects, hv⟩ := Option.bind_eq_some_iff.mp hv
      cases hv
      exact ⟨Tree.Fits.expressions h.statements heffects, nofun⟩

theorem Fits.render {v : ArmValue} (h : v.Fits source) : Succeeds (v.render source) := by
  have hending : Succeeds (v.endingTexts source) := by
    unfold endingTexts
    split
    case h_1 | h_2 => exact .pure _
    case h_3 value hvalue => exact (h.ending value hvalue).text.bind fun _ _ => .pure _
  refine (Tree.Fits.texts h.effects).bind fun effects _ => hending.bind fun ending _ => ?_
  split
  · exact .pure _
  · exact .pure _

end ArmValue

namespace Conditional

variable {source : String}

/-- The expression is made of fitting trees. -/
structure Fits (source : String) (c : Conditional) : Prop where
  branches : ∀ b ∈ c.branches, b.1.Fits source ∧ b.2.Fits source
  otherwise : ∀ v ∈ c.otherwise, v.Fits source

theorem Fits.ofChain {chain : Chain} (h : chain.Fits source) {c : Conditional}
    (hc : ofChain? chain = some c) : c.Fits source := by
  obtain ⟨branches, hbranches, hc⟩ := Option.bind_eq_some_iff.mp hc
  obtain ⟨otherwise, hotherwise, hc⟩ := Option.bind_eq_some_iff.mp hc
  obtain ⟨first, _, hc⟩ := Option.bind_eq_some_iff.mp hc
  cases hc
  constructor
  · intro b hb
    obtain ⟨branch, hbranch, hvalue⟩ := exists_of_mem_mapM hbranches hb
    obtain ⟨v, hv, hvalue⟩ := Option.bind_eq_some_iff.mp hvalue
    cases hvalue
    exact ⟨(h.branches branch hbranch).1, .ofBody (h.branches branch hbranch).2 hv⟩
  · intro v hv
    -- a value for the `else` comes from a body for it
    cases hbody : chain.otherwise with
    | none =>
      rw [hbody] at hotherwise
      cases hotherwise
      cases hv
    | some body =>
      rw [hbody] at hotherwise
      obtain ⟨v', hv', hsome⟩ := Option.map_eq_some_iff.mp hotherwise
      cases hsome
      cases hv
      exact .ofBody (h.otherwise body hbody) hv'

theorem Fits.render {c : Conditional} (h : c.Fits source) : Succeeds (c.render source) := by
  have hbranches : ∀ b ∈ c.branches, Succeeds (do
      return (← b.1.asOperand source .conditional) ++ " ? " ++ (← b.2.render source) ++ " : ") := by
    intro b hb
    obtain ⟨hcondition, hvalue⟩ := h.branches b hb
    exact (hcondition.asOperand _).bind fun _ _ => hvalue.render.bind fun _ _ => .pure _
  refine (Succeeds.mapM hbranches).bind fun _ _ => ?_
  cases hotherwise : c.otherwise with
  | none => exact .pure _
  | some v => exact (h.otherwise v hotherwise).render.bind fun _ _ => .pure _

end Conditional

/-- A conditional that is found in a fitting `if` is made of fitting trees. -/
theorem Conditional.Fits.ofIf {source : String} {t : Tree} (h : t.Fits source) {c : Conditional}
    (hc : ofIf? t = some c) : c.Fits source := by
  obtain ⟨chain, hchain, hc⟩ := Option.bind_eq_some_iff.mp hc
  obtain ⟨conditional, hconditional, hc⟩ := Option.bind_eq_some_iff.mp hc
  obtain ⟨_, hc⟩ := Option.ite_none_right_eq_some.mp hc
  cases hc
  exact .ofChain (h.ifChain hchain) hconditional

/-- A conditional expression can be written for every chain that may become one, and then be made
safe against its neighbours. -/
theorem Transform.answers_ifToTernary : ifToTernary.Answers := by
  intro source n hn _
  refine Reshaping.succeeds_ofShape fun shape hshape => ?_
  exact (Conditional.Fits.ofIf hn.tree hshape).render.bind fun text _ => hn.guarded text

/-! ## §3 Short circuits -/

/-- Both sides of a short circuit that is found in a fitting `if` fit. -/
theorem ShortCircuit.fits_of_ofIf? {source : String} {t : Tree} (h : t.Fits source)
    {s : ShortCircuit} (hs : ofIf? t = some s) :
    s.left.Fits source ∧ ∀ e ∈ s.right, e.Fits source := by
  unfold ofIf? at hs
  obtain ⟨_, hs⟩ := Option.ite_none_right_eq_some.mp hs
  obtain ⟨condition, hcondition, hs⟩ := Option.bind_eq_some_iff.mp hs
  obtain ⟨body, hbody, hs⟩ := Option.bind_eq_some_iff.mp hs
  obtain ⟨right, hright, hs⟩ := Option.bind_eq_some_iff.mp hs
  have hleft : condition.unwrapParens.Fits source := (h.field hcondition).unwrapParens
  have hexpressions : ∀ e ∈ right, e.Fits source :=
    Tree.Fits.expressions (h.field hbody).statements hright
  obtain ⟨_, hs⟩ := Option.ite_none_left_eq_some.mp hs
  -- of a negated test the operand is taken, which lies one level deeper
  split at hs
  case isTrue =>
    obtain ⟨argument, hargument, hs⟩ := Option.bind_eq_some_iff.mp hs
    cases hs
    exact ⟨hleft.field hargument, hexpressions⟩
  case isFalse =>
    cases hs
    exact ⟨hleft, hexpressions⟩

theorem Transform.succeeds_ifToBinary {source : String} {n : Node} (hn : n.Fits source) :
    Succeeds (ifToBinary.run source n) := by
  refine Reshaping.succeeds_ofShape fun shape hshape => ?_
  obtain ⟨hleft, hright⟩ := ShortCircuit.fits_of_ofIf? hn.tree hshape
  have hrender : Succeeds (shape.render source) :=
    (hleft.asOperand _).bind fun _ _ => (Tree.Fits.joinTexts hright ", ").bind fun _ _ => .pure _
  exact hrender.bind fun text _ => hn.guarded text

theorem Transform.answers_ifToBinary : ifToBinary.Answers := fun _ _ hn _ => succeeds_ifToBinary hn

/-! ## §4 `if` statements -/

/-- The tree that a test is about. -/
def Test.condition : Test → Tree
  | .holds condition => condition
  | .fails condition => condition

/-- The expression on a line. -/
def Line.expression : Line → Tree
  | .statement expression => expression
  | .result expression => expression

namespace IfStatement

variable {source : String}

/-- The statement is made of fitting trees. -/
structure Fits (source : String) (s : IfStatement) : Prop where
  branches : ∀ b ∈ s.branches, b.1.condition.Fits source ∧ ∀ line ∈ b.2, line.expression.Fits source
  otherwise : ∀ lines ∈ s.otherwise, ∀ line ∈ lines, line.expression.Fits source

theorem succeeds_testRender {test : Test} (h : test.condition.Fits source) :
    Succeeds (test.render source) := by
  cases test with
  | holds condition => exact h.text
  | fails condition => exact h.negated "!"

/-- A block of lines can be written, whether they return or not. -/
theorem succeeds_block {lines : List Line} (h : ∀ line ∈ lines, line.expression.Fits source) :
    Succeeds (Line.block source lines) := by
  have hlines : Succeeds (lines.mapM (Line.render source)) := by
    refine .mapM fun line hline => ?_
    have hfits := h line hline
    cases line with
    | statement expression => exact hfits.asStatement
    | result expression => exact hfits.text.bind fun _ _ => .pure _
  exact hlines.bind fun _ _ => .pure _

theorem Fits.render {s : IfStatement} (h : s.Fits source) : Succeeds (s.render source) := by
  have hbranches : ∀ b ∈ s.branches, Succeeds (do
      return "if (" ++ (← b.1.render source) ++ ") " ++ (← Line.block source b.2)) := by
    intro b hb
    obtain ⟨htest, hlines⟩ := h.branches b hb
    exact (succeeds_testRender htest).bind fun _ _ =>
      (succeeds_block hlines).bind fun _ _ => .pure _
  have hotherwise : Succeeds (s.otherwise.toList.mapM (Line.block source)) :=
    .mapM fun lines hlines => succeeds_block (h.otherwise lines (Option.mem_toList.mp hlines))
  exact (Succeeds.mapM hbranches).bind fun _ _ => hotherwise.bind fun _ _ => .pure _

/-- The statements of a branch are the parts of its comma sequence. -/
theorem fits_lines {t : Tree} (h : t.Fits source) :
    ∀ line ∈ lines t, line.expression.Fits source := by
  unfold lines
  rw [List.forall_mem_map]
  exact h.unwrapParens.sequence

/-- So are they if the last of them returns. -/
theorem fits_returningLines {t : Tree} (h : t.Fits source) :
    ∀ line ∈ returningLines t, line.expression.Fits source := by
  -- all elements of the sequence but the last are statements
  have hsequence := h.unwrapParens.sequence
  unfold returningLines
  intro line hline
  rcases List.mem_append.mp hline with hline | hline
  · obtain ⟨e, he, rfl⟩ := List.mem_map.mp hline
    exact Tree.Fits.dropLast hsequence e he
  · obtain ⟨e, he, rfl⟩ := List.mem_map.mp hline
    exact Tree.Fits.getLast hsequence (Option.mem_toList.mp he)

/-- The statement for a chain is made of the trees of the chain. -/
theorem Fits.ofChain {body : Tree → List Line} {chain : Chain} (h : chain.Fits source)
    (hbody : ∀ t : Tree, t.Fits source → ∀ line ∈ body t, line.expression.Fits source) :
    (ofChain body chain).Fits source := by
  constructor
  · unfold IfStatement.ofChain
    rw [List.forall_mem_map]
    exact fun b hb => ⟨(h.branches b hb).1, hbody _ (h.branches b hb).2⟩
  · intro lines hlines
    obtain ⟨t, ht, rfl⟩ := Option.map_eq_some_iff.mp hlines
    exact hbody t (h.otherwise t ht)

theorem fits_dropUndefined {chain : Chain} (h : chain.Fits source) :
    (dropUndefined chain).Fits source :=
  ⟨h.branches, fun t ht => h.otherwise t (Option.filter_eq_some_iff.mp ht).1⟩

/-- The statement for a short circuit tests the left side and holds the parts of the right one. -/
theorem Fits.ofShortCircuit {t : Tree} (h : t.Fits source) {s : IfStatement}
    (hs : ofShortCircuit? t = some s) : s.Fits source := by
  unfold ofShortCircuit? at hs
  obtain ⟨_, hs⟩ := Option.ite_none_right_eq_some.mp hs
  obtain ⟨symbol, _, hs⟩ := Option.bind_eq_some_iff.mp hs
  obtain ⟨operator, _, hs⟩ := Option.bind_eq_some_iff.mp hs
  obtain ⟨left, hleft, hs⟩ := Option.bind_eq_some_iff.mp hs
  obtain ⟨right, hright, hs⟩ := Option.bind_eq_some_iff.mp hs
  cases hs
  refine ⟨?_, by simp⟩
  simp only [List.mem_singleton, forall_eq]
  -- both operators test the left side; they differ in what they ask of it
  refine ⟨?_, fits_lines (h.field hright)⟩
  cases operator with
  | and => exact (h.field hleft).unwrapParens
  | or => exact (h.field hleft).unwrapParens

/-- The statement for a conditional expression is made of the chain without a final `undefined`. -/
theorem Fits.ofTernary {t : Tree} (h : t.Fits source) {s : IfStatement}
    (hs : ofTernary? t = some s) : s.Fits source := by
  obtain ⟨chain, hchain, rfl⟩ := Option.map_eq_some_iff.mp hs
  have hfits : chain.Fits source := h.ternaryChain hchain
  exact .ofChain (fits_dropUndefined hfits) fun t ht => fits_lines ht

/-- The statement for a returned conditional expression returns from each of its branches. -/
theorem Fits.ofReturn {t : Tree} (h : t.Fits source) {s : IfStatement} (hs : ofReturn? t = some s) :
    s.Fits source := by
  unfold ofReturn? at hs
  obtain ⟨_, hs⟩ := Option.ite_none_right_eq_some.mp hs
  obtain ⟨value, hvalue, hs⟩ := Option.bind_eq_some_iff.mp hs
  obtain ⟨chain, hchain, hs⟩ := Option.bind_eq_some_iff.mp hs
  cases hs
  have hfits : chain.Fits source := (h.firstCode hvalue).unwrapParens.ternaryChain hchain
  exact .ofChain hfits fun t ht => fits_returningLines ht

end IfStatement

namespace Transform

theorem answers_binaryToIf : binaryToIf.Answers := by
  intro source n hn _
  exact Reshaping.succeeds_ofShape fun shape hshape =>
    (IfStatement.Fits.ofShortCircuit hn.tree hshape).render

theorem answers_ternaryToIf : ternaryToIf.Answers := by
  intro source n hn _
  exact Reshaping.succeeds_ofShape fun shape hshape =>
    (IfStatement.Fits.ofTernary hn.tree hshape).render

theorem answers_returnTernaryToIf : returnTernaryToIf.Answers := by
  intro source n hn _
  exact Reshaping.succeeds_ofShape fun shape hshape =>
    (IfStatement.Fits.ofReturn hn.tree hshape).render

end Transform

/-! ## §5 Swapped branches -/

namespace TwoBranches

variable {source : String} {t : Tree} {b : TwoBranches}

/-- The three parts fit. -/
structure Fits (source : String) (b : TwoBranches) : Prop where
  condition : b.condition.Fits source
  consequence : b.consequence.Fits source
  alternative : b.alternative.Fits source

theorem Fits.ofTernary (h : t.Fits source) (hb : ofTernary? t = some b) : b.Fits source := by
  unfold ofTernary? at hb
  obtain ⟨_, hb⟩ := Option.ite_none_right_eq_some.mp hb
  obtain ⟨condition, hcondition, hb⟩ := Option.bind_eq_some_iff.mp hb
  obtain ⟨consequence, hconsequence, hb⟩ := Option.bind_eq_some_iff.mp hb
  obtain ⟨alternative, halternative, hb⟩ := Option.bind_eq_some_iff.mp hb
  cases hb
  exact ⟨h.field hcondition, h.field hconsequence, h.field halternative⟩

theorem Fits.ofIf (h : t.Fits source) (hb : ofIf? t = some b) : b.Fits source := by
  unfold ofIf? at hb
  obtain ⟨_, hb⟩ := Option.ite_none_right_eq_some.mp hb
  obtain ⟨clause, hclause, hb⟩ := Option.bind_eq_some_iff.mp hb
  obtain ⟨alternative, halternative, hb⟩ := Option.bind_eq_some_iff.mp hb
  obtain ⟨condition, hcondition, hb⟩ := Option.bind_eq_some_iff.mp hb
  obtain ⟨consequence, hconsequence, hb⟩ := Option.bind_eq_some_iff.mp hb
  cases hb
  exact ⟨h.field hcondition, h.field hconsequence, (h.field hclause).firstCode halternative⟩

end TwoBranches

namespace Transform

theorem answers_swapTernaryBranches : swapTernaryBranches.Answers := by
  intro source n hn _
  refine Reshaping.succeeds_ofShape fun shape hshape => ?_
  have h := TwoBranches.Fits.ofTernary hn.tree hshape
  exact h.condition.text.bind fun _ _ => h.alternative.text.bind fun _ _ =>
    h.consequence.text.bind fun _ _ => .pure _

theorem answers_swapIfElseBranches : swapIfElseBranches.Answers := by
  intro source n hn _
  refine Reshaping.succeeds_ofShape fun shape hshape => ?_
  have h := TwoBranches.Fits.ofIf hn.tree hshape
  exact h.condition.text.bind fun _ _ => h.alternative.text.bind fun _ _ =>
    h.consequence.text.bind fun _ _ => .pure _

end Transform

/-! ## §6 `switch` statements -/

/-- The tree that a section compares with. -/
def CaseTest.label : CaseTest → Tree
  | .truth condition => condition
  | .value label => label

namespace Section

variable {source : String} {s : Section}

/-- The test and the body fit. -/
structure Fits (source : String) (s : Section) : Prop where
  test : ∀ test ∈ s.test, test.label.Fits source
  body : s.body.Fits source

theorem Fits.header (h : s.Fits source) : Succeeds (s.header source) := by
  unfold Section.header
  split
  case h_2 => exact .pure _
  case h_1 test htest =>
    have hrender : Succeeds (test.render source) := by
      have hlabel := h.test test htest
      cases test with
      | truth condition => exact hlabel.asBoolean
      | value label => exact hlabel.text
    exact hrender.bind fun _ _ => .pure _

/-- A section can be written whether its body is a block, empty or a single statement. -/
theorem Fits.renderStatements (h : s.Fits source) : Succeeds (s.renderStatements source) := by
  have hjoined : Succeeds (Tree.joinTexts source "\n" s.body.statements) :=
    Tree.Fits.joinTexts h.body.statements "\n"
  -- all ways to write the body cut out its statements, in one order
  have hstatements : Succeeds (s.statementsText source) := by
    unfold statementsText
    split
    · exact hjoined.bind fun _ _ => .pure _
    · split
      · exact .pure _
      · exact hjoined.bind fun _ _ => .pure _
  exact h.header.bind fun _ _ => hstatements.bind fun _ _ => .pure _

theorem Fits.renderReturn (h : s.Fits source) : Succeeds (s.renderReturn source) :=
  h.header.bind fun _ _ => h.body.unwrapParens.text.bind fun _ _ => .pure _

end Section

namespace Switch

variable {source : String} {s : Switch} {chain : Chain}

/-- The discriminant and the sections fit. -/
structure Fits (source : String) (s : Switch) : Prop where
  discriminant : ∀ value ∈ s.discriminant, value.Fits source
  sections : ∀ section' ∈ s.sections, section'.Fits source

theorem Fits.header (h : s.Fits source) : Succeeds (s.header source) := by
  unfold Switch.header
  cases hvalue : s.discriminant with
  | none => exact .pure _
  | some value => exact (h.discriminant value hvalue).text.bind fun _ _ => .pure _

theorem Fits.renderStatement (h : s.Fits source) : Succeeds (s.renderStatement source) := by
  have hsections : Succeeds (s.sections.mapM (Section.renderStatements source)) :=
    .mapM fun part hpart => (h.sections part hpart).renderStatements
  exact h.header.bind fun _ _ => hsections.bind fun _ _ => .pure _

theorem Fits.renderExpression (h : s.Fits source) : Succeeds (s.renderExpression source) := by
  have hsections : Succeeds (s.sections.mapM (Section.renderReturn source)) :=
    .mapM fun part hpart => (h.sections part hpart).renderReturn
  exact h.header.bind fun _ _ => hsections.bind fun _ _ => .pure _

/-- The default section of a chain. -/
theorem fits_default (h : chain.Fits source) :
    ∀ part ∈ chain.otherwise.toList.map (fun body => (⟨none, body⟩ : Section)),
      part.Fits source := by
  rw [List.forall_mem_map]
  intro body hbody
  exact ⟨by simp, h.otherwise body (Option.mem_toList.mp hbody)⟩

/-- A `switch` on `true` has the tests of the chain for labels. -/
theorem Fits.onTruth (h : chain.Fits source) : (onTruth chain).Fits source := by
  refine ⟨by simp [Switch.onTruth], ?_⟩
  unfold Switch.onTruth
  refine List.forall_mem_append.mpr ⟨?_, fits_default h⟩
  rw [List.forall_mem_map]
  intro b hb
  exact ⟨by simpa [CaseTest.label] using (h.branches b hb).1, (h.branches b hb).2⟩

/-- A `switch` on a value has the right sides of the tests for labels. -/
theorem Fits.onValue (h : chain.Fits source) {tests : EqualityTests}
    (hvalue : tests.value.Fits source) (hlabels : ∀ label ∈ tests.labels, label.Fits source) :
    (onValue tests chain).Fits source := by
  refine ⟨by simpa [Switch.onValue] using hvalue, ?_⟩
  unfold Switch.onValue
  refine List.forall_mem_append.mpr ⟨?_, fits_default h⟩
  -- each section pairs a branch with its label
  rw [← List.map_uncurry_zip_eq_zipWith, List.forall_mem_map]
  rintro ⟨b, label⟩ hmem
  obtain ⟨hb, hlabel⟩ := List.of_mem_zip hmem
  exact ⟨by simpa [CaseTest.label] using hlabels label hlabel, (h.branches b hb).2⟩

theorem ifChain_of_statementChain {t : Tree} (h : statementChain? t = some chain) :
    t.ifChain? = some chain := by
  obtain ⟨chain', hchain', hbreak⟩ := Option.bind_eq_some_iff.mp h
  obtain ⟨_, hsome⟩ := Option.ite_none_left_eq_some.mp hbreak
  cases hsome
  exact hchain'

theorem ternaryChain_of_expressionChain {t : Tree} (h : expressionChain? t = some chain) :
    t.ternaryChain? = some chain :=
  (Option.ite_none_left_eq_some.mp h).2

theorem fits_statementChain {t : Tree} (h : t.Fits source)
    (hchain : statementChain? t = some chain) : chain.Fits source :=
  h.ifChain (ifChain_of_statementChain hchain)

theorem fits_expressionChain {t : Tree} (h : t.Fits source)
    (hchain : expressionChain? t = some chain) : chain.Fits source :=
  h.ternaryChain (ternaryChain_of_expressionChain hchain)

/-- Whatever writes down a fitting `switch` does so for each chain that compares one value. -/
theorem succeeds_reshapeOnValue {chain? : Option Chain} {render : Switch → Cut String}
    (h : ∀ chain ∈ chain?, chain.Fits source) (hrender : ∀ s, s.Fits source → Succeeds (render s)) :
    Succeeds (reshapeOnValue source chain? render) := by
  cases chain? with
  | none => exact .pure none
  | some chain =>
    have hchain : chain.Fits source := h chain rfl
    refine hchain.equalityTests.bind fun tests htests => ?_
    refine Reshaping.succeeds_ofShape fun s hs => hrender s ?_
    -- the tests that were read are the ones that the `switch` is made of
    obtain ⟨tests', rfl, rfl⟩ := Option.map_eq_some_iff.mp hs
    obtain ⟨hvalue, hlabels⟩ := hchain.tests htests
    exact .onValue hchain hvalue hlabels

end Switch

namespace Transform

/-- A `switch` can be written for each `if` that is taken, and for each conditional expression
below. -/
theorem answers_ifToSwitch : ifToSwitch.Answers := by
  intro source n hn _
  refine Reshaping.succeeds_ofShape fun shape hshape => ?_
  obtain ⟨chain, hchain, rfl⟩ := Option.map_eq_some_iff.mp hshape
  exact (Switch.Fits.onTruth (Switch.fits_statementChain hn.tree hchain)).renderStatement

theorem succeeds_ternaryToSwitch {source : String} {n : Node} (hn : n.Fits source) :
    Succeeds (ternaryToSwitch.run source n) := by
  refine Reshaping.succeeds_ofShape fun shape hshape => ?_
  obtain ⟨chain, hchain, rfl⟩ := Option.map_eq_some_iff.mp hshape
  exact (Switch.Fits.onTruth (Switch.fits_expressionChain hn.tree hchain)).renderExpression

theorem answers_ternaryToSwitch : ternaryToSwitch.Answers :=
  fun _ _ hn _ => succeeds_ternaryToSwitch hn

theorem answers_ifToSwitchOnValue : ifToSwitchOnValue.Answers := by
  intro source n hn _
  exact Switch.succeeds_reshapeOnValue
    (fun chain hchain => Switch.fits_statementChain hn.tree hchain)
    fun s hs => hs.renderStatement

theorem answers_ternaryToSwitchOnValue : ternaryToSwitchOnValue.Answers := by
  intro source n hn _
  exact Switch.succeeds_reshapeOnValue
    (fun chain hchain => Switch.fits_expressionChain hn.tree hchain)
    fun s hs => hs.renderExpression

end Transform

end CodeActions
