import CodeActions.Branch.Chain

/-!
# Evaluating tests

What a branch is taken for depends on the values of the tests, and what they are is left open: a
valuation gives each expression a value in each state and may change the state. A few things are
asked of it, which hold of the language: parentheses make no difference, comparisons and negations
give booleans, and a short circuit has the value of one of its sides.

A nest of `if` statements or conditional expressions takes a branch by evaluating its tests from the
outside in, up to the first that holds. The chain of the nest does the same from front to back.

Main statements: `Tree.isBooleanValued_iff`, which expressions are recognized as boolean,
`Valuation.isBoolean_of_givesBoolean`, those expressions have boolean values, and
`ChainForm.Flattens.takes_iff`, a nest takes the branch that its chain takes and no other.
-/

namespace CodeActions

/-! ## §1 Values -/

/-- The value of an expression: a boolean or something else. -/
inductive Value (α : Type) where
  | boolean (b : Bool)
  | other (a : α)
  deriving Repr, DecidableEq

namespace Value

variable {α : Type}

/-- The value is a boolean. -/
def IsBoolean (x : Value α) : Prop := ∃ b, x = boolean b

/-- The value is strictly equal to `true`. -/
def isTrue : Value α → Bool
  | boolean b => b
  | other _ => false

end Value

/-! ### Expressions that give booleans -/

/-- The operators of the language that compare, and so give booleans. -/
def Valuation.comparisons : List String :=
  ["==", "===", "!=", "!==", "<", "<=", ">", ">=", "in", "instanceof"]

namespace Tree

/-- The form of the expression tells that its value is a boolean, whatever its parts evaluate to. -/
inductive GivesBoolean : Tree → Prop where
  | parens {t inner : Tree} (kind : t.kind = "parenthesized_expression")
      (first : t.firstCode? = some inner) (gives : GivesBoolean inner) : GivesBoolean t
  | literal {t : Tree} (kind : t.kind = "true" ∨ t.kind = "false") : GivesBoolean t
  | negation {t : Tree} (kind : t.kind = "unary_expression") (operator : t.operator? = some "!") :
      GivesBoolean t
  | comparison {t : Tree} {symbol : String} (kind : t.kind = "binary_expression")
      (operator : t.operator? = some symbol) (compares : symbol ∈ Valuation.comparisons) :
      GivesBoolean t
  /-- A short circuit has the value of one of its sides, so both of them have to be boolean. -/
  | logical {t left right : Tree} (kind : t.kind = "binary_expression")
      (operator : t.operator? = some "&&" ∨ t.operator? = some "||")
      (hasLeft : t.field? "left" = some left) (hasRight : t.field? "right" = some right)
      (left_gives : GivesBoolean left) (right_gives : GivesBoolean right) : GivesBoolean t

/-- Parentheses neither make a boolean nor hide one. -/
theorem givesBoolean_unwrapParens_iff (t : Tree) :
    t.unwrapParens.GivesBoolean ↔ t.GivesBoolean := by
  refine iff_of_eq (apply_unwrapParens (fun t inner hkind hinner => propext ?_) t)
  constructor
  · intro h
    -- parentheses are none of the other forms
    cases h with
    | parens _ hinner' h =>
      cases hinner.symm.trans hinner'
      exact h
    | literal hkind' => simp [hkind] at hkind'
    | negation hkind' | comparison hkind' | logical hkind' => simp [hkind] at hkind'
  · exact .parens hkind hinner

/-- Parentheses are not looked at. -/
theorem isBooleanValued_of_parens {t inner : Tree} (hkind : t.kind = "parenthesized_expression")
    (hinner : t.firstCode? = some inner) : t.isBooleanValued = inner.isBooleanValued := by
  rw [isBooleanValued, unwrapParens_of_firstCode? hkind hinner, ← isBooleanValued]

/-- A short circuit is recognized exactly if both of its sides are. -/
theorem isBooleanValued_of_logical {t left right : Tree} (hkind : t.kind = "binary_expression")
    (hoperator : t.operator? = some "&&" ∨ t.operator? = some "||")
    (hleft : t.field? "left" = some left) (hright : t.field? "right" = some right) :
    t.isBooleanValued = (left.isBooleanValued && right.isBooleanValued) := by
  rw [isBooleanValued, unwrapParens_of_kind_ne (by simp [hkind])]
  -- neither of the two operators compares
  rcases hoperator with hoperator | hoperator
  all_goals
    simp [hkind, hoperator, comparisonOperators]
    split <;> simp_all

/-- An expression is recognized as boolean exactly if it is of one of the forms. -/
theorem isBooleanValued_iff {t : Tree} : t.isBooleanValued = true ↔ t.GivesBoolean := by
  rw [← givesBoolean_unwrapParens_iff]
  constructor
  · -- each way to be recognized is one of the forms, read off inside of the parentheses
    intro h
    fun_induction isBooleanValued t with
    | case1 t inner hliteral => exact .literal hliteral
    | case2 t inner _ hkind => exact .negation hkind (beq_iff_eq.mp h)
    | case4 t inner _ _ hkind operator hoperator hcomparison =>
      have hsubset : ∀ operator ∈ comparisonOperators, operator ∈ Valuation.comparisons := by decide
      exact .comparison hkind hoperator (hsubset operator (List.contains_iff_mem.mp hcomparison))
    | case5 t inner _ _ hkind operator hoperator _ hlogical left right hleft hright ihleft
        ihright =>
      obtain ⟨hboolean, hboolean'⟩ := Bool.and_eq_true_iff.mp h
      have hsymbol : inner.operator? = some "&&" ∨ inner.operator? = some "||" := by
        rcases hlogical with rfl | rfl
        · exact .inl hoperator
        · exact .inr hoperator
      exact .logical hkind hsymbol hleft hright
        ((givesBoolean_unwrapParens_iff left).mp (ihleft hboolean))
        ((givesBoolean_unwrapParens_iff right).mp (ihright hboolean'))
    | _ => cases h
  · -- each form is recognized, by induction since the sides of a short circuit are of some form
    -- again
    rw [givesBoolean_unwrapParens_iff]
    intro h
    induction h with
    | parens kind first _ ih =>
      rw [isBooleanValued_of_parens kind first]
      exact ih
    | @literal t kind =>
      rw [isBooleanValued, unwrapParens_of_kind_ne (by rcases kind with h | h <;> simp [h])]
      simp [kind]
    | negation kind operator =>
      rw [isBooleanValued, unwrapParens_of_kind_ne (by simp [kind])]
      simp [kind, operator]
    | @comparison t symbol kind operator compares =>
      have hsubset : ∀ operator ∈ Valuation.comparisons, operator ∈ comparisonOperators := by decide
      rw [isBooleanValued, unwrapParens_of_kind_ne (by simp [kind])]
      simp [kind, operator, hsubset symbol compares]
    | logical kind operator hasLeft hasRight _ _ ihleft ihright =>
      rw [isBooleanValued_of_logical kind operator hasLeft hasRight, ihleft, ihright]
      rfl

end Tree

/-! ### Valuations -/

/-- How expressions are evaluated, in states that evaluation may change. -/
structure Valuation (α σ : Type) where
  /-- Which of the values that are no booleans count as true in a test. -/
  counts : α → Bool
  /-- The value of an expression in a state, and the state behind it. -/
  eval : Tree → σ → Value α × σ

namespace Valuation

variable {α σ : Type} (v : Valuation α σ)

/-- The value counts as true in a test. -/
def holds : Value α → Bool
  | .boolean b => b
  | .other a => v.counts a

/-- What a `!` makes of a value. -/
def negate (x : Value α) : Value α := .boolean (!v.holds x)

/-- Parentheses make no difference. -/
def Transparent : Prop :=
  ∀ ⦃t inner : Tree⦄, t.kind = "parenthesized_expression" → t.firstCode? = some inner →
    v.eval t = v.eval inner

/-- What is asked of a valuation. -/
structure Lawful : Prop where
  parens : ∀ {t inner : Tree}, t.kind = "parenthesized_expression" → t.firstCode? = some inner →
    v.eval t = v.eval inner
  literal : ∀ {t : Tree}, t.kind = "true" ∨ t.kind = "false" → ∀ s, (v.eval t s).1.IsBoolean
  negation : ∀ {t : Tree}, t.kind = "unary_expression" → t.operator? = some "!" →
    ∀ s, (v.eval t s).1.IsBoolean
  comparison : ∀ {t : Tree} {operator : String}, t.kind = "binary_expression" →
    t.operator? = some operator → operator ∈ comparisons → ∀ s, (v.eval t s).1.IsBoolean
  /-- A short circuit has the value that one of its sides has in some state. -/
  logical : ∀ {t left right : Tree}, t.kind = "binary_expression" →
    t.operator? = some "&&" ∨ t.operator? = some "||" → t.field? "left" = some left →
    t.field? "right" = some right →
    ∀ s, ∃ s', (v.eval t s).1 = (v.eval left s').1 ∨ (v.eval t s).1 = (v.eval right s').1

variable {v}

theorem Lawful.transparent (hv : v.Lawful) : v.Transparent := fun _ _ => hv.parens

theorem Transparent.eval_unwrapParens (hv : v.Transparent) (t : Tree) :
    v.eval t.unwrapParens = v.eval t :=
  Tree.apply_unwrapParens hv t

theorem eval_unwrapParens (hv : v.Lawful) (t : Tree) : v.eval t.unwrapParens = v.eval t :=
  hv.transparent.eval_unwrapParens t

/-- An expression of one of the forms that give a boolean has a boolean value. -/
theorem isBoolean_of_givesBoolean (hv : v.Lawful) {t : Tree} (h : t.GivesBoolean) (s : σ) :
    (v.eval t s).1.IsBoolean := by
  induction h generalizing s with
  | parens kind inner _ ih =>
    rw [hv.parens kind inner]
    exact ih s
  | literal kind => exact hv.literal kind s
  | negation kind operator => exact hv.negation kind operator s
  | comparison kind operator compares => exact hv.comparison kind operator compares s
  | logical kind operator left right _ _ ihleft ihright =>
    -- the value is that of one of the sides, and both sides are boolean in every state
    obtain ⟨s', hvalue | hvalue⟩ := hv.logical kind operator left right s
    · rw [hvalue]
      exact ihleft s'
    · rw [hvalue]
      exact ihright s'

/-- A `!!` makes a value the boolean that it counts as. -/
theorem isTrue_negate_negate (x : Value α) : (v.negate (v.negate x)).isTrue = v.holds x := by
  simp [negate, holds, Value.isTrue]

/-- A boolean counts as true exactly if it is `true`. -/
theorem holds_eq_isTrue {x : Value α} (h : x.IsBoolean) : v.holds x = x.isTrue := by
  obtain ⟨b, rfl⟩ := h
  rfl

end Valuation

/-! ## §2 Nests -/

/-- The two kinds of nests that chains are made of. -/
inductive ChainForm where
  /-- An `if` statement. -/
  | statement
  /-- A conditional expression. -/
  | expression
  deriving Repr, DecidableEq

namespace ChainForm

/-- The construct that is nested. -/
def kind : ChainForm → String
  | statement => "if_statement"
  | expression => "ternary_expression"

/-- The chain of the nest. -/
def chain? (t : Tree) : ChainForm → Option Chain
  | statement => t.ifChain?
  | expression => t.ternaryChain?

/-- What is done when the test fails: the statement of the `else`, or the last expression. -/
def alternative? (t : Tree) : ChainForm → Option Tree
  | statement => (t.field? "alternative").bind Tree.firstCode?
  | expression => t.field? "alternative"

/-- Where the nest goes on in it. Parentheses do not end a nest of expressions. -/
def inside (other : Tree) : ChainForm → Tree
  | statement => other
  | expression => other.unwrapParens

/-- How a nest becomes a chain, level by level. -/
inductive Flattens (form : ChainForm) : Tree → Chain → Prop where
  | alone {t : Tree} {first : Branch} (branch : t.branch? = some first)
      (nothing : t.field? "alternative" = none) : Flattens form t ⟨[first], none⟩
  | last {t other : Tree} {first : Branch} (branch : t.branch? = some first)
      (alternative : form.alternative? t = some other)
      (ends : (form.inside other).kind ≠ form.kind) : Flattens form t ⟨[first], some other⟩
  | more {t other : Tree} {first : Branch} {chain : Chain} (branch : t.branch? = some first)
      (alternative : form.alternative? t = some other)
      (goesOn : (form.inside other).kind = form.kind)
      (rest : Flattens form (form.inside other) chain) : Flattens form t (chain.cons first)

theorem flattens_of_ifChain? {t : Tree} {chain : Chain} (h : t.ifChain? = some chain) :
    statement.Flattens t chain := by
  -- the cases that are left out give no chain: no `if`, or a part of it is missing
  fun_induction Tree.ifChain? t generalizing chain with
  | case2 t _ branch hbranch hnone =>
    cases h
    exact .alone hbranch hnone
  | case4 t _ branch hbranch clause hclause other hother hnested ih =>
    obtain ⟨inner, hinner, rfl⟩ := Option.map_eq_some_iff.mp h
    have halternative : statement.alternative? t = some other := by
      simp [alternative?, hclause, hother]
    exact .more hbranch halternative hnested (ih hinner)
  | case5 t _ branch hbranch clause hclause other hother hlast =>
    cases h
    have halternative : statement.alternative? t = some other := by
      simp [alternative?, hclause, hother]
    exact .last hbranch halternative hlast
  | _ => cases h

/-- One level of an `if` statement that has an `else`. -/
theorem ifChain?_of_alternative {t other : Tree} {first : Branch} (hkind : t.kind = "if_statement")
    (hbranch : t.branch? = some first) (hother : statement.alternative? t = some other) :
    t.ifChain? =
      if other.kind = "if_statement" then other.ifChain?.map (·.cons first)
      else some ⟨[first], some other⟩ := by
  obtain ⟨clause, hclause, hother⟩ := Option.bind_eq_some_iff.mp hother
  -- the definition matches on hypotheses, so the alternatives are ruled out one by one
  rw [Tree.ifChain?, if_pos hkind, hbranch]
  simp only
  split
  case h_1 hnone => cases hnone.symm.trans hclause
  case h_2 clause' hclause' =>
    cases hclause.symm.trans hclause'
    split
    case h_1 hnone => cases hnone.symm.trans hother
    case h_2 other' hother' =>
      cases hother.symm.trans hother'
      rfl

/-- An `if` statement that can be taken apart level by level has a chain. -/
theorem ifChain?_of_flattens {t : Tree} {chain : Chain} (hkind : t.kind = "if_statement")
    (h : statement.Flattens t chain) : t.ifChain? = some chain := by
  induction h with
  | alone branch nothing =>
    rw [Tree.ifChain?, if_pos hkind, branch]
    simp only
    split
    case h_1 => rfl
    case h_2 clause hclause => cases nothing.symm.trans hclause
  | last branch alternative ends =>
    rw [ifChain?_of_alternative hkind branch alternative]
    exact if_neg ends
  | @more t other first chain branch alternative goesOn rest ih =>
    have hinner : other.ifChain? = some chain := ih goesOn
    rw [ifChain?_of_alternative hkind branch alternative, hinner]
    exact if_pos goesOn

theorem flattens_of_ternaryChain? {t : Tree} {chain : Chain} (h : t.ternaryChain? = some chain) :
    expression.Flattens t chain := by
  fun_induction Tree.ternaryChain? t generalizing chain with
  | case3 t _ branch hbranch other hother hnested ih =>
    obtain ⟨inner, hinner, rfl⟩ := Option.map_eq_some_iff.mp h
    have halternative : expression.alternative? t = some other := hother
    exact .more hbranch halternative hnested (ih hinner)
  | case4 t _ branch hbranch other hother hlast =>
    cases h
    have halternative : expression.alternative? t = some other := hother
    exact .last hbranch halternative hlast
  | _ => cases h

/-- One level of a conditional expression. -/
theorem ternaryChain?_of_alternative {t other : Tree} {first : Branch}
    (hkind : t.kind = "ternary_expression") (hbranch : t.branch? = some first)
    (hother : expression.alternative? t = some other) :
    t.ternaryChain? =
      if other.unwrapParens.kind = "ternary_expression" then
        other.unwrapParens.ternaryChain?.map (·.cons first)
      else some ⟨[first], some other⟩ := by
  rw [Tree.ternaryChain?, if_pos hkind, hbranch]
  simp only
  split
  case h_1 hnone => cases hnone.symm.trans hother
  case h_2 other' hother' =>
    cases hother.symm.trans hother'
    rfl

/-- A conditional expression that can be taken apart level by level, up to what is left, has a
chain. -/
theorem ternaryChain?_of_flattens {t last : Tree} {chain : Chain}
    (hkind : t.kind = "ternary_expression") (h : expression.Flattens t chain)
    (hlast : chain.otherwise = some last) : t.ternaryChain? = some chain := by
  induction h with
  -- a conditional expression always has a last part
  | alone => cases hlast
  | last branch alternative ends =>
    rw [ternaryChain?_of_alternative hkind branch alternative]
    exact if_neg ends
  | @more t other first chain branch alternative goesOn rest ih =>
    have hinner : other.unwrapParens.ternaryChain? = some chain := ih goesOn hlast
    rw [ternaryChain?_of_alternative hkind branch alternative, hinner]
    exact if_pos goesOn

theorem flattens_of_chain? {t : Tree} {chain : Chain} {form : ChainForm}
    (h : form.chain? t = some chain) : form.Flattens t chain := by
  cases form with
  | statement => exact flattens_of_ifChain? h
  | expression => exact flattens_of_ternaryChain? h

end ChainForm

/-! ## §3 Branches that are taken -/

/-- What is chosen after some tests, with the tests that were evaluated for it and the state behind
them. -/
structure Choice (β σ : Type) where
  chosen : β
  /-- In the order of evaluation, without parentheses around them. -/
  tested : List Tree
  state : σ

/-- The choice after one more test, which comes first. -/
def Choice.after {β σ : Type} (test : Tree) (c : Choice β σ) : Choice β σ :=
  { c with tested := test :: c.tested }

section

variable {α σ : Type} (v : Valuation α σ)

/-- Which branch a nest takes. The tests are evaluated from the outside in, up to the first that
holds. -/
inductive Takes (form : ChainForm) : Tree → σ → Choice (Option Tree) σ → Prop where
  | holds {t test body : Tree} {s : σ} (condition : t.field? "condition" = some test)
      (consequence : t.field? "consequence" = some body)
      (holds : v.holds (v.eval test s).1 = true) :
      Takes form t s ⟨some body, [test.unwrapParens], (v.eval test s).2⟩
  | nothing {t test : Tree} {s : σ} (condition : t.field? "condition" = some test)
      (fails : v.holds (v.eval test s).1 = false) (nothing : t.field? "alternative" = none) :
      Takes form t s ⟨none, [test.unwrapParens], (v.eval test s).2⟩
  | otherwise {t test other : Tree} {s : σ} (condition : t.field? "condition" = some test)
      (fails : v.holds (v.eval test s).1 = false) (alternative : form.alternative? t = some other)
      (ends : (form.inside other).kind ≠ form.kind) :
      Takes form t s ⟨some other, [test.unwrapParens], (v.eval test s).2⟩
  | next {t test other : Tree} {s : σ} {c : Choice (Option Tree) σ}
      (condition : t.field? "condition" = some test)
      (fails : v.holds (v.eval test s).1 = false) (alternative : form.alternative? t = some other)
      (goesOn : (form.inside other).kind = form.kind)
      (rest : Takes form (form.inside other) (v.eval test s).2 c) :
      Takes form t s (c.after test.unwrapParens)

/-- Which branch a list of branches takes: the first whose test holds, else what is left. -/
def choose (otherwise : Option Tree) : List Branch → σ → Choice (Option Tree) σ
  | [], s => ⟨otherwise, [], s⟩
  | branch :: branches, s =>
    if v.holds (v.eval branch.condition s).1 then
      ⟨some branch.body, [branch.condition.unwrapParens], (v.eval branch.condition s).2⟩
    else
      (choose otherwise branches (v.eval branch.condition s).2).after branch.condition.unwrapParens

/-- Which branch a chain takes. -/
def Chain.choose (chain : Chain) (s : σ) : Choice (Option Tree) σ :=
  CodeActions.choose v chain.otherwise chain.branches s

/-- A chain with something left always takes a branch. -/
theorem isSome_chosen {chain : Chain} {last : Tree} (h : chain.otherwise = some last) (s : σ) :
    (chain.choose v s).chosen.isSome = true := by
  unfold Chain.choose
  rw [h]
  -- each test that fails leaves another state
  induction chain.branches generalizing s with
  | nil => rfl
  | cons branch branches ih =>
    simp only [choose]
    split
    case isTrue => rfl
    case isFalse => exact ih _

variable {v}

/-! ### Each level on its own -/

section

variable {form : ChainForm} {t test body other : Tree} {s : σ} {c : Choice (Option Tree) σ}

theorem ChainForm.alternative?_eq_none (hnone : t.field? "alternative" = none) :
    form.alternative? t = none := by
  cases form <;> simp [alternative?, hnone]

/-- A test that holds decides for the body. -/
theorem takes_iff_of_holds (hcondition : t.field? "condition" = some test)
    (hconsequence : t.field? "consequence" = some body)
    (hholds : v.holds (v.eval test s).1 = true) :
    Takes v form t s c ↔ c = ⟨some body, [test.unwrapParens], (v.eval test s).2⟩ := by
  constructor
  · intro h
    cases h <;> simp_all
  · rintro rfl
    exact .holds hcondition hconsequence hholds

/-- A test that fails decides for nothing if there is no `else`. -/
theorem takes_iff_of_nothing (hcondition : t.field? "condition" = some test)
    (hfails : v.holds (v.eval test s).1 = false) (hnone : t.field? "alternative" = none) :
    Takes v form t s c ↔ c = ⟨none, [test.unwrapParens], (v.eval test s).2⟩ := by
  constructor
  · intro h
    have halternative : form.alternative? t = none := ChainForm.alternative?_eq_none hnone
    cases h <;> simp_all
  · rintro rfl
    exact .nothing hcondition hfails hnone

/-- A test that fails decides for what is left where the nest ends. -/
theorem takes_iff_of_otherwise (hcondition : t.field? "condition" = some test)
    (hfails : v.holds (v.eval test s).1 = false) (halternative : form.alternative? t = some other)
    (hends : (form.inside other).kind ≠ form.kind) :
    Takes v form t s c ↔ c = ⟨some other, [test.unwrapParens], (v.eval test s).2⟩ := by
  constructor
  · intro h
    cases h with
    | nothing _ _ hnone => cases halternative.symm.trans (ChainForm.alternative?_eq_none hnone)
    | _ => simp_all
  · rintro rfl
    exact .otherwise hcondition hfails halternative hends

/-- A test that fails passes the question on where the nest goes on. -/
theorem takes_iff_of_next (hcondition : t.field? "condition" = some test)
    (hfails : v.holds (v.eval test s).1 = false) (halternative : form.alternative? t = some other)
    (hgoesOn : (form.inside other).kind = form.kind) :
    Takes v form t s c ↔
      ∃ c', Takes v form (form.inside other) (v.eval test s).2 c' ∧
        c = c'.after test.unwrapParens := by
  constructor
  · intro h
    cases h with
    | nothing _ _ hnone => cases halternative.symm.trans (ChainForm.alternative?_eq_none hnone)
    | next hcondition' _ halternative' _ hrest =>
      cases hcondition.symm.trans hcondition'
      cases halternative.symm.trans halternative'
      exact ⟨_, hrest, rfl⟩
    | _ => simp_all
  · rintro ⟨c', hrest, rfl⟩
    exact .next hcondition hfails halternative hgoesOn hrest

end

/-! ### The whole nest -/

theorem Tree.of_branch? {t : Tree} {branch : Branch} (h : t.branch? = some branch) :
    ∃ test, t.field? "condition" = some test ∧ branch.condition = test.unwrapParens ∧
      t.field? "consequence" = some branch.body := by
  obtain ⟨test, htest, h⟩ := Option.bind_eq_some_iff.mp h
  obtain ⟨body, hbody, h⟩ := Option.bind_eq_some_iff.mp h
  cases h
  exact ⟨test, htest, rfl, hbody⟩

/-- A nest takes the branch that its chain takes, and no other. It is enough that parentheses make
no difference. -/
theorem ChainForm.Flattens.takes_iff_of_transparent (hv : v.Transparent) {form : ChainForm}
    {t : Tree} {chain : Chain} (h : form.Flattens t chain) (s : σ) (c : Choice (Option Tree) σ) :
    Takes v form t s c ↔ c = chain.choose v s := by
  -- level by level: at each one the test is evaluated without its parentheses, which makes no
  -- difference
  induction h generalizing s c with
  | alone branch nothing =>
    obtain ⟨test, hcondition, htest, hbody⟩ := Tree.of_branch? branch
    simp only [Chain.choose, choose, htest, hv.eval_unwrapParens,
      Tree.unwrapParens_unwrapParens]
    split
    case isTrue hholds => exact takes_iff_of_holds hcondition hbody hholds
    case isFalse hfails =>
      exact takes_iff_of_nothing hcondition (Bool.not_eq_true _ ▸ hfails) nothing
  | last branch alternative ends =>
    obtain ⟨test, hcondition, htest, hbody⟩ := Tree.of_branch? branch
    simp only [Chain.choose, choose, htest, hv.eval_unwrapParens,
      Tree.unwrapParens_unwrapParens]
    split
    case isTrue hholds => exact takes_iff_of_holds hcondition hbody hholds
    case isFalse hfails =>
      exact takes_iff_of_otherwise hcondition (Bool.not_eq_true _ ▸ hfails) alternative ends
  | more branch alternative goesOn rest ih =>
    obtain ⟨test, hcondition, htest, hbody⟩ := Tree.of_branch? branch
    simp only [Chain.choose, Chain.cons, choose, htest, hv.eval_unwrapParens,
      Tree.unwrapParens_unwrapParens]
    split
    case isTrue hholds => exact takes_iff_of_holds hcondition hbody hholds
    case isFalse hfails =>
      -- the nest goes on from the state that the failed test has left, as the chain does
      rw [takes_iff_of_next hcondition (Bool.not_eq_true _ ▸ hfails) alternative goesOn]
      simp only [ih, exists_eq_left, Chain.choose]

theorem ChainForm.Flattens.takes_iff (hv : v.Lawful) {form : ChainForm} {t : Tree} {chain : Chain}
    (h : form.Flattens t chain) (s : σ) (c : Choice (Option Tree) σ) :
    Takes v form t s c ↔ c = chain.choose v s :=
  h.takes_iff_of_transparent hv.transparent s c

end

end CodeActions
