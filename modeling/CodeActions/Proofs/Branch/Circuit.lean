import CodeActions.Branch.If
import CodeActions.Proofs.Branch.Sequence

/-!
# Short circuits and `if` statements

`left && right` evaluates its right side exactly if the left one holds, `left || right` exactly if
it does not. An `if` whose body consists of expressions is written as a short circuit with the
expressions on the right, and a short circuit is written as an `if` with the elements of its right
side for a body. A negation in front of the test decides between the two operators, so in both
directions a `!` has to come and go with the operator.

The body of the `if` is taken for the statements that are written, one to a line. Whether a line
goes on with the line before is a question of its own, see `CodeActions.Proofs.Branch.Lines`.

Main statement: `Transform.short_circuits_run_same_expressions`, in both directions the same
expressions are evaluated in the same order, or none of them.
-/

namespace CodeActions

/-! ## §1 Operators and negation -/

/-- The expression is a negation. -/
def Tree.IsNegation (t : Tree) : Prop := t.kind = "unary_expression" ∧ t.operator? = some "!"

/-- A negation holds exactly if what it negates does not. -/
def Valuation.Negates {α σ : Type} (v : Valuation α σ) : Prop :=
  ∀ ⦃t argument : Tree⦄, t.IsNegation → t.field? "argument" = some argument →
    ∀ s, v.holds (v.eval t s).1 = !v.holds (v.eval argument s).1

/-- A negation does nothing but to evaluate what it negates. -/
def Valuation.NegatesOnly {α σ : Type} (v : Valuation α σ) : Prop :=
  ∀ ⦃t argument : Tree⦄, t.IsNegation → t.field? "argument" = some argument →
    ∀ s, (v.eval t s).2 = (v.eval argument s).2

namespace Logical

/-- Whether the right side is evaluated, given whether the left one holds. -/
def goesOn : Logical → Bool → Bool
  | and, holds => holds
  | or, holds => !holds

/-- The evaluation of a short circuit. -/
def eval {α σ : Type} (v : Valuation α σ) (operator : Logical) (left right : Tree) (s : σ) :
    Value α × σ :=
  if operator.goesOn (v.holds (v.eval left s).1) then v.eval right (v.eval left s).2
  else v.eval left s

/-- The operators that need parentheses on the left of this one. -/
def looser : Logical → List String
  | and => ["||", "??"]
  | or => ["??"]

/-- An operator is known by its symbol. -/
theorem symbol_of_ofSymbol? {symbol : String} {operator : Logical}
    (h : ofSymbol? symbol = some operator) : symbol = operator.symbol := by
  unfold ofSymbol? at h
  split at h
  case isTrue hand =>
    cases h
    exact hand
  case isFalse =>
    obtain ⟨hor, h⟩ := Option.ite_none_right_eq_some.mp h
    cases h
    exact hor

end Logical

/-! ## §2 A short circuit that is written -/

/-- A short circuit around expressions of the text. -/
structure Circuit where
  operator : Logical
  left : Expression
  right : Expression

namespace Circuit

/-- The printed form. -/
def print (source : String) (c : Circuit) : Cut String := do
  return (← c.left.print source) ++ " " ++ c.operator.symbol ++ " " ++ (← c.right.print source)

/-- The evaluation: first the left side, and the right one if the operator goes on. -/
def run {α σ : Type} (v : Valuation α σ) (nothing : Value α) (c : Circuit) (s : σ) :
    Outcome (Value α) σ :=
  let first := c.left.run v nothing s
  if c.operator.goesOn (v.holds first.value) then
    (c.right.run v nothing first.state).after first.evaluated
  else first

/-- The printed form does not fall apart in another way: on the left stands nothing that binds
looser than the operator, on the right nothing that binds looser than any. -/
structure Delimited (c : Circuit) : Prop where
  left : c.left.looseness = 0 ∧ c.left.Delimited
  leftOperator : ∀ t symbol, c.left = .tree t → t.kind = "binary_expression" →
    t.operator? = some symbol → symbol ∉ c.operator.looser
  right : c.right.looseness = 0 ∧ c.right.Delimited

/-- `left && (e₁, …, eₙ)` or `left || (e₁, …, eₙ)`. -/
def ofExpressions (operator : Logical) (inParens : Bool) (left first : Tree) (rest : List Tree) :
    Circuit where
  operator := operator
  left := .wrapped inParens left
  right := .parens (.sequence (.tree first) (rest.map .tree))

variable {source text : String} {operator : Logical} {left first : Tree} {rest : List Tree}

/-- The left side is evaluated, and then the elements or nothing. -/
theorem run_ofExpressions {α σ : Type} {v : Valuation α σ} (nothing : Value α) (inParens : Bool)
    (s : σ) :
    (ofExpressions operator inParens left first rest).run v nothing s =
      if operator.goesOn (v.holds (v.eval left s).1) then
        ⟨(v.evalFrom (first :: rest) (nothing, (v.eval left s).2)).1, left :: first :: rest,
          v.stateAfter (first :: rest) (v.eval left s).2⟩
      else v.outcome left s := by
  simp only [run, ofExpressions, Expression.run_wrapped, Expression.run, Expression.run_sequence]
  rfl

/-- A left operand is in parentheses where it has to be. -/
theorem delimited_ofExpressions (operator : Logical) (left first : Tree) (rest : List Tree) :
    (ofExpressions operator (left.bindsLooser operator.operandOf) left first rest).Delimited := by
  -- the list of the code is the same as the one of the language
  have hlooser : ∀ symbol ∈ operator.looser, symbol ∈ operator.operandOf.looserOperators := by
    cases operator <;> exact fun _ h => h
  refine ⟨⟨?_, Expression.delimited_wrapped left⟩, ?_, rfl, ?_⟩
  · exact Expression.looseness_operand left operator.operandOf
  · intro t symbol ht hkind hsymbol hmem
    -- without parentheses the operator has been compared with those that are looser
    cases hbinds : left.bindsLooser operator.operandOf with
    | true => simp [ofExpressions, Expression.wrapped, hbinds] at ht
    | false =>
      obtain rfl : left = t := by simpa [ofExpressions, Expression.wrapped, hbinds] using ht
      simp [Tree.bindsLooser, hkind, hsymbol, hlooser symbol hmem] at hbinds
  · exact Expression.sequence_induction (fun h h' => ⟨h, h'⟩) trivial
      (by simp [Expression.Delimited])

end Circuit

namespace ShortCircuit

variable {t : Tree} {s : ShortCircuit}

/-- Which operator a test needs, and what is left of the test: a negation is taken away and makes an
`||`. -/
inductive Tests : Tree → Logical → Tree → Prop where
  | plain {test : Tree} (h : ¬ test.IsNegation) : Tests test .and test
  | negated {test argument : Tree} (h : test.IsNegation)
      (h' : test.field? "argument" = some argument) : Tests test .or argument

/-- The right side is evaluated exactly if the test holds. -/
theorem Tests.goesOn_eq {α σ : Type} {v : Valuation α σ} (hv : v.Negates) {test left : Tree}
    {operator : Logical} (h : Tests test operator left) (s : σ) :
    operator.goesOn (v.holds (v.eval left s).1) = v.holds (v.eval test s).1 := by
  cases h with
  | plain => rfl
  | negated h h' => exact (hv h h' s).symm

/-- What is left of the test ends in the same state, if a `!` is no effect. -/
theorem Tests.state_eq {α σ : Type} {v : Valuation α σ} (hv : v.NegatesOnly) {test left : Tree}
    {operator : Logical} (h : Tests test operator left) (s : σ) :
    (v.eval left s).2 = (v.eval test s).2 := by
  cases h with
  | plain => rfl
  | negated h h' => exact (hv h h' s).symm

/-- An `if` is taken for a short circuit if it has no `else` and its body is a run of
expressions. -/
theorem ofIf?_eq_some_iff : ofIf? t = some s ↔
    t.kind = "if_statement" ∧ t.field? "alternative" = none ∧
      ∃ test body, t.field? "condition" = some test ∧ t.field? "consequence" = some body ∧
        Runs body.statements s.right .falls ∧ s.right ≠ [] ∧
        Tests test.unwrapParens s.operator s.left := by
  obtain ⟨operator, left, right⟩ := s
  simp only [Runs.falls_iff]
  constructor
  · intro h
    unfold ofIf? at h
    obtain ⟨⟨hkind, hnone⟩, h⟩ := Option.ite_none_right_eq_some.mp h
    obtain ⟨test, htest, h⟩ := Option.bind_eq_some_iff.mp h
    obtain ⟨body, hbody, h⟩ := Option.bind_eq_some_iff.mp h
    obtain ⟨es, hes, h⟩ := Option.bind_eq_some_iff.mp h
    obtain ⟨hne, h⟩ := Option.ite_none_left_eq_some.mp h
    have hes' : es ≠ [] := by simpa using hne
    refine ⟨hkind, by simpa using hnone, test, body, htest, hbody, ?_⟩
    -- all but the operator is settled, and that is for the test to say
    split at h
    case isTrue hnegation =>
      obtain ⟨argument, hargument, h⟩ := Option.bind_eq_some_iff.mp h
      cases h
      exact ⟨hes, hes', .negated hnegation hargument⟩
    case isFalse hplain =>
      cases h
      exact ⟨hes, hes', .plain hplain⟩
  · -- the conditions are met one after the other, and the last one gives the operator
    rintro ⟨hkind, hnone, test, body, htest, hbody, hes, hne, htests⟩
    unfold ofIf?
    rw [if_pos ⟨hkind, by simp [hnone]⟩, htest, hbody]
    show (Tree.expressions? body.statements).bind _ = _
    rw [hes]
    show (if right.isEmpty then none else _) = _
    rw [if_neg (by simpa using hne)]
    cases htests with
    | plain h => exact if_neg h
    | negated h h' =>
      rw [h']
      exact if_pos h

/-- Every test has its operator, if a negation has something to negate. -/
theorem exists_tests {test : Tree}
    (h : test.IsNegation → ∃ argument, test.field? "argument" = some argument) :
    ∃ operator left, Tests test operator left := by
  by_cases hnegation : test.IsNegation
  · obtain ⟨argument, hargument⟩ := h hnegation
    exact ⟨.or, argument, .negated hnegation hargument⟩
  · exact ⟨.and, test, .plain hnegation⟩

/-- An `if` becomes a short circuit exactly if it has no `else` and its body is such a run. -/
theorem exists_ofIf?_iff {test body : Tree} (hkind : t.kind = "if_statement")
    (htest : t.field? "condition" = some test) (hbody : t.field? "consequence" = some body)
    (hargument : test.unwrapParens.IsNegation →
      ∃ argument, test.unwrapParens.field? "argument" = some argument) :
    (∃ s, ofIf? t = some s) ↔
      t.field? "alternative" = none ∧ ∃ es, es ≠ [] ∧ Runs body.statements es .falls := by
  constructor
  · rintro ⟨s, hs⟩
    obtain ⟨_, hnone, _, body', _, hbody', hruns, hne, _⟩ := ofIf?_eq_some_iff.mp hs
    cases hbody.symm.trans hbody'
    exact ⟨hnone, s.right, hne, hruns⟩
  · rintro ⟨hnone, es, hne, hruns⟩
    obtain ⟨operator, left, htests⟩ := exists_tests hargument
    exact ⟨⟨operator, left, es⟩, ofIf?_eq_some_iff.mpr
      ⟨hkind, hnone, test, body, htest, hbody, hruns, hne, htests⟩⟩

/-- The text is the short circuit in print. -/
theorem print_of_render {source text : String} {first : Tree} {rest : List Tree}
    (hright : s.right = first :: rest) (h : s.render source = .ok text) :
    (Circuit.ofExpressions s.operator (s.left.unwrapParens.bindsLooser s.operator.operandOf)
      s.left.unwrapParens first rest).print source = .ok text := by
  obtain ⟨left, hleft, h⟩ := bind_eq_ok_iff.mp h
  obtain ⟨right, hjoin, h⟩ := bind_eq_ok_iff.mp h
  cases h
  obtain ⟨texts, htexts, hjoin⟩ := bind_eq_ok_iff.mp hjoin
  cases hjoin
  rw [hright, List.mapM_cons] at htexts
  obtain ⟨head, hhead, htexts⟩ := bind_eq_ok_iff.mp htexts
  obtain ⟨tail, htail, htexts⟩ := bind_eq_ok_iff.mp htexts
  cases htexts
  -- the elements behind the first are joined to it
  have htrees : (rest.map Expression.tree).mapM (Expression.print source) = .ok tail := by
    rw [List.mapM_map]
    exact htail
  have hsequence : (Expression.sequence (.tree first) (rest.map .tree)).print source = .ok _ :=
    Expression.print_sequence hhead htrees
  refine bind_eq_ok_iff.mpr
    ⟨left, (Expression.print_wrapped source _).trans hleft,
      bind_eq_ok_iff.mpr ⟨_, bind_eq_ok_iff.mpr ⟨_, hsequence, rfl⟩, ?_⟩⟩
  show Except.ok _ = Except.ok _
  simp only [String.append_assoc]
  rfl

end ShortCircuit

/-- The short circuit does what the `if` does. Behind its left side it evaluates the expressions
exactly if the test of the `if` holds, else nothing. The `if` takes one branch, whose execution
evaluates the same, and ends in the same state if a `!` more or less is no effect. -/
def Circuit.Mirrors (c : Circuit) (left t test : Tree) (es : List Tree) : Prop :=
  ∀ {α σ : Type} {v : Valuation α σ}, v.Transparent → v.Negates → ∀ (nothing : Value α) (s : σ),
    let run := if v.holds (v.eval test s).1 then es else []
    (c.run v nothing s).evaluated = left :: run ∧
    ∃ choice result, (∀ c, Takes v .statement t s c ↔ c = choice) ∧
      execute? v nothing choice.statements choice.state = some result ∧
      result.evaluated = run ∧ (v.NegatesOnly → result.state = (c.run v nothing s).state)

/-- The short circuit of an `if` does what the `if` does. -/
theorem ShortCircuit.mirrors {t test body left first : Tree} {rest : List Tree} {operator : Logical}
    {inParens : Bool} (hnone : t.field? "alternative" = none)
    (htest : t.field? "condition" = some test) (hbody : t.field? "consequence" = some body)
    (hruns : Runs body.statements (first :: rest) .falls)
    (htests : Tests test.unwrapParens operator left) :
    (Circuit.ofExpressions operator inParens left.unwrapParens first rest).Mirrors
      left.unwrapParens t test (first :: rest) := by
  intro α σ v hparens hnegates nothing s
  have hgoesOn := htests.goesOn_eq hnegates s
  have hbranch : t.branch? = some ⟨test.unwrapParens, body⟩ := by
    rw [Tree.branch?, htest, hbody]
    rfl
  -- an `if` without `else` is a chain of one branch
  have hchain : ChainForm.statement.Flattens t ⟨[⟨test.unwrapParens, body⟩], none⟩ :=
    .alone hbranch hnone
  have htakes := hchain.takes_iff_of_transparent hparens s
  -- a `!` more or less is no effect
  have hstate : v.NegatesOnly → (v.eval test s).2 = (v.eval left s).2 := by
    intro honly
    rw [← hparens.eval_unwrapParens test, htests.state_eq honly]
  rw [hparens.eval_unwrapParens test] at hgoesOn
  simp only [Chain.choose, choose, hparens.eval_unwrapParens test] at htakes
  rw [Circuit.run_ofExpressions, Valuation.outcome, hparens.eval_unwrapParens left, hgoesOn]
  -- one and the same truth decides for the short circuit and for the branch
  split at htakes
  case isTrue hholds =>
    have hexecute := hruns.execute?_eq_ending nothing (v.eval test s).2 (v := v)
    simp only [if_pos hholds, true_and]
    refine ⟨_, _, htakes, by simpa [Choice.statements] using hexecute,
      by simp [Outcome.after, Ending.outcome], ?_⟩
    intro honly
    rw [← hstate honly]
    rfl
  case isFalse hfails =>
    simp only [if_neg hfails, true_and]
    exact ⟨_, _, htakes, rfl, rfl, hstate⟩

/-! ## §3 An `if` that is written -/

/-- An `if` without `else` whose body is written anew. -/
structure WrittenIf where
  /-- A `!` stands in front of the test. -/
  negated : Bool
  test : Expression
  body : List Written

namespace WrittenIf

/-- The printed form, with one statement to a line. -/
def print (source : String) (i : WrittenIf) : Cut String := do
  let test ← i.test.print source
  let body ← i.body.mapM (Written.print source)
  return "if (" ++ ((if i.negated then "!" else "") ++ test) ++ ") " ++
    ("\x7b\n" ++ "\n".intercalate body ++ "\n\x7d")

/-- The execution: first the test, and the body if it holds, or if it does not behind a `!`. -/
def run {α σ : Type} (v : Valuation α σ) (nothing : Value α) (i : WrittenIf) (s : σ) :
    Outcome (Option (Value α)) σ :=
  let first := i.test.run v nothing s
  if v.holds first.value != i.negated then
    (Written.execute v nothing i.body first.state).after first.evaluated
  else ⟨none, first.evaluated, first.state⟩

/-- The `!` is in front of the whole test, and no statement of the body is taken for something
else. -/
structure Delimited (i : WrittenIf) : Prop where
  test : i.test.Delimited
  negatedTest : i.negated = true → i.test.FollowsNot
  body : ∀ statement ∈ i.body, statement.StandsAlone

/-- `if (left) {e₁ … eₙ}` or `if (!left) {e₁ … eₙ}`. -/
def ofElements (operator : Logical) (left : Tree) (es : List Tree) : WrittenIf where
  negated := operator = .or
  test := .wrapped (operator = .or && !left.isPrimary) left
  body := es.map Written.ofTree

variable {source text : String} {operator : Logical} {left : Tree} {es : List Tree}

/-- The test is evaluated, and then the elements or nothing. -/
theorem run_ofElements {α σ : Type} {v : Valuation α σ} (nothing : Value α) (s : σ) :
    (ofElements operator left es).run v nothing s =
      if operator.goesOn (v.holds (v.eval left s).1) then
        ⟨none, left :: es, v.stateAfter es (v.eval left s).2⟩
      else ⟨none, [left], (v.eval left s).2⟩ := by
  have hbody (s : σ) : Written.execute v nothing (es.map Written.ofTree) s =
      ⟨none, es, v.stateAfter es s⟩ := by
    simpa [Written.execute, Outcome.after] using Written.execute_append nothing es [] s (v := v)
  -- a `!` in front of the test turns the question round, as `||` does
  have hgoesOn (holds : Bool) : (holds != decide (operator = .or)) = operator.goesOn holds := by
    cases operator <;> cases holds <;> rfl
  simp only [run, ofElements, Expression.run_wrapped, Valuation.outcome, hbody, hgoesOn,
    Outcome.after]
  rfl

/-- A test behind a `!` is in parentheses where it has to be. -/
theorem delimited_ofElements (operator : Logical) (left : Tree) (es : List Tree) :
    (ofElements operator left es).Delimited := by
  refine ⟨Expression.delimited_wrapped left, ?_, ?_⟩
  · -- only `||` brings a `!`, and with it the parentheses
    intro hnegated
    have hor : operator = .or := of_decide_eq_true hnegated
    have hwrapped : (ofElements operator left es).test = .wrapped (!left.isPrimary) left := by
      simp [ofElements, hor]
    rw [hwrapped]
    exact Expression.followsNot_wrapped left
  · intro statement hstatement
    obtain ⟨e, _, rfl⟩ := List.mem_map.mp hstatement
    exact Written.standsAlone_ofTree e

end WrittenIf

namespace IfStatement

/-- What the operator asks of its left side, to go on. -/
def testOf (left : Tree) : Logical → Test
  | .and => .holds left
  | .or => .fails left

/-- The statement for a short circuit tests its left side, and has the elements of its right side
for a body. -/
theorem of_ofShortCircuit? {t : Tree} {s : IfStatement} (h : ofShortCircuit? t = some s) :
    t.kind = "binary_expression" ∧ ∃ operator left right, t.operator? = some operator.symbol ∧
      t.field? "left" = some left ∧ t.field? "right" = some right ∧
      s = ⟨[(testOf left.unwrapParens operator, lines right)], none⟩ := by
  obtain ⟨hkind, h⟩ := Option.ite_none_right_eq_some.mp h
  obtain ⟨symbol, hsymbol, h⟩ := Option.bind_eq_some_iff.mp h
  obtain ⟨operator, hoperator, h⟩ := Option.bind_eq_some_iff.mp h
  obtain ⟨left, hleft, h⟩ := Option.bind_eq_some_iff.mp h
  obtain ⟨right, hright, h⟩ := Option.bind_eq_some_iff.mp h
  rw [Logical.symbol_of_ofSymbol? hoperator] at hsymbol
  refine ⟨hkind, operator, left, right, hsymbol, hleft, hright, ?_⟩
  -- the two operators differ in the test alone
  cases operator <;> exact (Option.some.inj h).symm

/-- The test is written as it is, or in the parentheses that it needs behind a `!`. -/
theorem print_of_testOf {source text : String} {operator : Logical} {left : Tree}
    (h : (testOf left operator).render source = .ok text) :
    ∃ test, (Expression.wrapped (operator = .or && !left.isPrimary) left).print source = .ok test ∧
      text = (if operator = .or then "!" else "") ++ test := by
  rw [Expression.print_wrapped]
  cases operator with
  | and => exact ⟨text, bind_eq_ok_iff.mpr ⟨text, h, rfl⟩, by simp⟩
  | or =>
    obtain ⟨test, htest, h⟩ := bind_eq_ok_iff.mp h
    cases h
    exact ⟨test, htest, rfl⟩

/-- The text is the statement in print. -/
theorem print_of_render {source text : String} {operator : Logical} {left right : Tree}
    (h : render source ⟨[(testOf left operator, lines right)], none⟩ = .ok text) :
    (WrittenIf.ofElements operator left right.unwrapParens.sequence).print source = .ok text := by
  obtain ⟨branches, hbranches, h⟩ := bind_eq_ok_iff.mp h
  cases h
  -- with one branch and no `else` there is nothing to join
  rw [List.mapM_cons] at hbranches
  obtain ⟨branch, hbranch, hbranches⟩ := bind_eq_ok_iff.mp hbranches
  cases hbranches
  obtain ⟨head, hhead, hbranch⟩ := bind_eq_ok_iff.mp hbranch
  obtain ⟨block, hblock, hbranch⟩ := bind_eq_ok_iff.mp hbranch
  cases hbranch
  obtain ⟨statements, hstatements, hblock⟩ := bind_eq_ok_iff.mp hblock
  cases hblock
  obtain ⟨test, htest, rfl⟩ := print_of_testOf hhead
  have hbody : (right.unwrapParens.sequence.map Written.ofTree).mapM (Written.print source) =
      .ok statements := by
    rw [Written.mapM_print_ofTree]
    rwa [lines, List.mapM_map] at hstatements
  refine bind_eq_ok_iff.mpr ⟨test, htest, bind_eq_ok_iff.mpr ⟨statements, hbody, ?_⟩⟩
  show Except.ok _ = Except.ok _
  simp [WrittenIf.ofElements]

end IfStatement

/-- The `if` does what the short circuit does. Behind its test it evaluates the elements exactly if
the short circuit goes on to its right side, else nothing, and it ends in the same state if a comma
sequence is evaluated part by part. -/
def WrittenIf.Mirrors (i : WrittenIf) (operator : Logical) (left right : Tree)
    (es : List Tree) : Prop :=
  ∀ {α σ : Type} {v : Valuation α σ}, v.Transparent → ∀ (nothing : Value α) (s : σ),
    (i.run v nothing s).value = none ∧
    (i.run v nothing s).evaluated =
      left.unwrapParens :: (if operator.goesOn (v.holds (v.eval left s).1) then es else []) ∧
    (v.Sequential → right.unwrapParens.SequencesHaveParts →
      (i.run v nothing s).state = (operator.eval v left right s).2)

/-- The `if` of a short circuit does what the short circuit does. -/
theorem WrittenIf.mirrors (operator : Logical) (left right : Tree) {es : List Tree}
    (hes : Tree.Flattened [right.unwrapParens] es) :
    (ofElements operator left.unwrapParens es).Mirrors operator left right es := by
  intro α σ v hparens nothing s
  -- the elements one after the other are the right side
  have hright (hv : v.Sequential) (hparts : right.unwrapParens.SequencesHaveParts) (s : σ) :
      v.stateAfter es s = (v.eval right s).2 := by
    rw [← v.snd_evalFrom es (nothing, s), v.evalFrom_of_flattened hv hes (by simpa using hparts)]
    rw [Valuation.evalFrom_cons, Valuation.evalFrom_nil, hparens.eval_unwrapParens]
  rw [run_ofElements, Logical.eval, hparens.eval_unwrapParens left]
  split
  case isTrue => exact ⟨rfl, rfl, fun hv hparts => hright hv hparts _⟩
  case isFalse => exact ⟨rfl, rfl, fun _ _ => rfl⟩

/-! ## §4 Both directions -/

/-- An `if` and a short circuit that become each other evaluate the same expressions in the same
order.

An `if` with a test and a body becomes a short circuit exactly if it has no `else` and its body is a
run of at least one expression statement. Then the text is that of `left && (e₁, …, eₙ)` or
`left || (e₁, …, eₙ)`, with `e₁`, …, `eₙ` the expressions of the body and `left` the test or, under
`||`, what is behind its `!`, and the short circuit evaluates `e₁`, …, `eₙ` exactly if the test
holds.

A short circuit that becomes an `if` has the elements of its right side as statements, and the `if`
evaluates them exactly if the short circuit would have gone on to its right side. -/
theorem Transform.short_circuits_run_same_expressions (source : String) (n : Node) :
    (∀ {test body : Tree}, n.Fits source → n.kind = "if_statement" →
      n.tree.field? "condition" = some test → n.tree.field? "consequence" = some body →
      (test.unwrapParens.IsNegation →
        ∃ argument, test.unwrapParens.field? "argument" = some argument) →
      ∃ answer, ifToBinary.run source n = .ok answer ∧
        (answer.isSome = true ↔
          n.tree.field? "alternative" = none ∧ ∃ es, es ≠ [] ∧ Runs body.statements es .falls)) ∧
    (∀ {replacement : Replacement}, ifToBinary.run source n = .ok (some replacement) →
      ∃ test body operator left first rest inParens text front back,
        n.tree.field? "condition" = some test ∧ n.tree.field? "consequence" = some body ∧
        ShortCircuit.Tests test.unwrapParens operator left ∧
        Runs body.statements (first :: rest) .falls ∧
        replacement = .text (front ++ text ++ back) ∧ front ∈ ["", ";"] ∧ back ∈ ["", ";"] ∧
        let circuit := Circuit.ofExpressions operator inParens left.unwrapParens first rest
        circuit.print source = .ok text ∧ circuit.Delimited ∧
        circuit.Mirrors left.unwrapParens n.tree test (first :: rest)) ∧
    (∀ {replacement : Replacement}, binaryToIf.run source n = .ok (some replacement) →
      ∃ operator left right es text, n.kind = "binary_expression" ∧
        n.tree.operator? = some (Logical.symbol operator) ∧
        n.tree.field? "left" = some left ∧ n.tree.field? "right" = some right ∧
        Tree.Flattened [right.unwrapParens] es ∧ replacement = .text text ∧
        let statement := WrittenIf.ofElements operator left.unwrapParens es
        statement.print source = .ok text ∧ statement.Delimited ∧
        statement.Mirrors operator left right es) := by
  refine ⟨?_, ?_, ?_⟩
  · -- which `if` statements are accepted
    intro test body hn hkind htest hbody hargument
    obtain ⟨answer, hanswer⟩ := succeeds_ifToBinary hn
    refine ⟨answer, hanswer, ?_⟩
    rw [← ShortCircuit.exists_ofIf?_iff hkind htest hbody hargument]
    exact Reshaping.isSome_iff_of_ofShape hanswer
  · -- what an accepted `if` becomes
    intro replacement hrun
    obtain ⟨s, text, hs, htext, rfl⟩ := Reshaping.ofShape_eq_ok_some_iff.mp hrun
    obtain ⟨circuit, hcircuit, hguarded⟩ := bind_eq_ok_iff.mp htext
    obtain ⟨_, hnone, test, body, htest, hbody, hruns, hne, htests⟩ :=
      ShortCircuit.ofIf?_eq_some_iff.mp hs
    obtain ⟨front, back, rfl, hfront, hback⟩ := Node.of_guarded hguarded
    obtain ⟨first, rest, hright⟩ := List.exists_cons_of_ne_nil hne
    rw [hright] at hruns
    exact ⟨test, body, s.operator, s.left, first, rest, _, circuit, front, back, htest, hbody,
      htests, hruns, rfl, hfront, hback, ShortCircuit.print_of_render hright hcircuit,
      Circuit.delimited_ofExpressions _ _ _ _,
      ShortCircuit.mirrors hnone htest hbody hruns htests⟩
  · -- what a short circuit becomes
    intro replacement hrun
    obtain ⟨s, text, hs, htext, rfl⟩ := Reshaping.ofShape_eq_ok_some_iff.mp hrun
    obtain ⟨hkind, operator, left, right, hoperator, hleft, hright, rfl⟩ :=
      IfStatement.of_ofShortCircuit? hs
    have hes := right.unwrapParens.flattened_sequence
    exact ⟨operator, left, right, _, text, hkind, hoperator, hleft, hright, hes, rfl,
      IfStatement.print_of_render htext, WrittenIf.delimited_ofElements _ _ _,
      WrittenIf.mirrors _ _ _ hes⟩

namespace Sample

/-- `if (!(a = b)) { f(); g() }`. -/
def negatedIf : Tree :=
  let assignment := construct "assignment_expression" 6 11 [("left", 0), ("right", 2)]
    [construct "identifier" 6 7 [] [], mark "=" 8 9, construct "identifier" 10 11 [] []]
  let negation := construct "unary_expression" 4 12 [("operator", 0), ("argument", 1)]
    [mark "!" 4 5, construct "parenthesized_expression" 5 12 []
      [mark "(" 5 6, assignment, mark ")" 11 12]]
  let body := construct "statement_block" 14 26 []
    [mark "\x7b" 14 15,
      construct "expression_statement" 16 20 []
        [construct "call_expression" 16 19 [] [], mark ";" 19 20],
      construct "expression_statement" 21 24 [] [construct "call_expression" 21 24 [] []],
      mark "\x7d" 25 26]
  construct "if_statement" 0 26 [("condition", 1), ("consequence", 2)]
    [mark "if" 0 2, construct "parenthesized_expression" 3 13 []
      [mark "(" 3 4, negation, mark ")" 12 13], body]

/-- `a + b || (f(), g())`. -/
def sumCircuit : Tree :=
  let sum := construct "binary_expression" 0 5 [("left", 0), ("operator", 1), ("right", 2)]
    [construct "identifier" 0 1 [] [], mark "+" 2 3, construct "identifier" 4 5 [] []]
  let both := construct "sequence_expression" 10 18 []
    [construct "call_expression" 10 13 [] [], mark "," 13 14,
      construct "call_expression" 15 18 [] []]
  construct "binary_expression" 0 19 [("left", 0), ("operator", 1), ("right", 2)]
    [sum, mark "||" 6 8, construct "parenthesized_expression" 9 19 []
      [mark "(" 9 10, both, mark ")" 18 19]]

end Sample

/-- A `!` goes with `||`, in both directions. -/
theorem Transform.short_circuits_run_same_expressions_negated :
    (let source := "if (!(a = b)) \x7b f(); g() \x7d"
      let n := Node.root Sample.negatedIf
      n.Fits source ∧ n.kind = "if_statement" ∧
        ifToBinary.run source n = .ok (some (.text "(a = b) || (f(), g())")) ∧
        ∃ test body operator left first rest inParens text front back,
          n.tree.field? "condition" = some test ∧ n.tree.field? "consequence" = some body ∧
          (n.tree.field? "alternative" = none ∧ ∃ es, es ≠ [] ∧ Runs body.statements es .falls) ∧
          ShortCircuit.Tests test.unwrapParens operator left ∧
          Runs body.statements (first :: rest) .falls ∧
          "(a = b) || (f(), g())" = front ++ text ++ back ∧
          let circuit := Circuit.ofExpressions operator inParens left.unwrapParens first rest
          circuit.print source = .ok text ∧ circuit.Delimited ∧
          circuit.Mirrors left.unwrapParens n.tree test (first :: rest)) ∧
    (let source := "a + b || (f(), g())"
      let n := Node.root Sample.sumCircuit
      binaryToIf.run source n = .ok (some (.text "if (!(a + b)) \x7b\nf()\ng()\n\x7d")) ∧
        ∃ operator left right es, Tree.Flattened [right.unwrapParens] es ∧
          let statement := WrittenIf.ofElements operator left.unwrapParens es
          statement.print source = .ok "if (!(a + b)) \x7b\nf()\ng()\n\x7d" ∧ statement.Delimited ∧
          statement.Mirrors operator left right es) := by
  refine ⟨?_, ?_⟩
  · intro source n
    have hn : n.Fits source := .root (.of_fitsPlainly (by with_unfolding_all decide))
    have hrun : ifToBinary.run source n = .ok (some (.text "(a = b) || (f(), g())")) := by
      with_unfolding_all decide
    obtain ⟨haccepts, hwritten, _⟩ := short_circuits_run_same_expressions source n
    obtain ⟨test, body, operator, left, first, rest, inParens, text, front, back, htest, hbody,
      htests, hruns, htext, _, _, hcircuit⟩ := hwritten hrun
    -- the test is a negation, and its argument is the left side
    have hargument (h : test.unwrapParens.IsNegation) :
        ∃ argument, test.unwrapParens.field? "argument" = some argument := by
      cases htests with
      | plain hplain => exact absurd h hplain
      | negated _ hargument => exact ⟨_, hargument⟩
    obtain ⟨answer, hanswer, hshape⟩ := haccepts hn rfl htest hbody hargument
    cases hrun.symm.trans hanswer
    exact ⟨hn, rfl, hrun, test, body, operator, left, first, rest, inParens, text, front, back,
      htest, hbody, hshape.mp rfl, htests, hruns, Replacement.text.inj htext, hcircuit⟩
  · intro source n
    have hrun : binaryToIf.run source n =
        .ok (some (.text "if (!(a + b)) \x7b\nf()\ng()\n\x7d")) := by
      with_unfolding_all decide
    obtain ⟨operator, left, right, es, text, _, _, _, _, hes, htext, hstatement⟩ :=
      (short_circuits_run_same_expressions source n).2.2 hrun
    cases Replacement.text.inj htext
    exact ⟨hrun, operator, left, right, es, hes, hstatement⟩

end CodeActions
