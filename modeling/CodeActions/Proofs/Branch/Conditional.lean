import CodeActions.Proofs.Branch
import CodeActions.Proofs.Branch.Expression
import CodeActions.Proofs.Branch.Lines
import CodeActions.Proofs.Branch.Switch
import CodeActions.Proofs.Kind

/-!
# `if` statements as conditional expressions

An `if` whose branches hold expressions only becomes a conditional expression, and if all its
branches return, that expression is returned. Which statements these are is said by
`Chain.IsConditional`. What the expression does is compared with the statement: both evaluate the
same tests, then the expressions of the branch that is taken, and what the branch returns is the
value of the expression.

Main statements: `Conditional.exists_ofIf?_iff`, which statements are taken, `Conditional.run_nest`,
what their expression does branch by branch, and `Transform.ifToTernary_keeps_meaning`.
-/

namespace CodeActions

/-! ## §1 Branches -/

/-- A run of expression statements, which may end in a `return`: its expressions and how it ends. -/
inductive Runs : List Tree → List Tree → Ending → Prop where
  | nil : Runs [] [] .falls
  | result {t : Tree} (kind : t.kind = "return_statement") : Runs [t] [] (.returns t.firstCode?)
  | effect {t e : Tree} {ts es : List Tree} {ending : Ending}
      (expression : t.statementExpression? = some e) (rest : Runs ts es ending) :
      Runs (t :: ts) (e :: es) ending

namespace Runs

variable {ts es : List Tree}

/-- A run that falls through is a list of expression statements. -/
theorem falls_iff : Runs ts es .falls ↔ Tree.expressions? ts = some es := by
  rw [Tree.expressions?, mapM_eq_some_iff]
  constructor
  · intro h
    -- the ending is an index of the relation, so it is named before the induction
    generalize hending : Ending.falls = ending at h
    induction h with
    | nil => exact .nil
    | result => cases hending
    | effect expression _ ih => exact .cons expression (ih hending)
  · intro h
    induction h with
    | nil => exact .nil
    | cons expression _ ih => exact .effect expression ih

/-- A run that returns is such a list and a `return` behind it. -/
theorem returns_iff {value : Option Tree} : Runs ts es (.returns value) ↔
    ∃ front last, ts = front ++ [last] ∧ last.kind = "return_statement" ∧ value = last.firstCode? ∧
      Tree.expressions? front = some es := by
  simp only [Tree.expressions?, mapM_eq_some_iff]
  constructor
  · intro h
    -- the ending is an index of the relation, so it is named before the induction
    generalize hending : Ending.returns value = ending at h
    induction h with
    | nil => cases hending
    | @result t kind =>
      cases hending
      exact ⟨[], t, rfl, kind, rfl, .nil⟩
    | @effect t _ _ _ _ expression _ ih =>
      obtain ⟨front, last, rfl, hkind, hvalue, hfront⟩ := ih hending
      exact ⟨t :: front, last, rfl, hkind, hvalue, .cons expression hfront⟩
  · rintro ⟨front, last, rfl, hkind, rfl, hfront⟩
    induction hfront with
    | nil => exact .result hkind
    | cons expression _ ih => exact .effect expression ih

end Runs

/-- A `return` is no expression statement. -/
theorem Tree.expressions?_append_return {front : List Tree} {last : Tree}
    (hkind : last.kind = "return_statement") : expressions? (front ++ [last]) = none := by
  have hlast : last.statementExpression? = none := by simp [statementExpression?, hkind]
  simp [expressions?, hlast]

/-- The body is such a run, with these expressions and this end. -/
def Tree.RunsAs (body : Tree) (arm : ArmValue) : Prop := Runs body.statements arm.effects arm.ending

/-- What a body evaluates is found exactly if it is such a run. -/
theorem ArmValue.ofBody?_eq_some_iff {body : Tree} {arm : ArmValue} :
    ofBody? body = some arm ↔ body.RunsAs arm := by
  obtain ⟨effects, ending⟩ := arm
  unfold ofBody? Tree.RunsAs
  generalize body.statements = ts
  split
  -- without statements nothing is evaluated, and nothing else is a run of none
  case h_1 hlast =>
    obtain rfl := List.getLast?_eq_none_iff.mp hlast
    constructor
    · intro h
      cases h
      exact .nil
    · intro h
      cases h
      rfl
  case h_2 last hlast =>
    obtain ⟨front, rfl⟩ := List.getLast?_eq_some_iff.mp hlast
    rw [List.dropLast_concat]
    have hparts (expressions : Option (List Tree)) (ending' : Ending) :
        (do return ⟨← expressions, ending'⟩ : Option ArmValue) = some ⟨effects, ending⟩ ↔
          expressions = some effects ∧ ending' = ending := by
      cases expressions <;> simp
    -- the last statement shows which of the two endings it can be
    split
    case isTrue hkind =>
      rw [hparts]
      cases ending with
      | falls => simp [Runs.falls_iff, Tree.expressions?_append_return hkind]
      | returns value =>
        rw [Runs.returns_iff]
        constructor
        · rintro ⟨hexpressions, ⟨⟩⟩
          exact ⟨front, last, rfl, hkind, rfl, hexpressions⟩
        · rintro ⟨front', last', hsplit, _, rfl, hexpressions⟩
          obtain ⟨rfl, rfl⟩ := List.append_singleton_inj.mp hsplit
          exact ⟨hexpressions, rfl⟩
    case isFalse hkind =>
      rw [hparts]
      cases ending with
      | falls => simp [Runs.falls_iff]
      | returns value =>
        rw [Runs.returns_iff]
        constructor
        · rintro ⟨_, ⟨⟩⟩
        · rintro ⟨front', last', hsplit, hkind', _⟩
          obtain ⟨rfl, rfl⟩ := List.append_singleton_inj.mp hsplit
          exact absurd hkind' hkind

/-! ## §2 Chains -/

/-- The chain can be an expression: its branches are such runs, all of them return or none of them
does, if they return there is an `else`, and something is done in one of them. -/
structure Chain.IsConditional (chain : Chain) (arms : List ArmValue) : Prop where
  runs : List.Forall₂ Tree.RunsAs chain.bodies arms
  uniform : (∀ arm ∈ arms, arm.isReturn = true) ∨ (∀ arm ∈ arms, arm.isReturn = false)
  complete : (∃ arm ∈ arms, arm.isReturn = true) → chain.otherwise.isSome = true
  something : ∃ arm ∈ arms, arm.effects ≠ [] ∨ arm.isReturn = true

theorem ChainForm.Flattens.exists_branch {form : ChainForm} {t : Tree} {chain : Chain}
    (h : form.Flattens t chain) : ∃ first rest, chain.branches = first :: rest := by
  cases h with
  | alone | last | more => exact ⟨_, _, rfl⟩

namespace Conditional

variable {chain : Chain} {c : Conditional}

/-- The branches of the expression are those of the chain. -/
structure Shows (c : Conditional) (chain : Chain) : Prop where
  branches : List.Forall₂ (fun branch (b : Tree × ArmValue) =>
    b.1 = branch.condition ∧ branch.body.RunsAs b.2) chain.branches c.branches
  otherwise : List.Forall₂ Tree.RunsAs chain.otherwise.toList c.otherwise.toList

theorem Shows.values (h : c.Shows chain) : List.Forall₂ Tree.RunsAs chain.bodies c.values := by
  unfold Chain.bodies Conditional.values
  refine List.rel_append ?_ h.otherwise
  exact List.forall₂_map_left_iff.mpr
    (List.forall₂_map_right_iff.mpr (h.branches.imp fun _ _ hb => hb.2))

theorem branch_eq_some_iff {branch : Branch} {b : Tree × ArmValue} :
    (do return (branch.condition, ← ArmValue.ofBody? branch.body) : Option (Tree × ArmValue)) =
      some b ↔ b.1 = branch.condition ∧ branch.body.RunsAs b.2 := by
  obtain ⟨condition, arm⟩ := b
  rw [← ArmValue.ofBody?_eq_some_iff]
  constructor
  · intro h
    obtain ⟨arm', harm', h⟩ := Option.bind_eq_some_iff.mp h
    cases h
    exact ⟨rfl, harm'⟩
  · rintro ⟨rfl, harm⟩
    exact Option.bind_eq_some_iff.mpr ⟨arm, harm, rfl⟩

theorem otherwise_eq_some_iff {body : Option Tree} {otherwise : Option ArmValue} :
    body.mapM ArmValue.ofBody? = some otherwise ↔
      List.Forall₂ Tree.RunsAs body.toList otherwise.toList := by
  cases body with
  | none => cases otherwise <;> simp
  | some body => cases otherwise <;> simp [ArmValue.ofBody?_eq_some_iff]

/-- A conditional is made of the branches of the chain, and returns if the first one does. -/
theorem ofChain?_eq_some_iff : ofChain? chain = some c ↔
    c.Shows chain ∧ ∃ first rest, c.branches = first :: rest ∧ c.returned = first.2.isReturn := by
  constructor
  · intro h
    obtain ⟨branches, hbranches, h⟩ := Option.bind_eq_some_iff.mp h
    obtain ⟨otherwise, hotherwise, h⟩ := Option.bind_eq_some_iff.mp h
    obtain ⟨first, hfirst, h⟩ := Option.bind_eq_some_iff.mp h
    obtain ⟨rest, rfl⟩ := List.head?_eq_some_iff.mp hfirst
    cases h
    -- the conditions are taken over and the bodies are read
    have hshown := (mapM_eq_some_iff.mp hbranches).imp fun _ _ => branch_eq_some_iff.mp
    exact ⟨⟨hshown, otherwise_eq_some_iff.mp hotherwise⟩, first, rest, rfl, rfl⟩
  · rintro ⟨hshows, first, rest, hfirst, hreturned⟩
    have hbranches := mapM_eq_some_iff.mpr (hshows.branches.imp fun _ _ => branch_eq_some_iff.mpr)
    refine Option.bind_eq_some_iff.mpr ⟨c.branches, hbranches, Option.bind_eq_some_iff.mpr
      ⟨c.otherwise, otherwise_eq_some_iff.mpr hshows.otherwise,
        Option.bind_eq_some_iff.mpr ⟨first, ?_, ?_⟩⟩⟩
    · rw [hfirst, List.head?_cons]
    · -- whether the conditional returns is read off its first branch
      show some (⟨c.branches, c.otherwise, first.2.isReturn⟩ : Conditional) = some c
      rw [← hreturned]

/-- Runs for all the bodies of a chain are those of a conditional. -/
theorem exists_shows {branches : List Branch} {otherwise : Option Tree} {arms : List ArmValue}
    (h : List.Forall₂ Tree.RunsAs (Chain.bodies ⟨branches, otherwise⟩) arms) :
    ∃ c : Conditional, c.Shows ⟨branches, otherwise⟩ ∧ c.values = arms := by
  -- `Shows` leaves `returned` open, so any value of it will do
  induction branches generalizing arms with
  | nil =>
    cases otherwise with
    | none =>
      cases h
      exact ⟨⟨[], none, false⟩, ⟨.nil, .nil⟩, rfl⟩
    | some body =>
      obtain ⟨arm, rest, hbody, hrest, rfl⟩ := List.forall₂_cons_left_iff.mp h
      cases hrest
      exact ⟨⟨[], some arm, false⟩, ⟨.nil, .cons hbody .nil⟩, rfl⟩
  | cons branch branches ih =>
    obtain ⟨arm, rest, hbody, hrest, rfl⟩ := List.forall₂_cons_left_iff.mp h
    obtain ⟨c, hshows, rfl⟩ := ih hrest
    exact ⟨⟨(branch.condition, arm) :: c.branches, c.otherwise, false⟩,
      ⟨.cons ⟨rfl, hbody⟩ hshows.branches, hshows.otherwise⟩, rfl⟩

theorem Shows.isSome_otherwise (h : c.Shows chain) :
    c.otherwise.isSome = chain.otherwise.isSome := by
  have hlength := h.otherwise.length_eq
  cases hbody : chain.otherwise <;> cases harm : c.otherwise <;> simp_all

/-- The first branch shows whether the others return. -/
theorem isReturn_eq (h : chain.IsConditional c.values) {first : Tree × ArmValue}
    {rest : List (Tree × ArmValue)} (hfirst : c.branches = first :: rest)
    (hreturned : c.returned = first.2.isReturn) :
    ∀ arm ∈ c.values, arm.isReturn = c.returned := by
  have hmem : first.2 ∈ c.values := by simp [values, hfirst]
  intro arm harm
  rcases h.uniform with hall | hall
  · rw [hreturned, hall arm harm, hall first.2 hmem]
  · rw [hreturned, hall arm harm, hall first.2 hmem]

/-- Once its branches are known, the conditional is written exactly if the chain can be an
expression. -/
theorem Shows.isUniform_iff (h : c.Shows chain) {first : Tree × ArmValue}
    {rest : List (Tree × ArmValue)} (hfirst : c.branches = first :: rest)
    (hreturned : c.returned = first.2.isReturn) :
    c.isUniform = true ↔ chain.IsConditional c.values := by
  have hmem : first.2 ∈ c.values := by simp [Conditional.values, hfirst]
  have hempty (arm : ArmValue) : arm.isEmpty = false ↔ arm.effects ≠ [] ∨ arm.isReturn = true := by
    rw [ArmValue.isEmpty, Bool.and_eq_false_iff]
    simp
  have hsomething : (!c.values.all ArmValue.isEmpty) = true ↔
      ∃ arm ∈ c.values, arm.effects ≠ [] ∨ arm.isReturn = true := by
    simp [← hempty]
  rw [isUniform, Bool.and_eq_true, Bool.and_eq_true, hsomething, h.isSome_otherwise,
    List.all_eq_true]
  constructor
  · rintro ⟨⟨huniform, hcomplete⟩, hsome⟩
    refine ⟨h.values, ?_, ?_, hsome⟩
    · -- the first branch sets `returned`, and all others have been compared with it
      cases hr : c.returned with
      | true => exact .inl fun arm harm => by simpa [hr] using huniform arm harm
      | false => exact .inr fun arm harm => by simpa [hr] using huniform arm harm
    · -- if one branch returns all of them do, and then an `else` was asked for
      rintro ⟨arm, harm, hreturn⟩
      have hr : true = c.returned := by simpa [hreturn] using huniform arm harm
      simpa [← hr] using hcomplete
  · -- that all branches return or none does is asked of each branch in turn
    intro hconditional
    refine ⟨⟨fun arm harm => ?_, ?_⟩, hconditional.something⟩
    · exact beq_iff_eq.mpr (isReturn_eq hconditional hfirst hreturned arm harm)
    · cases hr : c.returned with
      | false => rfl
      | true => exact hconditional.complete ⟨first.2, hmem, hreturned.symm.trans hr⟩

/-- An `if` is taken exactly if its chain can be an expression, and then its branches are those of
the chain. -/
theorem ofIf?_eq_some_iff {t : Tree} (hchain : t.ifChain? = some chain) : ofIf? t = some c ↔
    c.Shows chain ∧ chain.IsConditional c.values ∧
      ∃ first rest, c.branches = first :: rest ∧ c.returned = first.2.isReturn := by
  have hif : ofIf? t = some c ↔ ofChain? chain = some c ∧ c.isUniform = true := by
    rw [ofIf?, hchain]
    show (do let c ← ofChain? chain
             if c.isUniform then some c else none) = some c ↔ _
    constructor
    · intro h
      obtain ⟨c', hc', h⟩ := Option.bind_eq_some_iff.mp h
      obtain ⟨huniform, h⟩ := Option.ite_none_right_eq_some.mp h
      cases h
      exact ⟨hc', huniform⟩
    · rintro ⟨hc, huniform⟩
      exact Option.bind_eq_some_iff.mpr ⟨c, hc, if_pos huniform⟩
  rw [hif, ofChain?_eq_some_iff]
  constructor
  · rintro ⟨⟨hshows, first, rest, hfirst, hreturned⟩, huniform⟩
    exact ⟨hshows, (hshows.isUniform_iff hfirst hreturned).mp huniform, first, rest, hfirst,
      hreturned⟩
  · rintro ⟨hshows, hconditional, first, rest, hfirst, hreturned⟩
    exact ⟨⟨hshows, first, rest, hfirst, hreturned⟩,
      (hshows.isUniform_iff hfirst hreturned).mpr hconditional⟩

/-- An `if` is taken exactly if its chain can be an expression. -/
theorem exists_ofIf?_iff {t : Tree} (hchain : t.ifChain? = some chain) :
    (∃ c, ofIf? t = some c) ↔ ∃ arms, chain.IsConditional arms := by
  constructor
  · rintro ⟨c, hc⟩
    exact ⟨c.values, ((ofIf?_eq_some_iff hchain).mp hc).2.1⟩
  · rintro ⟨arms, hconditional⟩
    obtain ⟨c, hshows, rfl⟩ := exists_shows hconditional.runs
    -- a chain begins with a branch
    obtain ⟨branch, branches, hbranches⟩ := (ChainForm.flattens_of_ifChain? hchain).exists_branch
    obtain ⟨first, rest, hfirst⟩ : ∃ first rest, c.branches = first :: rest := by
      have hshown := hshows.branches
      rw [hbranches] at hshown
      obtain ⟨first, rest, _, _, hfirst⟩ := List.forall₂_cons_left_iff.mp hshown
      exact ⟨first, rest, hfirst⟩
    refine ⟨⟨c.branches, c.otherwise, first.2.isReturn⟩, (ofIf?_eq_some_iff hchain).mpr ?_⟩
    exact ⟨⟨hshows.branches, hshows.otherwise⟩, hconditional, first, rest, hfirst, rfl⟩

end Conditional

/-! ## §3 The printed expression -/

/-- What is evaluated for the end of a branch. -/
def Ending.elements : Ending → List Expression
  | .falls => []
  | .returns none => [.undefined]
  | .returns (some value) => [.tree value]

namespace ArmValue

/-- What is evaluated in a branch: its expressions and then what it returns. -/
def elements (arm : ArmValue) : List Expression := arm.effects.map .tree ++ arm.ending.elements

/-- The elements in parentheses, or `undefined` if there are none. -/
def expression (arm : ArmValue) : Expression :=
  match arm.elements with
  | [] => .undefined
  | first :: rest => .parens (.sequence first rest)

variable {source text : String} {arm : ArmValue}

theorem mapM_print_elements {effects ending : List String}
    (heffects : (arm.effects.mapM fun e => e.text source) = .ok effects)
    (hending : arm.endingTexts source = .ok ending) :
    arm.elements.mapM (Expression.print source) = .ok (effects ++ ending) := by
  -- the end is printed as the texts say, in each of the three cases
  have hlast : arm.ending.elements.mapM (Expression.print source) = .ok ending := by
    rw [endingTexts] at hending
    split at hending
    case h_1 hfalls =>
      rw [hfalls]
      exact hending
    case h_2 hbare =>
      rw [hbare]
      exact hending
    case h_3 value hvalue =>
      rw [hvalue, Ending.elements, List.mapM_cons]
      exact hending
  rw [elements, List.mapM_append, List.mapM_map]
  exact bind_eq_ok_iff.mpr ⟨effects, heffects, bind_eq_ok_iff.mpr ⟨ending, hlast, rfl⟩⟩

/-- The text of a branch is its expression in print. -/
theorem print_expression (h : arm.render source = .ok text) :
    arm.expression.print source = .ok text := by
  obtain ⟨effects, heffects, h⟩ := bind_eq_ok_iff.mp h
  obtain ⟨ending, hending, h⟩ := bind_eq_ok_iff.mp h
  have helements := mapM_print_elements heffects hending
  unfold expression
  cases hsplit : arm.elements with
  -- nothing is evaluated, and `undefined` is written
  | nil =>
    rw [hsplit] at helements
    rw [← Except.ok.inj helements] at h
    exact h
  | cons first rest =>
    rw [hsplit, List.mapM_cons] at helements
    obtain ⟨head, hhead, helements⟩ := bind_eq_ok_iff.mp helements
    obtain ⟨tail, htail, helements⟩ := bind_eq_ok_iff.mp helements
    rw [← Except.ok.inj helements] at h
    exact bind_eq_ok_iff.mpr ⟨_, Expression.print_sequence hhead htail, h⟩

theorem elements_cons (e : Tree) (es : List Tree) (ending : Ending) :
    elements ⟨e :: es, ending⟩ = .tree e :: elements ⟨es, ending⟩ := rfl

theorem delimited_elements (arm : ArmValue) : ∀ e ∈ arm.elements, e.Delimited ∧ e.IsFlat := by
  rw [elements, List.forall_mem_append, List.forall_mem_map]
  refine ⟨fun t _ => ⟨trivial, trivial⟩, ?_⟩
  cases arm.ending with
  | falls => simp [Ending.elements]
  | returns value => cases value <;> simp [Ending.elements, Expression.Delimited, Expression.IsFlat]

/-- In its parentheses the expression of a branch can stand anywhere. -/
theorem delimited_expression (arm : ArmValue) :
    arm.expression.Delimited ∧ arm.expression.IsFlat ∧ arm.expression.looseness = 0 := by
  unfold expression
  cases hsplit : arm.elements with
  | nil => exact ⟨trivial, trivial, rfl⟩
  | cons first rest =>
    have hall := arm.delimited_elements
    rw [hsplit] at hall
    obtain ⟨hfirst, hrest⟩ := List.forall_mem_cons.mp hall
    exact ⟨Expression.sequence_induction (fun h h' => ⟨h, h'⟩) hfirst.1 fun e he => (hrest e he).1,
      Expression.sequence_induction (fun h h' => ⟨h, h'⟩) hfirst.2 fun e he => (hrest e he).2, rfl⟩

end ArmValue

namespace Conditional

variable {source text : String}

/-- A test of the expression, in parentheses if it would fall apart. -/
def test (t : Tree) : Expression :=
  .wrapped (t.unwrapParens.bindsLooser .conditional) t.unwrapParens

/-- Conditionals around what is left in the end. -/
def nest (branches : List (Tree × ArmValue)) (last : Expression) : Expression :=
  branches.foldr (fun b rest => .conditional (test b.1) b.2.expression rest) last

/-- What is left when all tests fail. -/
def last (c : Conditional) : Expression :=
  match c.otherwise with
  | some arm => arm.expression
  | none => .undefined

/-- The conditional as an expression. -/
def expression (c : Conditional) : Expression := nest c.branches c.last

theorem print_test (source : String) (t : Tree) :
    (test t).print source = t.asOperand source .conditional :=
  Expression.print_wrapped source t.unwrapParens

/-- The branches are written one after the other, and what is left behind them. -/
theorem print_nest {branches : List (Tree × ArmValue)} {texts : List String} {last : Expression}
    {tail : String}
    (hbranches : (branches.mapM fun b => do
      return (← b.1.asOperand source .conditional) ++ " ? " ++ (← b.2.render source) ++ " : ") =
        .ok texts)
    (hlast : last.print source = .ok tail) :
    (nest branches last).print source = .ok (String.join texts ++ tail) := by
  induction branches generalizing texts with
  | nil =>
    cases hbranches
    simpa [nest] using hlast
  | cons b branches ih =>
    rw [List.mapM_cons] at hbranches
    obtain ⟨text, htext, hbranches⟩ := bind_eq_ok_iff.mp hbranches
    obtain ⟨texts', htexts', h⟩ := bind_eq_ok_iff.mp hbranches
    cases h
    obtain ⟨operand, hoperand, htext⟩ := bind_eq_ok_iff.mp htext
    obtain ⟨value, hvalue, htext⟩ := bind_eq_ok_iff.mp htext
    cases htext
    refine bind_eq_ok_iff.mpr ⟨operand, (print_test source b.1).trans hoperand, bind_eq_ok_iff.mpr
      ⟨value, ArmValue.print_expression hvalue, bind_eq_ok_iff.mpr ⟨_, ih htexts', ?_⟩⟩⟩
    show Except.ok _ = _
    simp [String.append_assoc]

/-- The text is the expression in print, returned if the branches return. -/
theorem print_expression {c : Conditional} (h : c.render source = .ok text) :
    ∃ body, c.expression.print source = .ok body ∧
      text = (if c.returned then "return " else "") ++ body := by
  obtain ⟨texts, htexts, h⟩ := bind_eq_ok_iff.mp h
  -- without an `else` the expression ends in `undefined`
  obtain ⟨tail, hlast, h⟩ : ∃ tail, c.last.print source = .ok tail ∧
      text = (if c.returned then "return " else "") ++ String.join texts ++ tail := by
    unfold last
    cases hotherwise : c.otherwise with
    | some arm =>
      rw [hotherwise] at h
      obtain ⟨tail, htail, h⟩ := bind_eq_ok_iff.mp h
      cases h
      exact ⟨tail, ArmValue.print_expression htail, rfl⟩
    | none =>
      rw [hotherwise] at h
      cases h
      exact ⟨"undefined", rfl, rfl⟩
  exact ⟨String.join texts ++ tail, print_nest htexts hlast, by rw [h, String.append_assoc]⟩

theorem delimited_test (t : Tree) : (test t).Delimited ∧ (test t).IsFlat ∧ (test t).looseness = 0 :=
  ⟨Expression.delimited_wrapped _, Expression.isFlat_wrapped _, Expression.looseness_operand _ _⟩

theorem delimited_last (c : Conditional) :
    c.last.Delimited ∧ c.last.IsFlat ∧ c.last.looseness = 0 := by
  unfold last
  split
  case h_1 arm _ => exact arm.delimited_expression
  case h_2 => exact ⟨trivial, trivial, rfl⟩

/-- The expression does not fall apart, and its conditionals are nested to the right. -/
theorem delimited_nest (branches : List (Tree × ArmValue)) {last : Expression}
    (hlast : last.Delimited) (hflat : last.IsFlat) (hloose : last.looseness = 0) :
    (nest branches last).Delimited ∧ (nest branches last).looseness ≤ 1 ∧
      Expression.RightNested branches.length (nest branches last) := by
  induction branches with
  | nil => exact ⟨hlast, by simp [nest, hloose], .last hflat⟩
  | cons b branches ih =>
    obtain ⟨htest, htestFlat, htestLoose⟩ := delimited_test b.1
    obtain ⟨harm, harmFlat, harmLoose⟩ := b.2.delimited_expression
    obtain ⟨hrest, hrestLoose, hrestNested⟩ := ih
    -- only the last part may be a conditional, and there it needs no parentheses
    exact ⟨⟨⟨htestLoose, by omega, hrestLoose⟩, htest, harm, hrest⟩, le_rfl,
      .conditional htestFlat harmFlat hrestNested⟩

end Conditional

/-! ## §4 What the expression does -/

section

variable {α σ : Type} {v : Valuation α σ} (nothing : Value α)

/-- What the end of a run does: what it returns, what is evaluated for that, and the state behind
it. -/
def Ending.outcome (v : Valuation α σ) : Ending → σ → Outcome (Option (Value α)) σ
  | .falls, s => ⟨none, [], s⟩
  | .returns none, s => ⟨some nothing, [], s⟩
  | .returns (some e), s => (v.outcome e s).asStatement true

/-- A run of expression statements evaluates its expressions, and then its end. -/
theorem Runs.execute?_eq_ending {ts es : List Tree} {ending : Ending} (h : Runs ts es ending)
    (s : σ) :
    execute? v nothing ts s = some ((ending.outcome nothing v (v.stateAfter es s)).after es) := by
  induction h generalizing s with
  | nil => rfl
  | @result t kind =>
    rw [execute?, if_pos kind]
    cases t.firstCode? <;> rfl
  | @effect t e ts es ending expression rest ih =>
    -- a statement with an expression is no `return`, so the run goes on behind it
    have hkind : t.kind ≠ "return_statement" := by
      intro hkind
      simp [Tree.statementExpression?, hkind] at expression
    have hstep : execute? v nothing (t :: ts) s =
        (execute? v nothing ts (v.eval e s).2).map (Outcome.after [e]) := by
      rw [execute?, if_neg hkind, expression]
    rw [hstep, ih]
    rfl

/-- The expression of a branch evaluates what the branch evaluates, and has the value that is
returned. -/
theorem ArmValue.run_expression (es : List Tree) (ending : Ending) (s : σ) :
    let arm : ArmValue := ⟨es, ending⟩
    (arm.expression.run v nothing s).asStatement arm.isReturn =
      (ending.outcome nothing v (v.stateAfter es s)).after es := by
  induction es generalizing s with
  | nil =>
    cases ending with
    | falls => rfl
    | returns value => cases value <;> rfl
  | cons e es ih =>
    intro arm
    cases hsplit : ArmValue.elements ⟨es, ending⟩ with
    | nil =>
      -- the expression is the last thing that is done, and nothing is returned
      obtain ⟨hes, hending⟩ := List.append_eq_nil_iff.mp hsplit
      obtain rfl : es = [] := List.map_eq_nil_iff.mp hes
      obtain rfl : ending = .falls := by
        cases ending with
        | falls => rfl
        | returns value => cases value <;> cases hending
      rfl
    -- the first expression is evaluated, and a comma leads to the rest
    | cons first others =>
      have hrest : ArmValue.expression ⟨es, ending⟩ = .parens (.sequence first others) := by
        rw [ArmValue.expression, hsplit]
      have harm : arm.expression = .parens (.comma (.tree e) (.sequence first others)) := by
        rw [ArmValue.expression, ArmValue.elements_cons, hsplit]
        rfl
      have ih := congrArg (Outcome.after [e]) (ih (v.eval e s).2)
      rw [hrest] at ih
      rw [harm]
      exact ih

/-- The execution of a branch does what its expression does, and returns its value if it returns. -/
theorem Runs.execute?_eq {ts es : List Tree} {ending : Ending} (h : Runs ts es ending) (s : σ) :
    let arm : ArmValue := ⟨es, ending⟩
    execute? v nothing ts s = some ((arm.expression.run v nothing s).asStatement arm.isReturn) := by
  intro arm
  rw [h.execute?_eq_ending, ArmValue.run_expression]

/-- The test of a conditional is evaluated like the test it is made from. -/
theorem Conditional.run_test (hv : v.Lawful) (t : Tree) (s : σ) :
    (test t).run v nothing s = ⟨(v.eval t s).1, [t.unwrapParens], (v.eval t s).2⟩ := by
  rw [← Valuation.eval_unwrapParens hv t]
  exact Expression.run_wrapped v nothing t.unwrapParens s

/-- The statements of the branch that is taken, none if there is no such branch. -/
def Choice.statements (choice : Choice (Option Tree) σ) : List Tree :=
  choice.chosen.toList.flatMap Tree.statements

/-- The expression evaluates the tests up to the first that holds, and then does what the branch
does. -/
theorem Conditional.run_nest (hv : v.Lawful) {branches : List Branch}
    {shown : List (Tree × ArmValue)} {otherwise : Option Tree} {last : Expression} {returned : Bool}
    (hbranches : List.Forall₂ (fun branch (b : Tree × ArmValue) =>
      b.1 = branch.condition ∧ branch.body.RunsAs b.2) branches shown)
    (hreturn : ∀ b ∈ shown, b.2.isReturn = returned)
    (hlast : ∀ s, execute? v nothing (otherwise.toList.flatMap Tree.statements) s =
      some ((last.run v nothing s).asStatement returned)) (s : σ) :
    let choice := choose v otherwise branches s
    let outcome := (nest shown last).run v nothing s
    ∃ result, execute? v nothing choice.statements choice.state = some result ∧
      outcome.evaluated = choice.tested ++ result.evaluated ∧ outcome.state = result.state ∧
      result.value = if returned then some outcome.value else none := by
  induction hbranches generalizing s with
  | nil => exact ⟨_, hlast s, rfl, rfl, rfl⟩
  | @cons branch b branches shown hb hrest ih =>
    obtain ⟨hcondition, hruns⟩ := hb
    obtain ⟨hfirst, hreturn⟩ := List.forall_mem_cons.mp hreturn
    -- a test is evaluated without its parentheses, which makes no difference
    have htest : (test b.1).run v nothing s =
        ⟨(v.eval branch.condition s).1, [branch.condition.unwrapParens],
          (v.eval branch.condition s).2⟩ := by
      rw [hcondition, run_test nothing hv]
    have hrun : (nest (b :: shown) last).run v nothing s =
        if v.holds (v.eval branch.condition s).1 then
          (b.2.expression.run v nothing (v.eval branch.condition s).2).after
            [branch.condition.unwrapParens]
        else
          ((nest shown last).run v nothing (v.eval branch.condition s).2).after
            [branch.condition.unwrapParens] := by
      show Expression.run v nothing (.conditional (test b.1) b.2.expression (nest shown last)) s = _
      rw [Expression.run, htest]
    intro choice outcome
    simp only [outcome, choice, hrun, choose]
    -- the test has been evaluated on both sides, so the state is the same whichever way it goes
    split
    case isTrue =>
      have hbody := hruns.execute?_eq (v := v) nothing (v.eval branch.condition s).2
      simp only [hfirst] at hbody
      exact ⟨_, by simpa [Choice.statements] using hbody, rfl, rfl, rfl⟩
    case isFalse =>
      obtain ⟨result, hexecute, hevaluated, hstate, hvalue⟩ :=
        ih hreturn (v.eval branch.condition s).2
      exact ⟨result, hexecute, congrArg (branch.condition.unwrapParens :: ·) hevaluated,
        hstate, hvalue⟩

end

/-- The expression does what the `if` does: the `if` takes one branch, and the execution of that
branch evaluates, behind the tests that led to it, what the expression evaluates. If the branches
return, the expression has the value that is returned. -/
def Expression.Mirrors (e : Expression) (t : Tree) (returned : Bool) : Prop :=
  ∀ {α σ : Type} {v : Valuation α σ}, v.Lawful → ∀ (nothing : Value α) (s : σ), ∃ choice result,
    (∀ c, Takes v .statement t s c ↔ c = choice) ∧
    execute? v nothing choice.statements choice.state = some result ∧
    (e.run v nothing s).evaluated = choice.tested ++ result.evaluated ∧
    (e.run v nothing s).state = result.state ∧
    result.value = if returned then some (e.run v nothing s).value else none

namespace Conditional

variable {chain : Chain} {c : Conditional} {t : Tree}

/-- Without an `else` nothing is returned. -/
theorem returned_eq_false (hconditional : chain.IsConditional c.values)
    (hreturn : ∀ arm ∈ c.values, arm.isReturn = c.returned) (hnone : chain.otherwise = none) :
    c.returned = false := by
  obtain ⟨arm, harm, _⟩ := hconditional.something
  cases hreturned : c.returned with
  | false => rfl
  | true =>
    have hcomplete := hconditional.complete ⟨arm, harm, (hreturn arm harm).trans hreturned⟩
    rw [hnone] at hcomplete
    cases hcomplete

/-- When all tests fail, the `else` does what the end of the expression does. -/
theorem execute?_otherwise {α σ : Type} {v : Valuation α σ} (hshows : c.Shows chain)
    (hconditional : chain.IsConditional c.values)
    (hreturn : ∀ arm ∈ c.values, arm.isReturn = c.returned) (nothing : Value α) (s : σ) :
    execute? v nothing (chain.otherwise.toList.flatMap Tree.statements) s =
      some ((c.last.run v nothing s).asStatement c.returned) := by
  have hotherwise := hshows.otherwise
  unfold last
  cases harm : c.otherwise with
  | none =>
    -- without an `else` no branch returns, and the expression ends in `undefined`
    have hnone : chain.otherwise = none := by
      rw [← Option.not_isSome_iff_eq_none, ← hshows.isSome_otherwise, harm]
      exact Bool.false_ne_true
    rw [hnone, returned_eq_false hconditional hreturn hnone]
    rfl
  | some arm =>
    rw [harm] at hotherwise
    obtain ⟨body, rest, hruns, hrest, hbody⟩ := List.forall₂_cons_right_iff.mp hotherwise
    cases hrest
    have harmReturn : arm.isReturn = c.returned := hreturn arm (by simp [values, harm])
    have hexecute := hruns.execute?_eq (v := v) nothing s
    simp only [harmReturn] at hexecute
    simpa [hbody] using hexecute

/-- The conditional of an `if` does what the `if` does. -/
theorem mirrors_expression (hchain : t.ifChain? = some chain) (hshows : c.Shows chain)
    (hconditional : chain.IsConditional c.values)
    (hreturn : ∀ arm ∈ c.values, arm.isReturn = c.returned) :
    c.expression.Mirrors t c.returned := by
  intro α σ v hv nothing s
  have hbranches : ∀ b ∈ c.branches, b.2.isReturn = c.returned := by
    intro b hb
    exact hreturn b.2 (List.mem_append_left _ (List.mem_map_of_mem hb))
  obtain ⟨result, hexecute, hevaluated, hstate, hvalue⟩ :=
    run_nest nothing hv hshows.branches hbranches
      (execute?_otherwise hshows hconditional hreturn nothing) s
  exact ⟨chain.choose v s, result, (ChainForm.flattens_of_ifChain? hchain).takes_iff hv s, hexecute,
    hevaluated, hstate, hvalue⟩

end Conditional

/-- An `if` that fits the text is taken exactly if its chain can be an expression. What is written
is then, apart from semicolons at the ends, a conditional expression nested to the right with a test
for each branch, behind `return` if the branches return, and it does what the `if` does. -/
theorem Transform.ifToTernary_keeps_meaning {source : String} {n : Node} {chain : Chain}
    (hn : n.Fits source) (hchain : n.tree.ifChain? = some chain) :
    ∃ answer, ifToTernary.run source n = .ok answer ∧
      (answer.isSome = true ↔ ∃ arms, chain.IsConditional arms) ∧
      ∀ replacement, answer = some replacement → ∃ arms returned e body front back,
        chain.IsConditional arms ∧ (∀ arm ∈ arms, arm.isReturn = returned) ∧
        replacement = .text (front ++ ((if returned then "return " else "") ++ body) ++ back) ∧
        front ∈ ["", ";"] ∧ back ∈ ["", ";"] ∧ e.print source = .ok body ∧ e.Delimited ∧
        Expression.RightNested chain.branches.length e ∧ e.Mirrors n.tree returned := by
  obtain ⟨answer, hanswer⟩ : Succeeds (ifToTernary.run source n) :=
    Reshaping.succeeds_ofShape fun c hc =>
      (Conditional.Fits.ofIf hn.tree hc).render.bind fun text _ => hn.guarded text
  refine ⟨answer, hanswer, ?_, ?_⟩
  · rw [← Conditional.exists_ofIf?_iff hchain]
    exact Reshaping.isSome_iff_of_ofShape hanswer
  · -- what is written is read off the accepted conditional
    rintro replacement rfl
    obtain ⟨c, text, hc, htext, rfl⟩ := Reshaping.ofShape_eq_ok_some_iff.mp hanswer
    obtain ⟨statement, hstatement, hguarded⟩ := bind_eq_ok_iff.mp htext
    obtain ⟨hshows, hconditional, first, rest, hfirst, hreturned⟩ :=
      (Conditional.ofIf?_eq_some_iff hchain).mp hc
    have hreturn := Conditional.isReturn_eq hconditional hfirst hreturned
    obtain ⟨body, hbody, rfl⟩ := Conditional.print_expression hstatement
    obtain ⟨front, back, rfl, hfront, hback⟩ := Node.of_guarded hguarded
    obtain ⟨hlast, hflat, hloose⟩ := c.delimited_last
    obtain ⟨hdelimited, _, hnested⟩ := Conditional.delimited_nest c.branches hlast hflat hloose
    rw [← hshows.branches.length_eq] at hnested
    exact ⟨c.values, c.returned, c.expression, body, front, back, hconditional, hreturn, rfl,
      hfront, hback, hbody, hdelimited, hnested,
      Conditional.mirrors_expression hchain hshows hconditional hreturn⟩

/-- `if (a) { f(); return } else return g()`. -/
def Sample.returningIf : Tree :=
  let call (start : Nat) := construct "call_expression" start (start + 3) [] []
  let body := construct "statement_block" 7 22 []
    [mark "\x7b" 7 8, construct "expression_statement" 9 13 [] [call 9, mark ";" 12 13],
      construct "return_statement" 14 20 [] [mark "return" 14 20], mark "\x7d" 21 22]
  let other := construct "else_clause" 23 38 []
    [mark "else" 23 27, construct "return_statement" 28 38 [] [mark "return" 28 34, call 35]]
  construct "if_statement" 0 38 [("condition", 1), ("consequence", 2), ("alternative", 3)]
    [mark "if" 0 2, header 3 6, body, other]

/-- A `return` without a value in one branch, with a value in the other one. -/
theorem Transform.ifToTernary_keeps_meaning_returning :
    let source := "if (a) \x7b f(); return \x7d else return g()"
    let n := Node.root Sample.returningIf
    n.Fits source ∧
      ifToTernary.run source n = .ok (some (.text "return a ? (f(), undefined) : (g())")) ∧
      ∃ chain arms returned e body front back, n.tree.ifChain? = some chain ∧
        chain.IsConditional arms ∧
        "return a ? (f(), undefined) : (g())" =
          front ++ ((if returned then "return " else "") ++ body) ++ back ∧
        e.print source = .ok body ∧ e.Delimited ∧ Expression.RightNested chain.branches.length e ∧
        e.Mirrors n.tree returned := by
  intro source n
  have hn : n.Fits source := .root (.of_fitsPlainly (by with_unfolding_all decide))
  have hrun : ifToTernary.run source n =
      .ok (some (.text "return a ? (f(), undefined) : (g())")) := by
    with_unfolding_all decide
  have hsome : n.tree.ifChain?.isSome = true := by with_unfolding_all decide
  obtain ⟨chain, hchain⟩ := Option.isSome_iff_exists.mp hsome
  obtain ⟨answer, hanswer, _, hwritten⟩ := ifToTernary_keeps_meaning hn hchain
  cases hrun.symm.trans hanswer
  obtain ⟨arms, returned, e, body, front, back, hconditional, _, htext, _, _, hprint, hdelimited,
    hnested, hmirrors⟩ := hwritten _ rfl
  exact ⟨hn, hrun, chain, arms, returned, e, body, front, back, hchain, hconditional,
    Replacement.text.inj htext, hprint, hdelimited, hnested, hmirrors⟩

end CodeActions
