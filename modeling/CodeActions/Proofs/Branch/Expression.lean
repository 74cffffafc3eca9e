import CodeActions.Proofs.Branch.Valuation
import CodeActions.Proofs.Text.Slice
import CodeActions.Tree.Statement

/-!
# Expressions that are written anew

A conditional expression made from an `if` is written around expressions that are taken over from
the text. Such an expression has a printed form, in which it must not fall apart, and it is
evaluated like the expressions it is made of: from left to right, with one of the two sides of a
conditional left out.

The statements that it is made from are executed one after the other, up to a `return`. So are
statements that are themselves written anew.

Main definitions: `Expression` with its printed form and its evaluation, `execute?` and `Written`.
Main statement: `Expression.print_sequence`, elements are joined by commas.
-/

namespace CodeActions

/-! ## §1 Printing -/

/-- An expression around expressions of the text. -/
inductive Expression where
  /-- Taken over from the text as it is. -/
  | tree (t : Tree)
  | undefined
  | parens (e : Expression)
  | comma (first rest : Expression)
  | conditional (test consequence alternative : Expression)
  deriving Repr

namespace Expression

/-- The printed form. -/
def print (source : String) : Expression → Cut String
  | tree t => t.text source
  | undefined => return "undefined"
  | parens e => do return "(" ++ (← e.print source) ++ ")"
  | comma first rest => do return (← first.print source) ++ ", " ++ (← rest.print source)
  | conditional test consequence alternative => do
    return (← test.print source) ++ " ? " ++ (← consequence.print source) ++ " : " ++
      (← alternative.print source)

/-- The kinds of expressions that cannot be the test of a conditional without parentheses. -/
def looseKinds : List String :=
  ["arrow_function", "assignment_expression", "augmented_assignment_expression",
    "ternary_expression", "yield_expression"]

/-- How loosely the expression binds: 2 for a comma, 1 for what cannot be a test, 0 for what can be
one. -/
def looseness : Expression → Nat
  | tree t =>
      if t.kind = "sequence_expression" then 2 else if looseKinds.contains t.kind then 1 else 0
  | undefined | parens _ => 0
  | comma _ _ => 2
  | conditional _ _ _ => 1

/-- The printed form does not fall apart in another way. A comma sequence in a comma sequence needs
no parentheses, since the order of evaluation is the same. -/
def Delimited : Expression → Prop
  | tree _ | undefined => True
  | parens e => e.Delimited
  | comma first rest => first.Delimited ∧ rest.Delimited
  | conditional test consequence alternative =>
    (test.looseness = 0 ∧ consequence.looseness ≤ 1 ∧ alternative.looseness ≤ 1) ∧
      test.Delimited ∧ consequence.Delimited ∧ alternative.Delimited

/-- The kinds of expressions that bind looser than a `!`, apart from those that bind looser than any
operator. -/
def operatorKinds : List String := ["binary_expression", "as_expression", "satisfies_expression"]

/-- A `!` in front of the expression is in front of all of it. -/
structure FollowsNot (e : Expression) : Prop where
  tight : e.looseness = 0
  noOperator : ∀ t, e = .tree t → t.kind ∉ operatorKinds

/-- There is no conditional in the expression, apart from those taken over from the text. -/
def IsFlat : Expression → Prop
  | tree _ | undefined => True
  | parens e => e.IsFlat
  | comma first rest => first.IsFlat ∧ rest.IsFlat
  | conditional _ _ _ => False

/-- So many conditionals, each of them but the first being the last part of the one before. -/
inductive RightNested : Nat → Expression → Prop where
  | last {e : Expression} (flat : e.IsFlat) : RightNested 0 e
  | conditional {n : Nat} {test consequence alternative : Expression} (test_flat : test.IsFlat)
      (consequence_flat : consequence.IsFlat) (rest : RightNested n alternative) :
      RightNested (n + 1) (conditional test consequence alternative)

/-- Elements with commas between them. -/
def sequence (first : Expression) : List Expression → Expression
  | [] => first
  | next :: rest => comma first (sequence next rest)

/-- The printed elements are joined by commas. -/
theorem print_sequence {source text : String} {first : Expression} {rest : List Expression}
    {texts : List String} (htext : first.print source = .ok text)
    (htexts : rest.mapM (print source) = .ok texts) :
    (sequence first rest).print source = .ok (", ".intercalate (text :: texts)) := by
  -- the second element is the first of the rest
  induction rest generalizing first text texts with
  | nil =>
    cases htexts
    simpa [sequence] using htext
  | cons next rest ih =>
    rw [List.mapM_cons] at htexts
    obtain ⟨text', htext', htexts⟩ := bind_eq_ok_iff.mp htexts
    obtain ⟨texts', htexts', h⟩ := bind_eq_ok_iff.mp htexts
    cases h
    rw [sequence, print, htext, ih htext' htexts', String.intercalate_cons_cons]
    rfl

/-- What commas keep holds of a sequence if it holds of its elements. -/
theorem sequence_induction {P : Expression → Prop}
    (hcomma : ∀ {first rest}, P first → P rest → P (comma first rest))
    {first : Expression} {rest : List Expression} (hfirst : P first) (hrest : ∀ e ∈ rest, P e) :
    P (sequence first rest) := by
  induction rest generalizing first with
  | nil => exact hfirst
  | cons next rest ih =>
    obtain ⟨hnext, hrest⟩ := List.forall_mem_cons.mp hrest
    exact hcomma hfirst (ih hnext hrest)

end Expression

/-! ## §2 Evaluation -/

/-- What comes of an evaluation or an execution: its value, the expressions of the text that were
evaluated, in order, and the state behind it. -/
structure Outcome (β σ : Type) where
  value : β
  evaluated : List Tree
  state : σ
  deriving Repr

/-- The outcome after some more evaluations, which come first. -/
def Outcome.after {β σ : Type} (trees : List Tree) (o : Outcome β σ) : Outcome β σ :=
  { o with evaluated := trees ++ o.evaluated }

/-- The outcome of a statement that evaluates the expression, and returns its value or drops it. -/
def Outcome.asStatement {β σ : Type} (o : Outcome β σ) (returned : Bool) : Outcome (Option β) σ :=
  { o with value := if returned then some o.value else none }

section

variable {α σ : Type} (v : Valuation α σ) (nothing : Value α)

/-- An expression of the text is evaluated. -/
def Valuation.outcome (t : Tree) (s : σ) : Outcome (Value α) σ :=
  ⟨(v.eval t s).1, [t], (v.eval t s).2⟩

/-- The state behind the expressions, evaluated one after the other. -/
def Valuation.stateAfter (ts : List Tree) (s : σ) : σ := ts.foldl (fun s t => (v.eval t s).2) s

@[simp] theorem Valuation.stateAfter_nil (s : σ) : v.stateAfter [] s = s := rfl

@[simp] theorem Valuation.stateAfter_cons (t : Tree) (ts : List Tree) (s : σ) :
    v.stateAfter (t :: ts) s = v.stateAfter ts (v.eval t s).2 := rfl

@[simp] theorem Valuation.stateAfter_append (ts us : List Tree) (s : σ) :
    v.stateAfter (ts ++ us) s = v.stateAfter us (v.stateAfter ts s) := List.foldl_append

/-- The evaluation of an expression, where `undefined` has the given value. -/
def Expression.run : Expression → σ → Outcome (Value α) σ
  | tree t, s => v.outcome t s
  | undefined, s => ⟨nothing, [], s⟩
  -- parentheses hold the printed form together and are not evaluated
  | parens e, s => e.run s
  | comma first rest, s => (rest.run (first.run s).state).after (first.run s).evaluated
  | conditional test consequence alternative, s =>
    if v.holds (test.run s).value then
      (consequence.run (test.run s).state).after (test.run s).evaluated
    else (alternative.run (test.run s).state).after (test.run s).evaluated

/-- The execution of statements that are expressions or returns. The value is that of a `return`.
Other statements are not accounted for. -/
def execute? : List Tree → σ → Option (Outcome (Option (Value α)) σ)
  | [], s => some ⟨none, [], s⟩
  | t :: ts, s =>
    if t.kind = "return_statement" then
      -- what stands behind a `return` is not reached
      match t.firstCode? with
      | none => some ⟨some nothing, [], s⟩
      | some e => some ⟨some (v.eval e s).1, [e], (v.eval e s).2⟩
    else
      match t.statementExpression? with
      | none => none
      | some e => (execute? ts (v.eval e s).2).map (Outcome.after [e])

end

/-! ## §3 Expressions in parentheses -/

namespace Expression

/-- An expression of the text, in parentheses if they are asked for. -/
def wrapped (inParens : Bool) (t : Tree) : Expression :=
  if inParens then .parens (.tree t) else .tree t

variable {inParens : Bool}

/-- The printed form is what is written for the expression with the same parentheses. -/
theorem print_wrapped (source : String) (t : Tree) :
    (wrapped inParens t).print source = t.textIn source inParens := by
  unfold wrapped Tree.textIn
  cases inParens with
  | true => rfl
  | false =>
    rw [if_neg Bool.false_ne_true, print]
    exact (bind_pure _).symm

theorem delimited_wrapped (t : Tree) : (wrapped inParens t).Delimited := by
  cases inParens <;> trivial

theorem isFlat_wrapped (t : Tree) : (wrapped inParens t).IsFlat := by
  cases inParens <;> trivial

@[simp] theorem run_wrapped {α σ : Type} (v : Valuation α σ) (nothing : Value α) (t : Tree)
    (s : σ) : (wrapped inParens t).run v nothing s = v.outcome t s := by
  cases inParens <;> rfl

/-- Only what binds loosely is loose. -/
theorem looseness_tree {t : Tree} (hkind : t.kind ∉ "sequence_expression" :: looseKinds) :
    (tree t).looseness = 0 := by
  obtain ⟨hsequence, hloose⟩ := not_or.mp (mt List.mem_cons.mpr hkind)
  rw [looseness, if_neg hsequence, if_neg]
  exact fun h => hloose (List.contains_iff_mem.mp h)

/-- A left operand in the parentheses that it needs is not loose. -/
theorem looseness_operand (t : Tree) (place : Tree.OperandOf) :
    (wrapped (t.bindsLooser place) t).looseness = 0 := by
  cases hbinds : t.bindsLooser place with
  | true => rfl
  | false =>
    -- whatever is loose is on the assignment level, and that would have asked for parentheses
    have hkinds : ∀ kind ∈ "sequence_expression" :: looseKinds,
        kind ∈ Tree.assignmentLevelKinds := by decide
    apply looseness_tree
    intro hmem
    simp [Tree.bindsLooser, hkinds _ hmem] at hbinds

/-- Behind a `!` only a primary expression is without parentheses. -/
theorem followsNot_wrapped (t : Tree) : (wrapped (!t.isPrimary) t).FollowsNot := by
  cases hprimary : t.isPrimary with
  | false => exact ⟨rfl, nofun⟩
  | true =>
    -- no primary expression is among those that bind looser
    have hmem : t.kind ∈ Tree.primaryKinds := List.contains_iff_mem.mp hprimary
    have hloose : ∀ kind ∈ Tree.primaryKinds, kind ∉ "sequence_expression" :: looseKinds := by
      decide
    have hoperator : ∀ kind ∈ Tree.primaryKinds, kind ∉ operatorKinds := by decide
    refine ⟨looseness_tree (hloose _ hmem), ?_⟩
    intro u hu
    cases hu
    exact hoperator _ hmem

end Expression

/-! ## §4 Statements -/

/-- A statement that is written anew. -/
inductive Written where
  /-- An expression that is evaluated. -/
  | effect (e : Expression)
  /-- The return of an expression. -/
  | result (e : Expression)
  deriving Repr

namespace Written

/-- The printed form, without a semicolon. -/
def print (source : String) : Written → Cut String
  | effect e => e.print source
  | result e => do return "return " ++ (← e.print source)

/-- The words with which something else begins than an expression, or may begin. -/
def otherOpenings : List String := ["\x7b", "function", "class", "async"]

/-- The printed form is not taken for something else than a statement with this expression. -/
def StandsAlone : Written → Prop
  | effect (.tree t) => t.leftmost.kind ∉ otherOpenings
  | effect _ | result _ => True

/-- The execution of statements, up to the first that returns. The value is that of a `return`. -/
def execute {α σ : Type} (v : Valuation α σ) (nothing : Value α) :
    List Written → σ → Outcome (Option (Value α)) σ
  | [], s => ⟨none, [], s⟩
  | effect e :: rest, s =>
      (execute v nothing rest (e.run v nothing s).state).after (e.run v nothing s).evaluated
  | result e :: _, s => (e.run v nothing s).asStatement true

/-- The statement that evaluates an expression of the text. -/
def ofTree (t : Tree) : Written :=
  effect (.wrapped (Tree.statementKeywords.contains t.leftmost.kind) t)

theorem print_ofTree (source : String) (t : Tree) :
    (ofTree t).print source = t.asStatement source :=
  Expression.print_wrapped source t

theorem mapM_print_ofTree (source : String) (es : List Tree) :
    (es.map ofTree).mapM (print source) = es.mapM (Tree.asStatement source) := by
  rw [List.mapM_map]
  congr 1
  exact funext (print_ofTree source)

/-- In its parentheses the expression is not taken for anything else. -/
theorem standsAlone_ofTree (t : Tree) : (ofTree t).StandsAlone := by
  -- whatever begins like something else is put in parentheses
  have hwords : ∀ kind ∈ otherOpenings, kind ∈ Tree.statementKeywords := by decide
  unfold ofTree Expression.wrapped
  split
  case isTrue => trivial
  case isFalse hkind => exact fun hmem => hkind (List.contains_iff_mem.mpr (hwords _ hmem))

end Written

end CodeActions
