import CodeActions.Text.Blank
import CodeActions.Tree.Expression

/-!
# Chains of branches

`if (a) … else if (b) … else …` nests one statement in the other, and so do conditional expressions.
A chain is the flat view of such a nest: branches that are tried in order, and what is done when
none of them is taken.
-/

namespace CodeActions

/-- A branch and the test that guards it. -/
structure Branch where
  /-- The test without parentheses around it. -/
  condition : Tree
  /-- A statement, or an expression in a chain of conditional expressions. -/
  body : Tree
  deriving Repr, Inhabited

/-- Branches tried in order, and the body that is left when none is taken. -/
structure Chain where
  branches : List Branch
  otherwise : Option Tree
  deriving Repr, Inhabited

/-- The chain with one more branch tried first. -/
def Chain.cons (branch : Branch) (chain : Chain) : Chain :=
  { chain with branches := branch :: chain.branches }

/-- All bodies of the chain in order. -/
def Chain.bodies (chain : Chain) : List Tree :=
  chain.branches.map Branch.body ++ chain.otherwise.toList

namespace Tree

/-- The test and the body of a statement or expression that has both. -/
def branch? (t : Tree) : Option Branch := do
  return ⟨(← t.field? "condition").unwrapParens, ← t.field? "consequence"⟩

/-- The chain of an `if` statement. An `else` without a statement is no chain. -/
def ifChain? (t : Tree) : Option Chain :=
  if t.kind = "if_statement" then
    match t.branch? with
    | none => none
    | some branch =>
      match _h : t.field? "alternative" with
      | none => some ⟨[branch], none⟩
      | some clause =>
        match _h' : clause.firstCode? with
        | none => none
        | some statement =>
          if statement.kind = "if_statement" then statement.ifChain?.map (·.cons branch)
          else some ⟨[branch], some statement⟩
  else
    none
termination_by t.size
decreasing_by exact Nat.lt_trans (size_lt_of_firstCode? _h') (size_lt_of_field? _h)

/-- The chain of a conditional expression. What is left at its end keeps its parentheses. -/
def ternaryChain? (t : Tree) : Option Chain :=
  if t.kind = "ternary_expression" then
    match t.branch? with
    | none => none
    | some branch =>
      match _h : t.field? "alternative" with
      | none => none
      | some alternative =>
        if alternative.unwrapParens.kind = "ternary_expression" then
          alternative.unwrapParens.ternaryChain?.map (·.cons branch)
        else
          some ⟨[branch], some alternative⟩
  else
    none
termination_by t.size
decreasing_by exact Nat.lt_of_le_of_lt (size_unwrapParens_le alternative) (size_lt_of_field? _h)

end Tree

/-! ## §1 Equality tests -/

/-- The one expression that all tests of a chain compare, and what each compares it with. -/
structure EqualityTests where
  /-- The compared expression as the first test has it. -/
  value : Tree
  labels : List Tree
  deriving Repr, Inhabited

/-- The two sides of a test for equality, the left one without parentheses. -/
def Tree.equality? (t : Tree) : Option (Tree × Tree) := do
  if t.kind = "binary_expression" ∧ (t.operator? = some "==" ∨ t.operator? = some "===") then
    return ((← t.field? "left").unwrapParens, ← t.field? "right")
  else
    none

/-- The texts are the same but for white space. -/
def Text.sameTokens (s t : String) : Bool := squash s.toList == squash t.toList

/-- The equality tests that the branches consist of, if they all compare expressions that are
written alike. -/
def Chain.equalityTests? (source : String) (chain : Chain) : Cut (Option EqualityTests) :=
  match chain.branches.mapM fun branch => branch.condition.equality? with
  -- one test of another kind spoils the chain
  | none | some [] => return none
  | some ((value, label) :: rest) => do
    let first ← value.text source
    let others ← rest.mapM fun (other, _) => other.text source
    if others.all fun other => Text.sameTokens first other then
      return some ⟨value, label :: rest.map Prod.snd⟩
    return none

end CodeActions
