import CodeActions.Text.Cut
import CodeActions.Tree.Basic

/-!
# Expressions

What the reshapings ask about expressions: what stands inside their parentheses, which operator
they have, how tightly they bind, whether their value is always a boolean, and how they are written
in a new place.
-/

namespace CodeActions.Tree

/-! ## §1 Shape -/

/-- The stretch of the source that the tree covers. -/
def text (source : String) (t : Tree) : Cut String :=
  Text.slice source t.span.start t.span.stop

/-- The expression inside any number of parentheses. Parentheses around nothing stay. -/
def unwrapParens (t : Tree) : Tree :=
  if t.kind = "parenthesized_expression" then
    match _h : t.firstCode? with
    | some inner => inner.unwrapParens
    | none => t
  else
    t
termination_by t.size
decreasing_by exact size_lt_of_firstCode? ‹_›

theorem size_unwrapParens_le (t : Tree) : t.unwrapParens.size ≤ t.size := by
  fun_induction unwrapParens t with
  | case1 t _ inner h ih => exact Nat.le_trans ih (Nat.le_of_lt (size_lt_of_firstCode? h))
  | case2 t => exact Nat.le_refl _
  | case3 t => exact Nat.le_refl _

theorem unwrapParens_of_kind_ne {t : Tree} (h : t.kind ≠ "parenthesized_expression") :
    t.unwrapParens = t := by
  rw [unwrapParens, if_neg h]

theorem unwrapParens_of_firstCode? {t inner : Tree} (hkind : t.kind = "parenthesized_expression")
    (hinner : t.firstCode? = some inner) : t.unwrapParens = inner.unwrapParens := by
  rw [unwrapParens, if_pos hkind]
  split <;> simp_all

/-- What is the same inside of parentheses and with them is the same without all of them. -/
theorem apply_unwrapParens {β : Type} {f : Tree → β}
    (h : ∀ ⦃t inner : Tree⦄, t.kind = "parenthesized_expression" → t.firstCode? = some inner →
      f t = f inner)
    (t : Tree) : f t.unwrapParens = f t := by
  fun_induction unwrapParens t with
  | case1 t hkind inner hinner ih => rw [ih, h hkind hinner]
  | case2 t => rfl
  | case3 t => rfl

theorem unwrapParens_unwrapParens (t : Tree) : t.unwrapParens.unwrapParens = t.unwrapParens :=
  apply_unwrapParens (fun _ _ => unwrapParens_of_firstCode?) t

/-- The operator of a unary or binary expression. -/
def operator? (t : Tree) : Option String := (t.field? "operator").map kind

mutual

/-- The elements of a comma sequence, those of inner sequences in their place. Any other expression
is its only element. -/
def sequence : Tree → List Tree
  | node label fields children =>
    if label.kind = "sequence_expression" then sequenceAll children
    else [node label fields children]

/-- The elements of all the expressions among the trees. -/
def sequenceAll : List Tree → List Tree
  | [] => []
  | t :: ts => (if t.isCode then t.sequence else []) ++ sequenceAll ts

end

/-- The first token of the tree. -/
def leftmost : Tree → Tree
  | node label fields [] => node label fields []
  | node _ _ (t :: _) => t.leftmost

/-- The first child is the keyword `async`. -/
def isAsync (t : Tree) : Bool :=
  match t.children with
  | first :: _ => first.kind == "async"
  | [] => false

/-! ## §2 Binding -/

/-- The kinds of expressions that bind looser than any binary operator. -/
def assignmentLevelKinds : List String :=
  ["assignment_expression", "augmented_assignment_expression", "ternary_expression",
   "sequence_expression", "arrow_function", "yield_expression"]

/-- The kinds of expressions that can follow a unary operator without parentheses. -/
def primaryKinds : List String :=
  ["identifier", "member_expression", "subscript_expression", "call_expression",
   "parenthesized_expression", "non_null_expression", "this", "super", "number", "string",
   "template_string", "true", "false", "null", "undefined", "array"]

/-- The expression can follow a unary operator without parentheses. -/
def isPrimary (t : Tree) : Bool := primaryKinds.contains t.kind

/-- The places for a left operand that the reshapings fill. -/
inductive OperandOf where
  | and
  | or
  /-- The test of a conditional expression. -/
  | conditional
  deriving Repr, DecidableEq

/-- The operators of binary expressions that bind looser than the place allows. -/
def OperandOf.looserOperators : OperandOf → List String
  | .and => ["||", "??"]
  | .or => ["??"]
  | .conditional => []

/-- The expression would be torn apart as a left operand there. -/
def bindsLooser (t : Tree) (place : OperandOf) : Bool :=
  assignmentLevelKinds.contains t.kind ||
    (t.kind == "binary_expression" &&
      match t.operator? with
      | some operator => place.looserOperators.contains operator
      | none => false)

/-- An expression's text, in parentheses if they are asked for. -/
def textIn (source : String) (parens : Bool) (t : Tree) : Cut String := do
  let body ← t.text source
  return if parens then "(" ++ body ++ ")" else body

/-- The expression as a left operand, with the parentheses that it needs and no others. -/
def asOperand (source : String) (place : OperandOf) (t : Tree) : Cut String :=
  t.unwrapParens.textIn source (t.unwrapParens.bindsLooser place)

/-- The tokens that would make an expression at the start of a statement something else. -/
def statementKeywords : List String := ["\x7b", "function", "class", "async"]

/-- The expression as a statement, in parentheses if it would be taken for something else. -/
def asStatement (source : String) (t : Tree) : Cut String :=
  t.textIn source (statementKeywords.contains t.leftmost.kind)

/-- The expression behind a number of `!`, in parentheses unless it is primary. -/
def negated (source : String) (marks : String) (t : Tree) : Cut String := do
  return marks ++ (← t.textIn source !t.isPrimary)

/-! ## §3 Booleans -/

/-- The operators whose value is always a boolean. -/
def comparisonOperators : List String :=
  ["==", "===", "!=", "!==", "<", ">", "<=", ">=", "instanceof", "in"]

/-- The value of the expression is always a boolean. -/
def isBooleanValued (t : Tree) : Bool :=
  let inner := t.unwrapParens
  if inner.kind = "true" ∨ inner.kind = "false" then
    true
  else if inner.kind = "unary_expression" then
    inner.operator? == some "!"
  else if inner.kind = "binary_expression" then
    match inner.operator? with
    | none => false
    | some operator =>
      if comparisonOperators.contains operator then
        true
      else if operator = "&&" ∨ operator = "||" then
        match _hl : inner.field? "left", _hr : inner.field? "right" with
        | some left, some right => left.isBooleanValued && right.isBooleanValued
        | _, _ => false
      else
        false
  else
    false
termination_by t.size
decreasing_by
  · exact Nat.lt_of_lt_of_le (size_lt_of_field? _hl) (size_unwrapParens_le t)
  · exact Nat.lt_of_lt_of_le (size_lt_of_field? _hr) (size_unwrapParens_le t)

/-- The condition as an expression whose value is a boolean, true exactly when the condition
holds. -/
def asBoolean (source : String) (t : Tree) : Cut String :=
  if t.unwrapParens.isBooleanValued then t.unwrapParens.text source
  else t.unwrapParens.negated source "!!"

end CodeActions.Tree
