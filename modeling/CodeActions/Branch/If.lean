import CodeActions.Branch.Chain
import CodeActions.Branch.ShortCircuit

/-!
# `if` statements from expressions

A short circuit and a conditional expression that stand as statements are `if` statements in
disguise. Each comma sequence in them becomes a block with one statement to a line.
-/

namespace CodeActions

/-- When a branch of the statement is taken. -/
inductive Test where
  /-- If the expression holds. -/
  | holds (condition : Tree)
  /-- If it does not. -/
  | fails (condition : Tree)
  deriving Repr

/-- One line of a block. -/
inductive Line where
  | statement (expression : Tree)
  /-- The expression is returned. -/
  | result (expression : Tree)
  deriving Repr

/-- An `if` statement that is to be written. -/
structure IfStatement where
  branches : List (Test × List Line)
  otherwise : Option (List Line)
  deriving Repr

/-! ## §1 Writing -/

/-- The test between its parentheses. -/
def Test.render (source : String) : Test → Cut String
  | .holds condition => condition.text source
  | .fails condition => condition.negated source "!"

/-- The line without its end. -/
def Line.render (source : String) : Line → Cut String
  | .statement expression => expression.asStatement source
  | .result expression => do return "return " ++ (← expression.text source)

/-- A block with one statement to a line. -/
def Line.block (source : String) (lines : List Line) : Cut String := do
  return "\x7b\n" ++ "\n".intercalate (← lines.mapM (Line.render source)) ++ "\n\x7d"

namespace IfStatement

/-- `if (…) {…} else if (…) {…} else {…}`. -/
def render (source : String) (s : IfStatement) : Cut String := do
  let branches ← s.branches.mapM fun (test, lines) => do
    return "if (" ++ (← test.render source) ++ ") " ++ (← Line.block source lines)
  let otherwise ← s.otherwise.toList.mapM (Line.block source)
  return " else ".intercalate (branches ++ otherwise)

/-! ## §2 Shapes -/

/-- The elements of an expression as statements. -/
def lines (expression : Tree) : List Line := expression.unwrapParens.sequence.map .statement

/-- The elements of an expression as statements, the last one returned. -/
def returningLines (expression : Tree) : List Line :=
  let elements := expression.unwrapParens.sequence
  elements.dropLast.map .statement ++ elements.getLast?.toList.map .result

/-- The statement for a short circuit. -/
def ofShortCircuit? (t : Tree) : Option IfStatement := do
  if t.kind = "binary_expression" then
    let operator ← Logical.ofSymbol? (← t.operator?)
    let left := (← t.field? "left").unwrapParens
    let right ← t.field? "right"
    let test := match operator with
      | .and => Test.holds left
      | .or => Test.fails left
    return ⟨[(test, lines right)], none⟩
  else
    none

/-- The statement for a chain, given what becomes of the bodies. -/
def ofChain (body : Tree → List Line) (chain : Chain) : IfStatement where
  branches := chain.branches.map fun branch => (.holds branch.condition, body branch.body)
  otherwise := chain.otherwise.map body

/-- The chain without an `else` that is only `undefined`. -/
def dropUndefined (chain : Chain) : Chain :=
  { chain with
    otherwise := chain.otherwise.filter fun body => body.unwrapParens.kind != "undefined" }

/-- The statement for a conditional expression. -/
def ofTernary? (t : Tree) : Option IfStatement :=
  t.ternaryChain?.map fun chain => ofChain lines (dropUndefined chain)

/-- The statement for the return of a conditional expression. -/
def ofReturn? (t : Tree) : Option IfStatement := do
  if t.kind = "return_statement" then
    let value := (← t.firstCode?).unwrapParens
    return ofChain returningLines (← value.ternaryChain?)
  else
    none

end IfStatement

/-! ## §3 Transforms -/

namespace Transform

/-- A short circuit becomes an `if`. -/
def binaryToIf : Transform where
  name := "binary_to_if"
  description := "Rewrite a short-circuit expression as an if statement"
  run source n := Reshaping.ofShape (IfStatement.ofShortCircuit? n.tree) (IfStatement.render source)

/-- A conditional expression becomes an `if`. -/
def ternaryToIf : Transform where
  name := "ternary_to_if"
  description := "Rewrite a conditional expression as an if/else chain"
  run source n := Reshaping.ofShape (IfStatement.ofTernary? n.tree) (IfStatement.render source)

/-- The return of a conditional expression becomes an `if` that returns from every branch. -/
def returnTernaryToIf : Transform where
  name := "return_ternary_to_if"
  description := "Rewrite a returned conditional expression as an if/else chain of returns"
  run source n := Reshaping.ofShape (IfStatement.ofReturn? n.tree) (IfStatement.render source)

end Transform

end CodeActions
