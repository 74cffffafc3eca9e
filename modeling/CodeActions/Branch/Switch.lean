import CodeActions.Branch.Chain
import CodeActions.Transform
import CodeActions.Tree.Search
import CodeActions.Tree.Statement

/-!
# `switch` statements from chains

A chain of tests is a `switch` on `true` whose cases are the tests as booleans. If all tests compare
one expression, it is also a `switch` on that expression. A chain of statements becomes the
statement itself; a chain of expressions becomes a function that returns from every section and is
called on the spot.
-/

namespace CodeActions

/-- What the discriminant is compared with in a section. -/
inductive CaseTest where
  /-- A condition as a boolean. -/
  | truth (condition : Tree)
  /-- An expression as it is written. -/
  | value (label : Tree)
  deriving Repr

/-- One section of a `switch`; the default section has no test. -/
structure Section where
  test : Option CaseTest
  /-- The statement or expression of the branch that the section stands for. -/
  body : Tree
  deriving Repr

/-- A `switch` that is to be written. -/
structure Switch where
  /-- What is compared; `true` if there is no expression. -/
  discriminant : Option Tree
  sections : List Section
  deriving Repr

namespace Switch

/-! ## §1 Shapes -/

/-- A chain as a `switch` on `true`. -/
def onTruth (chain : Chain) : Switch where
  discriminant := none
  sections := chain.branches.map (fun branch => ⟨some (.truth branch.condition), branch.body⟩) ++
    chain.otherwise.toList.map fun body => ⟨none, body⟩

/-- A chain of equality tests as a `switch` on the compared expression. -/
def onValue (tests : EqualityTests) (chain : Chain) : Switch where
  discriminant := some tests.value
  sections :=
    chain.branches.zipWith (fun branch label => ⟨some (.value label), branch.body⟩) tests.labels ++
      chain.otherwise.toList.map fun body => ⟨none, body⟩

/-- The chain of an `if` statement, unless a `switch` would catch a `break` in it. -/
def statementChain? (t : Tree) : Option Chain := do
  let chain ← t.ifChain?
  if chain.bodies.any Tree.hasFreeBreak then none else some chain

/-- The chain of a conditional expression, unless a function would cut off an `await` or `yield`. -/
def expressionChain? (t : Tree) : Option Chain :=
  if t.hasSuspension then none else t.ternaryChain?

end Switch

/-! ## §2 Writing -/

/-- The text after `case`. -/
def CaseTest.render (source : String) : CaseTest → Cut String
  | .truth condition => condition.asBoolean source
  | .value label => label.text source

namespace Section

/-- The line that opens the section. -/
def header (source : String) (s : Section) : Cut String :=
  match s.test with
  | some test => do return "case " ++ (← test.render source) ++ ":\n"
  | none => return "default:\n"

/-- The statements need a block, because they declare something. -/
def isScoped (s : Section) : Bool := s.body.statements.any Tree.isDeclaration

/-- Control would go on into the next section. The default section is the last one. -/
def needsBreak (s : Section) : Bool :=
  s.test.isSome && !s.body.statements.getLast?.any Tree.isJump

/-- The statements of the section, one after the other. -/
def statementsText (source : String) (s : Section) : Cut String := do
  if s.isScoped then
    return "\x7b\n" ++ (← Tree.joinTexts source "\n" s.body.statements) ++ "\n\x7d\n"
  if s.body.statements.isEmpty then
    return ""
  return (← Tree.joinTexts source "\n" s.body.statements) ++ "\n"

/-- The section with its statements, left by a jump. -/
def renderStatements (source : String) (s : Section) : Cut String := do
  return (← s.header source) ++ (← s.statementsText source) ++
    (if s.needsBreak then "break\n" else "")

/-- The section with the return of its expression. -/
def renderReturn (source : String) (s : Section) : Cut String := do
  return (← s.header source) ++ "return (" ++ (← s.body.unwrapParens.text source) ++ ")\n"

end Section

namespace Switch

/-- The opening line. -/
def header (source : String) (s : Switch) : Cut String := do
  let discriminant ← match s.discriminant with
    | some value => value.text source
    | none => pure "true"
  return "switch (" ++ discriminant ++ ") \x7b\n"

/-- The `switch` as a statement. -/
def renderStatement (source : String) (s : Switch) : Cut String := do
  let header ← s.header source
  let sections ← s.sections.mapM (Section.renderStatements source)
  return header ++ String.join sections ++ "\x7d"

/-- The `switch` as an expression: a function called on the spot. -/
def renderExpression (source : String) (s : Switch) : Cut String := do
  let header ← s.header source
  let sections ← s.sections.mapM (Section.renderReturn source)
  return "(() => \x7b\n" ++ header ++ String.join sections ++ "\x7d\n\x7d)()"

/-- What becomes of a chain that consists of equality tests. -/
def reshapeOnValue (source : String) (chain : Option Chain) (render : Switch → Cut String) :
    Reshaping :=
  match chain with
  | none => return none
  | some chain => do
    let tests ← chain.equalityTests? source
    Reshaping.ofShape (tests.map fun tests => onValue tests chain) render

end Switch

/-! ## §3 Transforms -/

namespace Transform

/-- An `if` becomes a `switch` on `true`. -/
def ifToSwitch : Transform where
  name := "if_to_switch"
  description := "Rewrite an if/else chain as switch (true)"
  run source n :=
    Reshaping.ofShape ((Switch.statementChain? n.tree).map Switch.onTruth)
      (Switch.renderStatement source)

/-- An `if` that compares one expression becomes a `switch` on it. -/
def ifToSwitchOnValue : Transform where
  name := "if_to_switch_on_value"
  description := "Rewrite equality tests against one value as a switch on that value"
  run source n :=
    Switch.reshapeOnValue source (Switch.statementChain? n.tree) (Switch.renderStatement source)

/-- A conditional expression becomes a `switch` on `true`. -/
def ternaryToSwitch : Transform where
  name := "ternary_to_switch"
  description := "Rewrite a conditional chain as an inline switch (true)"
  run source n :=
    Reshaping.ofShape ((Switch.expressionChain? n.tree).map Switch.onTruth)
      (Switch.renderExpression source)

/-- A conditional expression that compares one expression becomes a `switch` on it. -/
def ternaryToSwitchOnValue : Transform where
  name := "ternary_to_switch_on_value"
  description := "Rewrite a conditional chain of equality tests as an inline switch"
  run source n :=
    Switch.reshapeOnValue source (Switch.expressionChain? n.tree) (Switch.renderExpression source)

end Transform

end CodeActions
