import CodeActions.Tree.Basic

/-!
# Statements

What the reshapings ask about statements: what a body consists of, which expression a statement
carries, and whether it declares something or jumps away.
-/

namespace CodeActions.Tree

/-- The statements of a body: what a block holds, comments included, or the one statement itself. -/
def statements (body : Tree) : List Tree :=
  if body.kind = "statement_block" then body.namedChildren else [body]

/-- The expression of an expression statement. -/
def statementExpression? (statement : Tree) : Option Tree :=
  if statement.kind = "expression_statement" then statement.firstCode? else none

/-- The expressions of a run of expression statements. A comment is no expression statement. -/
def expressions? (statements : List Tree) : Option (List Tree) :=
  statements.mapM statementExpression?

/-- The kinds of statements that declare a name. -/
def declarationKinds : List String :=
  ["lexical_declaration", "variable_declaration", "function_declaration",
   "generator_function_declaration", "class_declaration"]

/-- The statement declares a name. -/
def isDeclaration (t : Tree) : Bool := declarationKinds.contains t.kind

/-- The kinds of statements after which control does not go on. -/
def jumpKinds : List String :=
  ["return_statement", "throw_statement", "continue_statement", "break_statement"]

/-- Control does not go on behind the statement. -/
def isJump (t : Tree) : Bool := jumpKinds.contains t.kind

end CodeActions.Tree
