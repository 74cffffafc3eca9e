import CodeActions.Function.Binding
import CodeActions.Function.Body
import CodeActions.Function.Signature
import CodeActions.Statement.Guard

/-!
# Arrows and functions

An arrow, a function expression, a function declaration and a variable bound to an arrow are forms
of the same thing. Each can change into another one unless it reads a name that the other form would
bind differently.
-/

namespace CodeActions

/-- A function in any of its forms. -/
structure FunctionForm where
  name : Option Tree
  isAsync : Bool
  signature : Signature
  body : Tree
  deriving Repr

namespace FunctionForm

/-! ## §1 Shapes -/

/-- The parts of a function under a given name. -/
def named? (name : Option Tree) (t : Tree) : Option FunctionForm := do
  return ⟨name, t.isAsync, ← Signature.ofFunction? t, ← t.field? "body"⟩

/-- An arrow. One that is a statement by itself is left out: as a function it would need a name. -/
def ofArrow? (n : Node) : Option FunctionForm :=
  if n.kind = "arrow_function" ∧
      !n.parent?.any (fun parent => parent.kind == "expression_statement") then
    named? none n.tree
  else
    none

/-- A function expression, with or without a name. -/
def ofExpression? (t : Tree) : Option FunctionForm :=
  if t.kind = "function_expression" then named? (t.field? "name") t else none

/-- A function declaration. -/
def ofDeclaration? (t : Tree) : Option FunctionForm := do
  if t.kind = "function_declaration" then named? (some (← t.field? "name")) t else none

/-- A declaration of one variable, without a type, that is bound to an arrow. -/
def ofBinding? (t : Tree) : Option FunctionForm := do
  if t.kind = "lexical_declaration" ∨ t.kind = "variable_declaration" then
    match t.codeChildren.filter fun child => child.kind == "variable_declarator" with
    | [declarator] =>
      let name ← declarator.field? "name"
      let value := (← declarator.field? "value").unwrapParens
      if (declarator.field? "type").isNone ∧ name.kind = "identifier" ∧
          value.kind = "arrow_function" then
        named? (some name) value
      else
        none
    | _ => none
  else
    none

/-! ## §2 Writing -/

/-- `async` with a blank behind it, if the function is asynchronous. -/
def asyncMark (f : FunctionForm) : String := if f.isAsync then "async " else ""

/-- `function (…) {…}`. -/
def renderExpression (source : String) (f : FunctionForm) : Cut String := do
  return f.asyncMark ++ "function " ++ (← f.signature.render source) ++ " " ++
    (← (FunctionBody.ofArrow f.body).render source)

/-- `function name(…) {…}`. -/
def renderDeclaration (source : String) (f : FunctionForm) : Cut String := do
  return f.asyncMark ++ "function " ++ (← Signature.optionalText source f.name) ++
    (← f.signature.render source) ++ " " ++ (← (FunctionBody.ofArrow f.body).render source)

/-- `(…) => …`. -/
def renderArrow (source : String) (f : FunctionForm) : Cut String := do
  return f.asyncMark ++ (← f.signature.render source) ++ " => " ++
    (← (ArrowBody.ofFunction f.body).render source)

/-- `const name = (…) => …`. -/
def renderBinding (source : String) (f : FunctionForm) : Cut String := do
  return "const " ++ (← Signature.optionalText source f.name) ++ " = " ++ (← f.renderArrow source)

/-- The function is called by its own name in its body. -/
def isRecursive (source : String) (f : FunctionForm) : Cut Bool :=
  match f.name with
  | some name => do f.body.mentions source (← name.text source)
  | none => return false

/-- What becomes of a function that does not read what it binds by itself. -/
def reshape (source : String) (shape : Option FunctionForm) (render : FunctionForm → Cut String) :
    Reshaping :=
  match shape with
  | none => return none
  | some form => do
    if ← form.body.readsOwnBinding source then
      return none
    return some (.text (← render form))

end FunctionForm

/-! ## §3 Transforms -/

namespace Transform

/-- An arrow becomes a function expression. -/
def arrowToFunction : Transform where
  name := "arrow_to_function"
  description := "Rewrite an arrow function as a function expression"
  run source n :=
    FunctionForm.reshape source (FunctionForm.ofArrow? n) (FunctionForm.renderExpression source)

/-- A function expression becomes an arrow, unless it calls itself by its name. -/
def functionToArrow : Transform where
  name := "function_to_arrow"
  description := "Rewrite a function expression as an arrow function"
  run source n :=
    match FunctionForm.ofExpression? n.tree with
    | none => return none
    | some form => do
      if ← form.isRecursive source then
        return none
      FunctionForm.reshape source (some form) (FunctionForm.renderArrow source)

/-- A function declaration becomes a constant bound to an arrow. -/
def functionDeclarationToArrow : Transform where
  name := "function_declaration_to_arrow"
  description := "Rewrite a function declaration as a const-bound arrow function"
  run source n := FunctionForm.reshape source (FunctionForm.ofDeclaration? n.tree) fun form => do
    n.guarded source (← form.renderBinding source)

/-- A variable bound to an arrow becomes a function declaration. -/
def arrowBindingToFunction : Transform where
  name := "arrow_binding_to_function"
  description := "Rewrite a variable bound to an arrow function as a function declaration"
  run source n :=
    FunctionForm.reshape source (FunctionForm.ofBinding? n.tree)
      (FunctionForm.renderDeclaration source)

end Transform

end CodeActions
