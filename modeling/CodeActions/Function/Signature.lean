import CodeActions.Tree.Expression

/-!
# Signatures

What stands between the name of a function and its body: type parameters, parameters and the type of
the result, as far as they are there.
-/

namespace CodeActions

/-- The parameters of a function. -/
inductive Parameters where
  /-- A list with its parentheses. -/
  | list (parameters : Tree)
  /-- A single parameter of an arrow, without parentheses. -/
  | bare (parameter : Tree)
  deriving Repr

/-- The parts of a signature. -/
structure Signature where
  typeParameters : Option Tree
  parameters : Parameters
  returnType : Option Tree
  deriving Repr

/-- The parameters of a function. -/
def Parameters.ofFunction? (t : Tree) : Option Parameters :=
  match t.field? "parameters" with
  | some parameters => some (.list parameters)
  | none => (t.field? "parameter").map .bare

/-- The parameters in their parentheses. -/
def Parameters.render (source : String) : Parameters → Cut String
  | .list parameters => parameters.text source
  | .bare parameter => parameter.textIn source true

namespace Signature

/-- The signature of a function. -/
def ofFunction? (t : Tree) : Option Signature := do
  return ⟨t.field? "type_parameters", ← Parameters.ofFunction? t, t.field? "return_type"⟩

/-- The text of a part that need not be there. -/
def optionalText (source : String) : Option Tree → Cut String
  | some t => t.text source
  | none => return ""

/-- The parts as they are written. -/
def render (source : String) (s : Signature) : Cut String := do
  return (← optionalText source s.typeParameters) ++ (← s.parameters.render source) ++
    (← optionalText source s.returnType)

end Signature

end CodeActions
