import CodeActions.Branch.Conditional
import CodeActions.Branch.If
import CodeActions.Branch.ShortCircuit
import CodeActions.Branch.Swap
import CodeActions.Branch.Switch
import CodeActions.Function.Form
import CodeActions.Literal.Concatenation
import CodeActions.Literal.Template
import CodeActions.Registry
import CodeActions.Statement.Declaration
import CodeActions.Statement.Loop
import CodeActions.Wrap

/-!
# The catalog

All transforms of this library, and the registry that offers each of them on the kinds it is made
for.
-/

namespace CodeActions

/-- The transforms that are made for certain kinds of constructs. -/
def Transform.specific : List Transform :=
  [templateToConcat, concatToTemplate, binaryToIf, ifToBinary, ifToTernary, ifToSwitch,
   ifToSwitchOnValue, swapIfElseBranches, ternaryToIf, ternaryToSwitch, ternaryToSwitchOnValue,
   swapTernaryBranches, returnTernaryToIf, whileToDoWhile, doWhileToWhile, arrowToFunction,
   functionToArrow, functionDeclarationToArrow, arrowBindingToFunction, splitDeclaration]

/-- The transforms that fit every expression. -/
def Transform.generic : List Transform := [wrapInCast, wrapInCall]

/-- All transforms. -/
def Transform.all : List Transform := specific ++ generic

/-- The kinds of constructs with the transforms offered on them, in the order of the offer. -/
def Registry.assignments : List (String × Transform) :=
  [("template_string", .templateToConcat),
   ("binary_expression", .concatToTemplate),
   ("binary_expression", .binaryToIf),
   ("if_statement", .ifToBinary),
   ("if_statement", .ifToTernary),
   ("if_statement", .ifToSwitch),
   ("if_statement", .ifToSwitchOnValue),
   ("if_statement", .swapIfElseBranches),
   ("ternary_expression", .ternaryToIf),
   ("ternary_expression", .ternaryToSwitch),
   ("ternary_expression", .ternaryToSwitchOnValue),
   ("ternary_expression", .swapTernaryBranches),
   ("return_statement", .returnTernaryToIf),
   ("while_statement", .whileToDoWhile),
   ("do_statement", .doWhileToWhile),
   ("arrow_function", .arrowToFunction),
   ("function_expression", .functionToArrow),
   ("function_declaration", .functionDeclarationToArrow),
   ("lexical_declaration", .arrowBindingToFunction),
   ("lexical_declaration", .splitDeclaration),
   ("variable_declaration", .arrowBindingToFunction),
   ("variable_declaration", .splitDeclaration)]

/-- The registry with every transform of the catalog. -/
def Registry.standard : Registry :=
  Transform.generic.foldl registerGeneric
    (assignments.foldl (fun registry (kind, transform) => registry.register kind transform) {})

end CodeActions
