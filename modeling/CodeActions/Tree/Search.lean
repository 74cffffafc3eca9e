import CodeActions.Tree.Basic

/-!
# Searching below a node

A construct like `break` or `await` belongs to the nearest loop or function around it. So a search
for one walks down the named children and does not enter constructs that would claim it.
-/

namespace CodeActions.Tree

/-- The kinds that begin a scope of their own for `break`, `await` and the like. -/
def functionKinds : List String :=
  ["function_expression", "function_declaration", "generator_function",
   "generator_function_declaration", "arrow_function", "method_definition", "class_body"]

/-- The kinds that a `break` without a label leaves. -/
def breakableKinds : List String :=
  ["for_statement", "for_in_statement", "while_statement", "do_statement", "switch_statement"]

mutual

/-- Some construct below the node passes the test. Functions and the kinds listed are tested but not
entered; the node itself is entered whatever it is, and not tested. -/
def containsWithin (stops : List String) (test : Tree → Bool) : Tree → Bool
  | node _ _ children => anyWithin stops test children

/-- Some construct among the trees, or below them, passes the test. -/
def anyWithin (stops : List String) (test : Tree → Bool) : List Tree → Bool
  | [] => false
  | t :: ts =>
    (t.named &&
      (test t || (!functionKinds.contains t.kind && !stops.contains t.kind &&
        t.containsWithin stops test))) ||
    anyWithin stops test ts

end

/-- A `break` without a label. -/
def isPlainBreak (t : Tree) : Bool :=
  t.kind == "break_statement" && (t.field? "label").isNone

/-- A `break` that a `switch` put around the node would catch. -/
def hasFreeBreak (t : Tree) : Bool :=
  t.isPlainBreak || t.containsWithin breakableKinds isPlainBreak

/-- An `await` or a `yield`. -/
def isSuspension (t : Tree) : Bool :=
  t.kind == "await_expression" || t.kind == "yield_expression"

/-- An `await` or a `yield` that a function put around the node would cut off. -/
def hasSuspension (t : Tree) : Bool :=
  t.isSuspension || t.containsWithin [] isSuspension

end CodeActions.Tree
