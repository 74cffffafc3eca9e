import CodeActions.Tree.Expression
import CodeActions.Tree.Search

/-!
# Names that a function binds by itself

A `function` has a `this`, a `super` and an `arguments` of its own, and perhaps its own name. An
arrow has none of them and uses those around it. A function that reads one of them would read
another one in the other form.
-/

namespace CodeActions.Tree

/-- The node is a function with a `this` of its own, or holds such functions. -/
def bindsOwn (t : Tree) : Bool := t.kind != "arrow_function" && functionKinds.contains t.kind

mutual

/-- `this`, `super` or `arguments` is read in the tree, functions that have their own left out. -/
def readsOwnBinding (source : String) : Tree → Cut Bool
  | node label fields children =>
    if label.kind = "this" ∨ label.kind = "super" then
      return true
    else if label.kind = "identifier" then do
      return (← (node label fields children).text source) == "arguments"
    else if (node label fields children).bindsOwn then
      return false
    else
      anyReadsOwnBinding source children

/-- `this`, `super` or `arguments` is read in one of the trees that are constructs. -/
def anyReadsOwnBinding (source : String) : List Tree → Cut Bool
  | [] => return false
  | t :: ts => do
    if t.named then
      if ← t.readsOwnBinding source then
        return true
    anyReadsOwnBinding source ts

end

mutual

/-- A name stands as an identifier somewhere below the node. -/
def mentions (source : String) (name : String) : Tree → Cut Bool
  | node _ _ children => anyMentions source name children

/-- A name stands as an identifier in one of the trees that are constructs. -/
def anyMentions (source : String) (name : String) : List Tree → Cut Bool
  | [] => return false
  | t :: ts => do
    if t.named then
      if t.kind = "identifier" then
        if (← t.text source) = name then
          return true
      if ← t.mentions source name then
        return true
    anyMentions source name ts

end

end CodeActions.Tree
