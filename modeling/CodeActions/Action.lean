import CodeActions.Document
import CodeActions.Transform
import CodeActions.Tree.Errors

/-!
# Actions

An action is the offer to run one transform on one node of a document. To offer it costs nothing;
the edit is worked out when someone takes the offer, and may turn out not to exist.
-/

namespace CodeActions

/-- The offer to run a transform on a node. -/
structure Action where
  document : Document
  target : Node
  transform : Transform
  /-- Check that the edit brings no syntax errors in. -/
  verify : Bool := true

namespace Action

/-- The name of the transform with the kind of the node. -/
def title (a : Action) : String := a.transform.name ++ "(" ++ a.target.kind ++ ")"

/-- The edit that puts a replacement in the place of the node. -/
def editWith (a : Action) (replacement : Replacement) : Edit where
  span := a.target.span
  start := Text.pointAt a.document.source.toList a.target.span.start
  stop := Text.pointAt a.document.source.toList a.target.span.stop
  replacement

/-- The text after the edit has no more syntax errors than before. -/
def stillParses (parser : Parser) (a : Action) (e : Edit) : Cut Bool := do
  let source ← e.applyTo a.document.source
  let edited := Document.parse parser a.document.dialect source
  return edited.tree.errorCount ≤ a.document.tree.errorCount

/-- The edit, if there is one. A node with syntax errors in it is left alone, and an edit that would
bring new ones in is dropped if the action is to be verified. -/
def apply (parser : Parser) (a : Action) : Cut (Option Edit) := do
  if a.target.tree.hasError then
    return none
  match ← a.transform.run a.document.source a.target with
  | none => return none
  | some replacement =>
    let edit := a.editWith replacement
    -- a snippet is no finished text, so there is nothing to parse yet
    if a.verify && !replacement.isSnippet then
      if ← a.stillParses parser edit then
        return some edit
      return none
    return some edit

end Action

end CodeActions
