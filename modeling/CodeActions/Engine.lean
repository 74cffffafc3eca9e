import CodeActions.Action
import CodeActions.Catalog
import CodeActions.Config
import CodeActions.Path

/-!
# Engines

An engine answers what can be done at a place of a document. It knows which transforms there are and
how it is configured, and nothing about documents.
-/

namespace CodeActions

/-- A registry and the settings it is used with. -/
structure Engine where
  registry : Registry := Registry.standard
  config : Config := {}

namespace Engine

/-- The transforms offered on a kind of construct: its own, then the generic ones if they are wanted
and the kind is one of expressions. -/
def offered (e : Engine) (kind : String) : List Transform :=
  e.registry.transformsFor kind ++
    if e.config.genericWraps && isExpressionKind kind then e.registry.generic else []

/-- The actions on the nodes of a path, node by node. -/
def actionsOn (e : Engine) (d : Document) (path : List Node) : List Action :=
  path.flatMap fun target => (e.offered target.kind).map fun transform =>
    { document := d, target, transform, verify := e.config.verifyOutput }

/-- The actions on the constructs around a span, the innermost construct first. -/
def actionsAt (e : Engine) (d : Document) (span : Span) : List Action := e.actionsOn d (d.path span)

/-- The actions on the constructs around a selection. -/
def actionsAtSelection (e : Engine) (d : Document) (s : Selection) :
    Except Position (List Action) := do
  return e.actionsAt d (← d.spanOf s)

end Engine

end CodeActions
