import CodeActions.Action
import CodeActions.Edit.Json

/-!
# Listings

A listing numbers the actions at a selection from one. The number is how people pick an action.
-/

namespace CodeActions

/-- A number right-aligned in two columns. -/
def Text.twoColumns (n : Nat) : String := if n < 10 then " " ++ n.repr else n.repr

/-- An action with its number in a listing. -/
structure Offer where
  number : Nat
  action : Action

namespace Offer

/-- The actions numbered from one. -/
def numbered (actions : List Action) : List Offer :=
  actions.zipIdx.map fun (action, index) => { number := index + 1, action }

/-- The number and the title. -/
def line (o : Offer) : String := Text.twoColumns o.number ++ ". " ++ o.action.title

/-- The number, the title and, in detailed output, the span of the node. -/
def sessionLine (debug : Bool) (o : Offer) : String :=
  let span := o.action.target.span
  "  " ++ o.line ++ if debug then s!" [{span.start}..{span.stop}]" else ""

/-- An offer for programs to read. -/
def toJson (o : Offer) : Json :=
  .obj [("index", .nat o.number), ("title", .str o.action.title),
    ("transform", .str o.action.transform.name), ("kind", .str o.action.target.kind),
    ("range", o.action.target.span.toJson)]

end Offer

end CodeActions
