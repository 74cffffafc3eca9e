import CodeActions.Transform

/-!
# Registries

A registry says which transforms are offered on which kinds of constructs. Kinds come in the order
in which they were first mentioned, and the transforms of a kind in the order in which they were
added: this is the order in which they are offered.
-/

namespace CodeActions

/-- Transforms by kind, and the ones offered on every expression. -/
structure Registry where
  byKind : List (String × List Transform) := []
  generic : List Transform := []

namespace Registry

/-- The transforms of a kind. -/
def transformsFor (r : Registry) (kind : String) : List Transform :=
  (r.byKind.lookup kind).getD []

/-- The kinds that have transforms. -/
def kinds (r : Registry) : List String := r.byKind.map Prod.fst

/-- The table with one more transform behind those of a kind. A new kind goes to the end. -/
def insert (kind : String) (transform : Transform) :
    List (String × List Transform) → List (String × List Transform)
  | [] => [(kind, [transform])]
  | (other, transforms) :: rest =>
    if other = kind then (other, transforms ++ [transform]) :: rest
    else (other, transforms) :: insert kind transform rest

/-- One more transform for a kind. -/
def register (r : Registry) (kind : String) (transform : Transform) : Registry :=
  { r with byKind := insert kind transform r.byKind }

/-- One more transform for every expression. -/
def registerGeneric (r : Registry) (transform : Transform) : Registry :=
  { r with generic := r.generic ++ [transform] }

end Registry

end CodeActions
