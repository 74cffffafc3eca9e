import CodeActions.Tree.Basic

/-!
# Trees as rows

A tree can be written down as one row per node, each node before its children and the children from
left to right. A row says how many children its node has, and that is enough to read the tree back.

## Main statements

- `Tree.ofRows?_rows`: the rows of a tree give the tree back.
-/

namespace CodeActions

/-- One node of a tree without its children. -/
structure Row where
  label : Label
  fields : List (String × Nat) := []
  /-- The number of children. -/
  arity : Nat
  deriving Repr, DecidableEq, Inhabited

namespace Tree

mutual

/-- The rows of a tree. -/
def rows : Tree → List Row
  | node label fields children => ⟨label, fields, children.length⟩ :: allRows children

/-- The rows of several trees, one tree after the other. -/
def allRows : List Tree → List Row
  | [] => []
  | t :: ts => rows t ++ allRows ts

end

/-- Puts a row in front of the trees that the later rows gave: it takes its children from them. -/
def ofRow (row : Row) (later : List Tree) : List Tree :=
  node row.label row.fields (later.take row.arity) :: later.drop row.arity

/-- The first tree that the rows describe. -/
def ofRows? (rows : List Row) : Option Tree := (rows.foldr ofRow []).head?

/-! ## Reading back -/

mutual

theorem foldr_ofRow_rows (t : Tree) (later : List Tree) :
    t.rows.foldr ofRow later = t :: later := by
  match t with
  | node label fields children =>
    simp [rows, ofRow, foldr_ofRow_allRows children later]

theorem foldr_ofRow_allRows (ts : List Tree) (later : List Tree) :
    (allRows ts).foldr ofRow later = ts ++ later := by
  match ts with
  | [] => rfl
  | t :: ts =>
    rw [allRows, List.foldr_append, foldr_ofRow_allRows ts later, foldr_ofRow_rows t (ts ++ later)]
    rfl

end

/-- The rows of a tree give the tree back. -/
theorem ofRows?_rows (t : Tree) : ofRows? t.rows = some t := by
  rw [ofRows?, foldr_ofRow_rows]
  rfl

end Tree

end CodeActions
