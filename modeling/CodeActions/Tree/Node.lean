import CodeActions.Tree.Basic

/-!
# Nodes

A node is a tree together with where it stands in a larger one: the trees above it, the nearest
first, each with the position of the child that leads down to the node. Two nodes of one tree are
the same exactly when their places are.
-/

namespace CodeActions

/-- One step down a tree: the tree and the position of the child taken. -/
structure Place where
  parent : Tree
  index : Nat
  deriving Repr, Inhabited

/-- A tree and the places above it, the nearest first. -/
structure Node where
  tree : Tree
  above : List Place := []
  deriving Repr, Inhabited

namespace Node

/-- The top of a tree. -/
def root (t : Tree) : Node := { tree := t }

/-- The construct that the node is. -/
def kind (n : Node) : String := n.tree.kind

/-- The stretch of the text that the node covers. -/
def span (n : Node) : Span := n.tree.span

/-- The place directly above the node. -/
def place? (n : Node) : Option Place := n.above.head?

/-- The tree directly above the node. -/
def parent? (n : Node) : Option Tree := n.place?.map Place.parent

/-- The child at a position, with its place. -/
def child (n : Node) (index : Nat) (t : Tree) : Node :=
  { tree := t, above := ⟨n.tree, index⟩ :: n.above }

/-- The children with their places, in order. -/
def children (n : Node) : List Node :=
  n.tree.children.zipIdx.map fun (t, index) => n.child index t

/-- The node is the child of its parent that carries the field name. -/
def isField (n : Node) (name : String) : Bool :=
  match n.place? with
  | some place => place.parent.fieldIndex? name == some place.index
  | none => false

/-- The nearest construct before the node under the same parent, comments left out. -/
def previousCode? (n : Node) : Option Tree :=
  n.place?.bind fun place => (place.parent.children.take place.index).reverse.find? Tree.isCode

theorem tree_mem_of_mem_children {n c : Node} (h : c ∈ n.children) : c.tree ∈ n.tree.children := by
  obtain ⟨⟨t, i⟩, hmem, rfl⟩ := List.mem_map.mp h
  exact List.fst_mem_of_mem_zipIdx hmem

/-- The node and all nodes below it, parents before their children, in the order of the text. -/
def preorder (n : Node) : List Node :=
  n :: n.children.attach.flatMap fun ⟨c, _⟩ => c.preorder
termination_by n.tree.size
decreasing_by exact Tree.size_lt_of_mem_children (tree_mem_of_mem_children ‹_›)

end Node

namespace Tree

/-- All nodes of the tree, parents before their children, in the order of the text. -/
def nodes (t : Tree) : List Node := (Node.root t).preorder

end Tree

end CodeActions
