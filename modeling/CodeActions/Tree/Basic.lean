import CodeActions.Span

/-!
# Syntax trees

A syntax tree covers a span of a text. Each of its nodes has a kind, which says what construct it
is, and children in the order of the text: named ones, which are constructs again, and unnamed
ones, which are single tokens. Some children can also be asked for by the name of a field.

Where the text does not fit the language the tree has nodes marked as errors, and nodes marked as
missing, which stand for a token that should have been there and cover nothing.

Trees are made by a parser outside of this library, so nothing is assumed about them: kinds are any
strings, any field may be absent, and spans need not be nested.
-/

namespace CodeActions

/-- What a node says about itself. -/
structure Label where
  kind : String
  span : Span
  /-- A construct, as opposed to a single token. -/
  named : Bool := true
  /-- Text that fits no construct. -/
  isError : Bool := false
  /-- A token that is not in the text but should be. -/
  isMissing : Bool := false
  /-- An error or a missing token lies in the tree. -/
  hasError : Bool := false
  deriving Repr, DecidableEq, Inhabited

/-- A syntax tree: the label of its top node, the positions of the children that carry a field name,
and the children. -/
inductive Tree where
  | node (label : Label) (fields : List (String × Nat)) (children : List Tree)
  deriving Repr, Inhabited

namespace Tree

/-! ## §1 The top node -/

/-- The label of the top node. -/
def label : Tree → Label
  | node label _ _ => label

/-- The field names with the positions of the children that carry them. -/
def fields : Tree → List (String × Nat)
  | node _ fields _ => fields

/-- All children, in the order of the text. -/
def children : Tree → List Tree
  | node _ _ children => children

@[simp] theorem label_node (label : Label) (fields : List (String × Nat)) (children : List Tree) :
    (node label fields children).label = label := rfl

@[simp] theorem fields_node (label : Label) (fields : List (String × Nat)) (children : List Tree) :
    (node label fields children).fields = fields := rfl

@[simp] theorem children_node (label : Label) (fields : List (String × Nat))
    (children : List Tree) :
    (node label fields children).children = children := rfl

/-- The construct. -/
def kind (t : Tree) : String := t.label.kind

/-- The stretch of the text that the tree covers. -/
def span (t : Tree) : Span := t.label.span

/-- The top node is a construct. -/
def named (t : Tree) : Bool := t.label.named

/-- An error or a missing token lies in the tree. -/
def hasError (t : Tree) : Bool := t.label.hasError

/-- The top node is a construct that is not a comment. -/
def isCode (t : Tree) : Bool := t.named && t.kind != "comment"

/-! ## §2 Children -/

/-- The position of the child that carries a field name. -/
def fieldIndex? (t : Tree) (name : String) : Option Nat := t.fields.lookup name

/-- The child that carries a field name. -/
def field? (t : Tree) (name : String) : Option Tree :=
  (t.fieldIndex? name).bind (t.children[·]?)

/-- The children that are constructs, comments included. -/
def namedChildren (t : Tree) : List Tree := t.children.filter named

/-- The children that are constructs, comments left out. -/
def codeChildren (t : Tree) : List Tree := t.children.filter isCode

/-- The first child that is a construct and no comment. -/
def firstCode? (t : Tree) : Option Tree := t.children.find? isCode

theorem mem_children_of_field? {t u : Tree} {name : String} (h : t.field? name = some u) :
    u ∈ t.children := by
  obtain ⟨i, _, hi⟩ := Option.bind_eq_some_iff.mp h
  exact List.mem_of_getElem? hi

theorem mem_children_of_firstCode? {t u : Tree} (h : t.firstCode? = some u) : u ∈ t.children :=
  List.mem_of_find?_eq_some h

/-! ## §3 Size

The number of nodes bounds every walk from a tree to its children. -/

mutual

/-- The number of nodes of the tree. -/
def size : Tree → Nat
  | node _ _ children => totalSize children + 1

/-- The number of nodes of all the trees. -/
def totalSize : List Tree → Nat
  | [] => 0
  | t :: ts => t.size + totalSize ts

end

theorem size_le_totalSize {t : Tree} {ts : List Tree} (h : t ∈ ts) : t.size ≤ totalSize ts := by
  induction ts with
  | nil => simp at h
  | cons u us ih =>
    simp only [totalSize]
    rcases List.mem_cons.mp h with rfl | h
    · omega
    · have := ih h; omega

/-- A child is smaller than its parent. -/
theorem size_lt_of_mem_children {t u : Tree} (h : u ∈ t.children) : u.size < t.size := by
  cases t with
  | node _ _ ts =>
    have : u.size ≤ totalSize ts := size_le_totalSize h
    simp only [size]
    omega

theorem size_lt_of_field? {t u : Tree} {name : String} (h : t.field? name = some u) :
    u.size < t.size :=
  size_lt_of_mem_children (mem_children_of_field? h)

theorem size_lt_of_firstCode? {t u : Tree} (h : t.firstCode? = some u) : u.size < t.size :=
  size_lt_of_mem_children (mem_children_of_firstCode? h)

/-- A fact about trees that passes from the children to the parent holds of all trees. -/
theorem induction_children {motive : Tree → Prop}
    (step : ∀ t : Tree, (∀ u ∈ t.children, motive u) → motive t) (t : Tree) : motive t :=
  step t fun u _ => induction_children step u
termination_by t.size
decreasing_by exact size_lt_of_mem_children ‹_›

end Tree

end CodeActions
