import CodeActions.Proofs.Catalog
import CodeActions.Proofs.Tree.Fits

/-!
# Paths in nested trees

In a nested tree children lie inside of their parent, one behind the other. Then a span that is not
empty leads down a single way: the chain of the span passes all nodes that cover it, and the
innermost node of a kind in the chain of a node's own span covers that span exactly. When a span
gets narrower its chain goes on where it ended, so no kind is lost.

Main statements: `Node.covering_eq_filter`, `Node.covering_eq_append`, `Node.firstOfKinds_append`,
`Engine.construct_is_offered_at_its_span`, `Engine.narrowing_keeps_titles`.
-/

namespace CodeActions

/-! ## §1 Nested trees -/

namespace Span

theorem contains_iff {s other : Span} :
    s.contains other = true ↔ s.start ≤ other.start ∧ other.stop ≤ s.stop := by
  simp [contains]

theorem contains_trans {s₁ s₂ s₃ : Span} (h : s₁.contains s₂ = true) (h' : s₂.contains s₃ = true) :
    s₁.contains s₃ = true := by
  rw [contains_iff] at *
  omega

/-- Spans that cover each other are the same. -/
theorem eq_of_contains {s s' : Span} (h : s.contains s' = true) (h' : s'.contains s = true) :
    s = s' := by
  obtain ⟨start, stop⟩ := s
  obtain ⟨start', stop'⟩ := s'
  rw [contains_iff] at h h'
  simp only [Span.mk.injEq] at *
  omega

/-- Of two spans one behind the other only one covers a span with something in it. -/
theorem not_contains_of_le {s s' span : Span} (h : s.stop ≤ s'.start)
    (hspan : span.start < span.stop) (hs : s.contains span = true) : s'.contains span = false := by
  apply Bool.eq_false_iff.mpr
  intro hs'
  rw [contains_iff] at hs hs'
  omega

end Span

namespace Tree

/-- The children of the top node lie inside of it, in order and without overlap. -/
structure NestsChildren (t : Tree) : Prop where
  ordered : t.span.start ≤ t.span.stop
  inside : ∀ u ∈ t.children, t.span.contains u.span = true
  apart : t.children.Pairwise fun u v => u.span.stop ≤ v.span.start

/-- All nodes of the tree nest their children. -/
inductive Nested : Tree → Prop where
  | intro {t : Tree} (top : t.NestsChildren) (children : ∀ u ∈ t.children, Nested u) : Nested t

namespace Nested

variable {t u : Tree}

theorem top (h : t.Nested) : t.NestsChildren := by
  cases h with
  | intro top _ => exact top

theorem child (h : t.Nested) (hu : u ∈ t.children) : u.Nested := by
  cases h with
  | intro _ children => exact children u hu

end Nested

/-- Below every node of the tree the children stand one behind the other. -/
inductive Apart : Tree → Prop where
  | intro {t : Tree} (top : t.children.Pairwise fun u v => u.span.stop ≤ v.span.start)
      (children : ∀ u ∈ t.children, Apart u) : Apart t

/-- Below every node of the tree the children lie inside of their parent. -/
inductive Inside : Tree → Prop where
  | intro {t : Tree} (top : ∀ u ∈ t.children, t.span.contains u.span = true)
      (children : ∀ u ∈ t.children, Inside u) : Inside t

/-- Nested children stand apart at every depth. -/
theorem Nested.apart {t : Tree} (h : t.Nested) : t.Apart := by
  induction t using Tree.induction_children with
  | step t ih => exact .intro h.top.apart fun u hu => ih u hu (h.child hu)

/-- And at every depth they lie inside of their parent. -/
theorem Nested.inside {t : Tree} (h : t.Nested) : t.Inside := by
  induction t using Tree.induction_children with
  | step t ih => exact .intro h.top.inside fun u hu => ih u hu (h.child hu)

namespace Apart

variable {t u : Tree}

theorem top (h : t.Apart) : t.children.Pairwise fun u v => u.span.stop ≤ v.span.start := by
  cases h with
  | intro top _ => exact top

theorem child (h : t.Apart) (hu : u ∈ t.children) : u.Apart := by
  cases h with
  | intro _ children => exact children u hu

end Apart

namespace Inside

variable {t u : Tree}

theorem top (h : t.Inside) (hu : u ∈ t.children) : t.span.contains u.span = true := by
  cases h with
  | intro top _ => exact top u hu

theorem child (h : t.Inside) (hu : u ∈ t.children) : u.Inside := by
  cases h with
  | intro _ children => exact children u hu

end Inside

instance (t : Tree) : Decidable t.NestsChildren :=
  decidable_of_iff
    (t.span.start ≤ t.span.stop ∧ (∀ u ∈ t.children, t.span.contains u.span = true) ∧
      t.children.Pairwise fun u v => u.span.stop ≤ v.span.start)
    ⟨fun h => ⟨h.1, h.2.1, h.2.2⟩, fun h => ⟨h.ordered, h.inside, h.apart⟩⟩

mutual

/-- All nodes of the tree nest their children. -/
def isNested : Tree → Bool
  | node label fields children =>
      decide (node label fields children).NestsChildren && allNested children

/-- All nodes of the trees nest their children. -/
def allNested : List Tree → Bool
  | [] => true
  | t :: ts => t.isNested && allNested ts

end

theorem allNested_eq_true_iff {ts : List Tree} :
    allNested ts = true ↔ ∀ t ∈ ts, t.isNested = true := by
  induction ts with
  | nil => simp [allNested]
  | cons t ts ih => simp [allNested, ih]

/-- Nesting can be decided, node by node. -/
theorem isNested_eq_true_iff {t : Tree} : t.isNested = true ↔ t.Nested := by
  induction t using Tree.induction_children with
  | step t ih =>
    cases t with
    | node label fields children =>
      rw [isNested, Bool.and_eq_true, decide_eq_true_eq, allNested_eq_true_iff]
      constructor
      · rintro ⟨htop, hchildren⟩
        exact .intro htop fun u hu => (ih u hu).mp (hchildren u hu)
      · intro h
        exact ⟨h.top, fun u hu => (ih u hu).mpr (h.child hu)⟩

instance (t : Tree) : Decidable t.Nested := decidable_of_iff _ isNested_eq_true_iff

end Tree

/-! ## §2 Nodes below a node -/

namespace Node

/-- The children of a node are the children of its tree, each in its place. -/
theorem map_tree_children (n : Node) : n.children.map tree = n.tree.children := by
  unfold children
  rw [List.map_map]
  exact List.zipIdx_map_fst 0 n.tree.children

/-- A fact about nodes that passes from the children to the parent holds of all nodes. -/
theorem induction_children {motive : Node → Prop}
    (step : ∀ n : Node, (∀ c ∈ n.children, motive c) → motive n) (n : Node) : motive n :=
  step n fun c _ => induction_children step c
termination_by n.tree.size
decreasing_by exact Tree.size_lt_of_mem_children (tree_mem_of_mem_children ‹_›)

/-- A node lies at or below another if it is that node or lies at or below one of its children. -/
theorem mem_preorder_iff {n m : Node} :
    m ∈ n.preorder ↔ m = n ∨ ∃ c ∈ n.children, m ∈ c.preorder := by
  rw [preorder]
  simp

theorem self_mem_preorder (n : Node) : n ∈ n.preorder := mem_preorder_iff.mpr (.inl rfl)

/-- The nodes below a node, parents before their children, in the order of the text. -/
def below (n : Node) : List Node := n.children.flatMap preorder

theorem preorder_eq (n : Node) : n.preorder = n :: n.below := by
  rw [preorder, below]
  simp

theorem mem_below_iff {n m : Node} : m ∈ n.below ↔ ∃ c ∈ n.children, m ∈ c.preorder :=
  List.mem_flatMap

/-- What passes from a tree to its children holds of all nodes below a node. -/
theorem of_mem_preorder {P : Tree → Prop} (hchild : ∀ {t u : Tree}, P t → u ∈ t.children → P u)
    {n m : Node} (h : P n.tree) (hm : m ∈ n.preorder) : P m.tree := by
  induction n using Node.induction_children with
  | step n ih =>
    rcases mem_preorder_iff.mp hm with rfl | ⟨c, hc, hm⟩
    · exact h
    · exact ih c hc (hchild h (tree_mem_of_mem_children hc)) hm

/-- If children lie inside of their parents, all nodes below a node lie inside of it. -/
theorem contains_of_mem_preorder {n m : Node} (h : n.tree.Inside) (hm : m ∈ n.preorder) :
    n.span.contains m.span = true := by
  induction n using Node.induction_children with
  | step n ih =>
    rcases mem_preorder_iff.mp hm with rfl | ⟨c, hc, hm⟩
    · exact Span.contains_iff.mpr ⟨Nat.le_refl _, Nat.le_refl _⟩
    · have hchild : c.tree ∈ n.tree.children := tree_mem_of_mem_children hc
      -- the child lies inside of the node, and by induction what is below lies inside of the child
      exact Span.contains_trans (h.top hchild) (ih c hc (h.child hchild) hm)

/-! ## §3 The chain of a span -/

/-- The chain goes on with the first child that covers the span. -/
theorem covering_of_find?_eq_some {span : Span} {n c : Node}
    (h : n.children.find? (fun c => c.span.contains span) = some c) :
    n.covering span = n :: c.covering span := by
  rw [covering]
  split
  case h_1 c' hc' => rw [Option.some.inj (hc'.symm.trans h)]
  case h_2 hnone => rw [hnone] at h; cases h

/-- The chain ends where no child covers the span. -/
theorem covering_of_find?_eq_none {span : Span} {n : Node}
    (h : n.children.find? (fun c => c.span.contains span) = none) : n.covering span = [n] := by
  rw [covering]
  split
  case h_1 c hc => rw [h] at hc; cases hc
  case h_2 => rfl

theorem self_mem_covering (span : Span) (n : Node) : n ∈ n.covering span := by
  rw [covering]
  split <;> simp

/-- The nodes of a chain lie below its top, and all of them but the top cover the span. -/
theorem of_mem_covering {span : Span} {n m : Node} (h : m ∈ n.covering span) :
    m ∈ n.preorder ∧ (m = n ∨ m.span.contains span = true) := by
  fun_induction covering span n with
  | case1 n c hc ih =>
    have hchild : c ∈ n.children := List.mem_of_find?_eq_some hc
    have hcovers : c.span.contains span = true := by simpa using List.find?_some hc
    rcases List.mem_cons.mp h with rfl | h
    · exact ⟨self_mem_preorder m, .inl rfl⟩
    · obtain ⟨hbelow, hm⟩ := ih h
      refine ⟨mem_preorder_iff.mpr (.inr ⟨c, hchild, hbelow⟩), .inr ?_⟩
      -- the top of the inner chain is the child, which was chosen for covering the span
      rcases hm with rfl | hm
      · exact hcovers
      · exact hm
  | case2 n =>
    obtain rfl := List.mem_singleton.mp h
    exact ⟨self_mem_preorder m, .inl rfl⟩

/-- From each of its nodes on, a chain is the chain of that node. -/
theorem covering_eq_append {span : Span} {n m : Node} (h : m ∈ n.covering span) :
    ∃ front, n.covering span = front ++ m.covering span := by
  fun_induction covering span n with
  | case1 n c hc ih =>
    rcases List.mem_cons.mp h with rfl | h
    · exact ⟨[], (covering_of_find?_eq_some hc).symm⟩
    · obtain ⟨front, hfront⟩ := ih h
      exact ⟨n :: front, by rw [hfront, List.cons_append]⟩
  | case2 n hnone =>
    obtain rfl := List.mem_singleton.mp h
    exact ⟨[], (covering_of_find?_eq_none hnone).symm⟩

/-- Of children that stand apart no other one covers a span that is not empty and that the first one
covers. -/
theorem split_of_find?_covering {n c : Node}
    (h : n.tree.children.Pairwise fun u v => u.span.stop ≤ v.span.start) {span : Span}
    (hspan : span.start < span.stop)
    (hc : n.children.find? (fun c => c.span.contains span) = some c) :
    ∃ before after, n.children = before ++ c :: after ∧
      (∀ m ∈ before, m.span.contains span = false) ∧
      ∀ m ∈ after, m.span.contains span = false := by
  obtain ⟨hcovers, before, after, hchildren, hbefore⟩ := List.find?_eq_some_iff_append.mp hc
  refine ⟨before, after, hchildren, by simpa using hbefore, fun m hm => ?_⟩
  -- behind the child there is no room for the span
  rw [← map_tree_children, hchildren, List.pairwise_map] at h
  have hle := (List.pairwise_cons.mp (List.pairwise_append.mp h).2.1).1 m hm
  exact Span.not_contains_of_le hle hspan hcovers

/-- So there is a single child to be found. -/
theorem find?_covering_child {n c : Node}
    (h : n.tree.children.Pairwise fun u v => u.span.stop ≤ v.span.start) (hc : c ∈ n.children)
    {span : Span} (hspan : span.start < span.stop) (hcovers : c.span.contains span = true) :
    n.children.find? (fun c => c.span.contains span) = some c := by
  obtain ⟨first, hfirst⟩ :
      ∃ first, n.children.find? (fun c => c.span.contains span) = some first := by
    rw [← Option.isSome_iff_exists, List.find?_isSome]
    exact ⟨c, hc, hcovers⟩
  obtain ⟨before, after, hchildren, hbefore, hafter⟩ := split_of_find?_covering h hspan hfirst
  rw [hfirst]
  rw [hchildren] at hc
  -- some child is found, and all others would have to be without the span
  rcases List.mem_append.mp hc with hc | hc
  · simp [hbefore c hc] at hcovers
  · rcases List.mem_cons.mp hc with rfl | hc
    · rfl
    · simp [hafter c hc] at hcovers

/-- No node covers a span that lies below nodes which do not cover it. -/
theorem filter_flatMap_preorder {ns : List Node} {span : Span} (hinside : ∀ n ∈ ns, n.tree.Inside)
    (h : ∀ n ∈ ns, n.span.contains span = false) :
    (ns.flatMap preorder).filter (fun m => m.span.contains span) = [] := by
  apply List.filter_eq_nil_iff.mpr
  intro m hm hcovers
  obtain ⟨n, hn, hm⟩ := List.mem_flatMap.mp hm
  -- what covers the span is itself covered by the node it lies below, which then would cover it
  have hcontains := Span.contains_trans (contains_of_mem_preorder (hinside n hn) hm) hcovers
  rw [h n hn] at hcontains
  cases hcontains

/-- Where children stand apart inside of their parents, the chain of a span that is not empty has
all nodes below its top that cover the span. -/
theorem covering_eq_filter {n : Node} (hinside : n.tree.Inside) (hapart : n.tree.Apart)
    {span : Span} (hspan : span.start < span.stop) :
    n.covering span = n :: n.below.filter fun m => m.span.contains span := by
  fun_induction covering span n with
  | case1 n c hc ih =>
    have hchild : c.tree ∈ n.tree.children :=
      tree_mem_of_mem_children (List.mem_of_find?_eq_some hc)
    have hcovers : c.span.contains span = true := by simpa using List.find?_some hc
    obtain ⟨before, after, hchildren, hbefore, hafter⟩ :=
      split_of_find?_covering hapart.top hspan hc
    have hbelow : n.below = before.flatMap preorder ++
        (c :: c.below ++ after.flatMap preorder) := by
      rw [below, hchildren, List.flatMap_append, List.flatMap_cons, preorder_eq c]
    have hinside_child : ∀ m ∈ before ++ c :: after, m.tree.Inside := by
      intro m hm
      rw [← hchildren] at hm
      exact hinside.child (tree_mem_of_mem_children hm)
    rw [List.forall_mem_append, List.forall_mem_cons] at hinside_child
    -- only the child that is taken and what is below it can cover the span
    rw [ih (hinside.child hchild) (hapart.child hchild), hbelow, List.filter_append,
      List.filter_append, filter_flatMap_preorder hinside_child.1 hbefore,
      filter_flatMap_preorder hinside_child.2.2 hafter,
      List.filter_cons, if_pos hcovers, List.nil_append, List.append_nil]
  | case2 n hnone =>
    have hnone' : ∀ c ∈ n.children, c.span.contains span = false := by simpa using hnone
    rw [below, filter_flatMap_preorder
      (fun c hc => hinside.child (tree_mem_of_mem_children hc)) hnone']

/-- In a nested tree the chain of a span that is not empty passes every node that covers it. -/
theorem mem_covering {n m : Node} (h : n.tree.Nested) (hm : m ∈ n.preorder) {span : Span}
    (hspan : span.start < span.stop) (hcovers : m.span.contains span = true) :
    m ∈ n.covering span := by
  rw [covering_eq_filter h.inside h.apart hspan]
  rw [preorder_eq] at hm
  rcases List.mem_cons.mp hm with rfl | hm
  · exact List.mem_cons_self
  · exact List.mem_cons_of_mem n (List.mem_filter.mpr ⟨hm, hcovers⟩)

/-- The chain of a node's own span ends in nodes of exactly that span. -/
theorem span_eq_of_mem_covering_span {n m : Node} (h : n.tree.Nested) (hm : m ∈ n.covering n.span) :
    m.span = n.span := by
  obtain ⟨hbelow, hm⟩ := of_mem_covering hm
  rcases hm with rfl | hm
  · rfl
  · exact Span.eq_of_contains hm (contains_of_mem_preorder h.inside hbelow)

/-! ## §4 The innermost node of each kind -/

/-- What comes first in front stays; what comes behind it stays if its kind is new. -/
theorem firstOfKinds_append (ns ms : List Node) :
    firstOfKinds (ns ++ ms) =
      firstOfKinds ns ++ (firstOfKinds ms).filter fun m => ns.all fun n => m.kind != n.kind := by
  induction ns with
  | nil =>
    simp only [List.nil_append, firstOfKinds, List.all_nil]
    exact (List.filter_eq_self.mpr fun _ _ => rfl).symm
  -- the first node takes its kind from all behind it, on either side of the seam
  | cons n ns ih =>
    simp only [List.cons_append, firstOfKinds, ih, List.filter_append, List.filter_filter,
      List.all_cons]

/-- No kind is lost: each node has one of its kind among the first ones. -/
theorem exists_firstOfKinds {ns : List Node} {n : Node} (h : n ∈ ns) :
    ∃ m ∈ firstOfKinds ns, m.kind = n.kind := by
  induction ns with
  | nil => simp at h
  | cons first ns ih =>
    by_cases hkind : first.kind = n.kind
    · exact ⟨first, List.mem_cons_self, hkind⟩
    · have hn : n ∈ ns := by
        rcases List.mem_cons.mp h with rfl | h
        · exact absurd rfl hkind
        · exact h
      obtain ⟨m, hm, hmkind⟩ := ih hn
      refine ⟨m, List.mem_cons_of_mem first (List.mem_filter.mpr ⟨hm, ?_⟩), hmkind⟩
      simpa [hmkind] using fun heq => hkind heq.symm

end Node

theorem Tree.chain_eq (t : Tree) {span : Span} (h : span.isReversed = false) :
    t.chain span = (Node.root t).covering span := by
  rw [Tree.chain, h, if_neg Bool.false_ne_true]

/-- Within the text and the right way round, a span has the path of its chain. -/
theorem Document.path_eq {d : Document} {span : Span} (hstop : span.stop ≤ d.byteSize)
    (h : span.isReversed = false) :
    d.path span = Node.innermost ((Node.root d.tree).covering span) := by
  rw [Document.path, if_neg (Nat.not_lt.mpr hstop), Tree.chain_eq d.tree h]

/-! ## §5 Constructs at their own spans -/

theorem Span.not_isReversed_of_lt {s : Span} (h : s.start < s.stop) : s.isReversed = false := by
  simpa [isReversed] using Nat.le_of_lt h

theorem Span.lt_of_not_isEmpty {s : Span} (hordered : s.start ≤ s.stop) (h : s.isEmpty = false) :
    s.start < s.stop := by
  have hne : s.start ≠ s.stop := by simpa [isEmpty] using h
  omega

/-- The path of a node's own span has a node of the same kind and the same span. -/
theorem Document.exists_mem_path_span {d : Document} (hnested : d.tree.Nested)
    (hinside : d.tree.span.stop ≤ d.byteSize) {n : Node} (hn : n ∈ d.tree.nodes)
    (hspan : n.span.isEmpty = false) : ∃ m ∈ d.path n.span, m.kind = n.kind ∧ m.span = n.span := by
  have hn_nested : n.tree.Nested := Node.of_mem_preorder Tree.Nested.child hnested hn
  have hroot := Node.contains_of_mem_preorder hnested.inside hn
  have hlt : n.span.start < n.span.stop := Span.lt_of_not_isEmpty hn_nested.top.ordered hspan
  have hself : n.span.contains n.span = true := Span.contains_iff.mpr ⟨Nat.le_refl _, Nat.le_refl _⟩
  -- the chain leads to the node and from there on through nodes of the same span only
  obtain ⟨front, hchain⟩ := Node.covering_eq_append (Node.mem_covering hnested hn hlt hself)
  have hmem : n ∈ (n.covering n.span).reverse :=
    List.mem_reverse.mpr (Node.self_mem_covering n.span n)
  obtain ⟨m, hm, hkind⟩ := Node.exists_firstOfKinds hmem
  refine ⟨m, ?_, hkind, ?_⟩
  · have hstop : n.span.stop ≤ d.byteSize := Nat.le_trans (Span.contains_iff.mp hroot).2 hinside
    rw [Document.path_eq hstop (Span.not_isReversed_of_lt hlt), Node.innermost, hchain,
      List.reverse_append, Node.firstOfKinds_append]
    exact List.mem_append_left _ hm
  · have hm' := List.mem_reverse.mp (Node.mem_of_mem_firstOfKinds hm)
    exact Node.span_eq_of_mem_covering_span hn_nested hm'

/-- In a nested tree that ends inside of its text, every construct that is not empty is offered at
its own span: for each transform of its kind there is an action on a node of that kind and that
span. -/
theorem Engine.construct_is_offered_at_its_span (e : Engine) {d : Document}
    (hnested : d.tree.Nested) (hinside : d.tree.span.stop ≤ d.byteSize) {n : Node}
    (hn : n ∈ d.tree.nodes) (hspan : n.span.isEmpty = false) {transform : Transform}
    (htransform : transform ∈ e.registry.transformsFor n.kind) :
    ∃ a ∈ e.actionsAt d n.span, a.document = d ∧ a.transform = transform ∧ a.target.kind = n.kind ∧
      a.target.span = n.span := by
  obtain ⟨m, hm, hkind, hmspan⟩ := Document.exists_mem_path_span hnested hinside hn hspan
  -- the node of the path may be another one than the construct, but nobody can tell from the action
  let a : Action := { document := d, target := m, transform, verify := e.config.verifyOutput }
  have hoffered : transform ∈ e.offered m.kind := by
    rw [hkind]
    exact List.mem_append_left _ htransform
  exact ⟨a, Engine.mem_actionsAt_iff.mpr ⟨rfl, hm, hoffered, rfl⟩, rfl, rfl, hkind, hmspan⟩

namespace Sample

/-- A sum in a document. -/
def sumOf (stop : Nat) (operands : List Tree) : Tree :=
  .node { kind := "binary_expression", span := ⟨0, stop⟩ } [] operands

def operand (start : Nat) : Tree := .node { kind := "identifier", span := ⟨start, start + 1⟩ } [] []

def plusSign (start : Nat) : Tree :=
  .node { kind := "+", span := ⟨start, start + 1⟩, named := false } [] []

/-- The sum `a + b` as the first operand of a sum. -/
def longSum : Tree := sumOf 9 [sumOf 5 [operand 0, plusSign 2, operand 4], plusSign 6, operand 8]

def sumStatement : Tree := .node { kind := "expression_statement", span := ⟨0, 9⟩ } [] [longSum]

def sum : Document where
  source := "a + b + c"
  tree := .node { kind := "program", span := ⟨0, 9⟩ } [] [sumStatement]
  dialect := .javaScript

/-- The sum of all three, in its place. -/
def sumNode : Node := ((Node.root sum.tree).child 0 sumStatement).child 0 longSum

end Sample

/-- The short sum starts where the long one does and is of the same kind, yet the span of the long
sum leads to the long one. -/
theorem Engine.construct_is_offered_at_its_span_sum :
    Sample.sum.tree.Nested ∧ Sample.sumNode ∈ Sample.sum.tree.nodes ∧
    Sample.sumNode.span = ⟨0, 9⟩ ∧
    ∃ a ∈ ({} : Engine).actionsAt Sample.sum ⟨0, 9⟩, a.document = Sample.sum ∧
      a.transform = .concatToTemplate ∧ a.target.kind = "binary_expression" ∧
        a.target.span = ⟨0, 9⟩ := by
  have hnested : Sample.sum.tree.Nested := by decide
  have hmem : Sample.sumNode ∈ Sample.sum.tree.nodes := by
    -- the long sum lies two steps below the top
    refine Node.mem_preorder_iff.mpr
      (.inr ⟨(Node.root Sample.sum.tree).child 0 Sample.sumStatement, ?_, ?_⟩)
    · exact List.mem_singleton.mpr rfl
    refine Node.mem_preorder_iff.mpr (.inr ⟨Sample.sumNode, ?_, Node.self_mem_preorder _⟩)
    exact List.mem_singleton.mpr rfl
  have hregistered :
      Transform.concatToTemplate ∈ Registry.standard.transformsFor "binary_expression" := by
    rw [Registry.transformsFor_standard]
    simp [Registry.assignments]
  exact ⟨hnested, hmem, rfl,
    Engine.construct_is_offered_at_its_span {} hnested (by decide) hmem (by decide) hregistered⟩

/-! ## §6 Narrowing a span -/

/-- Children that stand apart leave a single way down to a span with something in it. The way to a
wider span is the beginning of it. -/
theorem Node.covering_prefix {n : Node} (h : n.tree.Apart) {inner outer : Span}
    (hinner : inner.start < inner.stop) (hinside : outer.contains inner = true) :
    n.covering outer <+: n.covering inner := by
  fun_induction Node.covering outer n with
  | case1 n c hc ih =>
    have hchild : c ∈ n.children := List.mem_of_find?_eq_some hc
    have houter : c.span.contains outer = true := by simpa using List.find?_some hc
    -- the child on the way to the wider span covers the narrower one too, and no other child does
    have hfind := find?_covering_child h.top hchild hinner (Span.contains_trans houter hinside)
    rw [covering_of_find?_eq_some hfind, List.cons_prefix_cons]
    exact ⟨rfl, ih (h.child (tree_mem_of_mem_children hchild))⟩
  | case2 n =>
    -- the way to the wider span ends here, and the other one at least comes by
    rw [covering]
    split <;> simp

/-- A kind that is on a path stays on it when the chain grows at its end. -/
theorem Document.exists_mem_path_kind {d : Document} {inner outer : Span}
    (hspan : inner.isReversed = false) (hinside : outer.contains inner = true)
    (hchain : (Node.root d.tree).covering outer <+: (Node.root d.tree).covering inner) {n : Node}
    (hn : n ∈ d.path outer) : ∃ m ∈ d.path inner, m.kind = n.kind := by
  obtain ⟨hstop, _, hcovering⟩ := Document.of_mem_path hn
  rw [Document.path_eq (Nat.le_trans (Span.contains_iff.mp hinside).2 hstop) hspan]
  exact Node.exists_firstOfKinds (List.mem_reverse.mpr (hchain.subset hcovering))

/-- Narrowing a selection takes no offer away. If the children of every node stand apart, a span
with something in it has a chain that goes on where the chain of a wider span ends, and every title
that is offered on the wider span is offered on it as well. It does not matter whether children lie
inside of their parent. But an empty span may lie between two children and lead into the other
one. -/
theorem Engine.narrowing_keeps_titles (e : Engine) {d : Document} (hapart : d.tree.Apart)
    {inner outer : Span} (hinner : inner.start < inner.stop)
    (hinside : outer.contains inner = true) :
    d.tree.chain outer <+: d.tree.chain inner ∧
    (e.actionsAt d outer).map Action.title ⊆ (e.actionsAt d inner).map Action.title := by
  have houter : outer.start < outer.stop := by
    obtain ⟨hstart, hstop⟩ := Span.contains_iff.mp hinside
    omega
  have hchain : (Node.root d.tree).covering outer <+: (Node.root d.tree).covering inner :=
    Node.covering_prefix hapart hinner hinside
  constructor
  · rw [Tree.chain_eq _ (Span.not_isReversed_of_lt houter),
      Tree.chain_eq _ (Span.not_isReversed_of_lt hinner)]
    exact hchain
  · intro title htitle
    obtain ⟨a, ha, rfl⟩ := List.mem_map.mp htitle
    obtain ⟨_, htarget, htransform, _⟩ := Engine.mem_actionsAt_iff.mp ha
    -- the node may be another one, further in, but it is of the same kind
    obtain ⟨m, hm, hkind⟩ :=
      Document.exists_mem_path_kind (Span.not_isReversed_of_lt hinner) hinside hchain htarget
    let b : Action :=
      { document := d, target := m, transform := a.transform, verify := e.config.verifyOutput }
    have hb : b ∈ e.actionsAt d inner :=
      Engine.mem_actionsAt_iff.mpr ⟨rfl, hm, by rw [hkind]; exact htransform, rfl⟩
    refine List.mem_map.mpr ⟨b, hb, ?_⟩
    rw [Action.title, Action.title, hkind]

/-- On the way in from the whole sum to its first operand the sums are two different ones, and the
titles stay. -/
theorem Engine.narrowing_keeps_titles_sum :
    Sample.sum.tree.Apart ∧ (⟨0, 9⟩ : Span).contains ⟨0, 5⟩ = true ∧
    (({} : Engine).actionsAt Sample.sum ⟨0, 9⟩).map Action.title =
      ["concat_to_template(binary_expression)", "binary_to_if(binary_expression)",
       "wrap_in_cast(binary_expression)", "wrap_in_call(binary_expression)"] ∧
    Sample.sum.tree.chain ⟨0, 9⟩ <+: Sample.sum.tree.chain ⟨0, 5⟩ ∧
    (({} : Engine).actionsAt Sample.sum ⟨0, 9⟩).map Action.title ⊆
      (({} : Engine).actionsAt Sample.sum ⟨0, 5⟩).map Action.title := by
  have hnested : Sample.sum.tree.Nested := by decide
  exact ⟨hnested.apart, by decide, by decide +kernel,
    Engine.narrowing_keeps_titles {} hnested.apart (by decide) (by decide)⟩

end CodeActions
