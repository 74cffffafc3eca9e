import CodeActions.Proofs.Path
import CodeActions.Tree.Errors
import CodeActions.Tree.Rows
import Mathlib.Algebra.Order.Ring.Nat

/-!
# The number of syntax errors

Errors are counted from the top downwards, and a part that says that it holds none is passed over.
If every part says the truth, nothing is missed: the count is the number of errors and missing
tokens among all nodes. And whatever the parts say, those that are passed over might as well not be
there.

Main statements: `Node.errorCount_eq_countP`, `Tree.errorCount_pruned`,
`Node.map_label_filter_preorder` and `Tree.errors_are_counted_once`.
-/

namespace CodeActions

/-! ## §1 Errors among the nodes -/

namespace Node

/-- The node is an error or a missing token. -/
def isFaulty (n : Node) : Bool := n.tree.label.isError || n.tree.label.isMissing

/-- What lies below a node of the tree lies below its top. -/
theorem mem_preorder_trans {n m k : Node} (hm : m ∈ n.preorder) (hk : k ∈ m.preorder) :
    k ∈ n.preorder := by
  induction n using Node.induction_children with
  | step n ih =>
    rcases mem_preorder_iff.mp hm with rfl | ⟨c, hc, hm⟩
    · exact hk
    · exact mem_preorder_iff.mpr (.inr ⟨c, hc, ih c hc hm⟩)

/-- Each node from here on is marked exactly if it or a node below it is an error or a missing
token. -/
def MarksErrors (n : Node) : Prop :=
  ∀ m ∈ n.preorder, m.tree.hasError = true ↔ ∃ k ∈ m.preorder, k.isFaulty = true

instance (n : Node) : Decidable n.MarksErrors :=
  inferInstanceAs
    (Decidable (∀ m ∈ n.preorder, m.tree.hasError = true ↔ ∃ k ∈ m.preorder, k.isFaulty = true))

/-- Right marks are right below each node. -/
theorem MarksErrors.of_mem_preorder {n m : Node} (h : n.MarksErrors) (hm : m ∈ n.preorder) :
    m.MarksErrors :=
  fun k hk => h k (mem_preorder_trans hm hk)

theorem MarksErrors.child {n c : Node} (h : n.MarksErrors) (hc : c ∈ n.children) : c.MarksErrors :=
  h.of_mem_preorder (mem_preorder_iff.mpr (.inr ⟨c, hc, self_mem_preorder c⟩))

end Node

namespace Tree

/-- In the whole tree a node is marked exactly if it or a node below it is an error or a missing
token. -/
def MarksErrors (t : Tree) : Prop := (Node.root t).MarksErrors

instance (t : Tree) : Decidable t.MarksErrors :=
  inferInstanceAs (Decidable (Node.root t).MarksErrors)

theorem totalErrorCount_eq (ts : List Tree) : totalErrorCount ts = (ts.map errorCount).sum := by
  induction ts with
  | nil => rfl
  | cons t ts ih => rw [totalErrorCount, ih, List.map_cons, List.sum_cons]

/-- A marked node counts itself if it is an error, and then its children. -/
theorem errorCount_of_hasError {t : Tree} (h : t.hasError = true) :
    t.errorCount = (if t.label.isError || t.label.isMissing then 1 else 0) +
      (t.children.map errorCount).sum := by
  cases t with
  | node label fields children =>
    have hlabel : label.hasError = true := h
    rw [errorCount, if_pos hlabel, totalErrorCount_eq]
    rfl

/-- A node without a mark is passed over with all that is below it. -/
theorem errorCount_of_not_hasError {t : Tree} (h : t.hasError = false) : t.errorCount = 0 := by
  cases t with
  | node label fields children =>
    have hlabel : label.hasError = false := h
    rw [errorCount, hlabel, if_neg Bool.false_ne_true]

end Tree

/-- If the marks are right, the count is the number of errors and missing tokens among the nodes. -/
theorem Node.errorCount_eq_countP {n : Node} (h : n.MarksErrors) :
    n.tree.errorCount = n.preorder.countP isFaulty := by
  induction n using Node.induction_children with
  | step n ih =>
    cases hmark : n.tree.hasError with
    | false =>
      -- without a mark there is nothing to count
      have hnone : ∀ m ∈ n.preorder, ¬ m.isFaulty = true := by
        intro m hm hfaulty
        have hmarked := (h n (self_mem_preorder n)).mpr ⟨m, hm, hfaulty⟩
        exact Bool.false_ne_true (hmark.symm.trans hmarked)
      rw [Tree.errorCount_of_not_hasError hmark, List.countP_eq_zero.mpr hnone]
    | true =>
      have hchildren : ∀ c ∈ n.children, c.tree.errorCount = c.preorder.countP isFaulty :=
        fun c hc => ih c hc (h.child hc)
      -- the count follows the trees, the nodes know their places, and the children are the same
      calc n.tree.errorCount
          = (if n.isFaulty then 1 else 0) + (n.tree.children.map Tree.errorCount).sum :=
            Tree.errorCount_of_hasError hmark
        _ = (if n.isFaulty then 1 else 0) + (n.children.map fun c => c.tree.errorCount).sum := by
            rw [← map_tree_children, List.map_map]
            rfl
        _ = (if n.isFaulty then 1 else 0) +
              (n.children.map fun c => c.preorder.countP isFaulty).sum := by
            rw [List.map_congr_left hchildren]
        _ = n.preorder.countP isFaulty := by
            rw [preorder_eq, List.countP_cons, below, List.countP_flatMap, Nat.add_comm]
            rfl

/-- If the marks are right, there is something to count exactly where there is a mark. -/
theorem Node.errorCount_eq_zero_iff {n : Node} (h : n.MarksErrors) :
    n.tree.errorCount = 0 ↔ n.tree.hasError = false := by
  rw [errorCount_eq_countP h, List.countP_eq_zero, Bool.eq_false_iff, ne_eq,
    h n (self_mem_preorder n)]
  simp

/-! ## §2 Parts without errors -/

namespace Tree

mutual

/-- The tree without the parts below its top that are not marked. The positions of the children that
carry a field name change when others go; `refield` says what becomes of them. -/
def pruned (refield : Tree → List (String × Nat)) : Tree → Tree
  | node label fields children =>
      node label (refield (node label fields children)) (prunedAll refield children)

/-- The trees that are marked, without the parts that are not. -/
def prunedAll (refield : Tree → List (String × Nat)) : List Tree → List Tree
  | [] => []
  | t :: ts => if t.hasError then t.pruned refield :: prunedAll refield ts else prunedAll refield ts

end

variable {refield : Tree → List (String × Nat)}

/-- The trees that stay are those with a mark. -/
theorem prunedAll_eq (ts : List Tree) :
    prunedAll refield ts = (ts.filter hasError).map (pruned refield) := by
  induction ts with
  | nil => rfl
  | cons t ts ih =>
    rw [prunedAll, ih]
    cases hmark : t.hasError with
    | false => simp [hmark]
    | true => simp [hmark]

@[simp] theorem label_pruned (t : Tree) : (t.pruned refield).label = t.label := by
  cases t with
  | node label fields children => rw [pruned, label_node, label_node]

theorem children_pruned (t : Tree) :
    (t.pruned refield).children = (t.children.filter hasError).map (pruned refield) := by
  cases t with
  | node label fields children => rw [pruned, children_node, children_node, prunedAll_eq]

/-- Trees that are not marked count nothing. -/
theorem sum_errorCount_filter (ts : List Tree) :
    ((ts.filter hasError).map errorCount).sum = (ts.map errorCount).sum := by
  induction ts with
  | nil => rfl
  | cons t ts ih =>
    cases hmark : t.hasError with
    | false => simp [hmark, ih, errorCount_of_not_hasError hmark]
    | true => simp [hmark, ih]

/-- What is passed over can be taken away. -/
theorem errorCount_pruned (t : Tree) : (t.pruned refield).errorCount = t.errorCount := by
  induction t using Tree.induction_children with
  | step t ih =>
    -- pruning changes no labels, so it is the same nodes that are passed over
    have hsame : (t.pruned refield).hasError = t.hasError :=
      congrArg Label.hasError (label_pruned t)
    cases hmark : t.hasError with
    | false => rw [errorCount_of_not_hasError hmark, errorCount_of_not_hasError (hsame.trans hmark)]
    | true =>
      have hstays : ∀ u ∈ t.children.filter hasError,
          (errorCount ∘ pruned refield) u = errorCount u :=
        fun u hu => ih u (List.mem_of_mem_filter hu)
      rw [errorCount_of_hasError hmark, errorCount_of_hasError (hsame.trans hmark), label_pruned,
        children_pruned, List.map_map, List.map_congr_left hstays, sum_errorCount_filter]

end Tree

/-! ## §3 What is left

The nodes that are left are those with nothing unmarked on the way down to them. -/

namespace Node

/-- The tree of the node and the trees that it lies in, the innermost first. -/
def around (n : Node) : List Tree := n.tree :: n.above.map Place.parent

theorem length_around (n : Node) : n.around.length = n.above.length + 1 := by
  simp [around]

theorem around_child {n c : Node} (hc : c ∈ n.children) : c.around = c.tree :: n.around := by
  obtain ⟨⟨t, index⟩, _, rfl⟩ := List.mem_map.mp hc
  rfl

/-- The way up from a node leads through the nodes that it lies below. -/
theorem exists_around_eq {n m : Node} (hm : m ∈ n.preorder) :
    ∃ way, m.around = way ++ n.around := by
  induction n using Node.induction_children with
  | step n ih =>
    rcases mem_preorder_iff.mp hm with rfl | ⟨c, hc, hm⟩
    · exact ⟨[], rfl⟩
    · obtain ⟨way, hway⟩ := ih c hc hm
      exact ⟨way ++ [c.tree],
        by rw [hway, around_child hc, List.append_assoc, List.singleton_append]⟩

/-- The trees on the way from a node down to another one, without the first. -/
def wayFrom (n m : Node) : List Tree := m.around.take (m.above.length - n.above.length)

/-- What stands above the lower node and not above the upper one is the way between them. -/
theorem wayFrom_eq {n m : Node} {way : List Tree} (h : m.around = way ++ n.around) :
    n.wayFrom m = way := by
  -- the way is as long as the lower node is deeper
  have hlength := congrArg List.length h
  rw [List.length_append, length_around, length_around] at hlength
  rw [wayFrom, h, List.take_left' (by omega)]

theorem wayFrom_self (n : Node) : n.wayFrom n = [] := wayFrom_eq rfl

/-- The way to a node below a child begins with the child. -/
theorem wayFrom_of_child {n c m : Node} (hc : c ∈ n.children) (hm : m ∈ c.preorder) :
    n.wayFrom m = c.wayFrom m ++ [c.tree] := by
  obtain ⟨way, hway⟩ := exists_around_eq hm
  rw [wayFrom_eq hway]
  apply wayFrom_eq
  rw [hway, around_child hc, List.append_assoc, List.singleton_append]

/-- All trees on the way from a node down to another one are marked. -/
def leadsTo (n m : Node) : Bool := (n.wayFrom m).all Tree.hasError

theorem leadsTo_self (n : Node) : n.leadsTo n = true := by
  rw [leadsTo, wayFrom_self]
  rfl

/-- A way is marked exactly if its first step is and the rest is. -/
theorem leadsTo_of_child {n c m : Node} (hc : c ∈ n.children) (hm : m ∈ c.preorder) :
    n.leadsTo m = (c.tree.hasError && c.leadsTo m) := by
  rw [leadsTo, leadsTo, wayFrom_of_child hc hm, List.all_append, Bool.and_comm]
  simp

/-- The way from the top leads through all trees around a node but the whole one. -/
theorem leadsTo_root (t : Tree) :
    (root t).leadsTo = fun m => m.around.dropLast.all Tree.hasError := by
  funext m
  rw [leadsTo, wayFrom, List.dropLast_eq_take, length_around]
  rfl

end Node

namespace Tree

/-- The labels of all nodes, in the order of the nodes. -/
def labels (t : Tree) : List Label := t.rows.map Row.label

theorem allRows_eq (ts : List Tree) : allRows ts = ts.flatMap rows := by
  induction ts with
  | nil => rfl
  | cons t ts ih => rw [allRows, ih, List.flatMap_cons]

/-- The labels come in the order of the nodes: the top, then one child after the other. -/
theorem labels_eq (t : Tree) : t.labels = t.label :: t.children.flatMap labels := by
  cases t with
  | node label fields children =>
    rw [labels, rows, allRows_eq, List.map_cons, List.map_flatMap]
    rfl

/-- Of the children only those with a mark leave labels behind. -/
theorem labels_pruned (t : Tree) : (t.pruned refield).labels =
    t.label :: t.children.flatMap fun u =>
      if u.hasError then (u.pruned refield).labels else [] := by
  -- a child that is taken away leaves the empty list of labels, which shows nowhere
  have hmarked : ∀ ts : List Tree, ((ts.filter hasError).map (pruned refield)).flatMap labels =
      ts.flatMap fun u => if u.hasError then (u.pruned refield).labels else [] := by
    intro ts
    induction ts with
    | nil => rfl
    | cons u us ih =>
      cases hmark : u.hasError with
      | false => simp [hmark, ih]
      | true => simp [hmark, ih]
  rw [labels_eq, label_pruned, children_pruned, hmarked]

end Tree

namespace Node

/-- Where a node stands does not matter to the labels of the nodes from there on. -/
theorem map_label_preorder (n : Node) : n.preorder.map (fun m => m.tree.label) = n.tree.labels := by
  induction n using Node.induction_children with
  | step n ih =>
    rw [preorder_eq, below, List.map_cons, List.map_flatMap, List.flatMap_congr ih, Tree.labels_eq,
      ← map_tree_children, List.flatMap_map]

/-- What is left of a tree are the nodes with nothing unmarked on the way down to them. -/
theorem map_label_filter_preorder (refield : Tree → List (String × Nat)) (n : Node) :
    (n.preorder.filter n.leadsTo).map (fun m => m.tree.label) = (n.tree.pruned refield).labels := by
  induction n using Node.induction_children with
  | step n ih =>
    -- below a child there is something left exactly if the child is marked, and then it is what is
    -- left of the child
    have hchildren : ∀ c ∈ n.children, (c.preorder.filter n.leadsTo).map (fun m => m.tree.label) =
        if c.tree.hasError then (c.tree.pruned refield).labels else [] := by
      intro c hc
      rw [List.filter_congr fun m hm => leadsTo_of_child hc hm]
      cases hmark : c.tree.hasError with
      | false => simp
      | true => simpa using ih c hc
    -- the top itself is always left, for the way to it is empty
    rw [preorder_eq, below, List.filter_cons_of_pos (leadsTo_self n), List.filter_flatMap,
      List.map_cons, List.map_flatMap, List.flatMap_congr hchildren, Tree.labels_pruned,
      ← map_tree_children, List.flatMap_map]

end Node

/-- If each node of a tree is marked exactly when it or a node below it is an error or a missing
token, then from every node on each of these is counted once, and there is nothing to count exactly
where there is no mark.

Whatever the marks are, nothing changes if all parts below the top that are not marked are taken
away: what is left are the nodes that have a mark and only marked nodes between them and the top,
and the count is the same. -/
theorem Tree.errors_are_counted_once (t : Tree) :
    (t.MarksErrors → ∀ n ∈ t.nodes, n.tree.errorCount = n.preorder.countP Node.isFaulty ∧
      (n.tree.errorCount = 0 ↔ n.tree.hasError = false)) ∧
    ∀ refield, (t.pruned refield).errorCount = t.errorCount ∧
      (t.pruned refield).nodes.map (fun n => n.tree.label) =
        (t.nodes.filter fun n => n.around.dropLast.all hasError).map (fun n => n.tree.label) := by
  constructor
  · intro hmarks n hn
    have hmarks_here : n.MarksErrors := Node.MarksErrors.of_mem_preorder hmarks hn
    exact ⟨Node.errorCount_eq_countP hmarks_here, Node.errorCount_eq_zero_iff hmarks_here⟩
  · intro refield
    refine ⟨errorCount_pruned t, ?_⟩
    -- the pruned tree has other places for its nodes, so both sides are compared by their labels
    calc (t.pruned refield).nodes.map (fun n => n.tree.label)
        = (t.pruned refield).labels := Node.map_label_preorder (.root (t.pruned refield))
      _ = (t.nodes.filter (Node.root t).leadsTo).map (fun n => n.tree.label) :=
          (Node.map_label_filter_preorder refield (.root t)).symm
      _ = (t.nodes.filter fun n => n.around.dropLast.all hasError).map (fun n => n.tree.label) := by
          rw [Node.leadsTo_root]

namespace Sample

/-- A block without errors. -/
def soundBlock : Tree := .node { kind := "statement_block", span := ⟨0, 2⟩ } [] []

/-- A missing token in an error in an error, next to parts without errors. -/
def nestedErrors : Tree :=
  .node { kind := "program", span := ⟨0, 9⟩, hasError := true } [("body", 1)] [
    soundBlock,
    .node { kind := "ERROR", span := ⟨2, 9⟩, isError := true, hasError := true } [] [
      soundBlock,
      .node { kind := "ERROR", span := ⟨4, 9⟩, isError := true, hasError := true } [] [
        .node { kind := ";", span := ⟨9, 9⟩, named := false, isMissing := true, hasError := true }
          [] []]]]

/-- An error in a part that is not marked. -/
def hiddenError : Tree :=
  .node { kind := "program", span := ⟨0, 9⟩, hasError := true } [] [
    .node { kind := "statement_block", span := ⟨0, 9⟩ } [] [
      .node { kind := "ERROR", span := ⟨2, 9⟩, isError := true, hasError := true } [] []]]

end Sample

/-- Two errors and a missing token, one inside of the other, are three. The two parts without errors
can go, and so can an error in a part that is not marked. -/
theorem Tree.errors_are_counted_once_nested :
    Sample.nestedErrors.MarksErrors ∧
    Sample.nestedErrors.errorCount = Sample.nestedErrors.nodes.countP Node.isFaulty ∧
    Sample.nestedErrors.errorCount = 3 ∧
    (Sample.nestedErrors.pruned fun _ => []).errorCount = Sample.nestedErrors.errorCount ∧
    ((Sample.nestedErrors.pruned fun _ => []).nodes.map fun n => n.tree.kind) =
      ["program", "ERROR", "ERROR", ";"] ∧
    ¬ Sample.hiddenError.MarksErrors ∧
    (Sample.hiddenError.pruned fun _ => []).errorCount = Sample.hiddenError.errorCount ∧
    ((Sample.hiddenError.pruned fun _ => []).nodes.map fun n => n.tree.kind) = ["program"] := by
  have hmarks : Sample.nestedErrors.MarksErrors := by with_unfolding_all decide
  have hcounts := (Tree.errors_are_counted_once Sample.nestedErrors).1 hmarks
    (.root Sample.nestedErrors) (Node.self_mem_preorder _)
  exact ⟨hmarks, hcounts.1, by decide, ((Tree.errors_are_counted_once Sample.nestedErrors).2 _).1,
    by with_unfolding_all decide, by with_unfolding_all decide,
    ((Tree.errors_are_counted_once Sample.hiddenError).2 _).1, by with_unfolding_all decide⟩

end CodeActions
