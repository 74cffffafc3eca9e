import CodeActions.Proofs.Path
import Mathlib.Data.List.Chain
import Mathlib.Data.List.Nodup

/-!
# The nodes around a span

The chain of a span looks at one child per level: it goes on with the first one that covers the
span. If children lie inside of their parents, it misses nothing at its end. If they also stand
apart, and the span is not empty, it misses nothing at all. An empty span can touch two neighbours,
and a node of no width can lie between them; then the chain goes into the first.

The path of a span is read off the chain from its end. A node is left out exactly if the chain has a
node of the same kind further in, so each kind of the chain is in the path once, and doing it again
changes nothing.

Main statements: `Tree.chain_has_covering_nodes` and `Document.path_has_innermost_nodes`.
-/

namespace CodeActions

namespace Node

/-! ## §1 From a node to the child that covers -/

/-- The node begins at the start of the span or before it, and ends at its stop or behind it. -/
def Covers (n : Node) (span : Span) : Prop := n.span.start ≤ span.start ∧ span.stop ≤ n.span.stop

instance (n : Node) (span : Span) : Decidable (n.Covers span) := inferInstanceAs (Decidable (_ ∧ _))

theorem covers_iff {n : Node} {span : Span} : n.Covers span ↔ n.span.contains span = true :=
  Span.contains_iff.symm

/-- The child covers the span, and no child of the node before it does. -/
def FirstCovering (span : Span) (n c : Node) : Prop :=
  ∃ before after, n.children = before ++ c :: after ∧ c.Covers span ∧ ∀ m ∈ before, ¬ m.Covers span

/-- The search for a child gives the first one that covers the span. -/
theorem firstCovering_of_find? {span : Span} {n c : Node}
    (h : n.children.find? (fun c => c.span.contains span) = some c) : FirstCovering span n c := by
  obtain ⟨hcovers, before, after, hchildren, hbefore⟩ := List.find?_eq_some_iff_append.mp h
  refine ⟨before, after, hchildren, covers_iff.mpr hcovers, fun m hm hm_covers => ?_⟩
  simpa [covers_iff.mp hm_covers] using hbefore m hm

/-! ## §2 The way down -/

variable {span : Span} {n : Node}

theorem head?_covering (span : Span) (n : Node) : (n.covering span).head? = some n := by
  rw [covering]
  split <;> rfl

/-- Each step of a chain goes to the first child that covers the span. -/
theorem isChain_covering (span : Span) (n : Node) :
    (n.covering span).IsChain (FirstCovering span) := by
  fun_induction covering span n with
  | case1 n c hc ih =>
    refine List.isChain_cons.mpr ⟨fun next hnext => ?_, ih⟩
    -- the chain goes on with the child
    rw [head?_covering] at hnext
    cases hnext
    exact firstCovering_of_find? hc
  | case2 n => exact List.isChain_singleton n

/-- A chain goes on as long as a child covers the span. -/
theorem not_covers_of_getLast? {last : Node} (h : (n.covering span).getLast? = some last) :
    ∀ c ∈ last.children, ¬ c.Covers span := by
  fun_induction covering span n with
  | case1 n c hc ih =>
    apply ih
    -- the end of the chain is the end of the chain from the child on
    have hne : c.covering span ≠ [] := List.ne_nil_of_mem (self_mem_covering span c)
    rwa [List.getLast?_cons_of_ne_nil hne] at h
  | case2 n hnone =>
    cases h
    intro c hc hcovers
    simpa [covers_iff.mp hcovers] using List.find?_eq_none.mp hnone c hc

/-- If children lie inside of their parents, no node below the end of a chain covers the span. -/
theorem not_covers_below_last (hinside : n.tree.Inside) {last : Node}
    (h : (n.covering span).getLast? = some last) : ∀ m ∈ last.below, ¬ m.Covers span := by
  intro m hm hcovers
  have hlast : last ∈ n.preorder := (of_mem_covering (List.mem_of_mem_getLast? h)).1
  obtain ⟨c, hc, hm⟩ := mem_below_iff.mp hm
  have hinside_child : c.tree.Inside :=
    (of_mem_preorder Tree.Inside.child hinside hlast).child (tree_mem_of_mem_children hc)
  -- the child that leads to the node would cover the span as well
  apply not_covers_of_getLast? h c hc
  exact covers_iff.mpr (Span.contains_trans (contains_of_mem_preorder hinside_child hm)
    (covers_iff.mp hcovers))

/-- A chain leads down: each of its nodes lies below all nodes before it. -/
theorem pairwise_covering (span : Span) (n : Node) :
    (n.covering span).Pairwise fun outer inner => inner ∈ outer.below := by
  fun_induction covering span n with
  | case1 n c hc ih =>
    refine List.pairwise_cons.mpr ⟨fun m hm => ?_, ih⟩
    exact mem_below_iff.mpr ⟨c, List.mem_of_find?_eq_some hc, (of_mem_covering hm).1⟩
  | case2 n => exact List.pairwise_singleton _ n

end Node

/-- In a tree whose children stand apart inside of their parents, the chain of a span begins at the
top. From each node it goes to the first child that covers the span, and no node below its end
covers it. If the span is not empty, the chain is the top with all nodes below it that cover the
span, the outer ones first. A span with its ends in the wrong order has no chain. -/
theorem Tree.chain_has_covering_nodes {t : Tree} (hinside : t.Inside) (hapart : t.Apart)
    (span : Span) :
    (span.stop < span.start → t.chain span = []) ∧
    (span.start ≤ span.stop →
      (t.chain span).head? = some (.root t) ∧
      (t.chain span).IsChain (Node.FirstCovering span) ∧
      (∀ last ∈ (t.chain span).getLast?, ∀ m ∈ last.below, ¬ m.Covers span) ∧
      (span.start < span.stop →
        t.chain span = .root t :: (Node.root t).below.filter fun m => m.Covers span)) := by
  constructor
  · intro hreversed
    simp [Tree.chain, Span.isReversed, hreversed]
  · intro hordered
    rw [Tree.chain_eq t (by simpa [Span.isReversed] using hordered)]
    refine ⟨Node.head?_covering span _, Node.isChain_covering span _,
      fun last hlast => Node.not_covers_below_last hinside hlast, fun hspan => ?_⟩
    -- only here do the children have to stand apart
    rw [Node.covering_eq_filter hinside hapart hspan]
    simp only [Node.covers_iff, Bool.decide_eq_true]

namespace Sample

/-- Two names with a token of no width between them. -/
def neighbours : Tree :=
  .node { kind := "program", span := ⟨0, 2⟩ } [] [
    .node { kind := "identifier", span := ⟨0, 1⟩ } [] [],
    .node { kind := ";", span := ⟨1, 1⟩, named := false, isMissing := true, hasError := true } []
      [],
    .node { kind := "identifier", span := ⟨1, 2⟩ } [] []]

end Sample

/-- A cursor between the names touches both and the token, and leads into the first name. The second
name is the only node below the top that covers its span. -/
theorem Tree.chain_has_covering_nodes_neighbours :
    let t := Sample.neighbours
    t.Inside ∧ t.Apart ∧ (t.chain ⟨1, 1⟩).map Node.span = [⟨0, 2⟩, ⟨0, 1⟩] ∧
      (t.chain ⟨1, 1⟩).IsChain (Node.FirstCovering ⟨1, 1⟩) ∧
      t.chain ⟨1, 2⟩ = .root t :: (Node.root t).below.filter (fun m => m.Covers ⟨1, 2⟩) ∧
      (t.chain ⟨1, 2⟩).map Node.span = [⟨0, 2⟩, ⟨1, 2⟩] ∧ t.chain ⟨2, 1⟩ = [] := by
  intro t
  have hnested : t.Nested := by decide
  have hcursor := (Tree.chain_has_covering_nodes hnested.inside hnested.apart ⟨1, 1⟩).2 (by decide)
  have hsecond := (Tree.chain_has_covering_nodes hnested.inside hnested.apart ⟨1, 2⟩).2 (by decide)
  have hreversed :=
    (Tree.chain_has_covering_nodes hnested.inside hnested.apart ⟨2, 1⟩).1 (by decide)
  exact ⟨hnested.inside, hnested.apart, by with_unfolding_all decide, hcursor.2.1,
    hsecond.2.2.2 (by decide), by with_unfolding_all decide, hreversed⟩

/-! ## §3 The innermost node of each kind -/

namespace Node

/-- The first nodes of each kind are those before which there is none of the same kind. -/
theorem mem_firstOfKinds_iff {ns : List Node} {n : Node} :
    n ∈ firstOfKinds ns ↔
      ∃ before after, ns = before ++ n :: after ∧ ∀ m ∈ before, m.kind ≠ n.kind := by
  constructor
  · intro h
    induction ns with
    | nil => cases h
    | cons first ns ih =>
      rcases List.mem_cons.mp h with rfl | h
      · exact ⟨[], ns, rfl, by simp⟩
      · obtain ⟨hmem, hkind⟩ := List.mem_filter.mp h
        obtain ⟨before, after, rfl, hbefore⟩ := ih hmem
        refine ⟨first :: before, after, rfl, List.forall_mem_cons.mpr ⟨?_, hbefore⟩⟩
        -- the first node would have filtered out one of its own kind
        intro heq
        simp [heq] at hkind
  · rintro ⟨before, after, rfl, hbefore⟩
    -- seen from the node, those before it take nothing of its kind away
    rw [firstOfKinds_append]
    apply List.mem_append_right
    refine List.mem_filter.mpr ⟨List.mem_cons_self, List.all_eq_true.mpr fun m hm => ?_⟩
    simpa using fun heq => hbefore m hm heq.symm

/-- No kind comes twice among the first nodes of each kind. -/
theorem nodup_kinds_firstOfKinds (ns : List Node) : ((firstOfKinds ns).map kind).Nodup := by
  induction ns with
  | nil => exact List.nodup_nil
  | cons n ns ih =>
    rw [firstOfKinds, List.map_cons, List.nodup_cons]
    constructor
    · -- the nodes of the first kind have been taken out of the rest
      intro hmem
      obtain ⟨m, hm, hkind⟩ := List.mem_map.mp hmem
      simp [hkind] at hm
    · exact ih.sublist (List.filter_sublist.map kind)

/-- Where no kind comes twice all nodes are the first ones. -/
theorem firstOfKinds_eq_self {ns : List Node} (h : (ns.map kind).Nodup) : firstOfKinds ns = ns := by
  induction ns with
  | nil => rfl
  | cons n ns ih =>
    rw [List.map_cons, List.nodup_cons] at h
    rw [firstOfKinds, ih h.2, List.filter_eq_self.mpr]
    intro m hm
    -- so no node is taken out of the rest
    have hne : m.kind ≠ n.kind := fun heq => h.1 (heq ▸ List.mem_map_of_mem hm)
    simpa using hne

/-- The path has the nodes of the chain below which the chain has no node of the same kind, from the
inside out. -/
structure InnermostOf (chain path : List Node) : Prop where
  mem_iff : ∀ n, n ∈ path ↔ ∃ outer inner, chain = outer ++ n :: inner ∧
    ∀ m ∈ inner, m.kind ≠ n.kind
  /-- The order is that of the chain, turned around. -/
  sublist : path.Sublist chain.reverse
  distinct : (path.map kind).Nodup
  /-- Every kind of the chain is there once. -/
  once : ∀ n ∈ chain, (path.map kind).count n.kind = 1
  /-- Each node has all nodes before it below it. -/
  above : path.Pairwise fun inner outer => inner ∈ outer.below

/-- A node is innermost if the rest of the chain has none of its kind. -/
theorem mem_innermost_iff {chain : List Node} {n : Node} :
    n ∈ innermost chain ↔
      ∃ outer inner, chain = outer ++ n :: inner ∧ ∀ m ∈ inner, m.kind ≠ n.kind := by
  rw [innermost, mem_firstOfKinds_iff]
  constructor
  · rintro ⟨before, after, hchain, hbefore⟩
    refine ⟨after.reverse, before.reverse, ?_, fun m hm => hbefore m (List.mem_reverse.mp hm)⟩
    rw [← List.reverse_reverse chain, hchain]
    simp
  · rintro ⟨outer, inner, rfl, hinner⟩
    exact ⟨inner.reverse, outer.reverse, by simp, fun m hm => hinner m (List.mem_reverse.mp hm)⟩

/-- The innermost nodes of a chain that leads down are described by all of this. -/
theorem innermostOf_innermost {chain : List Node}
    (h : chain.Pairwise fun outer inner => inner ∈ outer.below) :
    InnermostOf chain (innermost chain) where
  mem_iff _ := mem_innermost_iff
  sublist := firstOfKinds_sublist _
  distinct := nodup_kinds_firstOfKinds _
  once n hn := by
    obtain ⟨m, hm, hkind⟩ := exists_firstOfKinds (List.mem_reverse.mpr hn)
    apply List.count_eq_one_of_mem (nodup_kinds_firstOfKinds _)
    exact hkind ▸ List.mem_map_of_mem hm
  above := (List.pairwise_reverse.mpr h).sublist (firstOfKinds_sublist _)

end Node

namespace Document

/-- No kind comes twice in a path. -/
theorem nodup_kinds_path (d : Document) (span : Span) : ((d.path span).map Node.kind).Nodup := by
  rcases d.path_cases span with hnil | ⟨_, _, hpath⟩
  · rw [hnil]
    exact List.nodup_nil
  · rw [hpath]
    exact Node.nodup_kinds_firstOfKinds _

/-- The path of a span within the text has the innermost nodes of its chain. -/
theorem innermostOf_path {d : Document} {span : Span} (hordered : span.start ≤ span.stop)
    (hstop : span.stop ≤ d.byteSize) : Node.InnermostOf (d.tree.chain span) (d.path span) := by
  have hspan : span.isReversed = false := by simpa [Span.isReversed] using hordered
  rw [path_eq hstop hspan, Tree.chain_eq d.tree hspan]
  exact Node.innermostOf_innermost (Node.pairwise_covering span _)

/-- There is no path exactly for a span that is given backwards or ends past the text. -/
theorem path_eq_nil_iff {d : Document} {span : Span} :
    d.path span = [] ↔ span.stop < span.start ∨ d.byteSize < span.stop := by
  constructor
  · intro hnil
    by_contra h
    obtain ⟨hordered, hstop⟩ := not_or.mp h
    have hpath := innermostOf_path (Nat.le_of_not_lt hordered) (Nat.le_of_not_lt hstop)
    -- the top is always in the chain, so its kind is in the path
    have htop : Node.root d.tree ∈ d.tree.chain span := by
      rw [Tree.chain_eq d.tree (by simpa [Span.isReversed] using Nat.le_of_not_lt hordered)]
      exact Node.self_mem_covering span _
    have hcount := hpath.once _ htop
    rw [hnil] at hcount
    cases hcount
  · rintro (hreversed | hpast)
    · simp [path, Tree.chain, Span.isReversed, hreversed, Node.innermost, Node.firstOfKinds]
    · rw [path, if_pos hpast]

/-- The path of a span has the innermost node of each kind. It is empty exactly if the span is given
backwards or ends past the text. Otherwise it has those nodes of the chain below which the chain has
no node of the same kind, from the inside out. To look for the innermost nodes in it once more gives
the same path. -/
theorem path_has_innermost_nodes (d : Document) (span : Span) :
    (d.path span = [] ↔ span.stop < span.start ∨ d.byteSize < span.stop) ∧
    (span.start ≤ span.stop → span.stop ≤ d.byteSize →
      Node.InnermostOf (d.tree.chain span) (d.path span)) ∧
    Node.innermost (d.path span).reverse = d.path span := by
  refine ⟨path_eq_nil_iff, innermostOf_path, ?_⟩
  rw [Node.innermost, List.reverse_reverse]
  exact Node.firstOfKinds_eq_self (d.nodup_kinds_path span)

/-- At the start of a sum of three the chain passes two sums, and the path has the inner one. -/
theorem path_has_innermost_nodes_sum :
    (Sample.sum.tree.chain ⟨0, 0⟩).map (fun n => (n.kind, n.span)) =
      [("program", ⟨0, 9⟩), ("expression_statement", ⟨0, 9⟩), ("binary_expression", ⟨0, 9⟩),
       ("binary_expression", ⟨0, 5⟩), ("identifier", ⟨0, 1⟩)] ∧
    (Sample.sum.path ⟨0, 0⟩).map (fun n => (n.kind, n.span)) =
      [("identifier", ⟨0, 1⟩), ("binary_expression", ⟨0, 5⟩), ("expression_statement", ⟨0, 9⟩),
       ("program", ⟨0, 9⟩)] ∧
    Node.InnermostOf (Sample.sum.tree.chain ⟨0, 0⟩) (Sample.sum.path ⟨0, 0⟩) ∧
    Sample.sum.path ⟨0, 10⟩ = [] ∧ Sample.sum.path ⟨1, 0⟩ = [] := by
  have hcursor := (path_has_innermost_nodes Sample.sum ⟨0, 0⟩).2.1 (by decide) (by decide)
  have hpast := (path_has_innermost_nodes Sample.sum ⟨0, 10⟩).1.mpr (.inr (by decide))
  have hreversed := (path_has_innermost_nodes Sample.sum ⟨1, 0⟩).1.mpr (.inl (by decide))
  exact ⟨by with_unfolding_all decide, by with_unfolding_all decide, hcursor, hpast, hreversed⟩

end Document

end CodeActions
