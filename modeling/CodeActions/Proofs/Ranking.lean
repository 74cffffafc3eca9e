import CodeActions.Proofs.Covering
import CodeActions.Proofs.Selection
import Mathlib.Data.List.Nodup

/-!
# The order of actions and their titles

The actions at a span come in the order of the path, the innermost construct first, and on each
construct in the order of registration: first what was registered for its kind, then, if it is an
expression, what was registered for all of them. With the standard registry every action has a title
of its own, because a path has one construct of a kind, a kind has no transform twice, and a title
can be read back.

Main statements: `Engine.ranking_follows_registrations`, `Engine.title_names_one_action`.
-/

namespace CodeActions

/-! ## §1 The order of a path -/

/-- The path comes from the inside out: each of its nodes lies below all nodes behind it. -/
theorem Document.pairwise_path (d : Document) (span : Span) :
    (d.path span).Pairwise fun inner outer => inner ∈ outer.preorder := by
  rcases d.path_cases span with hnil | ⟨_, _, hpath⟩
  · rw [hnil]
    exact .nil
  · -- the path is the chain turned around, with some nodes left out
    rw [hpath]
    have habove := (Node.innermostOf_innermost (Node.pairwise_covering span (.root d.tree))).above
    refine habove.imp fun {inner outer} hbelow => ?_
    rw [Node.preorder_eq]
    exact List.mem_cons_of_mem outer hbelow

/-! ## §2 Ranking -/

/-- The transforms that a history puts on a kind: those that were registered for it, and behind
them, if they are wanted and the kind is one of expressions, those that were registered for every
expression. -/
def Registration.ranking (history : List Registration) (config : Config) (kind : String) :
    List Transform :=
  history.filterMap (transformFor? kind) ++
    if config.genericWraps = true ∧
        "expression".toList <:+: kind.toList ∧ kind ≠ "expression_statement" then
      history.filterMap generic?
    else
      []

/-- The registry lists what was registered, and the actions of an engine that uses it follow the
path, and on each node of the path the history. -/
structure Registry.RanksBy (r : Registry) (history : List Registration) : Prop extends
    r.Lists history where
  actionsAt : ∀ (config : Config) (d : Document) (span : Span),
    (({ registry := r, config } : Engine).actionsAt d span).map
        (fun a => (a.title, a.document, a.target, a.transform, a.verify)) =
      (d.path span).flatMap fun n => (Registration.ranking history config n.kind).map fun t =>
        (t.name ++ "(" ++ n.kind ++ ")", d, n, t, config.verifyOutput)

/-- What an engine offers on a kind is what the history puts on it. -/
theorem Registry.Lists.offered {r : Registry} {history : List Registration} (h : r.Lists history)
    (config : Config) (kind : String) :
    ({ registry := r, config } : Engine).offered kind =
      Registration.ranking history config kind := by
  simp only [Engine.offered, Registration.ranking, h.transformsFor, h.generic, Bool.and_eq_true,
    isExpressionKind_iff]

/-- To know what was registered is to know how the actions are ranked. -/
theorem Registry.Lists.ranksBy {r : Registry} {history : List Registration} (h : r.Lists history) :
    r.RanksBy history := by
  refine ⟨h, fun config d span => ?_⟩
  rw [Engine.actionsAt, Engine.actionsOn, List.map_flatMap]
  simp only [h.offered, List.map_map]
  rfl

/-- Whatever is registered, one after the other, in an empty registry or in the standard one: the
registry lists it in the order of registration, and the actions at a span are ranked by the path,
whose innermost node comes first, and then by that order. -/
theorem Engine.ranking_follows_registrations (history : List Registration) :
    (({} : Registry).recordAll history).RanksBy history ∧
    (Registry.standard.recordAll history).RanksBy (Registration.standard ++ history) ∧
    ∀ (d : Document) (span : Span),
      (d.path span).Pairwise fun inner outer => inner ∈ outer.preorder :=
  ⟨(Registry.lists_empty.recordAll history).ranksBy,
    (Registry.lists_standard.recordAll history).ranksBy, Document.pairwise_path⟩

/-! ## §3 Names -/

namespace Transform

/-- The names of the catalog are all different. -/
theorem nodup_names_all : (all.map name).Nodup := by decide

/-- No name has the parenthesis in it that ends a name in a title. -/
theorem paren_notMem_name : ∀ t ∈ all, '(' ∉ t.name.toList := by with_unfolding_all decide

end Transform

/-- No two transforms of one kind have the same name. -/
theorem Registry.nodup_names_standard (kind : String) :
    ((standard.transformsFor kind).map Transform.name).Nodup := by
  have hrows : (assignments.map fun entry => (entry.1, entry.2.name)).Nodup := by decide
  -- the rows of the kind differ, and they do not differ in the kind
  have hkind := hrows.sublist ((List.filter_sublist (p := fun entry => kind = entry.1)).map _)
  have hnames : ∀ entry ∈ assignments.filter fun entry => kind = entry.1,
      (entry.1, entry.2.name) = (Prod.mk kind ∘ Transform.name ∘ Prod.snd) entry := by
    intro entry hentry
    have heq : kind = entry.1 := by simpa using (List.mem_filter.mp hentry).2
    simp [heq]
  rw [List.map_congr_left hnames, ← List.map_map] at hkind
  rw [transformsFor_standard, List.map_map]
  exact hkind.of_map

/-- An engine with the standard registry offers no two transforms of the same name on a kind. -/
theorem Engine.nodup_names_offered (config : Config) (kind : String) :
    ((({ config } : Engine).offered kind).map Transform.name).Nodup := by
  have hall := Transform.nodup_names_all
  rw [Transform.all, List.map_append, List.nodup_append] at hall
  obtain ⟨_, hgeneric, hdistinct⟩ := hall
  rw [Engine.offered, List.map_append, List.nodup_append]
  refine ⟨Registry.nodup_names_standard kind, ?_, ?_⟩
  · split
    · exact hgeneric
    · exact List.nodup_nil
  · -- the transforms of a kind are specific ones, and no name is shared with a generic one
    intro name hname name' hname'
    obtain ⟨t, ht, rfl⟩ := List.mem_map.mp hname
    have hspecific : t ∈ Transform.specific :=
      Registry.mem_specific_of_mem_assignments (Registry.mem_transformsFor_standard_iff.mp ht)
    split at hname'
    · exact hdistinct _ (List.mem_map_of_mem hspecific) _ hname'
    · cases hname'

/-! ## §4 Titles -/

namespace Action

/-- A title can be read back: the name of the transform goes up to the first parenthesis. -/
theorem splitOnce?_title {a : Action} (h : a.transform ∈ Transform.all) :
    Text.splitOnce? '(' a.title.toList =
      some (a.transform.name.toList, a.target.kind.toList ++ [')']) := by
  -- there may be more parentheses in the kind, but none before the first one
  refine Text.splitOnce?_eq_some_iff.mpr ⟨?_, Transform.paren_notMem_name _ h⟩
  simp [title]

/-- Actions with one title have transforms of one name and targets of one kind. -/
theorem of_title_eq {a b : Action} (ha : a.transform ∈ Transform.all)
    (hb : b.transform ∈ Transform.all) (h : a.title = b.title) :
    a.transform.name = b.transform.name ∧ a.target.kind = b.target.kind := by
  have hsplit := splitOnce?_title ha
  rw [h, splitOnce?_title hb] at hsplit
  simp only [Option.some.injEq, Prod.mk.injEq, List.append_cancel_right_eq,
    String.toList_inj] at hsplit
  exact ⟨hsplit.1.symm, hsplit.2.symm⟩

/-- If no title comes twice, looking for a title finds exactly the action that has it. -/
theorem find?_title_eq_some_iff {actions : List Action} (h : (actions.map title).Nodup)
    {text : String} {a : Action} :
    actions.find? (fun b => b.title == text) = some a ↔ a ∈ actions ∧ a.title = text := by
  constructor
  · intro hfind
    exact ⟨List.mem_of_find?_eq_some hfind, by simpa using List.find?_some hfind⟩
  · rintro ⟨ha, rfl⟩
    -- something is found, and it can be no other action than this one
    obtain ⟨b, hfind⟩ : ∃ b, actions.find? (fun b => b.title == a.title) = some b := by
      rw [← Option.isSome_iff_exists, List.find?_isSome]
      exact ⟨a, ha, beq_self_eq_true a.title⟩
    have htitle : b.title = a.title := by simpa using List.find?_some hfind
    rw [hfind, List.inj_on_of_nodup_map h (List.mem_of_find?_eq_some hfind) ha htitle]

end Action

namespace Engine

/-- The actions on a single node have different titles, because they have different names. -/
theorem nodup_titles_node (config : Config) (d : Document) (n : Node) :
    ((({ config } : Engine).actionsOn d [n]).map Action.title).Nodup := by
  -- the kind is the same for all of them, so only the names are left to differ
  have htitles : (({ config } : Engine).actionsOn d [n]).map Action.title =
      ((({ config } : Engine).offered n.kind).map Transform.name).map
        (· ++ ("(" ++ n.kind ++ ")")) := by
    simp [actionsOn, Action.title, Function.comp_def, String.append_assoc]
  rw [htitles]
  exact (nodup_names_offered config n.kind).map fun name name' h => by simpa using h

/-- If a path has no kind twice, the actions on it have no title twice. -/
theorem nodup_titles_actionsOn (config : Config) (d : Document) {path : List Node}
    (h : (path.map Node.kind).Nodup) :
    ((({ config } : Engine).actionsOn d path).map Action.title).Nodup := by
  induction path with
  | nil => exact List.nodup_nil
  | cons n path ih =>
    rw [List.map_cons, List.nodup_cons] at h
    have happend : ({ config } : Engine).actionsOn d (n :: path) =
        ({ config } : Engine).actionsOn d [n] ++ ({ config } : Engine).actionsOn d path := by
      simp [actionsOn]
    rw [happend, List.map_append, List.nodup_append]
    refine ⟨nodup_titles_node config d n, ih h.2, ?_⟩
    -- with an equal title there would be a node of the first kind in the rest of the path
    intro title hfirst title' hrest htitle
    obtain ⟨a, ha, rfl⟩ := List.mem_map.mp hfirst
    obtain ⟨b, hb, rfl⟩ := List.mem_map.mp hrest
    obtain ⟨_, htarget, hoffered, _⟩ := mem_actionsOn_iff.mp ha
    obtain ⟨_, htarget', hoffered', _⟩ := mem_actionsOn_iff.mp hb
    have hkind : a.target.kind = b.target.kind :=
      (Action.of_title_eq (mem_all_of_mem_offered rfl hoffered)
        (mem_all_of_mem_offered rfl hoffered') htitle).2
    rw [List.mem_singleton.mp htarget] at hkind
    exact h.1 (List.mem_map.mpr ⟨b.target, htarget', hkind.symm⟩)

end Engine

/-- A title names one action: whatever the tree, the span and the settings, an engine with the
standard registry gives no title twice, so looking for a title finds exactly the action that has
it. -/
theorem Engine.title_names_one_action (config : Config) (d : Document) (span : Span) :
    ((({ registry := .standard, config } : Engine).actionsAt d span).map Action.title).Nodup ∧
    ∀ title a, (({ registry := .standard, config } : Engine).actionsAt d span).find?
        (fun b => b.title == title) = some a ↔
      a ∈ ({ registry := .standard, config } : Engine).actionsAt d span ∧ a.title = title := by
  have hnodup := nodup_titles_actionsOn config d (Document.nodup_kinds_path d span)
  exact ⟨hnodup, fun _ _ => Action.find?_title_eq_some_iff hnodup⟩

end CodeActions
