import CodeActions.Engine
import CodeActions.Proofs.Kind

/-!
# What the catalog offers

An engine offers the transforms of its registry on the nodes of a path, and one with the standard
registry offers nothing but what is in the catalog. All transforms that are made for certain kinds
give finished text; only the generic ones leave holes.

Main statements: `Engine.mem_actionsAt_iff`, `Transform.givesText_specific`,
`Action.of_apply_eq_some`.
-/

namespace CodeActions

/-! ## §1 Actions of an engine -/

/-- The actions on a path are those of the offered transforms on its nodes. -/
theorem Engine.mem_actionsOn_iff {e : Engine} {d : Document} {path : List Node} {a : Action} :
    a ∈ e.actionsOn d path ↔
      a.document = d ∧ a.target ∈ path ∧ a.transform ∈ e.offered a.target.kind ∧
        a.verify = e.config.verifyOutput := by
  unfold Engine.actionsOn
  rw [List.mem_flatMap]
  constructor
  · rintro ⟨target, htarget, ha⟩
    obtain ⟨transform, htransform, rfl⟩ := List.mem_map.mp ha
    exact ⟨rfl, htarget, htransform, rfl⟩
  · rintro ⟨rfl, htarget, htransform, hverify⟩
    exact ⟨a.target, htarget, List.mem_map.mpr ⟨a.transform, htransform, by rw [← hverify]⟩⟩

/-- The actions at a span are those of the offered transforms on the nodes of its path. -/
theorem Engine.mem_actionsAt_iff {e : Engine} {d : Document} {span : Span} {a : Action} :
    a ∈ e.actionsAt d span ↔
      a.document = d ∧ a.target ∈ d.path span ∧ a.transform ∈ e.offered a.target.kind ∧
        a.verify = e.config.verifyOutput :=
  mem_actionsOn_iff

/-! ## §2 Finished text -/

/-- Whatever the transform gives is text without holes. -/
def Transform.GivesText (t : Transform) : Prop :=
  ∀ source n replacement, t.run source n = .ok (some replacement) → replacement.isSnippet = false

/-- All transforms that are made for certain kinds give finished text. -/
theorem Transform.givesText_specific : ∀ t ∈ Transform.specific, t.GivesText := by
  intro t ht source n replacement hrun
  obtain ⟨text, rfl⟩ := (Transform.answersAsAssigned_specific t ht source n replacement hrun).2
  rfl

/-- What an engine with the standard registry offers is in the catalog, whatever its settings. -/
theorem Engine.mem_all_of_mem_offered {e : Engine} (he : e.registry = .standard) {kind : String}
    {t : Transform} (h : t ∈ e.offered kind) : t ∈ Transform.all := by
  unfold Engine.offered at h
  rw [he] at h
  rcases List.mem_append.mp h with h | h
  · have hassigned := Registry.mem_transformsFor_standard_iff.mp h
    exact List.mem_append_left _ (Registry.mem_specific_of_mem_assignments hassigned)
  · -- the generic transforms are offered only on expressions, and only if they are wanted
    split at h
    · exact List.mem_append_right _ h
    · simp at h

/-! ## §3 Actions that are applied -/

/-- An action that gives an edit has a target without errors and a transform that fits, and a
verified edit to finished text brings in no errors. -/
theorem Action.of_apply_eq_some {parser : Parser} {a : Action} {edit : Edit}
    (h : a.apply parser = .ok (some edit)) :
    a.target.tree.hasError = false ∧
    ∃ replacement, a.transform.run a.document.source a.target = .ok (some replacement) ∧
      edit = a.editWith replacement ∧
      (a.verify = true → replacement.isSnippet = false →
        ∃ source, edit.applyTo a.document.source = .ok source ∧
          (parser a.document.dialect source).errorCount ≤ a.document.tree.errorCount) := by
  unfold Action.apply at h
  cases herror : a.target.tree.hasError with
  | true =>
    rw [herror] at h
    cases h
  | false =>
    rw [herror] at h
    simp only [Bool.false_eq_true, if_false] at h
    obtain ⟨replacement?, hrun, h⟩ := bind_eq_ok_iff.mp h
    cases replacement? with
    | none => cases h
    | some replacement =>
      refine ⟨rfl, replacement, hrun, ?_⟩
      simp only at h
      split at h
      case isTrue hverify =>
        obtain ⟨parses, hparses, h⟩ := bind_eq_ok_iff.mp h
        cases parses with
        | false => cases h
        | true =>
          cases h
          refine ⟨rfl, fun _ _ => ?_⟩
          unfold Action.stillParses at hparses
          obtain ⟨source, hsource, hcount⟩ := bind_eq_ok_iff.mp hparses
          exact ⟨source, hsource, of_decide_eq_true (Except.ok.inj hcount)⟩
      -- without a check nothing is claimed: it was not wanted, or there is a hole in the text
      case isFalse hverify =>
        cases h
        refine ⟨rfl, fun hverified htext => ?_⟩
        simp [hverified, htext] at hverify

end CodeActions
