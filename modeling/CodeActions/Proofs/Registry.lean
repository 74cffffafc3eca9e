import CodeActions.Catalog

/-!
# Registries and how they came about

A registry comes about by registrations, one after the other. What it lists can be read off them:
the transforms of a kind are those that were registered for it, the generic ones those that were
registered for every expression, both in the order of registration, and each kind is listed once,
where it was mentioned first. The standard registry comes about by the registrations of the catalog.

Main statements: `Registry.Lists.recordAll`, `Registry.lists_standard`,
`Registry.transformsFor_standard`.
-/

namespace CodeActions

/-! ## §1 One registration -/

namespace Registry

/-- A transform that is put into the table goes behind those of its kind. -/
theorem lookup_insert (kind kind' : String) (t : Transform)
    (table : List (String × List Transform)) :
    ((insert kind t table).lookup kind').getD [] =
      (table.lookup kind').getD [] ++ if kind' = kind then [t] else [] := by
  induction table with
  | nil =>
    by_cases h : kind' = kind
    · simp [insert, h]
    · have hne : (kind' == kind) = false := by simpa using h
      simp [insert, List.lookup_cons, h, hne]
  | cons row table ih =>
    obtain ⟨other, transforms⟩ := row
    -- only if the row is of another kind than the one registered does the insertion go on behind it
    by_cases hother : other = kind
    · subst hother
      by_cases h : kind' = other
      · simp [insert, h]
      · have hne : (kind' == other) = false := by simpa using h
        simp [insert, List.lookup_cons, h, hne]
    · by_cases h : kind' = other
      · subst h
        simp [insert, hother]
      · have hne : (kind' == other) = false := by simpa using h
        simp [insert, List.lookup_cons, hother, hne, ih]

/-- A transform goes behind those of its kind and leaves the other kinds alone. -/
theorem transformsFor_register (r : Registry) (kind kind' : String) (t : Transform) :
    (r.register kind t).transformsFor kind' =
      r.transformsFor kind' ++ if kind' = kind then [t] else [] :=
  lookup_insert kind kind' t r.byKind

/-- A kind that has no row yet gets one at the end of the table. -/
theorem map_fst_insert (kind : String) (t : Transform) (table : List (String × List Transform)) :
    (insert kind t table).map Prod.fst =
      table.map Prod.fst ++ if kind ∈ table.map Prod.fst then [] else [kind] := by
  induction table with
  | nil => simp [insert]
  | cons row table ih =>
    obtain ⟨other, transforms⟩ := row
    -- a row of the kind takes the transform in, and no row is added
    by_cases h : other = kind
    · simp [insert, h]
    · have hne : kind ≠ other := fun heq => h heq.symm
      simp only [insert, if_neg h, List.map_cons, ih, List.mem_cons, hne, false_or,
        List.cons_append]

/-- A kind that is new goes to the end of the kinds, and one that is not stays where it is. -/
theorem kinds_register (r : Registry) (kind : String) (t : Transform) :
    (r.register kind t).kinds = r.kinds ++ if kind ∈ r.kinds then [] else [kind] :=
  map_fst_insert kind t r.byKind

end Registry

/-! ## §2 One registration after the other -/

/-- What is registered: a transform for a kind, or a transform for every expression. -/
inductive Registration where
  | forKind (kind : String) (transform : Transform)
  | generic (transform : Transform)

namespace Registration

/-- The kind that a transform is registered for. -/
def kind? : Registration → Option String
  | forKind kind _ => some kind
  | generic _ => none

/-- The transform, if it is registered for the kind. -/
def transformFor? (kind : String) : Registration → Option Transform
  | forKind other transform => if kind = other then some transform else none
  | generic _ => none

/-- The transform, if it is registered for every expression. -/
def generic? : Registration → Option Transform
  | forKind _ _ => none
  | generic transform => some transform

end Registration

namespace Registry

/-- The registry after one more registration. -/
def record (r : Registry) : Registration → Registry
  | .forKind kind transform => r.register kind transform
  | .generic transform => r.registerGeneric transform

/-- The registry after a number of registrations. -/
def recordAll (r : Registry) (history : List Registration) : Registry := history.foldl record r

/-- Registrations can be made in two goes. -/
theorem recordAll_append (r : Registry) (history later : List Registration) :
    r.recordAll (history ++ later) = (r.recordAll history).recordAll later :=
  List.foldl_append

/-- The registry lists what was registered: every kind once, where it was registered for first, and
the transforms of a kind and the generic ones in the order in which they were registered. -/
structure Lists (r : Registry) (history : List Registration) : Prop where
  transformsFor : ∀ kind, r.transformsFor kind = history.filterMap (Registration.transformFor? kind)
  kinds : r.kinds = (history.filterMap Registration.kind?).eraseDups
  kinds_nodup : r.kinds.Nodup
  generic : r.generic = history.filterMap Registration.generic?

theorem lists_empty : ({} : Registry).Lists [] := ⟨fun _ => rfl, rfl, .nil, rfl⟩

/-- A kind at the end is a repetition if it came before. -/
theorem eraseDups_concat (kinds : List String) (kind : String) :
    (kinds ++ [kind]).eraseDups = kinds.eraseDups ++ if kind ∈ kinds then [] else [kind] := by
  rw [List.eraseDups_append, List.removeAll]
  by_cases h : kind ∈ kinds <;> simp [h, List.eraseDups_cons]

/-- A registration that comes last is listed last. -/
theorem Lists.record {r : Registry} {history : List Registration} (h : r.Lists history)
    (registration : Registration) : (r.record registration).Lists (history ++ [registration]) := by
  cases registration with
  | forKind kind t =>
    refine { transformsFor := fun kind' => ?_, kinds := ?_, kinds_nodup := ?_, generic := ?_ }
    · rw [Registry.record, transformsFor_register, h.transformsFor, List.filterMap_append]
      by_cases heq : kind' = kind <;> simp [Registration.transformFor?, heq]
    · -- the kinds so far are those of the registrations, so both agree on whether this one is new
      rw [Registry.record, kinds_register, h.kinds, List.filterMap_append]
      simp only [List.mem_eraseDups]
      exact (eraseDups_concat _ kind).symm
    · rw [Registry.record, kinds_register]
      by_cases hold : kind ∈ r.kinds
      · simpa [hold] using h.kinds_nodup
      · simpa [hold, List.nodup_append]
          using ⟨h.kinds_nodup, fun kind' hmem heq => hold (heq ▸ hmem)⟩
    · rw [List.filterMap_append]
      exact h.generic.trans (List.append_nil _).symm
  | generic t =>
    -- the table of kinds stays as it is
    refine {
      transformsFor := fun kind => ?_
      kinds := ?_
      kinds_nodup := h.kinds_nodup
      generic := ?_ }
    · rw [List.filterMap_append]
      exact (h.transformsFor kind).trans (List.append_nil _).symm
    · rw [List.filterMap_append]
      exact h.kinds.trans (congrArg List.eraseDups (List.append_nil _).symm)
    · rw [Registry.record, registerGeneric, h.generic, List.filterMap_append]
      rfl

/-- Whatever a registry starts with, it lists the registrations made since behind those made
before. -/
theorem Lists.recordAll {r : Registry} {past : List Registration} (h : r.Lists past)
    (history : List Registration) : (r.recordAll history).Lists (past ++ history) := by
  induction history generalizing r past with
  | nil =>
    rw [List.append_nil]
    exact h
  | cons registration history ih =>
    have hall := ih (h.record registration)
    rw [List.append_assoc, List.singleton_append] at hall
    exact hall

end Registry

/-! ## §3 The standard registry -/

/-- The registrations of the catalog. -/
def Registration.standard : List Registration :=
  Registry.assignments.map (fun (kind, transform) => forKind kind transform) ++
    Transform.generic.map generic

namespace Registry

/-- The standard registry is made by the registrations of the catalog, in their order. -/
theorem standard_eq_recordAll : standard = ({} : Registry).recordAll Registration.standard := by
  rw [Registration.standard, recordAll_append, recordAll, recordAll, List.foldl_map, List.foldl_map]
  rfl

/-- So it lists what the catalog registers. -/
theorem lists_standard : standard.Lists Registration.standard := by
  rw [standard_eq_recordAll]
  exact lists_empty.recordAll Registration.standard

/-- The standard registry offers on a kind what the catalog assigns to it. -/
theorem transformsFor_standard (kind : String) :
    standard.transformsFor kind =
      (assignments.filter fun entry => kind = entry.1).map Prod.snd := by
  -- the generic transforms are not registered for a kind
  have hgeneric : (Transform.generic.map Registration.generic).filterMap
      (Registration.transformFor? kind) = [] := rfl
  rw [lists_standard.transformsFor, Registration.standard, List.filterMap_append, hgeneric,
    List.append_nil, List.filterMap_map, ← List.filterMap_eq_map, List.filterMap_filter]
  congr 1
  funext entry
  by_cases h : kind = entry.1 <;> simp [Registration.transformFor?, h]

theorem mem_transformsFor_standard_iff {kind : String} {t : Transform} :
    t ∈ standard.transformsFor kind ↔ (kind, t) ∈ assignments := by
  rw [transformsFor_standard]
  simp [eq_comm]

/-- What the catalog assigns to a kind is a transform that is made for kinds. -/
theorem mem_specific_of_mem_assignments {kind : String} {t : Transform}
    (h : (kind, t) ∈ assignments) : t ∈ Transform.specific := by
  have hall : ∀ entry ∈ assignments, entry.2 ∈ Transform.specific := by
    simp [assignments, Transform.specific]
  exact hall (kind, t) h

end Registry

end CodeActions
