import CodeActions.Edit.Basic
import Mathlib.Data.List.Forall2

/-!
# What a cut gives

A cut succeeds exactly at the offsets between two characters, and what it gives is then fixed by the
text and the offsets. So a slice that succeeded shows how the text is made up around it, and an edit
of the same span changes nothing but the slice.

Main statements: `Text.slice_eq_ok_iff`, `Text.succeeds_slice_iff`, `Edit.applyTo_of_slice`.
-/

namespace CodeActions

/-! ## §1 Computations that can fail -/

/-- Two steps have a result exactly if the first one has one and the second one has one from
there. -/
theorem bind_eq_ok_iff {ε α β : Type} {x : Except ε α} {f : α → Except ε β} {b : β} :
    x >>= f = .ok b ↔ ∃ a, x = .ok a ∧ f a = .ok b := by
  cases x with
  | error e => exact ⟨nofun, nofun⟩
  | ok a =>
    constructor
    · intro h
      exact ⟨a, rfl, h⟩
    · rintro ⟨a', ha, h⟩
      cases ha
      exact h

theorem map_eq_ok_iff {ε α β : Type} {x : Except ε α} {f : α → β} {b : β} :
    x.map f = .ok b ↔ ∃ a, x = .ok a ∧ f a = b := by
  cases x <;> simp [Except.map]

@[simp] theorem mapError_ok {ε ε' α : Type} (rename : ε → ε') (a : α) :
    (Except.ok a : Except ε α).mapError rename = .ok a := rfl

@[simp] theorem mapError_error {ε ε' α : Type} (rename : ε → ε') (e : ε) :
    (Except.error e : Except ε α).mapError rename = .error (rename e) := rfl

/-- Renaming the error leaves the results alone. -/
theorem mapError_eq_ok_iff {ε ε' α : Type} {x : Except ε α} {rename : ε → ε'} {a : α} :
    x.mapError rename = .ok a ↔ x = .ok a := by
  cases x with
  | error e => exact ⟨nofun, nofun⟩
  | ok b =>
    constructor
    · rintro ⟨⟩
      rfl
    · rintro ⟨⟩
      rfl

/-- Two steps fail exactly if the first one does, or the second one from where the first one
leads. -/
theorem bind_eq_error_iff {ε α β : Type} {x : Except ε α} {f : α → Except ε β} {e : ε} :
    x >>= f = .error e ↔ x = .error e ∨ ∃ a, x = .ok a ∧ f a = .error e := by
  cases x with
  | error e' =>
    constructor
    · rintro ⟨⟩
      exact .inl rfl
    · rintro (h | ⟨a, ha, _⟩)
      · cases h
        rfl
      · cases ha
  | ok a =>
    constructor
    · intro h
      exact .inr ⟨a, rfl, h⟩
    · rintro (h | ⟨a', ha, h⟩)
      · cases h
      · cases ha
        exact h

theorem map_eq_error_iff {ε α β : Type} {x : Except ε α} {f : α → β} {e : ε} :
    x.map f = .error e ↔ x = .error e := by
  cases x <;> simp [Except.map]

/-- An error behind the renaming is the new name of an error before it. -/
theorem mapError_eq_error_iff {ε ε' α : Type} {x : Except ε α} {rename : ε → ε'} {e' : ε'} :
    x.mapError rename = .error e' ↔ ∃ e, x = .error e ∧ rename e = e' := by
  cases x <;> simp

theorem toOption_eq_some_iff {ε α : Type} {x : Except ε α} {a : α} :
    x.toOption = some a ↔ x = .ok a := by
  cases x <;> simp [Except.toOption]

/-- A list of computations has results exactly if each of them has its result. -/
theorem mapM_eq_ok_iff {ε α β : Type} {f : α → Except ε β} {xs : List α} {ys : List β} :
    xs.mapM f = .ok ys ↔ List.Forall₂ (fun x y => f x = .ok y) xs ys := by
  induction xs generalizing ys with
  | nil =>
    rw [List.forall₂_nil_left_iff]
    exact ⟨fun h => (Except.ok.inj h).symm, fun h => by rw [h]; rfl⟩
  | cons x xs ih =>
    rw [List.mapM_cons, bind_eq_ok_iff, List.forall₂_cons_left_iff]
    -- both sides ask for the first result, and then for the results of the rest
    refine exists_congr fun y => ?_
    rw [bind_eq_ok_iff]
    constructor
    · rintro ⟨hy, zs, hzs, h⟩
      exact ⟨zs, hy, ih.mp hzs, (Except.ok.inj h).symm⟩
    · rintro ⟨zs, hy, hzs, rfl⟩
      exact ⟨hy, zs, ih.mpr hzs, rfl⟩

/-- The same for computations that say nothing where they have no result. -/
theorem mapM_eq_some_iff {α β : Type} {f : α → Option β} {xs : List α} {ys : List β} :
    xs.mapM f = some ys ↔ List.Forall₂ (fun x y => f x = some y) xs ys := by
  induction xs generalizing ys with
  | nil => simp [eq_comm]
  | cons x xs ih =>
    rw [List.mapM_cons, List.forall₂_cons_left_iff]
    simp only [Option.bind_eq_bind, Option.bind_eq_some_iff, Option.pure_def, Option.some.injEq, ih]
    constructor
    · rintro ⟨y, hy, zs, hzs, rfl⟩
      exact ⟨y, zs, hy, hzs, rfl⟩
    · rintro ⟨y, zs, hy, hzs, rfl⟩
      exact ⟨y, hy, zs, hzs, rfl⟩

/-- The computation has a result. -/
def Succeeds {ε α : Type} (x : Except ε α) : Prop := ∃ a, x = .ok a

namespace Succeeds

variable {ε α β : Type}

theorem pure (a : α) : Succeeds (Pure.pure a : Except ε α) := ⟨a, rfl⟩

/-- The second step may rely on what the first one gives. -/
theorem bind {x : Except ε α} {f : α → Except ε β} (hx : Succeeds x)
    (hf : ∀ a, x = .ok a → Succeeds (f a)) : Succeeds (x >>= f) := by
  obtain ⟨a, ha⟩ := hx
  obtain ⟨b, hb⟩ := hf a ha
  exact ⟨b, bind_eq_ok_iff.mpr ⟨a, ha, hb⟩⟩

/-- Steps that all succeed succeed one after the other. -/
theorem mapM {f : α → Except ε β} {xs : List α} (h : ∀ x ∈ xs, Succeeds (f x)) :
    Succeeds (xs.mapM f) := by
  induction xs with
  | nil => exact pure []
  | cons x xs ih =>
    rw [List.mapM_cons]
    have hx : Succeeds (f x) := h x List.mem_cons_self
    have hxs : Succeeds (xs.mapM f) := ih fun y hy => h y (List.mem_cons_of_mem x hy)
    exact hx.bind fun _ _ => hxs.bind fun _ _ => pure _

end Succeeds

namespace Text

/-! ## §2 Sizes -/

@[simp] theorem byteSize_append (s t : String) : byteSize (s ++ t) = byteSize s + byteSize t := by
  simp [byteSize]

@[simp] theorem byteSize_ofList (cs : List Char) : byteSize (String.ofList cs) = size cs := by
  simp [byteSize]

/-- Every character takes at least a byte, so only the empty text takes none. -/
theorem size_eq_zero_iff {cs : List Char} : size cs = 0 ↔ cs = [] := by
  cases cs with
  | nil => simp
  | cons c cs =>
    have := Char.utf8Size_pos c
    simp only [size_cons, reduceCtorEq, iff_false]
    omega

/-- Of two fronts of a text the one with fewer bytes is a front of the other. -/
theorem prefix_of_size_le {front back front' back' : List Char}
    (h : front ++ back = front' ++ back') (hle : size front ≤ size front') :
    ∃ mid, front' = front ++ mid ∧ back = mid ++ back' := by
  rcases List.append_eq_append_iff.mp h with ⟨mid, hf, hb⟩ | ⟨mid, hf, hb⟩
  · exact ⟨mid, hf, hb⟩
  · -- the front that should be shorter is longer, so what it has more is empty
    have hmid : mid = [] := by
      rw [hf, size_append] at hle
      exact size_eq_zero_iff.mp (by omega)
    subst hmid
    exact ⟨[], by simpa using hf.symm, by simpa using hb.symm⟩

/-- The same for strings. -/
theorem exists_append_of_byteSize_le {front back front' back' : String}
    (h : front ++ back = front' ++ back') (hle : byteSize front ≤ byteSize front') :
    ∃ mid, front' = front ++ mid ∧ back = mid ++ back' := by
  have hlists : front.toList ++ back.toList = front'.toList ++ back'.toList := by
    rw [← String.toList_append, h, String.toList_append]
  obtain ⟨mid, hfront, hback⟩ := prefix_of_size_le hlists hle
  refine ⟨String.ofList mid, String.toList_inj.mp ?_, String.toList_inj.mp ?_⟩
  · rw [hfront, String.toList_append, String.toList_ofList]
  · rw [hback, String.toList_append, String.toList_ofList]

/-! ## §3 Boundaries -/

/-- A boundary is where some front of the text ends. -/
theorem isBoundary_iff_split {cs : List Char} {offset : Nat} :
    isBoundary cs offset = true ↔ ∃ front back, cs = front ++ back ∧ size front = offset := by
  rw [isBoundary, Option.isSome_iff_exists, Prod.exists]
  simp only [splitAt?_eq_some_iff]

theorem isBoundary_size (front back : List Char) : isBoundary (front ++ back) (size front) = true :=
  isBoundary_iff_split.mpr ⟨front, back, rfl, rfl⟩

/-- The same for strings, which have no other parts than the lists of their characters. -/
theorem isBoundary_iff {s : String} {offset : Nat} :
    isBoundary s.toList offset = true ↔
      ∃ front back, s = front ++ back ∧ byteSize front = offset := by
  rw [isBoundary_iff_split]
  constructor
  · rintro ⟨front, back, hs, hsize⟩
    refine ⟨String.ofList front, String.ofList back, ?_, by simpa using hsize⟩
    rw [← String.ofList_append, ← hs, String.ofList_toList]
  · rintro ⟨front, back, rfl, hsize⟩
    exact ⟨front.toList, back.toList, String.toList_append, hsize⟩

/-- What is cut off at an offset is the front of the text that has so many bytes. -/
theorem upTo_eq_ok_iff {s : String} {offset : Nat} {front : String} :
    upTo s offset = .ok front ↔ ∃ back, s = front ++ back ∧ byteSize front = offset := by
  refine map_eq_ok_iff.trans ?_
  constructor
  · rintro ⟨⟨front', back⟩, h, rfl⟩
    exact ⟨back, splitAt_eq_ok_iff.mp h⟩
  · rintro ⟨back, h⟩
    exact ⟨(front, back), splitAt_eq_ok_iff.mpr h, rfl⟩

/-- What is left behind an offset is the text without such a front. -/
theorem onwards_eq_ok_iff {s : String} {offset : Nat} {back : String} :
    onwards s offset = .ok back ↔ ∃ front, s = front ++ back ∧ byteSize front = offset := by
  refine map_eq_ok_iff.trans ?_
  constructor
  · rintro ⟨⟨front, back'⟩, h, rfl⟩
    exact ⟨front, splitAt_eq_ok_iff.mp h⟩
  · rintro ⟨front, h⟩
    exact ⟨(front, back), splitAt_eq_ok_iff.mpr h, rfl⟩

theorem succeeds_upTo {s : String} {offset : Nat} (h : isBoundary s.toList offset = true) :
    Succeeds (upTo s offset) := by
  obtain ⟨front, back, hs, hsize⟩ := isBoundary_iff.mp h
  exact ⟨front, upTo_eq_ok_iff.mpr ⟨back, hs, hsize⟩⟩

theorem succeeds_onwards {s : String} {offset : Nat} (h : isBoundary s.toList offset = true) :
    Succeeds (onwards s offset) := by
  obtain ⟨front, back, hs, hsize⟩ := isBoundary_iff.mp h
  exact ⟨back, onwards_eq_ok_iff.mpr ⟨front, hs, hsize⟩⟩

/-! ## §4 Slices -/

/-- A slice is what stands between a front that ends at its start and a back that begins at its
end. -/
theorem slice_eq_ok_iff {s : String} {start stop : Nat} {mid : String} :
    slice s start stop = .ok mid ↔
      ∃ front back, s = front ++ mid ++ back ∧ byteSize front = start ∧
        byteSize (front ++ mid) = stop := by
  unfold slice
  constructor
  · intro h
    split at h
    case isTrue => cases h
    case isFalse =>
      -- the end is cut off first, and the start from what is left
      obtain ⟨whole, hwhole, hmid⟩ := bind_eq_ok_iff.mp h
      obtain ⟨back, rfl, hstop⟩ := upTo_eq_ok_iff.mp hwhole
      obtain ⟨front, rfl, hstart⟩ := onwards_eq_ok_iff.mp hmid
      exact ⟨front, back, rfl, hstart, hstop⟩
  · rintro ⟨front, back, rfl, hstart, hstop⟩
    -- a slice is part of what comes before its end, so the bounds are in order
    have hle : ¬ stop < start := by
      rw [byteSize_append] at hstop
      omega
    rw [if_neg hle]
    exact bind_eq_ok_iff.mpr ⟨front ++ mid, upTo_eq_ok_iff.mpr ⟨back, rfl, hstop⟩,
      onwards_eq_ok_iff.mpr ⟨front, rfl, hstart⟩⟩

/-- Between two boundaries in order there is a slice, and only there. -/
theorem succeeds_slice_iff {s : String} {start stop : Nat} :
    Succeeds (slice s start stop) ↔
      start ≤ stop ∧ isBoundary s.toList start = true ∧ isBoundary s.toList stop = true := by
  constructor
  · rintro ⟨mid, h⟩
    obtain ⟨front, back, rfl, hstart, hstop⟩ := slice_eq_ok_iff.mp h
    refine ⟨?_, isBoundary_iff.mpr ⟨front, mid ++ back, String.append_assoc, hstart⟩,
      isBoundary_iff.mpr ⟨front ++ mid, back, rfl, hstop⟩⟩
    rw [byteSize_append] at hstop
    omega
  · rintro ⟨hle, hstart, hstop⟩
    obtain ⟨front, back, rfl, hfront⟩ := isBoundary_iff.mp hstart
    obtain ⟨front', back', hs, hfront'⟩ := isBoundary_iff.mp hstop
    -- the boundaries split one text twice, so the shorter front is a front of the longer one
    obtain ⟨mid, rfl, -⟩ := exists_append_of_byteSize_le hs (by omega)
    exact ⟨mid, slice_eq_ok_iff.mpr ⟨front, back', hs, hfront, hfront'⟩⟩

end Text

/-! ## §5 Edits -/

/-- An edit changes nothing before its span and nothing behind it. -/
theorem Edit.applyTo_of_parts {e : Edit} {front old back : String}
    (hstart : Text.byteSize front = e.span.start)
    (hstop : Text.byteSize (front ++ old) = e.span.stop) :
    e.applyTo (front ++ old ++ back) = .ok (front ++ e.replacement.plain ++ back) := by
  have hfront : Text.upTo (front ++ old ++ back) e.span.start = .ok front :=
    Text.upTo_eq_ok_iff.mpr ⟨old ++ back, String.append_assoc, hstart⟩
  have hback : Text.onwards (front ++ old ++ back) e.span.stop = .ok back :=
    Text.onwards_eq_ok_iff.mpr ⟨front ++ old, rfl, hstop⟩
  exact bind_eq_ok_iff.mpr ⟨front, hfront, bind_eq_ok_iff.mpr ⟨back, hback, rfl⟩⟩

/-- An edit whose span can be cut out puts its text in the place of the slice and changes nothing
else. -/
theorem Edit.applyTo_of_slice {e : Edit} {source old : String}
    (h : Text.slice source e.span.start e.span.stop = .ok old) :
    ∃ front back, source = front ++ old ++ back ∧ Text.byteSize front = e.span.start ∧
      Text.byteSize (front ++ old) = e.span.stop ∧
      e.applyTo source = .ok (front ++ e.replacement.plain ++ back) := by
  obtain ⟨front, back, rfl, hstart, hstop⟩ := Text.slice_eq_ok_iff.mp h
  exact ⟨front, back, rfl, hstart, hstop, Edit.applyTo_of_parts hstart hstop⟩

end CodeActions
