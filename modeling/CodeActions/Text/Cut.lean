/-!
# Cutting a text at byte offsets

Offsets into a text count bytes of its UTF-8 form, while a text is a list of characters. A cut is
possible exactly at the offsets between two characters, so every operation here that takes an
offset can fail, and says why.

Main statement: `Text.splitAt?_eq_some_iff`, a text splits at an offset into two parts exactly when
the parts make up the text and the first has that many bytes.
-/

namespace CodeActions

/-- Why a text could not be cut. -/
inductive CutError where
  /-- The offset lies past the end or inside a character. -/
  | notOnBoundary (offset : Nat)
  /-- The slice would end before it starts. -/
  | reversed (start stop : Nat)
  deriving Repr, DecidableEq

/-- What a cut is called in a message. -/
def CutError.message : CutError → String
  | .notOnBoundary offset => s!"byte offset {offset} is not on a character boundary of the text"
  | .reversed start stop => s!"slice starts at {start} but ends at {stop}"

/-- A computation that cuts a text and fails where no cut is possible. -/
abbrev Cut (α : Type) : Type := Except CutError α

namespace Text

/-! ## §1 Bytes and boundaries -/

/-- The number of bytes that the characters take. -/
def size : List Char → Nat
  | [] => 0
  | c :: cs => c.utf8Size + size cs

/-- The characters before and after the byte offset, if it lies between two of them. -/
def splitAt? : List Char → Nat → Option (List Char × List Char)
  | cs, 0 => some ([], cs)
  | [], _ + 1 => none
  | c :: cs, offset + 1 =>
    if c.utf8Size ≤ offset + 1 then
      (splitAt? cs (offset + 1 - c.utf8Size)).map fun (front, back) => (c :: front, back)
    else
      none

/-- The offset lies between two characters, or at an end of the text. -/
def isBoundary (cs : List Char) (offset : Nat) : Bool :=
  (splitAt? cs offset).isSome

@[simp] theorem size_nil : size [] = 0 := rfl

@[simp] theorem size_cons (c : Char) (cs : List Char) : size (c :: cs) = c.utf8Size + size cs := rfl

@[simp] theorem size_append (front back : List Char) :
    size (front ++ back) = size front + size back := by
  induction front with
  | nil => simp
  | cons c cs ih => simp [ih, Nat.add_assoc]

@[simp] theorem splitAt?_zero (cs : List Char) : splitAt? cs 0 = some ([], cs) := by
  cases cs <;> rfl

/-- A text splits at an offset exactly into two parts that make it up, the first of that size. -/
theorem splitAt?_eq_some_iff (cs : List Char) (offset : Nat) (front back : List Char) :
    splitAt? cs offset = some (front, back) ↔ cs = front ++ back ∧ size front = offset := by
  induction cs generalizing offset front back with
  | nil =>
    cases offset with
    | zero =>
      simp only [splitAt?_zero, Option.some.injEq, Prod.mk.injEq]
      constructor
      · rintro ⟨rfl, rfl⟩; simp
      · rintro ⟨h, _⟩
        have := List.append_eq_nil_iff.mp h.symm
        exact ⟨this.1.symm, this.2.symm⟩
    | succ n =>
      simp only [splitAt?, reduceCtorEq, false_iff, not_and]
      intro h
      have := List.append_eq_nil_iff.mp h.symm
      simp [this.1]
  | cons c cs ih =>
    have hc : 0 < c.utf8Size := Char.utf8Size_pos c
    cases offset with
    | zero =>
      simp only [splitAt?_zero, Option.some.injEq, Prod.mk.injEq]
      constructor
      · rintro ⟨rfl, rfl⟩; simp
      · rintro ⟨h, hs⟩
        cases front with
        | nil => exact ⟨rfl, by simpa using h⟩
        | cons d ds => have := Char.utf8Size_pos d; simp at hs; omega
    | succ n =>
      cases front with
      | nil => simp only [splitAt?]; split <;> simp
      | cons d ds =>
        simp only [splitAt?]
        split
        case isTrue h =>
          simp only [Option.map_eq_some_iff, Prod.exists, Prod.mk.injEq, List.cons.injEq, ih,
            List.cons_append, size_cons]
          constructor
          · rintro ⟨a, b, ⟨rfl, hs⟩, ⟨rfl, rfl⟩, rfl⟩
            exact ⟨⟨rfl, rfl⟩, by omega⟩
          · rintro ⟨⟨rfl, rfl⟩, hs⟩
            exact ⟨ds, back, ⟨rfl, by omega⟩, ⟨rfl, rfl⟩, rfl⟩
        case isFalse h =>
          simp only [reduceCtorEq, List.cons_append, List.cons.injEq, size_cons, false_iff, not_and,
            and_imp]
          -- the offset lies inside of the first character
          rintro rfl - hs
          omega

/-! ## §2 Slices of strings -/

/-- The length of a string in bytes. -/
def byteSize (s : String) : Nat := size s.toList

/-- The string split in two at an offset. -/
def splitAt (s : String) (offset : Nat) : Cut (String × String) :=
  match splitAt? s.toList offset with
  | some (front, back) => .ok (String.ofList front, String.ofList back)
  | none => .error (.notOnBoundary offset)

theorem splitAt_eq_ok_iff {s : String} {offset : Nat} {front back : String} :
    splitAt s offset = .ok (front, back) ↔ s = front ++ back ∧ byteSize front = offset := by
  unfold splitAt
  constructor
  · intro h
    split at h
    case h_1 cs ds hsplit =>
      obtain ⟨hs, hsize⟩ := (splitAt?_eq_some_iff _ _ _ _).mp hsplit
      cases h
      refine ⟨?_, by simpa [byteSize] using hsize⟩
      rw [← String.ofList_append, ← hs, String.ofList_toList]
    case h_2 => cases h
  · rintro ⟨rfl, hsize⟩
    have hsplit : splitAt? (front ++ back).toList offset = some (front.toList, back.toList) :=
      (splitAt?_eq_some_iff _ _ _ _).mpr ⟨by simp, hsize⟩
    rw [hsplit]
    simp only [String.ofList_toList]

/-- What stands before an offset. -/
def upTo (s : String) (offset : Nat) : Cut String :=
  (splitAt s offset).map Prod.fst

/-- What stands after an offset. -/
def onwards (s : String) (offset : Nat) : Cut String :=
  (splitAt s offset).map Prod.snd

/-- What stands between two offsets, which have to be in order. -/
def slice (s : String) (start stop : Nat) : Cut String := do
  if stop < start then
    throw (.reversed start stop)
  let front ← upTo s stop
  onwards front start

end Text

end CodeActions
