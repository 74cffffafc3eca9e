import CodeActions.Proofs.Text.Slice

/-!
# Places of a text

A front of a text ends at a position, and the positions that a text has are exactly the ends of its
fronts. Ends add up: a text that is put behind another one has its positions counted from the end of
the first. So what is put behind a front changes no position up to the end of the front.

Main statements: `Text.endPoint_append`, `Text.offsetAt?_eq_some_iff`, `Text.offsetAt?_append`.
-/

namespace CodeActions

/-! ## §1 Counting from a position -/

namespace Position

/-- The position `q` of a text that begins at `p`: only its first row is moved to the right. -/
def plus (p q : Position) : Position :=
  if q.row = 0 then ⟨p.row, p.column + q.column⟩ else ⟨p.row + q.row, q.column⟩

/-- A position as it is counted from an earlier one. -/
def countedFrom (p start : Position) : Position :=
  if p.row = start.row then ⟨0, p.column - start.column⟩ else ⟨p.row - start.row, p.column⟩

/-- Rows count before columns. -/
instance : LE Position := ⟨fun p q => p.row < q.row ∨ p.row = q.row ∧ p.column ≤ q.column⟩

theorem le_iff {p q : Position} :
    p ≤ q ↔ p.row < q.row ∨ p.row = q.row ∧ p.column ≤ q.column := Iff.rfl

instance (p q : Position) : Decidable (p ≤ q) := decidable_of_iff _ le_iff.symm

theorem le_of_not_le {p q : Position} (h : ¬ p ≤ q) : q ≤ p := by
  rw [le_iff] at *
  omega

@[simp] theorem origin_plus (q : Position) : origin.plus q = q := by
  obtain ⟨row, column⟩ := q
  simp only [plus, origin, Nat.zero_add]
  split
  case isTrue h => rw [h]
  case isFalse => rfl

@[simp] theorem plus_origin (p : Position) : p.plus origin = p := by
  simp [plus, origin]

/-- Moving on does not lead back. -/
theorem le_plus (p q : Position) : p ≤ p.plus q := by
  rw [le_iff, plus]
  split
  case isTrue => exact .inr ⟨rfl, Nat.le_add_right _ _⟩
  case isFalse h => exact .inl (Nat.lt_add_of_pos_right (Nat.pos_of_ne_zero h))

/-- Who has not got any further has not moved. -/
theorem eq_origin_of_plus_le {p q : Position} (h : p.plus q ≤ p) : q = origin := by
  obtain ⟨row, column⟩ := q
  rw [le_iff, plus] at h
  split at h
  case isTrue hrow =>
    simp only at hrow h
    have hcolumn : column = 0 := by omega
    rw [hrow, hcolumn]
    rfl
  case isFalse hrow =>
    simp only at hrow h
    omega

/-- Counting from a position and moving by it undo each other. -/
theorem plus_eq_iff {start p q : Position} :
    start.plus q = p ↔ start ≤ p ∧ p.countedFrom start = q := by
  obtain ⟨row, column⟩ := q
  obtain ⟨row', column'⟩ := p
  rw [le_iff]
  unfold plus countedFrom
  -- in each of the four cases it is known which coordinate was moved, and the rest is arithmetic
  by_cases hrow : row = 0
  · by_cases hsame : row' = start.row
    · simp only [hrow, hsame, if_true, mk.injEq, true_and]
      omega
    · simp only [hrow, hsame, if_true, if_false, mk.injEq]
      omega
  · by_cases hsame : row' = start.row
    · simp only [hrow, hsame, if_true, if_false, mk.injEq]
      omega
    · simp only [hrow, hsame, if_false, mk.injEq]
      omega

/-- Behind a character is never the start, for the character takes up bytes or begins a row. -/
theorem behind_ne_origin (c : Char) (p : Position) : p.behind c ≠ origin := by
  have hc : 0 < c.utf8Size := Char.utf8Size_pos c
  obtain ⟨row, column⟩ := p
  unfold behind origin
  split
  · simp
  split
  · simp only [ne_eq, mk.injEq, true_and]
    omega
  case isFalse h => exact fun heq => h (congrArg Position.row heq)

/-- In the first row stand only places of the first row, behind a character that is no line feed. -/
theorem behind_eq_zero_iff {c : Char} {q : Position} {column : Nat} :
    q.behind c = ⟨0, column⟩ ↔ c ≠ '\n' ∧ q.row = 0 ∧ q.column + c.utf8Size = column := by
  obtain ⟨row, column'⟩ := q
  unfold behind
  by_cases hfeed : c = '\n'
  · simp [hfeed]
  · by_cases hrow : row = 0
    · simp [hfeed, hrow]
    · simp [hfeed, hrow]

/-- In a later row a place keeps its column; a line feed is all that moves it to another row. -/
theorem behind_eq_succ_iff {c : Char} {q : Position} {row column : Nat} :
    q.behind c = ⟨row + 1, column⟩ ↔ q = ⟨if c = '\n' then row else row + 1, column⟩ := by
  obtain ⟨row', column'⟩ := q
  unfold behind
  by_cases hfeed : c = '\n'
  · simp [hfeed]
  · by_cases hrow : row' = 0
    · simp [hfeed, hrow]
    · simp [hfeed, hrow]

/-- Putting a character in front moves a sum as it moves its first part. -/
theorem plus_behind (c : Char) (p q : Position) : (p.plus q).behind c = (p.behind c).plus q := by
  unfold behind plus
  -- a line feed moves rows, another character moves columns, and only of what is in the first row
  by_cases hc : c = '\n'
  · by_cases hq : q.row = 0
    · simp [hc, hq]
    · simp only [hc, hq, if_true, if_false, mk.injEq, and_true]
      omega
  · by_cases hq : q.row = 0
    · by_cases hp : p.row = 0
      · simp only [hc, hq, hp, if_true, if_false, mk.injEq, true_and]
        omega
      · simp [hc, hq, hp]
    · by_cases hp : p.row = 0
      · simp [hc, hq, hp]
      · simp [hc, hq, hp]

end Position

namespace Text

/-! ## §2 The end of a text -/

/-- The position behind the last character. -/
def endPoint (cs : List Char) : Position := pointAt cs (size cs)

@[simp] theorem endPoint_nil : endPoint [] = .origin := rfl

@[simp] theorem endPoint_cons (c : Char) (cs : List Char) :
    endPoint (c :: cs) = (endPoint cs).behind c := by
  unfold endPoint
  rw [size_cons, pointAt, if_neg (by omega), Nat.add_sub_cancel_left]

/-- Only the empty text ends where it starts. -/
theorem endPoint_eq_origin_iff {cs : List Char} : endPoint cs = .origin ↔ cs = [] := by
  cases cs with
  | nil => simp
  | cons c cs => simp [Position.behind_ne_origin]

/-- A text behind another one ends where it ends, counted from the end of the other one. -/
theorem endPoint_append (front back : List Char) :
    endPoint (front ++ back) = (endPoint front).plus (endPoint back) := by
  induction front with
  | nil => simp
  | cons c front ih => rw [List.cons_append, endPoint_cons, ih, endPoint_cons, Position.plus_behind]

/-- The position of an offset is the end of the front of that size. -/
theorem pointAt_size (front back : List Char) :
    pointAt (front ++ back) (size front) = endPoint front := by
  induction front with
  | nil =>
    -- at offset zero the search stops before it looks at a character
    cases back with
    | nil => rfl
    | cons c back =>
      rw [List.nil_append, size_nil, pointAt, if_pos (Char.utf8Size_pos c)]
      rfl
  | cons c front ih =>
    rw [List.cons_append, size_cons, pointAt, if_neg (by omega), Nat.add_sub_cancel_left, ih,
      endPoint_cons]

/-! ## §3 The positions of a text -/

theorem offsetAt?_origin (cs : List Char) : offsetAt? cs .origin = some 0 := by
  cases cs <;> rfl

/-- The empty text has its start and no other position. -/
theorem offsetAt?_nil_eq_some_iff {p : Position} {offset : Nat} :
    offsetAt? [] p = some offset ↔ p = .origin ∧ offset = 0 := by
  obtain ⟨row, column⟩ := p
  cases row with
  | succ row => simp [offsetAt?, Position.origin]
  | zero =>
    cases column with
    | zero => simpa [offsetAt?, columnOffset?, Position.origin] using eq_comm
    | succ column => simp [offsetAt?, columnOffset?, Position.origin]

/-- In the first row only columns are counted. -/
theorem offsetAt?_zero (cs : List Char) (column : Nat) :
    offsetAt? cs ⟨0, column⟩ = columnOffset? cs column := by
  cases cs <;> rfl

/-- In the first row a line feed ends the search, and so does a character that is too long. -/
theorem columnOffset?_cons_eq_some_iff {c : Char} {cs : List Char} {column offset : Nat}
    (hcolumn : column ≠ 0) :
    columnOffset? (c :: cs) column = some offset ↔
      c ≠ '\n' ∧ ∃ column' offset', columnOffset? cs column' = some offset' ∧
        column' + c.utf8Size = column ∧ c.utf8Size + offset' = offset := by
  obtain ⟨column, rfl⟩ := Nat.exists_eq_succ_of_ne_zero hcolumn
  rw [Nat.succ_eq_add_one, columnOffset?, Option.ite_none_left_eq_some,
    Option.ite_none_right_eq_some, Option.map_eq_some_iff]
  refine and_congr_right fun _ => ⟨?_, ?_⟩
  · rintro ⟨hle, offset', hoffset', rfl⟩
    exact ⟨_, offset', hoffset', Nat.sub_add_cancel hle, rfl⟩
  · rintro ⟨column', offset', hoffset', hsum, rfl⟩
    refine ⟨by omega, offset', ?_, rfl⟩
    rw [← hsum, Nat.add_sub_cancel, hoffset']

/-- A position is the start of the text, or it lies behind the first character and the rest has
it. -/
theorem offsetAt?_cons_eq_some_iff {c : Char} {cs : List Char} {p : Position} {offset : Nat} :
    offsetAt? (c :: cs) p = some offset ↔
      (p = .origin ∧ offset = 0) ∨
      ∃ q offset', offsetAt? cs q = some offset' ∧ q.behind c = p ∧
      c.utf8Size + offset' = offset := by
  by_cases horigin : p = .origin
  · subst horigin
    simpa [offsetAt?_origin, Position.behind_ne_origin] using eq_comm
  simp only [horigin, false_and, false_or]
  obtain ⟨row, column⟩ := p
  -- the two ways of counting: columns in the first row, line feeds up to any other
  cases row with
  | zero =>
    have hcolumn : column ≠ 0 := fun h => horigin (congrArg (Position.mk 0) h)
    rw [offsetAt?_zero, columnOffset?_cons_eq_some_iff hcolumn]
    simp only [Position.behind_eq_zero_iff]
    constructor
    · rintro ⟨hfeed, column', offset', hoffset', hsum, hoffset⟩
      exact ⟨⟨0, column'⟩, offset', (offsetAt?_zero _ _).trans hoffset', ⟨hfeed, rfl, hsum⟩,
        hoffset⟩
    · rintro ⟨⟨_, column'⟩, offset', hoffset', ⟨hfeed, rfl, hsum⟩, hoffset⟩
      exact ⟨hfeed, column', offset', (offsetAt?_zero _ _).symm.trans hoffset', hsum, hoffset⟩
  | succ row =>
    simp only [offsetAt?, Option.map_eq_some_iff, Position.behind_eq_succ_iff]
    constructor
    · rintro ⟨offset', hoffset', hoffset⟩
      exact ⟨_, offset', hoffset', rfl, hoffset⟩
    · rintro ⟨_, offset', hoffset', rfl, hoffset⟩
      exact ⟨offset', hoffset', hoffset⟩

/-- A text has the positions at which its fronts end. -/
theorem offsetAt?_eq_some_iff {cs : List Char} {p : Position} {offset : Nat} :
    offsetAt? cs p = some offset ↔
      ∃ front back, cs = front ++ back ∧ size front = offset ∧ endPoint front = p := by
  induction cs generalizing p offset with
  | nil =>
    rw [offsetAt?_nil_eq_some_iff]
    constructor
    · rintro ⟨rfl, rfl⟩
      exact ⟨[], [], rfl, rfl, rfl⟩
    · rintro ⟨front, back, hsplit, rfl, rfl⟩
      obtain ⟨rfl, rfl⟩ := List.append_eq_nil_iff.mp hsplit.symm
      exact ⟨rfl, rfl⟩
  -- a front is empty, or it is the first character with a front of the rest behind it
  | cons c cs ih =>
    rw [offsetAt?_cons_eq_some_iff]
    constructor
    · rintro (⟨rfl, rfl⟩ | ⟨q, offset', hoffset', rfl, rfl⟩)
      · exact ⟨[], c :: cs, rfl, rfl, rfl⟩
      · obtain ⟨front, back, rfl, rfl, rfl⟩ := ih.mp hoffset'
        exact ⟨c :: front, back, rfl, rfl, endPoint_cons c front⟩
    · rintro ⟨front, back, hsplit, rfl, rfl⟩
      cases front with
      | nil => exact .inl ⟨rfl, rfl⟩
      | cons c' front =>
        obtain ⟨rfl, rfl⟩ := List.cons.inj hsplit
        exact .inr ⟨endPoint front, size front, ih.mpr ⟨front, back, rfl, rfl, rfl⟩,
          (endPoint_cons _ front).symm, rfl⟩

/-- Up to the end of a front a text has the positions of the front; from there on it has those of
the rest, counted from that end. -/
theorem offsetAt?_append (front rest : List Char) (p : Position) :
    offsetAt? (front ++ rest) p =
      if p ≤ endPoint front then offsetAt? front p
      else (offsetAt? rest (p.countedFrom (endPoint front))).map (size front + ·) := by
  ext offset
  split
  case isTrue hle =>
    rw [offsetAt?_eq_some_iff, offsetAt?_eq_some_iff]
    constructor
    · rintro ⟨f, b, hsplit, rfl, rfl⟩
      rcases List.append_eq_append_iff.mp hsplit with ⟨mid, rfl, _⟩ | ⟨mid, rfl, _⟩
      · -- a longer front ends behind the end of the shorter one unless there is nothing more in it
        rw [endPoint_append] at hle ⊢
        obtain rfl := endPoint_eq_origin_iff.mp (Position.eq_origin_of_plus_le hle)
        exact ⟨front, [], by simp, by simp, by simp⟩
      · exact ⟨f, mid, rfl, rfl, rfl⟩
    · rintro ⟨f, b, rfl, rfl, rfl⟩
      exact ⟨f, b ++ rest, List.append_assoc f b rest, rfl, rfl⟩
  case isFalse hle =>
    rw [Option.map_eq_some_iff]
    simp only [offsetAt?_eq_some_iff]
    constructor
    · rintro ⟨f, b, hsplit, rfl, rfl⟩
      rcases List.append_eq_append_iff.mp hsplit with ⟨mid, rfl, rfl⟩ | ⟨mid, rfl, _⟩
      · -- a front that goes beyond the first one ends where the rest of it ends, counted from there
        have hcounted := (Position.plus_eq_iff.mp (endPoint_append front mid).symm).2
        exact ⟨size mid, ⟨mid, b, rfl, rfl, hcounted.symm⟩, (size_append front mid).symm⟩
      · rw [endPoint_append] at hle
        exact absurd (Position.le_plus _ _) hle
    · rintro ⟨_, ⟨mid, b, rfl, rfl, hmid⟩, rfl⟩
      refine ⟨front ++ mid, b, (List.append_assoc front mid b).symm, size_append front mid, ?_⟩
      rw [endPoint_append, hmid, Position.plus_eq_iff]
      exact ⟨Position.le_of_not_le hle, rfl⟩

end Text

end CodeActions
