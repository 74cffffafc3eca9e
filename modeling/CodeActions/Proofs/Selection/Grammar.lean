import CodeActions.Proofs.Selection
import Mathlib.Algebra.Group.Nat.Defs

/-!
# The notation of selections

A number is written in decimal digits, with at most one plus in front and any amount of white space
around it. A place is a line and a column around a colon, a selection one place or two around a
dash. Neither the colon nor the dash occurs in a number, so every text can be taken apart in one way
only, and the reader takes it apart in that way.

Numbers are read as far as they fit in 64 bits, and are counted from one. So nothing is lost if the
same reading is done in 64-bit words, neither on the way nor when one is taken off at the end.

Main statements: `Unsigned.parse_eq_ok_iff`, `Selection.parse_eq_ok_iff_denotes`,
`Selection.accepts_iff_denotes`.
-/

namespace CodeActions

/-! ## §1 Numerals -/

namespace Unsigned

/-- The text is a numeral of the number: one or more decimal digits, with at most one plus in front
of them. -/
inductive Numeral : List Char → Nat → Prop where
  | plain {digits : List Char} (hne : digits ≠ []) (hdigits : ∀ c ∈ digits, c.isDigit = true) :
      Numeral digits (Nat.ofDigitChars 10 digits 0)
  | plus {digits : List Char} (hne : digits ≠ []) (hdigits : ∀ c ∈ digits, c.isDigit = true) :
      Numeral ('+' :: digits) (Nat.ofDigitChars 10 digits 0)

/-- What is read consists of digits, and is the number that they stand for. -/
theorem isDigit_of_readDigits {bound value n : Nat} {cs : List Char}
    (h : readDigits bound value cs = .ok n) :
    (∀ c ∈ cs, c.isDigit = true) ∧ Nat.ofDigitChars 10 cs value = n := by
  induction cs generalizing value with
  | nil =>
    cases h
    exact ⟨nofun, rfl⟩
  | cons c cs ih =>
    unfold readDigits at h
    split at h
    case isTrue => cases h
    case isFalse hdigit =>
      split at h
      case isTrue => cases h
      case isFalse =>
        obtain ⟨hdigits, hvalue⟩ := ih h
        refine ⟨List.forall_mem_cons.mpr ⟨by simpa using hdigit, hdigits⟩, ?_⟩
        rw [Nat.ofDigitChars_cons]
        exact hvalue

/-- Reading digits from a number on gives the number with the digits behind it, if that is below the
bound. -/
theorem readDigits_eq_ok_iff {bound value n : Nat} {cs : List Char} (hvalue : value < bound) :
    readDigits bound value cs = .ok n ↔
      (∀ c ∈ cs, c.isDigit = true) ∧ Nat.ofDigitChars 10 cs value = n ∧ n < bound := by
  constructor
  · intro h
    obtain ⟨hdigits, hn⟩ := isDigit_of_readDigits h
    exact ⟨hdigits, hn, lt_of_readDigits hvalue h⟩
  · rintro ⟨hdigits, rfl, hlt⟩
    exact readDigits_eq_ok hdigits hlt

/-- A text is read as a number exactly if it is a numeral of the number and the number is below the
bound. -/
theorem parse_eq_ok_iff {bound n : Nat} {cs : List Char} (hbound : 0 < bound) :
    parse bound cs = .ok n ↔ Numeral cs n ∧ n < bound := by
  constructor
  · intro h
    unfold parse at h
    split at h
    case h_1 => cases h
    case h_2 => cases h
    -- the plus is taken off, and what is behind it is not empty
    case h_3 digits hne =>
      obtain ⟨hdigits, rfl, hlt⟩ := (readDigits_eq_ok_iff hbound).mp h
      exact ⟨.plus (fun hnil => hne (hnil ▸ rfl)) hdigits, hlt⟩
    case h_4 hne _ _ =>
      obtain ⟨hdigits, rfl, hlt⟩ := (readDigits_eq_ok_iff hbound).mp h
      exact ⟨.plain hne hdigits, hlt⟩
  · rintro ⟨hnumeral, hlt⟩
    cases hnumeral with
    | plain hne hdigits =>
      have hread := (readDigits_eq_ok_iff hbound).mpr ⟨hdigits, rfl, hlt⟩
      -- a plus is no digit
      unfold parse
      split
      case h_1 => exact absurd rfl hne
      case h_2 => exact absurd (hdigits '+' List.mem_cons_self) (by decide)
      case h_3 => exact absurd (hdigits '+' List.mem_cons_self) (by decide)
      case h_4 => exact hread
    | plus hne hdigits =>
      have hread := (readDigits_eq_ok_iff hbound).mpr ⟨hdigits, rfl, hlt⟩
      -- behind the plus there is a digit, so it does not stand alone
      obtain ⟨d, ds, rfl⟩ := List.exists_cons_of_ne_nil hne
      exact hread

/-- A numeral has digits in it and perhaps a plus. -/
theorem Numeral.mem_cases {cs : List Char} {n : Nat} (h : Numeral cs n) {c : Char} (hc : c ∈ cs) :
    c = '+' ∨ c.isDigit = true := by
  cases h with
  | plain _ hdigits => exact .inr (hdigits c hc)
  | plus _ hdigits =>
    rcases List.mem_cons.mp hc with rfl | hc
    · exact .inl rfl
    · exact .inr (hdigits c hc)

/-- So it has no white space in it. -/
theorem Numeral.noBlank {cs : List Char} {n : Nat} (h : Numeral cs n) : Text.NoBlank cs := by
  intro c hc
  rcases h.mem_cases hc with rfl | hdigit
  · decide
  · exact Text.isBlank_of_isDigit hdigit

/-- The digits alone say which number it is. -/
theorem Numeral.ofDigitChars_filter {cs : List Char} {n : Nat} (h : Numeral cs n) :
    Nat.ofDigitChars 10 (cs.filter Char.isDigit) 0 = n := by
  cases h with
  | plain _ hdigits => rw [List.filter_eq_self.mpr hdigits]
  | plus _ hdigits => rw [List.filter_cons_of_neg (by decide), List.filter_eq_self.mpr hdigits]

/-! ## §2 Numbers in words -/

/-- Digits read in 64-bit words, where a number that does not fit loses its upper part. -/
def inWords (digits : List Char) : UInt64 :=
  digits.foldl (fun value c => 10 * value + UInt64.ofNat (digitValue c)) 0

/-- Words keep what is left of the number when its upper part is lost. -/
theorem inWords_eq (digits : List Char) :
    inWords digits = UInt64.ofNat (Nat.ofDigitChars 10 digits 0) := by
  -- the number so far is a parameter, for it grows with each digit
  have hfrom (value : Nat) :
      digits.foldl (fun word c => 10 * word + UInt64.ofNat (digitValue c)) (UInt64.ofNat value) =
        UInt64.ofNat (Nat.ofDigitChars 10 digits value) := by
    induction digits generalizing value with
    | nil => rfl
    | cons c digits ih =>
      rw [List.foldl_cons, Nat.ofDigitChars_cons, ← ih, UInt64.ofNat_add, UInt64.ofNat_mul]
      rfl
  exact hfrom 0

/-- If a number fits, so do the numbers that are read on the way, and nothing is lost in words. -/
theorem toNat_inWords {digits front : List Char} (h : Nat.ofDigitChars 10 digits 0 < bound64)
    (hfront : front <+: digits) : (inWords front).toNat = Nat.ofDigitChars 10 front 0 := by
  obtain ⟨back, rfl⟩ := hfront
  -- a front of the digits makes no larger number than all of them
  have hle : Nat.ofDigitChars 10 front 0 ≤ Nat.ofDigitChars 10 (front ++ back) 0 := by
    rw [Nat.ofDigitChars_append]
    exact le_ofDigitChars _ back
  rw [inWords_eq]
  exact UInt64.toNat_ofNat_of_lt' (Nat.lt_of_le_of_lt hle h)

end Unsigned

/-! ## §3 Places and selections -/

namespace Selection

/-- The text is a numeral with white space allowed around it, of a number from one on that fits in
64 bits. -/
def IsNumber (cs : List Char) (n : Nat) : Prop :=
  (∃ numeral, Text.Padded numeral cs ∧ Unsigned.Numeral numeral n) ∧ 1 ≤ n ∧ n ≤ 2 ^ 64 - 1

/-- The text is a line and a column with a colon between them. -/
inductive IsPlace : List Char → Nat → Nat → Prop where
  | intro {front back : List Char} {line column : Nat} (hline : IsNumber front line)
      (hcolumn : IsNumber back column) : IsPlace (front ++ ':' :: back) line column

/-- The text denotes the selection: a place is a cursor, two places with a dash between them are
both ends. Lines and columns are counted from zero in the selection and from one in the text. -/
inductive Denotes : List Char → Selection → Prop where
  | cursor {cs : List Char} {line column : Nat} (h : IsPlace cs line column) :
      Denotes cs ⟨⟨line - 1, column - 1⟩, ⟨line - 1, column - 1⟩⟩
  | range {front back : List Char} {line column line' column' : Nat}
      (hstart : IsPlace front line column) (hstop : IsPlace back line' column') :
      Denotes (front ++ '-' :: back) ⟨⟨line - 1, column - 1⟩, ⟨line' - 1, column' - 1⟩⟩

/-- A number is read from its numeral, with white space around it, if it fits in 64 bits. -/
theorem parseNumber_eq_ok_iff {cs : List Char} {n : Nat} :
    parseNumber cs = .ok n ↔
      (∃ numeral, Text.Padded numeral cs ∧ Unsigned.Numeral numeral n) ∧ n < 2 ^ 64 := by
  unfold parseNumber
  rw [Unsigned.parse_eq_ok_iff (by decide)]
  constructor
  · rintro ⟨hnumeral, hlt⟩
    exact ⟨⟨_, Text.padded_trim cs, hnumeral⟩, hlt⟩
  · rintro ⟨⟨numeral, hpadded, hnumeral⟩, hlt⟩
    rw [(Text.trim_eq_iff_padded hnumeral.noBlank).mpr hpadded]
    exact ⟨hnumeral, hlt⟩

/-- The numbers of a notation are those that are read and not zero. -/
theorem isNumber_iff {cs : List Char} {n : Nat} :
    IsNumber cs n ↔ parseNumber cs = .ok n ∧ 1 ≤ n := by
  rw [parseNumber_eq_ok_iff, IsNumber]
  constructor
  · rintro ⟨hnumeral, hone, hle⟩
    exact ⟨⟨hnumeral, by omega⟩, hone⟩
  · rintro ⟨⟨hnumeral, hlt⟩, hone⟩
    exact ⟨hnumeral, hone, by omega⟩

/-- Nothing but white space, a plus and digits occurs in a number. -/
theorem IsNumber.not_mem {cs : List Char} {n : Nat} (h : IsNumber cs n) {c : Char}
    (hblank : Text.isBlank c = false) (hplus : c ≠ '+') (hdigit : c.isDigit = false) : c ∉ cs := by
  obtain ⟨⟨numeral, ⟨before, after, hbefore, hafter, rfl⟩, hnumeral⟩, _⟩ := h
  intro hc
  rw [List.mem_append, List.mem_append] at hc
  rcases hc with (hc | hc) | hc
  · exact Bool.false_ne_true (hblank.symm.trans (hbefore c hc))
  · rcases hnumeral.mem_cases hc with rfl | hc
    · exact hplus rfl
    · exact Bool.false_ne_true (hdigit.symm.trans hc)
  · exact Bool.false_ne_true (hblank.symm.trans (hafter c hc))

/-- There is no dash in a place. -/
theorem IsPlace.dash_not_mem {cs : List Char} {line column : Nat} (h : IsPlace cs line column) :
    '-' ∉ cs := by
  cases h with
  | intro hline hcolumn =>
    have hfront := hline.not_mem (c := '-') (by decide) (by decide) (by decide)
    have hback := hcolumn.not_mem (c := '-') (by decide) (by decide) (by decide)
    simp [hfront, hback]

/-- The places that are read are those of the notation, with one taken off both numbers. -/
theorem parsePlace_eq_ok_iff_isPlace {cs : List Char} {p : Position} :
    parsePlace cs = .ok p ↔ IsPlace cs (p.row + 1) (p.column + 1) := by
  rw [parsePlace_eq_ok_iff]
  constructor
  · rintro ⟨front, back, rfl, _, hline, hcolumn⟩
    exact .intro (isNumber_iff.mpr ⟨hline, by omega⟩) (isNumber_iff.mpr ⟨hcolumn, by omega⟩)
  · intro h
    generalize hrow : p.row + 1 = line at h
    generalize hcol : p.column + 1 = column at h
    cases h with
    | @intro front back _ _ hline hcolumn =>
      -- the colon between the numbers is the first one
      have hcolon : ':' ∉ front := hline.not_mem (by decide) (by decide) (by decide)
      exact ⟨front, back, rfl, hcolon, hrow ▸ (isNumber_iff.mp hline).1,
        hcol ▸ (isNumber_iff.mp hcolumn).1⟩

/-- A place is read as the position whose row and column are by one smaller. -/
theorem IsPlace.parsePlace_eq {cs : List Char} {line column : Nat} (h : IsPlace cs line column) :
    parsePlace cs = .ok ⟨line - 1, column - 1⟩ := by
  apply parsePlace_eq_ok_iff_isPlace.mpr
  cases h with
  | intro hline hcolumn =>
    have hpositive : 1 ≤ line ∧ 1 ≤ column := ⟨hline.2.1, hcolumn.2.1⟩
    simp only [Nat.sub_add_cancel hpositive.1, Nat.sub_add_cancel hpositive.2]
    exact .intro hline hcolumn

/-- A text is read as a selection exactly if it denotes the selection. -/
theorem parse_eq_ok_iff_denotes {cs : List Char} {s : Selection} :
    parse cs = .ok s ↔ Denotes cs s := by
  rw [parse_eq_ok_iff]
  constructor
  · rintro (⟨_, hplace, hstop⟩ | ⟨front, back, rfl, _, hstart, hstop⟩)
    · obtain ⟨start, stop⟩ := s
      obtain rfl : stop = start := hstop
      exact .cursor (parsePlace_eq_ok_iff_isPlace.mp hplace)
    · exact .range (parsePlace_eq_ok_iff_isPlace.mp hstart) (parsePlace_eq_ok_iff_isPlace.mp hstop)
  · intro h
    -- a place has no dash, so the dash between two of them is the first one
    cases h with
    | cursor h => exact .inl ⟨h.dash_not_mem, h.parsePlace_eq, rfl⟩
    | range hstart hstop =>
      exact .inr ⟨_, _, rfl, hstart.dash_not_mem, hstart.parsePlace_eq, hstop.parsePlace_eq⟩

/-! ## §4 Nothing is lost -/

/-- White space and a plus are left out when the digits are picked. -/
theorem ofDigitChars_filter_of_parseNumber {field : List Char} {n : Nat}
    (h : parseNumber field = .ok n) : Nat.ofDigitChars 10 (field.filter Char.isDigit) 0 = n := by
  obtain ⟨⟨numeral, ⟨before, after, hbefore, hafter, rfl⟩, hnumeral⟩, _⟩ :=
    parseNumber_eq_ok_iff.mp h
  -- white space has no digits in it, so it goes when they are picked
  have hnone {blanks : List Char} (hblanks : Text.AllBlank blanks) :
      blanks.filter Char.isDigit = [] := by
    apply List.filter_eq_nil_iff.mpr
    intro c hc hdigit
    exact Bool.false_ne_true ((Text.isBlank_of_isDigit hdigit).symm.trans (hblanks c hc))
  rw [List.filter_append, List.filter_append, hnone hbefore, hnone hafter, List.nil_append,
    List.append_nil]
  exact hnumeral.ofDigitChars_filter

/-- The numbers of a place are at least one and fit in words, so one can be taken off in words. -/
theorem exists_words_of_parsePlace {place : List Char} {p : Position}
    (h : parsePlace place = .ok p) :
    ∃ front back, ∃ line column : UInt64, place = front ++ ':' :: back ∧
      parseNumber front = .ok line.toNat ∧ parseNumber back = .ok column.toNat ∧
      1 ≤ line ∧ 1 ≤ column ∧
      p = ⟨(line - 1).toNat, (column - 1).toNat⟩ := by
  obtain ⟨front, back, hplace, _, hline, hcolumn⟩ := parsePlace_eq_ok_iff.mp h
  -- a number that was read fits into a word, so it comes out of the word unchanged
  have hword {field : List Char} {n : Nat} (hfield : parseNumber field = .ok (n + 1)) :
      (UInt64.ofNat (n + 1)).toNat = n + 1 :=
    UInt64.toNat_ofNat_of_lt' (parseNumber_eq_ok_iff.mp hfield).2
  -- in words nothing may be taken off zero
  have hone {n : Nat} (hn : (UInt64.ofNat (n + 1)).toNat = n + 1) : 1 ≤ UInt64.ofNat (n + 1) := by
    rw [UInt64.le_iff_toNat_le, hn]
    exact Nat.le_add_left 1 n
  have hminus {n : Nat} (hn : (UInt64.ofNat (n + 1)).toNat = n + 1) :
      (UInt64.ofNat (n + 1) - 1).toNat = n := by
    rw [UInt64.toNat_sub_of_le _ _ (hone hn), hn]
    rfl
  refine ⟨front, back, .ofNat (p.row + 1), .ofNat (p.column + 1), hplace, ?_, ?_,
    hone (hword hline), hone (hword hcolumn), ?_⟩
  · rw [hline, hword hline]
  · rw [hcolumn, hword hcolumn]
  · rw [hminus (hword hline), hminus (hword hcolumn)]

/-- The texts that are read as selections are those that denote one: a place, or two places with a
dash between them, where a place is two numerals around a colon with white space allowed around
each, of numbers from one to `2 ^ 64 - 1`. What is read is what the text denotes, lines and columns
being counted from zero.

No number wraps around: all that is read of a numeral on the way to the end is the same in 64-bit
words. And nothing is taken off zero: the numbers of a place that is accepted are at least one, and
subtracting in words gives the position. -/
theorem accepts_iff_denotes (text : String) :
    (∀ s, parse text.toList = .ok s ↔ Denotes text.toList s) ∧
    (∀ field n, parseNumber field = .ok n →
      (Unsigned.inWords (field.filter Char.isDigit)).toNat = n ∧
      ∀ front, front <+: field.filter Char.isDigit →
        (Unsigned.inWords front).toNat = Nat.ofDigitChars 10 front 0) ∧
    ∀ place p, parsePlace place = .ok p →
      ∃ front back, ∃ line column : UInt64, place = front ++ ':' :: back ∧
        parseNumber front = .ok line.toNat ∧ parseNumber back = .ok column.toNat ∧
        1 ≤ line ∧ 1 ≤ column ∧
        p = ⟨(line - 1).toNat, (column - 1).toNat⟩ := by
  refine ⟨fun s => parse_eq_ok_iff_denotes, fun field n h => ?_,
    fun place p h => exists_words_of_parsePlace h⟩
  have hvalue : Nat.ofDigitChars 10 (field.filter Char.isDigit) 0 = n :=
    ofDigitChars_filter_of_parseNumber h
  have hfits : Nat.ofDigitChars 10 (field.filter Char.isDigit) 0 < Unsigned.bound64 := by
    rw [hvalue]
    exact (parseNumber_eq_ok_iff.mp h).2
  refine ⟨?_, fun front hfront => Unsigned.toNat_inWords hfits hfront⟩
  rw [Unsigned.toNat_inWords hfits List.prefix_rfl, hvalue]

/-- A plus, zeros in front, an em space, and the largest number there is. One more is too much, and
neither zero, nor a second plus, nor a third place is allowed. -/
theorem accepts_iff_denotes_extremes :
    Denotes " +1\u2003:0007-18446744073709551615 : 2".toList ⟨⟨0, 6⟩, ⟨18446744073709551614, 1⟩⟩ ∧
    (Unsigned.inWords "18446744073709551615".toList).toNat = 18446744073709551615 ∧
    (∃ front back, ∃ line column : UInt64, "1:18446744073709551615".toList = front ++ ':' :: back ∧
      parseNumber front = .ok line.toNat ∧ parseNumber back = .ok column.toNat ∧
      1 ≤ line ∧ 1 ≤ column ∧
      (⟨0, 18446744073709551614⟩ : Position) = ⟨(line - 1).toNat, (column - 1).toNat⟩) ∧
    (∀ s, ¬ Denotes "18446744073709551616:1".toList s) ∧ (∀ s, ¬ Denotes "1:0".toList s) ∧
    (∀ s, ¬ Denotes "++1:1".toList s) ∧ ∀ s, ¬ Denotes "1:1-1:1-1:1".toList s := by
  -- what is not read denotes no selection
  have hnone {text : String} (h : (parse text.toList).toOption = none) (s : Selection) :
      ¬ Denotes text.toList s := by
    rw [← (accepts_iff_denotes text).1 s, ← toOption_eq_some_iff, h]
    exact nofun
  refine ⟨((accepts_iff_denotes _).1 _).mp (by decide), ?_,
    (accepts_iff_denotes "").2.2 _ _ (by decide), hnone (by decide), hnone (by decide),
    hnone (by decide), hnone (by decide)⟩
  exact ((accepts_iff_denotes "").2.1 " 18446744073709551615".toList _ (by decide)).1

end Selection

end CodeActions
