import CodeActions.Proofs.Text.Layout
import CodeActions.Proofs.Text.Slice
import CodeActions.Selection

/-!
# Numbers and selections as they are written

A number can be written with white space around it, and so can a selection: what a text says does
not change when it is trimmed. No selection begins with a dot, so none is taken for a command, and a
number is read the way it is printed.

Main statements: `Unsigned.parse_repr`, `Selection.parse_eq_ok_iff`, `Selection.parse_trim`,
`Selection.parse_dot_ne_ok`.
-/

namespace CodeActions

/-! ## §1 Numbers -/

namespace Unsigned

/-- More digits make no smaller number. -/
theorem le_ofDigitChars (value : Nat) (cs : List Char) : value ≤ Nat.ofDigitChars 10 cs value := by
  induction cs generalizing value with
  | nil => exact Nat.le_refl value
  | cons c cs ih =>
    rw [Nat.ofDigitChars_cons]
    calc
      value ≤ 10 * value + (c.toNat - '0'.toNat) := by omega
      _ ≤ _ := ih _

/-- Digits are read as the number that they stand for if it is below the bound. -/
theorem readDigits_eq_ok {bound value : Nat} {cs : List Char} (hdigits : ∀ c ∈ cs, c.isDigit = true)
    (hbound : Nat.ofDigitChars 10 cs value < bound) :
    readDigits bound value cs = .ok (Nat.ofDigitChars 10 cs value) := by
  induction cs generalizing value with
  | nil => rfl
  | cons c cs ih =>
    rw [List.forall_mem_cons] at hdigits
    rw [Nat.ofDigitChars_cons] at hbound ⊢
    -- the number read so far is at most the whole one
    have hsofar : ¬ bound ≤ 10 * value + digitValue c := by
      have := le_ofDigitChars (10 * value + digitValue c) cs
      unfold digitValue at this ⊢
      omega
    unfold readDigits
    simp only [hdigits.1, Bool.not_true, Bool.false_eq_true, if_false, hsofar]
    exact ih hdigits.2 hbound

/-- Digits are given up as soon as the number reaches the bound, so what comes out is below it. -/
theorem lt_of_readDigits {bound value n : Nat} {cs : List Char} (hvalue : value < bound)
    (h : readDigits bound value cs = .ok n) : n < bound := by
  induction cs generalizing value with
  | nil =>
    cases h
    exact hvalue
  | cons c cs ih =>
    unfold readDigits at h
    split at h
    · cases h
    · split at h
      · cases h
      · -- neither a strange character nor too large a number, so the reading goes on
        exact ih (by omega) h

/-- What is read is below the bound. -/
theorem lt_of_parse {bound n : Nat} {cs : List Char} (hbound : 0 < bound)
    (h : parse bound cs = .ok n) : n < bound := by
  unfold parse at h
  split at h
  · cases h
  · cases h
  · -- with a plus in front or without, digits are read from zero on
    exact lt_of_readDigits hbound h
  · exact lt_of_readDigits hbound h

/-- A number is printed in digits only. -/
theorem isDigit_of_mem_repr {n : Nat} {c : Char} (h : c ∈ n.repr.toList) : c.isDigit = true := by
  rw [Nat.toList_repr] at h
  exact Nat.isDigit_of_mem_toDigits (by decide) (by decide) h

theorem repr_ne_nil {n : Nat} : n.repr.toList ≠ [] := by
  rw [Nat.toList_repr]
  exact Nat.toDigits_ne_nil

/-- A number below the bound is read the way it is printed. -/
theorem parse_repr {bound n : Nat} (h : n < bound) : parse bound n.repr.toList = .ok n := by
  have hvalue : Nat.ofDigitChars 10 n.repr.toList 0 = n := by
    rw [Nat.toList_repr, Nat.ofDigitChars_toDigits (by decide) (by decide)]
  have hread : readDigits bound 0 n.repr.toList = .ok n := by
    rw [readDigits_eq_ok (fun _ => isDigit_of_mem_repr) (by rwa [hvalue]), hvalue]
  have hdigits : ∀ c ∈ n.repr.toList, c.isDigit = true := fun _ => isDigit_of_mem_repr
  -- there is at least one digit, and none of them is a plus
  unfold parse
  split
  case h_1 hnil => exact absurd hnil repr_ne_nil
  case h_2 hplus => exact absurd (hdigits '+' (by simp [hplus])) (by decide)
  case h_3 hplus => exact absurd (hdigits '+' (by simp [hplus])) (by decide)
  case h_4 => exact hread

end Unsigned

/-! ## §2 Selections -/

namespace Selection

/-- A place is two numbers around the first colon, both counted from one. -/
theorem parsePlace_eq_ok_iff {cs : List Char} {p : Position} :
    parsePlace cs = .ok p ↔ ∃ line column, cs = line ++ ':' :: column ∧ ':' ∉ line ∧
      parseNumber line = .ok (p.row + 1) ∧ parseNumber column = .ok (p.column + 1) := by
  unfold parsePlace
  constructor
  · -- each way to fail is ruled out in turn, down to a row and a column that are not zero
    intro h
    split at h
    case h_1 => cases h
    case h_2 line column hsplit =>
      obtain ⟨hcs, hcolon⟩ := Text.splitOnce?_eq_some_iff.mp hsplit
      split at h
      case h_1 => cases h
      case h_2 row hrow =>
        split at h
        case h_1 => cases h
        case h_2 col hcol =>
          split at h
          case isTrue => cases h
          case isFalse hzero =>
            cases h
            refine ⟨line, column, hcs, hcolon, ?_, ?_⟩
            · rw [hrow, show row - 1 + 1 = row by omega]
            · rw [hcol, show col - 1 + 1 = col by omega]
  · rintro ⟨line, column, hcs, hcolon, hrow, hcol⟩
    rw [Text.splitOnce?_eq_some_iff.mpr ⟨hcs, hcolon⟩]
    simp [hrow, hcol]

/-- A selection is one place, or two places around the first dash. -/
theorem parse_eq_ok_iff {cs : List Char} {s : Selection} :
    parse cs = .ok s ↔
      ('-' ∉ cs ∧ parsePlace cs = .ok s.start ∧ s.stop = s.start) ∨
      ∃ start stop, cs = start ++ '-' :: stop ∧ '-' ∉ start ∧ parsePlace start = .ok s.start ∧
        parsePlace stop = .ok s.stop := by
  unfold parse
  cases hsplit : Text.splitOnce? '-' cs with
  | none =>
    have hdash : '-' ∉ cs := Text.splitOnce?_eq_none_iff.mp hsplit
    simp only [bind_eq_ok_iff]
    constructor
    · rintro ⟨place, hplace, h⟩
      cases h
      exact .inl ⟨hdash, hplace, rfl⟩
    · rintro (⟨_, hplace, hstop⟩ | ⟨start, stop, rfl, _⟩)
      · refine ⟨s.start, hplace, ?_⟩
        obtain ⟨start, stop⟩ := s
        obtain rfl : stop = start := hstop
        rfl
      · simp at hdash
  | some halves =>
    obtain ⟨front, back⟩ := halves
    obtain ⟨hcs, hdash⟩ := Text.splitOnce?_eq_some_iff.mp hsplit
    simp only [bind_eq_ok_iff]
    constructor
    · rintro ⟨start, hstart, stop, hstop, h⟩
      cases h
      exact .inr ⟨front, back, hcs, hdash, hstart, hstop⟩
    · rintro (⟨hnone, _⟩ | ⟨start, stop, hcs', hdash', hstart, hstop⟩)
      · simp [hcs] at hnone
      · -- there is only one way to split at the first dash
        have hsame := hsplit.symm.trans (Text.splitOnce?_eq_some_iff.mpr ⟨hcs', hdash'⟩)
        cases hsame
        exact ⟨s.start, hstart, s.stop, hstop, rfl⟩

/-- White space in front of a place belongs to its first number, which is trimmed anyway. -/
theorem parsePlace_trimStart {cs : List Char} {p : Position} (h : parsePlace cs = .ok p) :
    parsePlace (Text.trimStart cs) = .ok p := by
  obtain ⟨line, column, rfl, hcolon, hrow, hcol⟩ := parsePlace_eq_ok_iff.mp h
  -- the colon is no white space, so only the line gets shorter
  refine parsePlace_eq_ok_iff.mpr ⟨Text.trimStart line, column,
    Text.trimStart_append_cons (by decide) line column, fun hmem => ?_, ?_, hcol⟩
  · exact hcolon (Text.mem_of_mem_trimStart hmem)
  · rwa [parseNumber, Text.trim_trimStart]

/-- White space behind it belongs to the second. -/
theorem parsePlace_trimEnd {cs : List Char} {p : Position} (h : parsePlace cs = .ok p) :
    parsePlace (Text.trimEnd cs) = .ok p := by
  obtain ⟨line, column, rfl, hcolon, hrow, hcol⟩ := parsePlace_eq_ok_iff.mp h
  refine parsePlace_eq_ok_iff.mpr ⟨line, Text.trimEnd column,
    Text.trimEnd_append_cons (by decide) line column, hcolon, hrow, ?_⟩
  rwa [parseNumber, Text.trim_trimEnd]

/-- A selection can be trimmed. -/
theorem parse_trim {cs : List Char} {s : Selection} (h : parse cs = .ok s) :
    parse (Text.trim cs) = .ok s := by
  rcases parse_eq_ok_iff.mp h with ⟨hdash, hplace, hstop⟩ | ⟨start, stop, rfl, hdash, hstart, hstop⟩
  · refine parse_eq_ok_iff.mpr (.inl ⟨fun hmem => ?_, ?_, hstop⟩)
    · exact hdash (Text.mem_of_mem_trimStart (Text.mem_of_mem_trimEnd hmem))
    · exact parsePlace_trimEnd (parsePlace_trimStart hplace)
  · -- the dash keeps the places apart, so each of them is trimmed at one end
    refine parse_eq_ok_iff.mpr (.inr ⟨Text.trimStart start, Text.trimEnd stop,
      Text.trim_append_cons (by decide) start stop, fun hmem => ?_, ?_, ?_⟩)
    · exact hdash (Text.mem_of_mem_trimStart hmem)
    · exact parsePlace_trimStart hstart
    · exact parsePlace_trimEnd hstop

/-- No number begins with a dot. -/
theorem parseNumber_dot (cs : List Char) : parseNumber ('.' :: cs) = .error .invalidDigit := by
  have htrim : Text.trim ('.' :: cs) = '.' :: Text.trimEnd cs :=
    Text.trim_append_cons (by decide) [] cs
  unfold parseNumber
  rw [htrim]
  rfl

/-- No place begins with a dot, for its line would. -/
theorem parsePlace_dot_ne_ok (cs : List Char) (p : Position) : parsePlace ('.' :: cs) ≠ .ok p := by
  intro h
  obtain ⟨line, column, hcs, _, hrow, _⟩ := parsePlace_eq_ok_iff.mp h
  cases line with
  | nil => cases hcs
  | cons c line =>
    obtain ⟨rfl, _⟩ := List.cons.inj hcs
    rw [parseNumber_dot] at hrow
    cases hrow

/-- No selection begins with a dot, so none is taken for a command. -/
theorem parse_dot_ne_ok (cs : List Char) (s : Selection) : parse ('.' :: cs) ≠ .ok s := by
  intro h
  rcases parse_eq_ok_iff.mp h with ⟨_, hplace, _⟩ | ⟨start, stop, hcs, _, hstart, _⟩
  · exact parsePlace_dot_ne_ok cs _ hplace
  · cases start with
    | nil => cases hcs
    | cons c start =>
      obtain ⟨rfl, _⟩ := List.cons.inj hcs
      exact parsePlace_dot_ne_ok start _ hstart

end Selection

end CodeActions
