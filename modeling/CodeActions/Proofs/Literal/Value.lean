import CodeActions.Literal.Chunk
import Mathlib.Data.List.TakeWhile

/-!
# What a literal stands for

A string is a list of code units, and the same string can be written in quotes and as a template. A
character stands for its own units, and a backslash begins an escape. The escapes are the same in
both notations; digits, which had a meaning once, are left out, apart from `\0`.

The notations differ in what may stand in them as it is, and in line ends: in a template a carriage
return and a carriage return with a line feed both stand for one line feed, in quotes neither may
stand.

Main statement: `Literal.escape?_eq_some_iff`, which lists the escapes by their text.
-/

namespace CodeActions.Literal

/-! ## §1 Code units -/

/-- The code units of a code point. -/
def units (code : Nat) : List UInt16 :=
  if code < 0x10000 then [code.toUInt16]
  else [(0xD800 + (code - 0x10000) / 0x400).toUInt16, (0xDC00 + (code - 0x10000) % 0x400).toUInt16]

/-- The value of a hexadecimal digit. -/
def hexDigit? (c : Char) : Option Nat :=
  if '0' ≤ c ∧ c ≤ '9' then some (c.toNat - '0'.toNat)
  else if 'a' ≤ c ∧ c ≤ 'f' then some (c.toNat - 'a'.toNat + 10)
  else if 'A' ≤ c ∧ c ≤ 'F' then some (c.toNat - 'A'.toNat + 10)
  else none

/-- The character is a hexadecimal digit. -/
def isHex (c : Char) : Bool := (hexDigit? c).isSome

/-- The value of hexadecimal digits, the first one the highest. -/
def hexNumber? (ds : List Char) : Option Nat :=
  ds.foldlM (fun n d => (hexDigit? d).map (16 * n + ·)) 0

/-- What has a value in hexadecimal digits is made of them. -/
theorem isHex_of_hexNumber? {ds : List Char} {n : Nat} (h : hexNumber? ds = some n) :
    ∀ d ∈ ds, isHex d = true := by
  unfold hexNumber? at h
  -- the digits before are in the number already
  generalize 0 = start at h
  induction ds generalizing start with
  | nil => simp
  | cons d ds ih =>
    rw [List.foldlM_cons] at h
    obtain ⟨next, hnext, hrest⟩ := Option.bind_eq_some_iff.mp h
    obtain ⟨digit, hdigit, _⟩ := Option.map_eq_some_iff.mp hnext
    exact List.forall_mem_cons.mpr ⟨by simp [isHex, hdigit], ih next hrest⟩

/-! ## §2 Escapes -/

/-- The characters that end a line. -/
def lineEnds : List Char := ['\n', '\r', '\u2028', '\u2029']

/-- The letters that stand for a control character behind a backslash. -/
def controls : List (Char × UInt16) :=
  [('b', 8), ('t', 9), ('n', 10), ('v', 11), ('f', 12), ('r', 13)]

/-- The character stands for itself behind a backslash. -/
def standsForItself (c : Char) : Bool :=
  !lineEnds.contains c && !c.isDigit && c != 'x' && c != 'u' && (controls.lookup c).isNone

theorem standsForItself_iff {c : Char} : standsForItself c = true ↔
    c ∉ lineEnds ∧ c.isDigit = false ∧ c ≠ 'x' ∧ c ≠ 'u' ∧ controls.lookup c = none := by
  simp only [standsForItself, Bool.and_eq_true, Bool.not_eq_true', List.contains_eq_mem,
    decide_eq_false_iff_not, bne_iff_ne, Option.isNone_iff_eq_none, and_assoc, ne_eq]

/-- A unit written with a fixed number of digits, and what is behind them. -/
def fixed? (count : Nat) (cs : List Char) : Option (List UInt16 × List Char) :=
  if count ≤ cs.length then (hexNumber? (cs.take count)).map fun n => ([n.toUInt16], cs.drop count)
  else none

/-- A code point with a closing brace behind its digits, and what is behind the brace. -/
def braced? (cs : List Char) : Option (List UInt16 × List Char) := do
  let digits := cs.takeWhile isHex
  let code ← hexNumber? digits
  if digits ≠ [] ∧ code ≤ 0x10FFFF ∧ (cs.dropWhile isHex).head? = some '\x7d' then
    return (units code, (cs.dropWhile isHex).tail)
  else
    none

/-- What an escape stands for, read behind its backslash, and what is behind the escape. A line end
behind a backslash stands for nothing. -/
def escape? : List Char → Option (List UInt16 × List Char)
  | [] => none
  | c :: cs =>
    if c ∈ lineEnds then some ([], if c = '\r' ∧ cs.head? = some '\n' then cs.tail else cs)
    else if c = 'x' then fixed? 2 cs
    else if c = 'u' then if cs.head? = some '\x7b' then braced? cs.tail else fixed? 4 cs
    else if c.isDigit then if c = '0' ∧ !cs.head?.any Char.isDigit then some ([0], cs) else none
    else match controls.lookup c with
      | some unit => some ([unit], cs)
      | none => some (units c.toNat, cs)

/-- The escapes by their text behind the backslash. -/
inductive Escape : List Char → List UInt16 → Prop where
  | lineEnd {c : Char} (h : c ∈ lineEnds) : Escape [c] []
  | carriageReturn : Escape ['\r', '\n'] []
  | byte {ds : List Char} {n : Nat} (hlength : ds.length = 2) (h : hexNumber? ds = some n) :
      Escape ('x' :: ds) [n.toUInt16]
  | unit {ds : List Char} {n : Nat} (hlength : ds.length = 4) (h : hexNumber? ds = some n) :
      Escape ('u' :: ds) [n.toUInt16]
  | code {ds : List Char} {n : Nat} (hne : ds ≠ []) (h : hexNumber? ds = some n)
      (hle : n ≤ 0x10FFFF) : Escape ('u' :: '\x7b' :: (ds ++ ['\x7d'])) (units n)
  | zero : Escape ['0'] [0]
  | control {c : Char} {u : UInt16} (h : (c, u) ∈ controls) : Escape [c] [u]
  | self {c : Char} (h : standsForItself c = true) : Escape [c] (units c.toNat)

/-- The escape does not go on with what is behind it. -/
def EndsBefore (eaten rest : List Char) : Prop :=
  (eaten = ['0'] → rest.head?.any Char.isDigit = false) ∧ (eaten = ['\r'] → rest.head? ≠ some '\n')

/-- An escape still ends if no line feed and no digit comes behind it that was not there before. -/
theorem EndsBefore.of_head? {eaten rest rest' : List Char} (h : EndsBefore eaten rest)
    (hhead : ∀ d, rest'.head? = some d → d = '\n' ∨ d.isDigit = true → rest.head? = some d) :
    EndsBefore eaten rest' := by
  refine ⟨fun hzero => ?_, fun hreturn hfeed => ?_⟩
  · -- a digit behind `\0` was there before
    have hnone := h.1 hzero
    cases hd : rest'.head? with
    | none => rfl
    | some d =>
      cases hdigit : d.isDigit with
      | false => simp [hdigit]
      | true => simp [hhead d hd (.inr hdigit), hdigit] at hnone
  · exact h.2 hreturn (hhead '\n' hfeed (.inl rfl))

/-- A fixed number of digits is read exactly if there are as many in front. -/
theorem fixed?_eq_some_iff {count : Nat} {cs rest : List Char} {us : List UInt16} :
    fixed? count cs = some (us, rest) ↔
      ∃ ds n, cs = ds ++ rest ∧ ds.length = count ∧ hexNumber? ds = some n ∧ us = [n.toUInt16] := by
  unfold fixed?
  constructor
  · intro h
    obtain ⟨hcount, h⟩ := Option.ite_none_right_eq_some.mp h
    obtain ⟨n, hn, h⟩ := Option.map_eq_some_iff.mp h
    cases h
    exact ⟨cs.take count, n, (List.take_append_drop count cs).symm, List.length_take_of_le hcount,
      hn, rfl⟩
  · rintro ⟨ds, n, rfl, rfl, hn, rfl⟩
    simp [hn]

/-- Digits in braces are read exactly if there is one at the least and their value is a code point.
-/
theorem braced?_eq_some_iff {cs rest : List Char} {us : List UInt16} :
    braced? cs = some (us, rest) ↔
      ∃ ds n, cs = ds ++ '\x7d' :: rest ∧ ds ≠ [] ∧ hexNumber? ds = some n ∧ n ≤ 0x10FFFF ∧
        us = units n := by
  unfold braced?
  constructor
  · intro h
    obtain ⟨n, hn, h⟩ := Option.bind_eq_some_iff.mp h
    obtain ⟨⟨hne, hle, hbrace⟩, h⟩ := Option.ite_none_right_eq_some.mp h
    obtain ⟨rest', hrest⟩ := List.head?_eq_some_iff.mp hbrace
    -- what is behind the digits begins with the brace
    have hcs : cs = cs.takeWhile isHex ++ '\x7d' :: rest' := by
      rw [← hrest, List.takeWhile_append_dropWhile]
    rw [hrest] at h
    cases h
    exact ⟨cs.takeWhile isHex, n, hcs, hne, hn, hle, rfl⟩
  · rintro ⟨ds, n, rfl, hne, hn, hle, rfl⟩
    -- the closing brace is no digit
    have hdigits := isHex_of_hexNumber? hn
    have hbrace : isHex '\x7d' = false := by decide
    have htake : (ds ++ '\x7d' :: rest).takeWhile isHex = ds := by
      simp [List.takeWhile_append_of_pos hdigits, hbrace]
    have hdrop : (ds ++ '\x7d' :: rest).dropWhile isHex = '\x7d' :: rest := by
      simp [List.dropWhile_append_of_pos hdigits, hbrace]
    simp [htake, hdrop, hn, hne, hle]

/-- What is read as an escape is one of the list, and does not go on. -/
theorem escape?_sound {cs rest : List Char} {us : List UInt16} (h : escape? cs = some (us, rest)) :
    ∃ eaten, cs = eaten ++ rest ∧ Escape eaten us ∧ EndsBefore eaten rest := by
  cases cs with
  | nil => cases h
  | cons c cs =>
    rw [escape?] at h
    -- the tests are made in this order, and each rules out what the next ones are for
    split at h
    case isTrue hline =>
      split at h
      case isTrue hboth =>
        obtain ⟨rfl, hfeed⟩ := hboth
        obtain ⟨tail, rfl⟩ := List.head?_eq_some_iff.mp hfeed
        cases h
        exact ⟨['\r', '\n'], rfl, .carriageReturn, by simp [EndsBefore]⟩
      case isFalse hboth =>
        cases h
        refine ⟨[c], rfl, .lineEnd hline, ?_, ?_⟩
        · rintro ⟨rfl⟩
          exact absurd hline (by decide)
        · rintro ⟨rfl⟩
          exact fun hfeed => hboth ⟨rfl, hfeed⟩
    case isFalse hline =>
    split at h
    -- two digits for a byte
    case isTrue hx =>
      obtain ⟨ds, n, rfl, hlength, hn, rfl⟩ := fixed?_eq_some_iff.mp h
      exact ⟨c :: ds, rfl, hx ▸ .byte hlength hn, by simp [EndsBefore, hx]⟩
    case isFalse hx =>
    split at h
    case isTrue hu =>
      split at h
      -- digits in braces for a code point, and else four for a unit
      case isTrue hbrace =>
        obtain ⟨tail, rfl⟩ := List.head?_eq_some_iff.mp hbrace
        obtain ⟨ds, n, htail, hne, hn, hle, rfl⟩ := braced?_eq_some_iff.mp h
        obtain rfl : tail = ds ++ '\x7d' :: rest := htail
        exact ⟨'u' :: '\x7b' :: (ds ++ ['\x7d']), by simp [hu], .code hne hn hle,
          by simp [EndsBefore]⟩
      case isFalse =>
        obtain ⟨ds, n, rfl, hlength, hn, rfl⟩ := fixed?_eq_some_iff.mp h
        exact ⟨c :: ds, rfl, hu ▸ .unit hlength hn, by simp [EndsBefore, hu]⟩
    case isFalse hu =>
    split at h
    -- of the digits only `\0` is left, and only if no digit follows
    case isTrue hdigit =>
      split at h
      case isTrue hzero =>
        obtain ⟨rfl, hnext⟩ := hzero
        cases h
        exact ⟨['0'], rfl, .zero, by simpa [EndsBefore] using hnext⟩
      case isFalse => cases h
    case isFalse hdigit =>
      -- neither `\0` nor a carriage return has come this far
      have hends : EndsBefore [c] rest := by
        constructor
        · rintro ⟨rfl⟩
          exact absurd rfl hdigit
        · rintro ⟨rfl⟩
          exact absurd (by decide) hline
      split at h
      case h_1 unit hunit =>
        cases h
        obtain ⟨front, back, hsplit, _⟩ := List.lookup_eq_some_iff.mp hunit
        exact ⟨[c], rfl, .control (by simp [hsplit]), hends⟩
      case h_2 hnone =>
        cases h
        have hself := standsForItself_iff.mpr ⟨hline, eq_false_of_ne_true hdigit, hx, hu, hnone⟩
        exact ⟨[c], rfl, .self hself, hends⟩

/-- Each escape of the list is read, if it does not go on. -/
theorem escape?_complete {eaten rest : List Char} {us : List UInt16} (h : Escape eaten us)
    (hends : EndsBefore eaten rest) : escape? (eaten ++ rest) = some (us, rest) := by
  cases h with
  -- alone, since a carriage return with a line feed behind it goes on
  | @lineEnd c h =>
    have hboth : ¬ (c = '\r' ∧ rest.head? = some '\n') := fun hboth =>
      hends.2 (by rw [hboth.1]) hboth.2
    simp [escape?, h, hboth]
  | carriageReturn => simp [escape?, lineEnds]
  | @byte ds n hlength h =>
    have hx : 'x' ∉ lineEnds := by decide
    simpa [escape?, hx] using fixed?_eq_some_iff.mpr ⟨ds, n, rfl, hlength, h, rfl⟩
  | @unit ds n hlength h =>
    have hu : 'u' ∉ lineEnds := by decide
    -- the brace is no digit, so the digits are not those of a code point
    have hbrace : (ds ++ rest).head? ≠ some '\x7b' := by
      cases ds with
      | nil => cases hlength
      | cons d ds =>
        have hdigit := isHex_of_hexNumber? h d List.mem_cons_self
        rintro ⟨rfl⟩
        exact absurd hdigit (by decide)
    rw [List.cons_append, escape?, if_neg hu, if_neg (by decide), if_pos rfl, if_neg hbrace]
    exact fixed?_eq_some_iff.mpr ⟨ds, n, rfl, hlength, h, rfl⟩
  | @code ds n hne h hle =>
    have hu : 'u' ∉ lineEnds := by decide
    simpa [escape?, hu] using braced?_eq_some_iff.mpr ⟨ds, n, rfl, hne, h, hle, rfl⟩
  | zero =>
    have hzero : '0' ∉ lineEnds := by decide
    simpa [escape?, hzero] using hends.1 rfl
  -- the letters are six, so all that is asked of them is checked one by one
  | @control c u h =>
    have hall : ∀ entry ∈ controls, entry.1 ∉ lineEnds ∧ entry.1 ≠ 'x' ∧ entry.1 ≠ 'u' ∧
        entry.1.isDigit = false ∧ controls.lookup entry.1 = some entry.2 := by
      decide
    obtain ⟨hline, hx, hu, hdigit, hlookup⟩ := hall (c, u) h
    simp [escape?, hline, hx, hu, hdigit, hlookup]
  | @self c h =>
    obtain ⟨hline, hdigit, hx, hu, hlookup⟩ := standsForItself_iff.mp h
    simp [escape?, hline, hx, hu, hdigit, hlookup]

/-- What is read as an escape is one of the list that does not go on, and each of them is read. -/
theorem escape?_eq_some_iff {cs rest : List Char} {us : List UInt16} :
    escape? cs = some (us, rest) ↔
      ∃ eaten, cs = eaten ++ rest ∧ Escape eaten us ∧ EndsBefore eaten rest := by
  constructor
  · exact escape?_sound
  · rintro ⟨eaten, rfl, h, hends⟩
    exact escape?_complete h hends

theorem escape?_self {c : Char} (h : standsForItself c = true) (cs : List Char) :
    escape? (c :: cs) = some (units c.toNat, cs) := by
  obtain ⟨hline, hdigit, _⟩ := standsForItself_iff.mp h
  refine escape?_complete (.self h) ⟨?_, ?_⟩
  · rintro ⟨rfl⟩
    cases hdigit
  · rintro ⟨rfl⟩
    exact absurd (by decide) hline

/-- The character can stand in an escape behind its first character. -/
def isEscapeTail (c : Char) : Bool := isHex c || c == '\x7b' || c == '\x7d'

theorem ne_of_isEscapeTail {c d : Char} (hd : isEscapeTail d = true) (hc : isEscapeTail c = false) :
    d ≠ c := by
  rintro rfl
  simp [hd] at hc

/-- Behind the first character an escape has only digits and braces, apart from a line feed after a
carriage return. -/
theorem Escape.exists_tail {eaten : List Char} {us : List UInt16} (h : Escape eaten us) :
    (eaten = ['\r', '\n'] ∧ us = []) ∨
      ∃ c ds, eaten = c :: ds ∧ ∀ d ∈ ds, isEscapeTail d = true := by
  have hdigits {ds : List Char} {n : Nat} (hn : hexNumber? ds = some n) :
      ∀ d ∈ ds, isEscapeTail d = true := by
    intro d hd
    simp [isEscapeTail, isHex_of_hexNumber? hn d hd]
  cases h with
  | carriageReturn => exact .inl ⟨rfl, rfl⟩
  | byte _ hn => exact .inr ⟨_, _, rfl, hdigits hn⟩
  | unit _ hn => exact .inr ⟨_, _, rfl, hdigits hn⟩
  | @code ds n _ hn _ =>
    refine .inr ⟨_, _, rfl, ?_⟩
    rw [List.forall_mem_cons, List.forall_mem_append]
    exact ⟨rfl, hdigits hn, by simp [isEscapeTail]⟩
  -- all others are one character
  | lineEnd | zero | control | self => exact .inr ⟨_, [], rfl, by simp⟩

/-! ## §3 Values -/

/-- A notation is known by how a character or an escape is read in it: what it stands for, and what
is behind it. -/
structure Reader where
  read? : List Char → Option (List UInt16 × List Char)
  length_lt : ∀ {cs us rest}, read? cs = some (us, rest) → rest.length < cs.length

namespace Reader

variable {reader : Reader} {cs rest : List Char} {us value : List UInt16}

/-- What a text stands for. -/
def value? (reader : Reader) (cs : List Char) : Option (List UInt16) :=
  if cs = [] then some []
  else match _h : reader.read? cs with
    | none => none
    | some (us, rest) => (reader.value? rest).map (us ++ ·)
termination_by cs.length
decreasing_by exact reader.length_lt _h

@[simp] theorem value?_nil : reader.value? [] = some [] := by rw [value?, if_pos rfl]

/-- A text stands for what is read first, followed by what the rest stands for. -/
theorem value?_of_read? (h : reader.read? cs = some (us, rest)) :
    reader.value? cs = (reader.value? rest).map (us ++ ·) := by
  -- from an empty text nothing can be read
  have hne : cs ≠ [] := by
    rintro rfl
    exact absurd (reader.length_lt h) (Nat.not_lt_zero _)
  rw [value?, if_neg hne]
  split
  case h_1 hnone =>
    rw [h] at hnone
    cases hnone
  case h_2 us' rest' hsome =>
    cases h.symm.trans hsome
    rfl

/-- A text that stands for something is empty, or something is read first and then the rest. -/
theorem cases_value? (h : reader.value? cs = some value) :
    (cs = [] ∧ value = []) ∨
      ∃ us rest value', reader.read? cs = some (us, rest) ∧ reader.value? rest = some value' ∧
        value = us ++ value' := by
  by_cases hnil : cs = []
  · subst hnil
    rw [value?_nil] at h
    exact .inl ⟨rfl, (Option.some.inj h).symm⟩
  · cases hread : reader.read? cs with
    -- what cannot be read stands for nothing
    | none =>
      rw [value?, if_neg hnil] at h
      split at h
      case h_1 => cases h
      case h_2 hsome =>
        rw [hread] at hsome
        cases hsome
    | some step =>
      obtain ⟨us, rest⟩ := step
      rw [value?_of_read? hread] at h
      obtain ⟨value', hvalue', rfl⟩ := Option.map_eq_some_iff.mp h
      exact .inr ⟨us, rest, value', rfl, hvalue', rfl⟩

/-- What holds of the empty text and passes from the rest of a text to the text holds of all texts
that stand for something. -/
@[elab_as_elim]
theorem value?_induction
    {motive : (cs : List Char) → (value : List UInt16) → reader.value? cs = some value → Prop}
    (nil : motive [] [] value?_nil)
    (step : ∀ {cs rest : List Char} {us value : List UInt16}
      (hread : reader.read? cs = some (us, rest))
      (hvalue : reader.value? rest = some value), motive rest value hvalue →
        motive cs (us ++ value) (by rw [value?_of_read? hread, hvalue]; rfl))
    (h : reader.value? cs = some value) : motive cs value h := by
  -- the rest of a text is shorter than the text
  induction hlength : cs.length using Nat.strong_induction_on generalizing cs value with
  | _ n ih =>
    rcases cases_value? h with ⟨rfl, rfl⟩ | ⟨us, rest, value', hread, hvalue', rfl⟩
    · exact nil
    · have hlt := reader.length_lt hread
      exact step hread hvalue' (ih rest.length (hlength ▸ hlt) hvalue' rfl)

end Reader

/-- An escape has a character at the least, so less is left. -/
theorem length_lt_of_escape? {cs rest : List Char} {us : List UInt16}
    (h : escape? cs = some (us, rest)) : rest.length < cs.length := by
  obtain ⟨eaten, rfl, hescape, _⟩ := escape?_eq_some_iff.mp h
  have hlength : 0 < eaten.length := by
    cases hescape with
    | lineEnd | carriageReturn | byte | unit | code | zero | control | self => simp
  rw [List.length_append]
  omega

/-- Text between two quotes. The quote, a line feed and a carriage return cannot stand in it. -/
def quoted (quote : Char) : Reader where
  read?
    | [] => none
    | c :: cs =>
      if c = '\\' then escape? cs
      else if c = quote ∨ c = '\n' ∨ c = '\r' then none
      else some (units c.toNat, cs)
  length_lt := by
    intro cs us rest h
    cases cs with
    | nil => cases h
    | cons c cs =>
      simp only at h
      split at h
      · exact Nat.lt_succ_of_lt (length_lt_of_escape? h)
      · split at h
        · cases h
        · cases h
          exact Nat.lt_succ_self _

/-- Text of a template outside of its holes. A backtick would end it and `${` would begin a hole. -/
def template : Reader where
  read?
    | [] => none
    | c :: cs =>
      if c = '\\' then escape? cs
      else if c = backtick ∨ (c = '$' ∧ cs.head? = some '\x7b') then none
      else if c = '\r' then some (units 10, if cs.head? = some '\n' then cs.tail else cs)
      else some (units c.toNat, cs)
  length_lt := by
    intro cs us rest h
    cases cs with
    | nil => cases h
    | cons c cs =>
      simp only at h
      split at h
      · exact Nat.lt_succ_of_lt (length_lt_of_escape? h)
      · split at h
        · cases h
        · split at h
          · have htail := cs.length_tail
            cases h
            split <;> simp only [List.length_cons] <;> omega
          · cases h
            exact Nat.lt_succ_self _

theorem read?_quoted (quote c : Char) (cs : List Char) :
    (quoted quote).read? (c :: cs) =
      if c = '\\' then escape? cs
      else if c = quote ∨ c = '\n' ∨ c = '\r' then none
      else some (units c.toNat, cs) := rfl

theorem read?_template (c : Char) (cs : List Char) :
    template.read? (c :: cs) =
      if c = '\\' then escape? cs
      else if c = backtick ∨ (c = '$' ∧ cs.head? = some '\x7b') then none
      else if c = '\r' then some (units 10, if cs.head? = some '\n' then cs.tail else cs)
      else some (units c.toNat, cs) := rfl

/-- What a literal in quotes stands for. -/
def literalValue? (quote : Char) (literal : List Char) : Option (List UInt16) :=
  if literal.head? = some quote ∧ literal.tail.getLast? = some quote then
    (quoted quote).value? literal.tail.dropLast
  else none

theorem literalValue?_quotes (quote : Char) (body : List Char) :
    literalValue? quote (quote :: (body ++ [quote])) = (quoted quote).value? body := by
  simp [literalValue?]

/-- A literal that stands for something is a text in quotes that does. -/
theorem exists_body_of_literalValue? {quote : Char} {literal : List Char} {value : List UInt16}
    (h : literalValue? quote literal = some value) :
    ∃ body, literal = quote :: (body ++ [quote]) ∧ (quoted quote).value? body = some value := by
  obtain ⟨⟨hopen, hclose⟩, hvalue⟩ := Option.ite_none_right_eq_some.mp h
  obtain ⟨tail, rfl⟩ := List.head?_eq_some_iff.mp hopen
  -- the closing quote is another one than the opening
  obtain ⟨body, hbody⟩ := List.getLast?_eq_some_iff.mp hclose
  obtain rfl : tail = body ++ [quote] := hbody
  refine ⟨body, rfl, ?_⟩
  simpa using hvalue

example : literalValue? '\'' "'a\\x41\\u\x7b1F600\x7d\\0'".toList =
    some [97, 65, 0xD83D, 0xDE00, 0] := by
  with_unfolding_all decide

end CodeActions.Literal
