import CodeActions.Snippet
import Mathlib.Data.List.Chain
import Mathlib.Data.List.TakeWhile

/-!
# Reading the notation of snippets

An editor reads the notation of a snippet from left to right. A dollar sign with digits behind it is
a tab stop, and all the digits belong to its number; in braces a tab stop also has a text. A
backslash takes a character that would mean something else as it is, and everything else is text.

The notation is written piece by piece and read as a whole. Texts are escaped, so no text is taken
for a tab stop. But the number of a tab stop without a text of its own does not say where it ends:
digits that come next are taken for a part of it.

Main statements: `Snippet.read_renderItems`, what an editor finds in the notation of any pieces, and
`Snippet.reads_back_iff_apart`, it finds what was written exactly if no digit comes right behind a
tab stop without a text.
-/

namespace CodeActions

namespace Snippet

/-- What an editor finds in the notation. A text is the run of its characters, so that two texts
side by side are one text and an empty one is nothing. -/
inductive Item where
  | char (c : Char)
  /-- A tab stop with its number and the text that it holds at first. -/
  | stop (index : Nat) (initial : List Char)
  deriving Repr, DecidableEq

/-! ## §1 The reader -/

/-- The characters that a backslash takes as they are. -/
def isEscapable (c : Char) : Bool := c = '$' ∨ c = '\x7d' ∨ c = '\\'

/-- The text of a tab stop up to the brace that closes it, and what stands behind the brace. -/
def readInitial? : List Char → Option (List Char × List Char)
  | [] => none
  | '\x7d' :: rest => some ([], rest)
  | '\\' :: c :: cs =>
    if isEscapable c then (readInitial? cs).map fun (text, rest) => (c :: text, rest)
    else (readInitial? (c :: cs)).map fun (text, rest) => ('\\' :: text, rest)
  | c :: cs => (readInitial? cs).map fun (text, rest) => (c :: text, rest)

/-- The number that is written with the digits. -/
def number (digits : List Char) : Nat := Nat.ofDigitChars 10 digits 0

/-- The tab stop behind an opening brace, and what stands behind the tab stop. -/
def readBraced? (cs : List Char) : Option (Item × List Char) :=
  match cs.takeWhile Char.isDigit, cs.dropWhile Char.isDigit with
  | d :: ds, ':' :: rest =>
    (readInitial? rest).map fun (initial, rest) => (.stop (number (d :: ds)) initial, rest)
  | _, _ => none

/-- The tab stop behind a dollar sign, and what stands behind the tab stop. Its number has as many
digits as there are. -/
def readStop? (cs : List Char) : Option (Item × List Char) :=
  match cs.takeWhile Char.isDigit with
  | d :: ds => some (.stop (number (d :: ds)) [], cs.dropWhile Char.isDigit)
  | [] =>
    match cs with
    | '\x7b' :: cs => readBraced? cs
    | _ => none

/-- The text of a tab stop uses up what it is read from. -/
theorem length_le_of_readInitial? {cs initial rest : List Char}
    (h : readInitial? cs = some (initial, rest)) : rest.length ≤ cs.length := by
  fun_induction readInitial? cs generalizing initial with
  | case1 => cases h
  | case2 cs =>
    cases h
    simp
  | case3 c cs _ ih | case4 c cs _ ih | case5 c cs _ _ ih =>
    obtain ⟨⟨text, rest'⟩, hread, h⟩ := Option.map_eq_some_iff.mp h
    cases h
    have := ih hread
    simp only [List.length_cons] at this ⊢
    omega

theorem length_le_of_readBraced? {cs rest : List Char} {item : Item}
    (h : readBraced? cs = some (item, rest)) : rest.length ≤ cs.length := by
  unfold readBraced? at h
  split at h
  case h_1 d ds rest' _ hdrop =>
    obtain ⟨⟨initial, rest''⟩, hread, h⟩ := Option.map_eq_some_iff.mp h
    cases h
    have hrest := length_le_of_readInitial? hread
    have hcs := List.length_dropWhile_le Char.isDigit cs
    simp only [hdrop, List.length_cons] at hcs
    omega
  case h_2 => cases h

/-- So does a tab stop, and the reader gets on. -/
theorem length_le_of_readStop? {cs rest : List Char} {item : Item}
    (h : readStop? cs = some (item, rest)) : rest.length ≤ cs.length := by
  unfold readStop? at h
  split at h
  case h_1 =>
    cases h
    exact List.length_dropWhile_le Char.isDigit cs
  case h_2 =>
    split at h
    case h_1 cs =>
      have := length_le_of_readBraced? h
      simp only [List.length_cons]
      omega
    case h_2 => cases h

/-- What an editor finds in a text. -/
def read : List Char → List Item
  | [] => []
  | '\\' :: c :: cs => if isEscapable c then .char c :: read cs else .char '\\' :: read (c :: cs)
  | '$' :: cs =>
    match _h : readStop? cs with
    | some (item, rest) => item :: read rest
    | none => .char '$' :: read cs
  | c :: cs => .char c :: read cs
termination_by cs => cs.length
decreasing_by
  · simp only [List.length_cons]; omega
  · simp only [List.length_cons]; omega
  · exact Nat.lt_succ_of_le (length_le_of_readStop? _h)
  · simp only [List.length_cons]; omega
  · simp only [List.length_cons]; omega

/-! ## §2 What was written -/

namespace Item

/-- The item in the notation. -/
def render : Item → List Char
  | char c => Segment.escape c
  | stop index [] => '$' :: Nat.toDigits 10 index
  | stop index (c :: cs) =>
    ['$', '\x7b'] ++ Nat.toDigits 10 index ++ [':'] ++ (c :: cs).flatMap Segment.escape ++ ['\x7d']

/-- The item with its tab stop replaced by the text that it holds at first. -/
def plain : Item → List Char
  | char c => [c]
  | stop _ initial => initial

/-- The item is a character that could belong to a number. -/
def isDigit : Item → Bool
  | char c => c.isDigit
  | stop _ _ => false

/-- The item is a tab stop that is written as a number only. -/
def isBare : Item → Bool
  | char _ => false
  | stop _ initial => initial.isEmpty

end Item

end Snippet

/-- The piece as an editor should find it. The caret is the tab stop with the number 0. -/
def Segment.items : Segment → List Snippet.Item
  | text value => value.toList.map .char
  | placeholder index initial => [.stop index.toNat initial.toList]
  | cursor => [.stop 0 []]

/-- A piece is written the way its items are. -/
theorem Segment.render_eq_items (segment : Segment) :
    segment.render = segment.items.flatMap Snippet.Item.render := by
  cases segment with
  | text value => simp [render, items, List.flatMap_map, Snippet.Item.render]
  -- without a text the braces are left out
  | placeholder index initial =>
    cases h : initial.toList with
    | nil =>
      have hempty : initial.isEmpty = true := by simpa using h
      simp [render, items, h, hempty, Snippet.Item.render]
    | cons c cs =>
      have hempty : initial.isEmpty = false := by
        simp [← String.toList_eq_nil_iff, h]
      simp [render, items, h, hempty, Snippet.Item.render]
  | cursor => rfl

/-- And its plain text is that of its items. -/
theorem Segment.plain_eq_items (segment : Segment) :
    segment.plain = segment.items.flatMap Snippet.Item.plain := by
  cases segment <;> simp [plain, items, List.flatMap_map, Snippet.Item.plain]

namespace Snippet

/-- The pieces of the snippet as an editor should find them. -/
def items (s : Snippet) : List Item := s.segments.flatMap Segment.items

theorem render_eq_items (s : Snippet) : s.render.toList = s.items.flatMap Item.render := by
  simp [render, items, List.flatMap_assoc, ← Segment.render_eq_items]

theorem plain_eq_items (s : Snippet) : s.plain.toList = s.items.flatMap Item.plain := by
  simp [plain, items, List.flatMap_assoc, ← Segment.plain_eq_items]

/-! ## §3 Reading what was written -/

theorem escape_of_isEscapable {c : Char} (h : isEscapable c = true) :
    Segment.escape c = ['\\', c] :=
  if_pos (by simpa [isEscapable] using h)

theorem escape_of_not_isEscapable {c : Char} (h : isEscapable c = false) : Segment.escape c = [c] :=
  if_neg (by simpa [isEscapable] using h)

/-- An escaped character is read as itself. -/
theorem read_escape_append (c : Char) (cs : List Char) :
    read (Segment.escape c ++ cs) = .char c :: read cs := by
  cases hc : isEscapable c with
  | true => simp [escape_of_isEscapable hc, read, hc]
  | false =>
    -- it opens neither a tab stop nor an escape
    have hmarks : c ≠ '$' ∧ c ≠ '\x7d' ∧ c ≠ '\\' := by simpa [isEscapable] using hc
    simp [escape_of_not_isEscapable hc, read, hmarks]

/-- The text of a tab stop is read up to the brace that was put behind it. -/
theorem readInitial?_escape (text rest : List Char) :
    readInitial? (text.flatMap Segment.escape ++ '\x7d' :: rest) = some (text, rest) := by
  induction text with
  | nil => rfl
  | cons c cs ih =>
    -- a mark comes with a backslash, and everything else means itself
    cases hc : isEscapable c with
    | true => simp [escape_of_isEscapable hc, readInitial?, hc, ih]
    | false =>
      have hmarks : c ≠ '$' ∧ c ≠ '\x7d' ∧ c ≠ '\\' := by simpa [isEscapable] using hc
      simp [escape_of_not_isEscapable hc, readInitial?, hmarks, ih]

theorem isDigit_of_mem_digits {n : Nat} : ∀ c ∈ Nat.toDigits 10 n, c.isDigit = true :=
  fun _ => Nat.isDigit_of_mem_toDigits (by decide) (by decide)

/-- The digits of a number and those behind them make one number. -/
theorem number_digits_append (n : Nat) (digits : List Char) :
    number (Nat.toDigits 10 n ++ digits) = Nat.ofDigitChars 10 digits n := by
  rw [number, Nat.ofDigitChars_append, Nat.ofDigitChars_toDigits (by decide) (by decide)]

/-- If there is a tab stop behind a dollar sign, it is read. -/
theorem read_dollar {cs rest : List Char} {item : Item} (h : readStop? cs = some (item, rest)) :
    read ('$' :: cs) = item :: read rest := by
  rw [read]
  split
  case h_1 item' rest' h' =>
    cases h.symm.trans h'
    rfl
  case h_2 h' => cases h.symm.trans h'

/-- Digits behind a dollar sign are a tab stop, together with those that come next. -/
theorem readStop?_digits {digits : List Char} (hne : digits ≠ [])
    (hdigits : ∀ d ∈ digits, d.isDigit = true) (cs : List Char) :
    readStop? (digits ++ cs) =
      some (.stop (number (digits ++ cs.takeWhile Char.isDigit)) [],
        cs.dropWhile Char.isDigit) := by
  obtain ⟨d, ds, rfl⟩ := List.exists_cons_of_ne_nil hne
  unfold readStop?
  rw [List.takeWhile_append_of_pos hdigits, List.dropWhile_append_of_pos hdigits]
  rfl

/-- The number of a tab stop goes on as long as there are digits. -/
theorem read_bare_append (n : Nat) (cs : List Char) :
    read (Item.render (.stop n []) ++ cs) =
      .stop (Nat.ofDigitChars 10 (cs.takeWhile Char.isDigit) n) [] ::
        read (cs.dropWhile Char.isDigit) := by
  have hstop := readStop?_digits (Nat.toDigits_ne_nil (b := 10) (n := n)) isDigit_of_mem_digits cs
  rw [number_digits_append] at hstop
  exact read_dollar hstop

/-- In braces the number ends with the colon, and the text with the closing brace. -/
theorem read_braced_append (n : Nat) {initial : List Char} (h : initial ≠ []) (cs : List Char) :
    read (Item.render (.stop n initial) ++ cs) = .stop n initial :: read cs := by
  -- there is a digit, or this would be no tab stop
  obtain ⟨d, ds, hdigits⟩ := List.exists_cons_of_ne_nil (Nat.toDigits_ne_nil (b := 10) (n := n))
  have hnumber : number (d :: ds) = n := by
    rw [← hdigits, ← List.append_nil (Nat.toDigits 10 n), number_digits_append]
    rfl
  obtain ⟨c, text, rfl⟩ := List.exists_cons_of_ne_nil h
  have hrender : Item.render (.stop n (c :: text)) ++ cs =
      '$' :: '\x7b' :: (Nat.toDigits 10 n ++
        ':' :: ((c :: text).flatMap Segment.escape ++ '\x7d' :: cs)) := by
    simp only [Item.render, List.append_assoc, List.cons_append, List.nil_append]
  -- neither the colon nor the brace is a digit
  have hcolon (rest : List Char) : (':' :: rest).takeWhile Char.isDigit = [] ∧
      (':' :: rest).dropWhile Char.isDigit = ':' :: rest := ⟨rfl, rfl⟩
  have hbraced : readBraced?
      (Nat.toDigits 10 n ++ ':' :: ((c :: text).flatMap Segment.escape ++ '\x7d' :: cs)) =
      some (.stop n (c :: text), cs) := by
    unfold readBraced?
    rw [List.takeWhile_append_of_pos isDigit_of_mem_digits,
      List.dropWhile_append_of_pos isDigit_of_mem_digits, (hcolon _).1, (hcolon _).2, hdigits,
      List.append_nil]
    simp only [readInitial?_escape, Option.map_some, hnumber]
  rw [hrender]
  exact read_dollar hbraced

/-! ## §4 Digits behind a tab stop -/

/-- The items with the digits behind a tab stop without a text taken for a part of its number. -/
def absorb : List Item → List Item
  | [] => []
  | .stop index [] :: items =>
    let digits := (items.takeWhile Item.isDigit).flatMap Item.plain
    .stop (Nat.ofDigitChars 10 digits index) [] :: absorb (items.dropWhile Item.isDigit)
  | item :: items => item :: absorb items
termination_by items => items.length
decreasing_by
  · exact Nat.lt_succ_of_le (List.length_dropWhile_le Item.isDigit items)
  · exact Nat.lt_succ_self items.length

/-- No digit stands right behind a tab stop without a text. -/
def Apart (items : List Item) : Prop :=
  items.IsChain fun first second => ¬ (first.isBare = true ∧ second.isDigit = true)

instance (items : List Item) : Decidable (Apart items) :=
  inferInstanceAs (Decidable (List.IsChain _ _))

/-- No mark is a digit. -/
theorem isEscapable_of_isDigit {c : Char} (h : c.isDigit = true) : isEscapable c = false := by
  have hne (mark : Char) (hmark : mark.isDigit = false) : c ≠ mark := by
    rintro rfl
    cases h.symm.trans hmark
  simp [isEscapable, hne '$' rfl, hne '\x7d' rfl, hne '\\' rfl]

/-- The notation of an item that is no digit opens with something else. -/
theorem Item.render_of_not_isDigit {item : Item} (h : item.isDigit = false) :
    ∃ c cs, item.render = c :: cs ∧ c.isDigit = false := by
  cases item with
  | char c =>
    cases hc : isEscapable c with
    | true => exact ⟨'\\', [c], escape_of_isEscapable hc, rfl⟩
    | false => exact ⟨c, [], escape_of_not_isEscapable hc, h⟩
  | stop index initial =>
    cases initial with
    | nil => exact ⟨'$', _, rfl, rfl⟩
    | cons c cs => exact ⟨'$', _, rfl, rfl⟩

/-- The digits that open the notation of the items are the digits among the first items. -/
theorem span_isDigit_render (items : List Item) :
    (items.flatMap Item.render).takeWhile Char.isDigit =
        (items.takeWhile Item.isDigit).flatMap Item.plain ∧
      (items.flatMap Item.render).dropWhile Char.isDigit =
        (items.dropWhile Item.isDigit).flatMap Item.render := by
  induction items with
  | nil => exact ⟨rfl, rfl⟩
  | cons item items ih =>
    cases hdigit : item.isDigit with
    | false =>
      -- whatever is no digit begins with something else in print, so both stop here
      obtain ⟨c, cs, hrender, hc⟩ := Item.render_of_not_isDigit hdigit
      simp [hdigit, hrender, hc]
    | true =>
      cases item with
      | stop index initial => cases hdigit
      | char c =>
        have hc : c.isDigit = true := hdigit
        have hrender : (Item.char c).render = [c] :=
          escape_of_not_isEscapable (isEscapable_of_isDigit hc)
        simp [hdigit, hrender, hc, Item.plain, ih]

/-- What an editor finds in the notation of any items: the items, but for the digits behind a tab
stop without a text. -/
theorem read_renderItems (items : List Item) : read (items.flatMap Item.render) = absorb items := by
  -- along the recursion of `absorb`, which skips as much as the reader does
  fun_induction absorb items with
  | case1 => rw [List.flatMap_nil, read]
  | case2 index items digits ih =>
    rw [List.flatMap_cons, read_bare_append, (span_isDigit_render items).1,
      (span_isDigit_render items).2, ih]
  | case3 item items hbare ih =>
    rw [List.flatMap_cons, ← ih]
    cases item with
    | char c => exact read_escape_append c _
    | stop index initial =>
      have hinitial : initial ≠ [] := by
        rintro rfl
        exact hbare index rfl
      exact read_braced_append index hinitial _

/-! ## §5 When nothing is lost -/

/-- No digit is at the front of the items. -/
def NoDigitFirst (items : List Item) : Prop := ∀ item ∈ items.head?, item.isDigit = false

/-- Without a digit in front there are no digits to take in. -/
theorem NoDigitFirst.span {items : List Item} (h : NoDigitFirst items) :
    items.takeWhile Item.isDigit = [] ∧ items.dropWhile Item.isDigit = items := by
  cases items with
  | nil => exact ⟨rfl, rfl⟩
  | cons item items =>
    have hitem : item.isDigit = false := h item rfl
    simp [hitem]

/-- If no digit was taken in, none is in front. -/
theorem noDigitFirst_of_plain_takeWhile {items : List Item}
    (h : (items.takeWhile Item.isDigit).flatMap Item.plain = []) : NoDigitFirst items := by
  intro item hitem
  obtain ⟨rest, rfl⟩ := List.head?_eq_some_iff.mp hitem
  cases item with
  | stop index initial => rfl
  | char c =>
    by_contra hdigit
    rw [List.takeWhile_cons, if_pos (eq_true_of_ne_false hdigit)] at h
    cases h

/-- Where no digit stands behind a bare tab stop, nothing is lost. -/
theorem absorb_of_apart {items : List Item} (h : Apart items) : absorb items = items := by
  induction items with
  | nil => rw [absorb]
  | cons item items ih =>
    obtain ⟨hhead, htail⟩ := List.isChain_cons.mp h
    cases item with
    | char c => rw [absorb, ih htail]; simp
    | stop index initial =>
      cases initial with
      | cons c cs => rw [absorb, ih htail]; simp
      | nil =>
        -- only a bare stop takes in digits, and none stand behind it
        have hfirst : NoDigitFirst items := fun item hitem => by
          simpa [Item.isBare] using hhead item hitem
        rw [absorb, hfirst.span.1, hfirst.span.2, ih htail]
        rfl

/-- Digits that are taken in are counted on one side of the seam. -/
theorem length_plain_split (items : List Item) :
    ((items.takeWhile Item.isDigit).flatMap Item.plain).length +
      ((items.dropWhile Item.isDigit).flatMap Item.plain).length =
      (items.flatMap Item.plain).length := by
  rw [← List.length_append, ← List.flatMap_append, List.takeWhile_append_dropWhile]

/-- An editor never finds more text than was written. -/
theorem length_plain_absorb_le (items : List Item) :
    ((absorb items).flatMap Item.plain).length ≤ (items.flatMap Item.plain).length := by
  fun_induction absorb items with
  | case1 => exact Nat.le_refl _
  | case2 index items digits ih =>
    have hsplit := length_plain_split items
    simp only [List.flatMap_cons, Item.plain, List.nil_append]
    omega
  | case3 item items _ ih =>
    simp only [List.flatMap_cons, List.length_append]
    omega

/-- Digits that are taken in are missing in the text, and nothing makes up for them. -/
theorem apart_of_plain_absorb {items : List Item}
    (h : (absorb items).flatMap Item.plain = items.flatMap Item.plain) : Apart items := by
  fun_induction absorb items with
  | case1 => exact .nil
  -- an item that takes nothing in leaves its neighbour alone
  | case3 item items hbare ih =>
    simp only [List.flatMap_cons, List.append_cancel_left_eq] at h
    refine List.isChain_cons.mpr ⟨fun next _ => ?_, ih h⟩
    rintro ⟨hitem, _⟩
    cases item with
    | char c => cases hitem
    | stop index initial =>
      have hinitial : initial = [] := by simpa [Item.isBare] using hitem
      exact hbare index (by rw [hinitial])
  | case2 index items digits ih =>
    simp only [List.flatMap_cons, Item.plain, List.nil_append] at h
    -- no digit was at the front, or the text would have become shorter
    have hnone : (items.takeWhile Item.isDigit).flatMap Item.plain = [] := by
      have hle := length_plain_absorb_le (items.dropWhile Item.isDigit)
      have hsplit := length_plain_split items
      rw [h] at hle
      exact List.eq_nil_of_length_eq_zero (by omega)
    have hfirst := noDigitFirst_of_plain_takeWhile hnone
    rw [hfirst.span.2] at h ih
    refine List.isChain_cons.mpr ⟨fun next hnext => ?_, ih h⟩
    rw [hfirst next hnext]
    exact fun hdigit => Bool.noConfusion hdigit.2

/-- An editor finds in the notation of a snippet what it is made of, the digits behind a tab stop
without a text taken in. So it finds exactly what it is made of, and its plain text, if there are no
such digits. -/
theorem reads_back_iff_apart (s : Snippet) :
    read s.render.toList = absorb s.items ∧
      (read s.render.toList = s.items ↔ Apart s.items) ∧
      ((read s.render.toList).flatMap Item.plain = s.plain.toList ↔ Apart s.items) := by
  rw [render_eq_items, read_renderItems, plain_eq_items]
  refine ⟨rfl, ⟨fun h => apart_of_plain_absorb (by rw [h]), absorb_of_apart⟩,
    apart_of_plain_absorb, fun h => ?_⟩
  rw [absorb_of_apart h]

/-- The tab stop with the number 1 and the text `2` behind it are found as the tab stop with the
number 12. -/
theorem reads_digit_as_number :
    let s : Snippet := ⟨[.placeholder 1 "", .text "2"]⟩
    s.render = "$12" ∧ s.items = [.stop 1 [], .char '2'] ∧
      read s.render.toList = [.stop 12 []] ∧
        (read s.render.toList).flatMap Item.plain ≠ s.plain.toList := by
  with_unfolding_all decide

end Snippet

end CodeActions
