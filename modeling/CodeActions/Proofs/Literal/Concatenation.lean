import CodeActions.Proofs.Literal.Addition
import CodeActions.Proofs.Literal.Settled

/-!
# Templates as sums

A template is text with holes. Cut at its holes it falls into chunks, which together with the holes
make up all of it; some chunks are empty. As a sum it has an operand for each chunk that is not
empty and for each hole.

A template is always a string, but a sum of its operands is one only if a string comes early enough:
two numbers that come first are added, and a number alone stays one. An empty string in front makes
up for that, and it is put there exactly if it is needed.

Main statements: `TemplatePart.divides_of_between`, `TemplatePart.needsEmptyString_iff` and
`Transform.templateToConcat_keeps_text`.
-/

namespace CodeActions

/-! ## §1 Slices side by side -/

namespace Text

variable {s x y z : String} {a b c : Nat}

/-- Two slices that meet are one slice. -/
theorem slice_append (hx : slice s a b = .ok x) (hy : slice s b c = .ok y) :
    slice s a c = .ok (x ++ y) := by
  obtain ⟨front, back, hs, hfront, hmid⟩ := slice_eq_ok_iff.mp hx
  obtain ⟨front', back', hs', hfront', hstop⟩ := slice_eq_ok_iff.mp hy
  -- both slices split the text where they meet
  have hsplit : splitAt s b = .ok (front ++ x, back) := splitAt_eq_ok_iff.mpr ⟨hs, hmid⟩
  have hsplit' : splitAt s b = .ok (front', y ++ back') :=
    splitAt_eq_ok_iff.mpr ⟨by rw [hs', String.append_assoc], hfront'⟩
  cases hsplit.symm.trans hsplit'
  refine slice_eq_ok_iff.mpr ⟨front, back', ?_, hfront, ?_⟩
  · simp only [hs', String.append_assoc]
  · rw [← String.append_assoc]
    exact hstop

/-- A slice falls apart at each boundary inside of it. -/
theorem exists_slices (h : slice s a c = .ok z) (hab : a ≤ b) (hbc : b ≤ c)
    (hb : isBoundary s.toList b = true) :
    ∃ x y, slice s a b = .ok x ∧ slice s b c = .ok y ∧ z = x ++ y := by
  -- the ends of the slice are boundaries, so both halves exist
  obtain ⟨_, ha, hc⟩ := succeeds_slice_iff.mp ⟨z, h⟩
  obtain ⟨x, hx⟩ := succeeds_slice_iff.mpr ⟨hab, ha, hb⟩
  obtain ⟨y, hy⟩ := succeeds_slice_iff.mpr ⟨hbc, hb, hc⟩
  exact ⟨x, y, hx, hy, Except.ok.inj (h.symm.trans (slice_append hx hy))⟩

/-- A slice is empty exactly if its ends coincide. -/
theorem slice_eq_empty_iff (h : slice s a b = .ok x) : x = "" ↔ a = b := by
  obtain ⟨front, back, _, hfront, hstop⟩ := slice_eq_ok_iff.mp h
  -- every character has a byte, so only the empty text has none
  have hsize : byteSize x = 0 ↔ x = "" := by
    unfold byteSize
    rw [size_eq_zero_iff, String.toList_eq_nil_iff]
  rw [byteSize_append] at hstop
  rw [← hsize]
  omega

end Text

/-! ## §2 Chunks and holes -/

/-- From one offset to another the trees stand one behind the other, and each of them has a text. -/
inductive Tree.InOrder (source : String) (stop : Nat) : Nat → List Tree → Prop where
  | nil {start : Nat} (h : start ≤ stop) : InOrder source stop start []
  | cons {start : Nat} {t : Tree} {ts : List Tree} {text : String}
      (htext : t.text source = .ok text) (hstart : start ≤ t.span.start)
      (h : InOrder source stop t.span.stop ts) : InOrder source stop start (t :: ts)

/-- Trees in order end before their limit. -/
theorem Tree.InOrder.le {source : String} {stop start : Nat} {ts : List Tree}
    (h : InOrder source stop start ts) : start ≤ stop := by
  induction h with
  | nil h => exact h
  | cons htext hstart _ ih =>
    have hordered := (Text.succeeds_slice_iff.mp ⟨_, htext⟩).1
    omega

/-- The holes of a template as they are written. -/
def Tree.substitutions (t : Tree) : List Tree :=
  t.namedChildren.filter fun child => child.kind == "template_substitution"

namespace TemplatePart

/-- The piece for a chunk of text. An empty one has none. -/
def ofChunk (raw : String) : List TemplatePart := if raw = "" then [] else [.chunk raw]

/-- A text is cut at its holes into chunks, which some pieces stand for together with the
expressions in the holes. -/
inductive Divides (source : String) : String → List Tree → List TemplatePart → Prop where
  | last (raw : String) : Divides source raw [] (ofChunk raw)
  | hole (raw : String) {slot expression : Tree} {text rest : String} {slots : List Tree}
      {parts : List TemplatePart} (htext : slot.text source = .ok text)
      (hexpression : slot.firstCode? = some expression) (h : Divides source rest slots parts) :
      Divides source (raw ++ text ++ rest) (slot :: slots)
        (ofChunk raw ++ .hole expression :: parts)

variable {source : String}

/-- The chunk between two offsets is the slice, and none at all if that is empty. -/
theorem chunkBetween_eq {start stop : Nat} {raw : String}
    (h : Text.slice source start stop = .ok raw) :
    chunkBetween source start stop = .ok (ofChunk raw) := by
  have hordered := (Text.succeeds_slice_iff.mp ⟨raw, h⟩).1
  unfold chunkBetween ofChunk
  by_cases heq : start = stop
  · -- offsets are compared, but it comes to the same
    rw [if_neg (by omega), if_pos ((Text.slice_eq_empty_iff h).mpr heq)]
    rfl
  · rw [if_pos (by omega), if_neg (mt (Text.slice_eq_empty_iff h).mp heq)]
    exact bind_eq_ok_iff.mpr ⟨raw, h, rfl⟩

/-- The pieces between two offsets stand for the text between them. -/
theorem divides_of_between {stop start : Nat} {slots : List Tree} {parts : List TemplatePart}
    {body : String} (hslots : Tree.InOrder source stop start slots)
    (hbody : Text.slice source start stop = .ok body)
    (h : between source stop start slots = .ok (some parts)) : Divides source body slots parts := by
  -- by induction on the holes, and the text begins where the last one has ended
  induction hslots generalizing body parts with
  | nil =>
    obtain ⟨chunk, hchunk, h⟩ := bind_eq_ok_iff.mp h
    cases h
    cases (chunkBetween_eq hbody).symm.trans hchunk
    exact .last body
  | @cons start slot slots text htext hstart hrest ih =>
    -- the text is cut where the hole begins and where it ends
    obtain ⟨hordered, hopen, hclose⟩ := Text.succeeds_slice_iff.mp ⟨text, htext⟩
    obtain ⟨raw, behind, hraw, hbehind, rfl⟩ :=
      Text.exists_slices hbody hstart (hordered.trans hrest.le) hopen
    obtain ⟨text', rest, htext', hbetween, rfl⟩ :=
      Text.exists_slices hbehind hordered hrest.le hclose
    obtain rfl : text' = text := Except.ok.inj (htext'.symm.trans htext)
    obtain ⟨chunk, hchunk, h⟩ := bind_eq_ok_iff.mp h
    cases (chunkBetween_eq hraw).symm.trans hchunk
    split at h
    case h_1 => cases h
    case h_2 expression hexpression =>
      obtain ⟨parts?, hparts, h⟩ := bind_eq_ok_iff.mp h
      obtain ⟨parts, rfl, rfl⟩ := Option.map_eq_some_iff.mp (Except.ok.inj h)
      rw [← String.append_assoc]
      exact .hole raw htext hexpression (ih hbetween hparts)

/-! ## §3 Operands -/

/-- The operand that a piece becomes: a quoted literal, or an expression in parentheses. -/
inductive Writes (source : String) : TemplatePart → String → Prop where
  | chunk {raw text : String} (escaped : text = String.ofList (Literal.quoteChunk raw.toList))
      (quoted : Literal.IsQuoted text.toList) : Writes source (.chunk raw) text
  | hole {expression : Tree} {text : String} (h : expression.text source = .ok text) :
      Writes source (.hole expression) ("(" ++ text ++ ")")

/-- What is rendered for a piece is the operand that it becomes. -/
theorem writes_of_render {part : TemplatePart} {text : String} (h : part.render source = .ok text) :
    part.Writes source text := by
  cases part with
  | chunk raw =>
    cases h
    refine .chunk rfl ?_
    rw [String.toList_ofList]
    exact Literal.isQuoted_quoteChunk raw.toList
  | hole expression =>
    obtain ⟨body, hbody, h⟩ := bind_eq_ok_iff.mp h
    cases h
    exact .hole hbody

/-- The empty string in front of the operands, if they need it. -/
def front (parts : List TemplatePart) : List String := if needsEmptyString parts then ["''"] else []

/-- A concatenation is written operand by operand. -/
theorem writes_of_concatenation {parts : List TemplatePart} {text : String}
    (h : concatenation source parts = .ok text) :
    ∃ texts, List.Forall₂ (Writes source) parts texts ∧
      text = " + ".intercalate (front parts ++ texts) := by
  obtain ⟨texts, htexts, h⟩ := bind_eq_ok_iff.mp h
  cases h
  unfold operands at htexts
  unfold front
  cases hneeds : needsEmptyString parts with
  | false =>
    rw [hneeds, if_neg Bool.false_ne_true] at htexts
    exact ⟨texts, (mapM_eq_ok_iff.mp htexts).imp fun _ _ => writes_of_render, rfl⟩
  | true =>
    rw [hneeds, if_pos rfl] at htexts
    -- the empty string is the literal of an empty chunk
    obtain ⟨_, rest, hempty, hrest, rfl⟩ := List.forall₂_cons_left_iff.mp (mapM_eq_ok_iff.mp htexts)
    cases hempty
    exact ⟨rest, hrest.imp fun _ _ => writes_of_render, rfl⟩

/-! ## §4 Values -/

section

variable {ν : Type} (numbers : Numbers ν) (literal : String → List UInt16)

/-- The values that a piece can have: a chunk has that of its literal, and a hole any string or
number. -/
inductive HasValue : TemplatePart → Primitive ν → Prop where
  | chunk (raw : String) :
      HasValue (.chunk raw) (.string (literal (String.ofList (Literal.quoteChunk raw.toList))))
  | hole (expression : Tree) (x : Primitive ν) : HasValue (.hole expression) x

/-- The sum of the values is the string that their forms make up. -/
def Joins (values : List (Primitive ν)) : Prop :=
  Primitive.sum? numbers values = some (.string (values.flatMap (Primitive.form numbers)))

variable {numbers literal}

/-- A string among the first two values makes the sum a string. -/
theorem joins_of_early_string (before : List (Primitive ν)) (h : before.length ≤ 1)
    (units : List UInt16) (after : List (Primitive ν)) :
    Joins numbers (before ++ .string units :: after) := by
  -- one value is the sum of itself
  have hsum : (Primitive.sum? numbers before).toList = before := by
    match before, h with
    | [], _ => rfl
    | [x], _ => rfl
  rw [Joins, Primitive.sum?_append_string, hsum]

/-- Without need for an empty string a chunk is among the first two operands, and its literal is a
string. -/
theorem joins_of_not_needsEmptyString {parts : List TemplatePart} {values : List (Primitive ν)}
    (h : needsEmptyString parts = false) (hvalues : List.Forall₂ (HasValue literal) parts values) :
    Joins numbers values := by
  match parts, h with
  -- the first operand is a string
  | .chunk raw :: after, _ =>
    obtain ⟨_, rest, hchunk, _, rfl⟩ := List.forall₂_cons_left_iff.mp hvalues
    cases hchunk
    exact joins_of_early_string [] (Nat.zero_le 1) _ rest
  -- the second one is, and the first is joined to it
  | .hole expression :: .chunk raw :: after, _ =>
    obtain ⟨x, _, _, hrest, rfl⟩ := List.forall₂_cons_left_iff.mp hvalues
    obtain ⟨_, rest, hchunk, _, rfl⟩ := List.forall₂_cons_left_iff.mp hrest
    cases hchunk
    exact joins_of_early_string [x] (Nat.le_refl 1) _ rest

/-- All holes can be strings. -/
theorem exists_string_values (ν : Type) (literal : String → List UInt16)
    (parts : List TemplatePart) :
    ∃ texts : List (List UInt16), List.Forall₂ (HasValue literal) parts
      (texts.map fun units => (.string units : Primitive ν)) := by
  induction parts with
  | nil => exact ⟨[], .nil⟩
  | cons part parts ih =>
    obtain ⟨texts, htexts⟩ := ih
    cases part with
    | chunk raw => exact ⟨_ :: texts, .cons (.chunk raw) htexts⟩
    -- a hole can have any value, so it can have an empty string
    | hole expression => exact ⟨[] :: texts, .cons (.hole expression _) htexts⟩

/-- Two numbers that come first are added, and what is behind them does not undo that. -/
theorem not_joins_of_numbers {m n : ν}
    (h : numbers.form (numbers.add m n) ≠ numbers.form m ++ numbers.form n)
    (texts : List (List UInt16)) :
    ¬ Joins numbers (.number m :: .number n :: texts.map .string) := by
  cases texts with
  | nil => simp [Joins, Primitive.sum?, Primitive.plus]
  | cons units texts =>
    intro hjoins
    simp only [Joins, Primitive.sum?, List.map_cons, List.foldl_cons, Primitive.plus,
      Primitive.form, Primitive.foldl_plus_string, List.flatMap_cons, Option.some.injEq,
      Primitive.string.injEq] at hjoins
    -- what is joined behind the two numbers is the same on both sides
    rw [List.append_assoc, ← List.append_assoc (numbers.form m)] at hjoins
    exact h (List.append_cancel_right hjoins)

/-- An empty string is put in front exactly if the pieces can have values that do not join without
it. -/
theorem needsEmptyString_iff
    (hnumbers : ∃ m n, numbers.form (numbers.add m n) ≠ numbers.form m ++ numbers.form n)
    (parts : List TemplatePart) :
    needsEmptyString parts = true ↔
      ∃ values, List.Forall₂ (HasValue literal) parts values ∧ ¬ Joins numbers values := by
  constructor
  · intro h
    obtain ⟨m, n, hmn⟩ := hnumbers
    match parts, h with
    -- no operands: there is not even a value
    | [], _ => exact ⟨[], .nil, nofun⟩
    -- one hole: a number stays a number
    | [.hole expression], _ =>
      exact ⟨[.number m], .cons (.hole expression _) .nil, by simp [Joins, Primitive.sum?]⟩
    -- two holes: numbers in them are added
    | .hole first :: .hole second :: rest, _ =>
      obtain ⟨texts, htexts⟩ := exists_string_values ν literal rest
      exact ⟨_, .cons (.hole first _) (.cons (.hole second _) htexts),
        not_joins_of_numbers hmn texts⟩
  · rintro ⟨values, hvalues, hjoins⟩
    by_contra h
    exact hjoins (joins_of_not_needsEmptyString (eq_false_of_ne_true h) hvalues)

/-- With the empty string where it is needed the values join. -/
theorem sum?_front (hempty : literal "''" = []) {parts : List TemplatePart}
    {values : List (Primitive ν)} (hvalues : List.Forall₂ (HasValue literal) parts values) :
    Primitive.sum? numbers ((front parts).map (fun text => .string (literal text)) ++ values) =
      some (.string (values.flatMap (Primitive.form numbers))) := by
  unfold front
  cases hneeds : needsEmptyString parts with
  | false => exact joins_of_not_needsEmptyString hneeds hvalues
  -- the empty string joins everything and adds nothing to it
  | true => simp [hempty, Primitive.sum?, Primitive.foldl_plus_string]

end

end TemplatePart

open TemplatePart in
/-- A template that is accepted, with its holes in order between the delimiters, falls into chunks
and holes that make up all of its text. It becomes a sum of a literal for each chunk that is not
empty and an expression in parentheses for each hole, in the same order. Whatever strings or numbers
the holes are, the sum is the string that its operands make up. An empty string comes first exactly
if that could fail without it. -/
theorem Transform.templateToConcat_keeps_text {source body : String} {n : Node}
    {replacement : Replacement} (hrun : templateToConcat.run source n = .ok (some replacement))
    (hbody : Text.slice source (n.span.start + 1) (n.span.stop - 1) = .ok body)
    (hslots : Tree.InOrder source (n.span.stop - 1) (n.span.start + 1) n.tree.substitutions) :
    ∃ parts lead texts, Divides source body n.tree.substitutions parts ∧
      List.Forall₂ (Writes source) parts texts ∧
      replacement = .text (" + ".intercalate (lead ++ texts)) ∧
      (lead = [] ∨ lead = ["''"]) ∧
      ∀ {ν : Type} (numbers : Numbers ν) (literal : String → List UInt16), literal "''" = [] →
        (∀ values, List.Forall₂ (HasValue literal) parts values →
          Primitive.sum? numbers (lead.map (fun text => .string (literal text)) ++ values) =
            some (.string (values.flatMap (Primitive.form numbers)))) ∧
        ((∃ m n, numbers.form (numbers.add m n) ≠ numbers.form m ++ numbers.form n) →
          (lead = ["''"] ↔ ∃ values, List.Forall₂ (HasValue literal) parts values ∧
            ¬ Joins numbers values)) := by
  obtain ⟨parts?, hparts, hrun⟩ := bind_eq_ok_iff.mp hrun
  obtain ⟨parts, text, rfl, hrender, rfl⟩ := Reshaping.ofShape_eq_ok_some_iff.mp hrun
  unfold ofNode? at hparts
  split at hparts
  -- no template, or one with a tag
  case isFalse => cases hparts
  case isTrue =>
    have hdivides : Divides source body n.tree.substitutions parts :=
      divides_of_between hslots hbody hparts
    obtain ⟨texts, hwrites, rfl⟩ := writes_of_concatenation hrender
    refine ⟨parts, front parts, texts, hdivides, hwrites, rfl, ?_, ?_⟩
    · unfold front
      split
      · exact .inr rfl
      · exact .inl rfl
    · intro ν numbers literal hempty
      refine ⟨fun values hvalues => sum?_front hempty hvalues, fun hnumbers => ?_⟩
      -- the text in front tells whether it was needed
      have hfront : front parts = ["''"] ↔ needsEmptyString parts = true := by
        unfold front
        cases needsEmptyString parts <;> simp
      rw [hfront]
      exact needsEmptyString_iff hnumbers parts

namespace Sample

/-- A hole with a digit in it. -/
def digitHole (start : Nat) : Tree :=
  construct "template_substitution" start (start + 4) []
    [mark "$\x7b" start (start + 2), word "number" (start + 2) (start + 3),
      mark "\x7d" (start + 3) (start + 4)]

/-- Two holes and two characters. -/
def twoHoles : Tree :=
  construct "template_string" 0 12 []
    [mark "\x60" 0 1, digitHole 1, digitHole 5, word "string_fragment" 9 11, mark "\x60" 11 12]

/-- The value of a literal in single quotes. -/
def literalUnits (text : String) : List UInt16 := (Literal.literalValue? '\'' text.toList).getD []

end Sample

open TemplatePart in
/-- The holes come first, so an empty string is put before them. -/
theorem Transform.templateToConcat_keeps_text_digits :
    let source := "\x60$\x7b1\x7d$\x7b2\x7dpx\x60"
    let n := Node.root Sample.twoHoles
    templateToConcat.run source n = .ok (some (.text "'' + (1) + (2) + 'px'")) ∧
      Text.slice source (n.span.start + 1) (n.span.stop - 1) = .ok "$\x7b1\x7d$\x7b2\x7dpx" ∧
      Tree.InOrder source (n.span.stop - 1) (n.span.start + 1) n.tree.substitutions ∧
      Sample.literalUnits "''" = [] ∧
      ∃ parts lead texts, Divides source "$\x7b1\x7d$\x7b2\x7dpx" n.tree.substitutions parts ∧
        List.Forall₂ (Writes source) parts texts ∧
        "'' + (1) + (2) + 'px'" = " + ".intercalate (lead ++ texts) ∧
        (∀ values, List.Forall₂ (HasValue Sample.literalUnits) parts values →
          Primitive.sum? Sample.decimal
            (lead.map (fun text => .string (Sample.literalUnits text)) ++ values) =
            some (.string (values.flatMap (Primitive.form Sample.decimal)))) ∧
        (lead = ["''"] ↔ ∃ values, List.Forall₂ (HasValue Sample.literalUnits) parts values ∧
          ¬ Joins Sample.decimal values) := by
  intro source n
  have hrun : templateToConcat.run source n = .ok (some (.text "'' + (1) + (2) + 'px'")) := by
    with_unfolding_all decide
  have hbody : Text.slice source (n.span.start + 1) (n.span.stop - 1) =
      .ok "$\x7b1\x7d$\x7b2\x7dpx" := by
    with_unfolding_all decide
  have hholes : n.tree.substitutions = [Sample.digitHole 1, Sample.digitHole 5] := by
    with_unfolding_all rfl
  -- the two holes stand side by side behind the delimiter
  have hslots : Tree.InOrder source (n.span.stop - 1) (n.span.start + 1) n.tree.substitutions := by
    rw [hholes]
    have hfirst : (Sample.digitHole 1).text source = .ok "$\x7b1\x7d" := by
      with_unfolding_all decide
    have hsecond : (Sample.digitHole 5).text source = .ok "$\x7b2\x7d" := by
      with_unfolding_all decide
    exact .cons hfirst (by decide) (.cons hsecond (by decide) (.nil (by decide)))
  have hempty : Sample.literalUnits "''" = [] := by with_unfolding_all decide
  -- one and one are two, not eleven
  have hdecimal : ∃ m n, Sample.decimal.form (Sample.decimal.add m n) ≠
      Sample.decimal.form m ++ Sample.decimal.form n := ⟨1, 1, by decide⟩
  obtain ⟨parts, lead, texts, hdivides, hwrites, htext, _, hvalues⟩ :=
    templateToConcat_keeps_text hrun hbody hslots
  obtain ⟨hjoins, hneeded⟩ := hvalues Sample.decimal Sample.literalUnits hempty
  exact ⟨hrun, hbody, hslots, hempty, parts, lead, texts, hdivides, hwrites,
    Replacement.text.inj htext, hjoins, hneeded hdecimal⟩

end CodeActions
