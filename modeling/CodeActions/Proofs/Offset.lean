import CodeActions.Proofs.Catalog
import CodeActions.Proofs.Position
import Mathlib.Data.List.Induction

/-!
# Offsets and positions

An offset between two characters and a position name the same place if both are the end of the same
front of the text. So the offsets that have a position and the positions that have an offset are in
one-to-one correspondence, and a longer front ends later in both ways of counting. A position is
found by counting line feeds, an offset by walking from row to row, but neither way matters once
both are known to measure fronts.

An edit names its span by offsets and by positions. If the span begins and ends between characters,
the positions lead back to the offsets.

Main statements: `Text.endPoint_eq`, `Text.positionAt?_eq_some_iff_offsetAt?`,
`Text.lt_iff_of_positionAt?` and `Document.offsets_match_positions`.
-/

namespace CodeActions

/-! ## §1 The order of positions -/

namespace Position

/-- Rows count before columns. -/
instance : LT Position := ⟨fun p q => p.row < q.row ∨ p.row = q.row ∧ p.column < q.column⟩

theorem lt_iff {p q : Position} :
    p < q ↔ p.row < q.row ∨ p.row = q.row ∧ p.column < q.column := Iff.rfl

instance (p q : Position) : Decidable (p < q) := decidable_of_iff _ lt_iff.symm

theorem not_lt_of_lt {p q : Position} (h : p < q) : ¬ q < p := by
  rw [lt_iff] at *
  omega

/-- To move on by something is to get further. -/
theorem lt_plus {p q : Position} (h : q ≠ origin) : p < p.plus q := by
  have hnot : ¬ p.plus q ≤ p := fun hle => h (eq_origin_of_plus_le hle)
  rw [le_iff] at hnot
  rw [lt_iff]
  omega

end Position

namespace Text

/-! ## §2 Rows and columns -/

/-- The characters behind the last line feed. -/
def lastRow (cs : List Char) : List Char := (cs.reverse.takeWhile (· ≠ '\n')).reverse

/-- A line feed begins a row, any other character makes the row longer. -/
theorem lastRow_concat (cs : List Char) (c : Char) :
    lastRow (cs ++ [c]) = if c = '\n' then [] else lastRow cs ++ [c] := by
  by_cases hfeed : c = '\n'
  · simp [lastRow, hfeed]
  · simp [lastRow, hfeed]

/-- A text ends in the row that its line feeds lead to, behind the bytes of that row. -/
theorem endPoint_eq (cs : List Char) : endPoint cs = ⟨cs.count '\n', size (lastRow cs)⟩ := by
  induction cs using List.reverseRecOn with
  | nil => rfl
  -- the row is counted from its line feed, so the text grows at its end
  | append_singleton cs c ih =>
    have hstep : endPoint [c] = if c = '\n' then ⟨1, 0⟩ else ⟨0, c.utf8Size⟩ := by
      simp [Position.behind, Position.origin]
    rw [endPoint_append, ih, hstep, lastRow_concat]
    by_cases hfeed : c = '\n'
    · simp [Position.plus, hfeed]
    · simp [Position.plus, hfeed]

/-! ## §3 The correspondence -/

/-- The offsets of a text that have a position are the sizes of its fronts. -/
theorem positionAt?_eq_some_iff {cs : List Char} {offset : Nat} {p : Position} :
    positionAt? cs offset = some p ↔
      ∃ front back, cs = front ++ back ∧ size front = offset ∧ endPoint front = p := by
  unfold positionAt?
  rw [Option.ite_none_right_eq_some, isBoundary_iff_split]
  constructor
  · intro h
    obtain ⟨⟨front, back, rfl, rfl⟩, hpoint⟩ := h
    rw [pointAt_size] at hpoint
    exact ⟨front, back, rfl, rfl, Option.some.inj hpoint⟩
  · intro h
    obtain ⟨front, back, rfl, rfl, rfl⟩ := h
    exact ⟨⟨front, back, rfl, rfl⟩, by rw [pointAt_size]⟩

/-- Both ways of counting measure the same fronts. -/
theorem positionAt?_eq_some_iff_offsetAt? {cs : List Char} {offset : Nat} {p : Position} :
    positionAt? cs offset = some p ↔ offsetAt? cs p = some offset := by
  rw [positionAt?_eq_some_iff, offsetAt?_eq_some_iff]

/-- A longer front ends later. -/
theorem lt_of_positionAt? {cs : List Char} {offset offset' : Nat} {p p' : Position}
    (h : positionAt? cs offset = some p) (h' : positionAt? cs offset' = some p')
    (hlt : offset < offset') : p < p' := by
  obtain ⟨front, back, hcs, rfl, rfl⟩ := positionAt?_eq_some_iff.mp h
  obtain ⟨front', back', hcs', rfl, rfl⟩ := positionAt?_eq_some_iff.mp h'
  obtain ⟨mid, rfl, _⟩ := prefix_of_size_le (hcs.symm.trans hcs') (Nat.le_of_lt hlt)
  -- the fronts differ in size, so there is something between their ends
  have hmid : endPoint mid ≠ .origin := by
    intro horigin
    obtain rfl := endPoint_eq_origin_iff.mp horigin
    simp at hlt
  rw [endPoint_append]
  exact Position.lt_plus hmid

/-- Offsets and their positions are in the same order. -/
theorem lt_iff_of_positionAt? {cs : List Char} {offset offset' : Nat} {p p' : Position}
    (h : positionAt? cs offset = some p) (h' : positionAt? cs offset' = some p') :
    offset < offset' ↔ p < p' := by
  refine ⟨lt_of_positionAt? h h', fun hlt => ?_⟩
  by_contra hnot
  -- otherwise the order of the offsets, turned round, would turn round that of the positions
  rcases Nat.lt_or_eq_of_le (Nat.le_of_not_lt hnot) with hlt' | rfl
  · exact Position.not_lt_of_lt hlt (lt_of_positionAt? h' h hlt')
  · obtain rfl : p = p' := Option.some.inj (h.symm.trans h')
    exact Position.not_lt_of_lt hlt hlt

/-! ## §4 Character boundaries -/

/-- The bytes that are counted here are those of the encoding. -/
theorem byteSize_eq (s : String) : byteSize s = s.utf8ByteSize := by
  have hlist (cs : List Char) : size cs = (String.ofList cs).utf8ByteSize := by
    induction cs with
    | nil => rfl
    | cons c cs ih =>
      rw [size_cons, ih, String.ofList_cons, String.utf8ByteSize_append,
        String.utf8ByteSize_singleton]
  rw [byteSize, hlist, String.ofList_toList]

/-- The offsets at which a text can be cut are the valid positions of the string. -/
theorem isBoundary_iff_isValid {s : String} {offset : Nat} :
    isBoundary s.toList offset = true ↔ String.Pos.Raw.IsValid s ⟨offset⟩ := by
  rw [isBoundary_iff, String.Pos.Raw.isValid_iff_exists_append]
  simp only [byteSize_eq, String.Pos.Raw.ext_iff, String.byteIdx_rawEndPos, eq_comm]

end Text

/-! ## §5 Documents and edits -/

namespace Document

theorem resolve_eq_ok_iff {d : Document} {p : Position} {offset : Nat} :
    d.resolve p = .ok offset ↔ d.offsetAt? p = some offset := by
  unfold resolve
  cases d.offsetAt? p <;> simp

theorem spanOf_eq_ok_iff {d : Document} {s : Selection} {span : Span} :
    d.spanOf s = .ok span ↔
      d.offsetAt? s.start = some span.start ∧ d.offsetAt? s.stop = some span.stop := by
  unfold spanOf
  simp only [bind_eq_ok_iff, resolve_eq_ok_iff]
  constructor
  · rintro ⟨start, hstart, stop, hstop, h⟩
    cases h
    exact ⟨hstart, hstop⟩
  · rintro ⟨hstart, hstop⟩
    exact ⟨span.start, hstart, span.stop, hstop, rfl⟩

/-- A document has a position for the offsets that lie on a character boundary. -/
theorem isSome_positionAt?_iff {d : Document} {offset : Nat} :
    (d.positionAt? offset).isSome = true ↔ String.Pos.Raw.IsValid d.source ⟨offset⟩ := by
  rw [← Text.isBoundary_iff_isValid, positionAt?, Text.positionAt?]
  split
  case isTrue h => simp [h]
  case isFalse h => simp [h]

/-- The position that is worked out for an offset between two characters leads back to the
offset. -/
theorem offsetAt?_pointAt {d : Document} {offset : Nat}
    (h : String.Pos.Raw.IsValid d.source ⟨offset⟩) :
    d.offsetAt? (Text.pointAt d.source.toList offset) = some offset := by
  apply Text.positionAt?_eq_some_iff_offsetAt?.mp
  rw [Text.positionAt?, if_pos (Text.isBoundary_iff_isValid.mpr h)]

end Document

/-- The positions of an edit lead back to the span of the target. -/
theorem Action.spanOf_of_apply {parser : Parser} {a : Action} {edit : Edit}
    (h : a.apply parser = .ok (some edit))
    (hstart : String.Pos.Raw.IsValid a.document.source ⟨a.target.span.start⟩)
    (hstop : String.Pos.Raw.IsValid a.document.source ⟨a.target.span.stop⟩) :
    a.document.spanOf ⟨edit.start, edit.stop⟩ = .ok edit.span := by
  obtain ⟨_, replacement, _, rfl, _⟩ := Action.of_apply_eq_some h
  exact Document.spanOf_eq_ok_iff.mpr
    ⟨Document.offsetAt?_pointAt hstart, Document.offsetAt?_pointAt hstop⟩

/-- Offsets and positions of a text correspond to each other. The offsets up to the length that lie
on a character boundary have a position and no others do; its row is the number of line feeds before
it, and its column the number of bytes behind the last of them. That position leads back to the
offset, a position that has an offset is the position of it, and both are in the same order. Hence
every edit that an action gives names one span in two ways, as long as its target begins and ends on
character boundaries. -/
theorem Document.offsets_match_positions (d : Document) :
    (∀ offset, (d.positionAt? offset).isSome = true ↔
      offset ≤ d.source.utf8ByteSize ∧ String.Pos.Raw.IsValid d.source ⟨offset⟩) ∧
    (∀ front back, d.source = front ++ back →
      d.positionAt? front.utf8ByteSize =
        some ⟨front.toList.count '\n', Text.size (Text.lastRow front.toList)⟩) ∧
    (∀ offset p, d.positionAt? offset = some p → d.offsetAt? p = some offset) ∧
    (∀ offset p, d.offsetAt? p = some offset → d.positionAt? offset = some p) ∧
    (∀ offset offset' p p', d.positionAt? offset = some p → d.positionAt? offset' = some p' →
      (offset < offset' ↔ p < p')) ∧
    ∀ (parser : Parser) (a : Action) (edit : Edit), a.document = d →
      a.apply parser = .ok (some edit) →
      String.Pos.Raw.IsValid d.source ⟨a.target.span.start⟩ →
      String.Pos.Raw.IsValid d.source ⟨a.target.span.stop⟩ →
      d.spanOf ⟨edit.start, edit.stop⟩ = .ok edit.span := by
  refine ⟨fun offset => ?_, fun front back hsource => ?_,
    fun offset p h => Text.positionAt?_eq_some_iff_offsetAt?.mp h,
    fun offset p h => Text.positionAt?_eq_some_iff_offsetAt?.mpr h,
    fun offset offset' p p' h h' => Text.lt_iff_of_positionAt? h h', ?_⟩
  · rw [isSome_positionAt?_iff]
    refine ⟨fun hvalid => ⟨?_, hvalid⟩, fun h => h.2⟩
    -- a valid position does not lie past the end
    exact hvalid.le_rawEndPos
  · apply Text.positionAt?_eq_some_iff.mpr
    refine ⟨front.toList, back.toList, by rw [hsource, String.toList_append], ?_,
      Text.endPoint_eq _⟩
    exact Text.byteSize_eq front
  · intro parser a edit hdocument happly hstart hstop
    subst hdocument
    exact Action.spanOf_of_apply happly hstart hstop

namespace Sample

/-- A template from the second line to the third, with a character of two bytes before the line end
and a hole behind it. -/
def linedTemplate : Tree :=
  .node { kind := "template_string", span := ⟨1, 10⟩ } [] [
    .node { kind := "template_substitution", span := ⟨5, 9⟩ } [] [
      .node { kind := "identifier", span := ⟨7, 8⟩ } [] []]]

def lined : Document where
  source := "\n\x60é\n$\x7ba\x7d\x60"
  tree := .node { kind := "program", span := ⟨1, 10⟩ } [] [linedTemplate]
  dialect := .javaScript

/-- To make a concatenation of the template. -/
def linedAction : Action where
  document := lined
  target := (Node.root lined.tree).child 0 linedTemplate
  transform := .templateToConcat
  verify := false

end Sample

/-- The template starts and ends in different rows, and the text ends without a line feed. There is
no position inside of the long character, nor past the end of a row or of the text. -/
theorem Document.offsets_match_positions_lined :
    let d := Sample.lined
    let edit := Sample.linedAction.editWith (.text "'é\\n' + (a)")
    Sample.linedAction.apply (fun _ _ => d.tree) = .ok (some edit) ∧ edit.start = ⟨1, 0⟩ ∧
    edit.stop = ⟨2, 5⟩ ∧
    String.Pos.Raw.IsValid d.source ⟨1⟩ ∧ String.Pos.Raw.IsValid d.source ⟨10⟩ ∧
    d.spanOf ⟨⟨1, 0⟩, ⟨2, 5⟩⟩ = .ok ⟨1, 10⟩ ∧
    d.positionAt? 3 = none ∧ d.positionAt? 11 = none ∧ d.offsetAt? ⟨1, 4⟩ = none ∧
    d.offsetAt? ⟨2, 6⟩ = none := by
  intro d edit
  have happly : Sample.linedAction.apply (fun _ _ => d.tree) = .ok (some edit) := by
    with_unfolding_all decide
  have hstart : String.Pos.Raw.IsValid d.source ⟨1⟩ := Text.isBoundary_iff_isValid.mp (by decide)
  have hstop : String.Pos.Raw.IsValid d.source ⟨10⟩ := Text.isBoundary_iff_isValid.mp (by decide)
  -- only the last part speaks of an edit, the others are decided on the text itself
  obtain ⟨_, _, _, _, _, hspan⟩ := Document.offsets_match_positions d
  exact ⟨happly, by decide, by decide, hstart, hstop, hspan _ _ edit rfl happly hstart hstop,
    by decide, by decide, by decide, by decide⟩

end CodeActions
