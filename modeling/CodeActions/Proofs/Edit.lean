import CodeActions.Proofs.Offset

/-!
# Edits one after the other

An edit cuts a text at two offsets and puts something else between the parts. Whoever knows the
parts knows the text after the edit, so what an edit did can be taken back by another one, and edits
that do not overlap can be made in any order, as long as the later one is moved by what the earlier
one has added or taken away.

An edit fails only where a cut does, past the end of the text or inside of a character. It does not
mind a span with its ends in the wrong order.

Main statements: `Text.isBoundary_eq_false_iff`, `Edit.applyTo_undo`, `Edit.applyTo_comm`,
`Edit.succeeds_applyTo_iff` and `Edit.undone_and_exchanged`.
-/

namespace CodeActions

/-! ## §1 Offsets where no cut is possible -/

namespace Text

/-- The offset lies behind the first byte of a character and before the end of that character. -/
def IsInsideCharacter (cs : List Char) (offset : Nat) : Prop :=
  ∃ front c back, cs = front ++ c :: back ∧ size front < offset ∧ offset < size front + c.utf8Size

/-- A front that goes on behind the start of a character takes in the whole character. -/
theorem IsInsideCharacter.isBoundary_eq_false {cs : List Char} {offset : Nat}
    (h : IsInsideCharacter cs offset) : isBoundary cs offset = false := by
  obtain ⟨front, c, back, rfl, hlow, hhigh⟩ := h
  rw [Bool.eq_false_iff, Ne, isBoundary_iff_split]
  rintro ⟨front', back', hcs, rfl⟩
  obtain ⟨mid, rfl, hback⟩ := prefix_of_size_le hcs (Nat.le_of_lt hlow)
  rw [size_append] at hlow hhigh
  -- between the two fronts there is at least that character, and it does not fit
  cases mid with
  | nil => simp at hlow
  | cons d mid =>
    obtain rfl : c = d := (List.cons.inj hback).1
    rw [size_cons] at hhigh
    omega

/-- A cut is not past the end. -/
theorem isBoundary_le_size {cs : List Char} {offset : Nat} (h : isBoundary cs offset = true) :
    offset ≤ size cs := by
  obtain ⟨front, back, rfl, rfl⟩ := isBoundary_iff_split.mp h
  simp

/-- An offset that is not past the end comes to lie between characters or inside of one. -/
theorem isBoundary_or_isInsideCharacter {cs : List Char} {offset : Nat} (h : offset ≤ size cs) :
    isBoundary cs offset = true ∨ IsInsideCharacter cs offset := by
  -- the text is walked character by character, and the offset counts from the character that was
  -- reached
  induction cs generalizing offset with
  | nil =>
    obtain rfl : offset = 0 := Nat.le_zero.mp h
    exact .inl rfl
  | cons c cs ih =>
    rw [size_cons] at h
    rcases Nat.eq_zero_or_pos offset with rfl | hpos
    · exact .inl (isBoundary_size [] (c :: cs))
    · -- the offset lies inside of the first character, or it is one of the rest
      by_cases hc : offset < c.utf8Size
      · exact .inr ⟨[], c, cs, rfl, by simpa using hpos, by simpa using hc⟩
      · have hoffset : c.utf8Size + (offset - c.utf8Size) = offset := by omega
        have hle : offset - c.utf8Size ≤ size cs := by omega
        rcases ih hle with hcut | ⟨front, d, back, rfl, hlow, hhigh⟩
        · obtain ⟨front, back, rfl, hsize⟩ := isBoundary_iff_split.mp hcut
          exact .inl (isBoundary_iff_split.mpr
            ⟨c :: front, back, rfl, by rw [size_cons, hsize, hoffset]⟩)
        · refine .inr ⟨c :: front, d, back, rfl, ?_, ?_⟩
          · rw [size_cons]
            omega
          · rw [size_cons]
            omega

/-- A text can be cut everywhere but past its end and inside of its characters. -/
theorem isBoundary_eq_false_iff {cs : List Char} {offset : Nat} :
    isBoundary cs offset = false ↔ size cs < offset ∨ IsInsideCharacter cs offset := by
  constructor
  · intro h
    by_cases hle : offset ≤ size cs
    · exact .inr ((isBoundary_or_isInsideCharacter hle).resolve_left (by simp [h]))
    · exact .inl (by omega)
  · rintro (h | h)
    · rw [Bool.eq_false_iff]
      intro hcut
      have := isBoundary_le_size hcut
      omega
    · exact h.isBoundary_eq_false

end Text

namespace Edit

/-! ## §2 Edits that can be made -/

/-- The two cuts of an edit are all that can fail. -/
theorem succeeds_applyTo_iff {e : Edit} {source : String} :
    Succeeds (e.applyTo source) ↔
      Text.isBoundary source.toList e.span.start = true ∧
        Text.isBoundary source.toList e.span.stop = true := by
  constructor
  · rintro ⟨text, h⟩
    obtain ⟨front, hfront, h⟩ := bind_eq_ok_iff.mp h
    obtain ⟨back, hback, -⟩ := bind_eq_ok_iff.mp h
    obtain ⟨rest, hrest, hstart⟩ := Text.upTo_eq_ok_iff.mp hfront
    exact ⟨Text.isBoundary_iff.mpr ⟨front, rest, hrest, hstart⟩,
      Text.isBoundary_iff.mpr (Text.onwards_eq_ok_iff.mp hback |>.imp fun lead h => ⟨back, h⟩)⟩
  · rintro ⟨hstart, hstop⟩
    exact (Text.succeeds_upTo hstart).bind fun _ _ =>
      (Text.succeeds_onwards hstop).bind fun _ _ => .pure _

/-- An edit fails if one of its cuts does. -/
theorem applyTo_eq_error_iff {e : Edit} {source : String} :
    (∃ error, e.applyTo source = .error error) ↔
      ∃ bound ∈ [e.span.start, e.span.stop], Text.isBoundary source.toList bound = false := by
  have hfails : (∃ error, e.applyTo source = .error error) ↔ ¬ Succeeds (e.applyTo source) := by
    unfold Succeeds
    cases e.applyTo source <;> simp
  rw [hfails, succeeds_applyTo_iff]
  simp [imp_iff_not_or]

/-- The span of the edit is in order, within the text and on character boundaries. -/
structure IsValidFor (e : Edit) (source : String) : Prop where
  ordered : e.span.start ≤ e.span.stop
  inBounds : e.span.stop ≤ source.utf8ByteSize
  start_isValid : String.Pos.Raw.IsValid source ⟨e.span.start⟩
  stop_isValid : String.Pos.Raw.IsValid source ⟨e.span.stop⟩

/-- Whether the cuts are possible says it all. -/
theorem isValidFor_iff {e : Edit} {source : String} :
    e.IsValidFor source ↔ e.span.start ≤ e.span.stop ∧
      Text.isBoundary source.toList e.span.start = true ∧
      Text.isBoundary source.toList e.span.stop = true := by
  rw [Text.isBoundary_iff_isValid, Text.isBoundary_iff_isValid]
  constructor
  · intro h
    exact ⟨h.ordered, h.start_isValid, h.stop_isValid⟩
  · rintro ⟨hordered, hstart, hstop⟩
    exact ⟨hordered, hstop.le_rawEndPos, hstart, hstop⟩

instance (e : Edit) (source : String) : Decidable (e.IsValidFor source) :=
  decidable_of_iff _ isValidFor_iff.symm

/-- A valid edit has a text that it takes out. -/
theorem IsValidFor.succeeds_slice {e : Edit} {source : String} (h : e.IsValidFor source) :
    Succeeds (Text.slice source e.span.start e.span.stop) :=
  Text.succeeds_slice_iff.mpr (isValidFor_iff.mp h)

/-! ## §3 Undoing -/

/-- What an edit took out can be put back in the place of what it put in. -/
theorem applyTo_undo {e undo : Edit} {source old edited : String}
    (hold : Text.slice source e.span.start e.span.stop = .ok old)
    (hedited : e.applyTo source = .ok edited)
    (hspan : undo.span = ⟨e.span.start, e.span.start + Text.byteSize e.replacement.plain⟩)
    (hreplacement : undo.replacement = .text old) : undo.applyTo edited = .ok source := by
  obtain ⟨front, back, rfl, hstart, -, hparts⟩ := applyTo_of_slice hold
  obtain rfl : front ++ e.replacement.plain ++ back = edited :=
    Except.ok.inj (hparts.symm.trans hedited)
  -- the new text stands between the same front and the same back as the old one
  rw [applyTo_of_parts, hreplacement]
  · rfl
  · rw [hspan, hstart]
  · rw [hspan, Text.byteSize_append, hstart]

/-! ## §4 Exchanging -/

/-- The edit with its span moved towards the end of the text, or towards its start if the amount is
negative. -/
def moved (e : Edit) (amount : Int) : Edit :=
  { e with span := ⟨(e.span.start + amount).toNat, (e.span.stop + amount).toNat⟩ }

/-- The number of bytes by which an edit makes a text longer. -/
def growth (e : Edit) : Int := e.replacement.plain.utf8ByteSize - (e.span.stop - e.span.start)

/-- An edit behind another one is not moved past the start of the text. -/
theorem span_moved_growth {e₁ e₂ : Edit} (h₂ : e₂.span.start ≤ e₂.span.stop)
    (hle : e₁.span.stop ≤ e₂.span.start) :
    ((e₂.moved e₁.growth).span.start : Int) = e₂.span.start + e₁.growth ∧
      ((e₂.moved e₁.growth).span.stop : Int) = e₂.span.stop + e₁.growth := by
  simp only [moved, growth]
  omega

/-- Two edits cut a text into five parts, if the first ends before the second starts. -/
theorem exists_parts {e₁ e₂ : Edit} {source old₁ old₂ : String}
    (h₁ : Text.slice source e₁.span.start e₁.span.stop = .ok old₁)
    (h₂ : Text.slice source e₂.span.start e₂.span.stop = .ok old₂)
    (hle : e₁.span.stop ≤ e₂.span.start) :
    ∃ front mid back, source = front ++ old₁ ++ (mid ++ old₂ ++ back) ∧
      Text.byteSize front = e₁.span.start ∧
      Text.byteSize (front ++ old₁) = e₁.span.stop ∧
      Text.byteSize (front ++ old₁ ++ mid) = e₂.span.start ∧
      Text.byteSize (front ++ old₁ ++ mid ++ old₂) = e₂.span.stop := by
  obtain ⟨front, rest, rfl, hstart₁, hstop₁⟩ := Text.slice_eq_ok_iff.mp h₁
  obtain ⟨lead, back, hsource, hstart₂, hstop₂⟩ := Text.slice_eq_ok_iff.mp h₂
  -- the second slice starts behind the end of the first, so what comes before it has the first in
  -- it
  obtain ⟨mid, rfl, rfl⟩ :=
    Text.exists_append_of_byteSize_le (hsource.trans String.append_assoc) (by omega)
  exact ⟨front, mid, back, by simp only [String.append_assoc], hstart₁, hstop₁, hstart₂, hstop₂⟩

/-- Of two edits that do not overlap the earlier may be made first, if the later one is moved by its
growth. -/
theorem applyTo_comm {e₁ e₂ : Edit} {source old₁ old₂ : String}
    (h₁ : Text.slice source e₁.span.start e₁.span.stop = .ok old₁)
    (h₂ : Text.slice source e₂.span.start e₂.span.stop = .ok old₂)
    (hle : e₁.span.stop ≤ e₂.span.start) :
    ∃ text, e₂.applyTo source >>= e₁.applyTo = .ok text ∧
      e₁.applyTo source >>= (e₂.moved e₁.growth).applyTo = .ok text := by
  obtain ⟨front, mid, back, rfl, hstart₁, hstop₁, hstart₂, hstop₂⟩ := exists_parts h₁ h₂ hle
  -- five parts, taken apart once before the second edit and once behind the first
  have hregroup (first second : String) :
      front ++ first ++ (mid ++ second ++ back) = front ++ first ++ mid ++ second ++ back := by
    simp only [String.append_assoc]
  refine ⟨front ++ e₁.replacement.plain ++ (mid ++ e₂.replacement.plain ++ back), ?_, ?_⟩
  · refine bind_eq_ok_iff.mpr ⟨front ++ old₁ ++ (mid ++ e₂.replacement.plain ++ back), ?_,
      applyTo_of_parts hstart₁ hstop₁⟩
    rw [hregroup, hregroup]
    exact applyTo_of_parts hstart₂ hstop₂
  · refine bind_eq_ok_iff.mpr ⟨_, applyTo_of_parts hstart₁ hstop₁, ?_⟩
    rw [hregroup, hregroup]
    simp only [Text.byteSize_append] at hstart₁ hstop₁ hstart₂ hstop₂
    -- behind the first edit all offsets have moved by what it has added
    have hgrowth : e₁.growth = Text.byteSize e₁.replacement.plain - Text.byteSize old₁ := by
      rw [growth, ← Text.byteSize_eq]
      omega
    apply applyTo_of_parts (e := e₂.moved e₁.growth)
    · simp only [Text.byteSize_append, moved]
      omega
    · simp only [Text.byteSize_append, moved]
      omega

/-! ## §5 All edits of a text -/

/-- Every edit of a span that is in order, within the text and on character boundaries can be made,
and the text edit that puts the old text back in the place of the new one undoes it. Of two such
edits with the first before the second or touching it, the second may be made first, or the first
and then the second with its span moved by what the first one has added. An edit fails exactly if
one of its bounds lies past the end of the text or inside of a character, whatever the order of the
bounds. -/
theorem undone_and_exchanged (source : String) :
    (∀ e : Edit, e.IsValidFor source →
      ∃ edited old, e.applyTo source = .ok edited ∧
        Text.slice source e.span.start e.span.stop = .ok old ∧
        ∀ undo : Edit, undo.span = ⟨e.span.start, e.span.start + e.replacement.plain.utf8ByteSize⟩ →
          undo.replacement = .text old → undo.applyTo edited = .ok source) ∧
    (∀ e₁ e₂ : Edit, e₁.IsValidFor source → e₂.IsValidFor source → e₁.span.stop ≤ e₂.span.start →
      let amount : Int := e₁.replacement.plain.utf8ByteSize - (e₁.span.stop - e₁.span.start)
      ((e₂.moved amount).span.start : Int) = e₂.span.start + amount ∧
      ((e₂.moved amount).span.stop : Int) = e₂.span.stop + amount ∧
      ∃ text, e₂.applyTo source >>= e₁.applyTo = .ok text ∧
        e₁.applyTo source >>= (e₂.moved amount).applyTo = .ok text) ∧
    ∀ e : Edit, (∃ error, e.applyTo source = .error error) ↔
      ∃ bound ∈ [e.span.start, e.span.stop],
        source.utf8ByteSize < bound ∨ Text.IsInsideCharacter source.toList bound := by
  refine ⟨fun e he => ?_, fun e₁ e₂ he₁ he₂ hle => ?_, fun e => ?_⟩
  · obtain ⟨old, hold⟩ := he.succeeds_slice
    obtain ⟨_, _, _, _, _, hedited⟩ := applyTo_of_slice hold
    refine ⟨_, old, hedited, hold, fun undo hspan hreplacement => ?_⟩
    -- the new text stands where the old one did, and is as long as it is
    rw [← Text.byteSize_eq] at hspan
    exact applyTo_undo hold hedited hspan hreplacement
  · obtain ⟨old₁, hold₁⟩ := he₁.succeeds_slice
    obtain ⟨old₂, hold₂⟩ := he₂.succeeds_slice
    obtain ⟨hstart, hstop⟩ := span_moved_growth he₂.ordered hle
    exact ⟨hstart, hstop, applyTo_comm hold₁ hold₂ hle⟩
  · rw [applyTo_eq_error_iff]
    simp only [Text.isBoundary_eq_false_iff, ← Text.byteSize_eq, Text.byteSize]

end Edit

namespace Sample

/-- A text with a character of two bytes. -/
def accented : String := "aéb"

def editOf (start stop : Nat) (replacement : Replacement) : Edit :=
  ⟨⟨start, stop⟩, .origin, .origin, replacement⟩

/-- The long character is taken out and three bytes are put in. -/
def widening : Edit := editOf 1 3 (.text "xyz")

/-- A snippet with a hole is put in where the long character ends. -/
def insertion : Edit := editOf 3 3 (.snippet ⟨[.text "(", .placeholder 1 "ü", .text ")"]⟩)

end Sample

/-- The spans touch and the second is empty, and the first edit makes the text longer. Bounds in the
wrong order do no harm, but bounds inside of the long character and past the end do. -/
theorem Edit.undone_and_exchanged_touching :
    let source := Sample.accented
    let first := Sample.widening
    let second := Sample.insertion
    first.IsValidFor source ∧ second.IsValidFor source ∧ first.span.stop = second.span.start ∧
    first.applyTo source = .ok "axyzb" ∧
    (Sample.editOf 1 4 (.text "é")).applyTo "axyzb" = .ok source ∧
    first.growth = 1 ∧ (second.moved 1).span = ⟨4, 4⟩ ∧
    second.applyTo source >>= first.applyTo = .ok "axyz(ü)b" ∧
    first.applyTo source >>= (second.moved 1).applyTo = .ok "axyz(ü)b" ∧
    (Sample.editOf 3 1 (.text "-")).applyTo source = .ok "aé-éb" ∧
    (∃ error, (Sample.editOf 1 2 (.text "-")).applyTo source = .error error) ∧
    ∃ error, (Sample.editOf 5 1 (.text "-")).applyTo source = .error error := by
  intro source first second
  have hfirst : first.IsValidFor source := by decide
  have hsecond : second.IsValidFor source := by decide
  obtain ⟨hundo, hexchange, hfails⟩ := Edit.undone_and_exchanged source
  have hedited : first.applyTo source = .ok "axyzb" := by decide
  have hold : Text.slice source 1 3 = .ok "é" := by decide
  -- what the edit gives and takes out is computed, so the undoing edit can be written down
  obtain ⟨edited, old, hedited', hold', hundone⟩ := hundo first hfirst
  obtain rfl := Except.ok.inj (hedited.symm.trans hedited')
  obtain rfl := Except.ok.inj (hold.symm.trans hold')
  obtain ⟨_, _, text, hlater, hmoved⟩ := hexchange first second hfirst hsecond (by decide)
  have htext : second.applyTo source >>= first.applyTo = .ok "axyz(ü)b" := by decide
  obtain rfl := Except.ok.inj (htext.symm.trans hlater)
  have hinside : Text.IsInsideCharacter source.toList 2 :=
    ⟨['a'], 'é', ['b'], by decide, by decide, by decide⟩
  exact ⟨hfirst, hsecond, rfl, hedited, hundone _ (by decide) rfl, by decide, by decide, hlater,
    hmoved, by decide, (hfails _).mpr ⟨2, by decide, .inr hinside⟩,
    (hfails _).mpr ⟨5, by decide, .inl (by decide)⟩⟩

end CodeActions
