import CodeActions.Proofs.Literal.Holes
import CodeActions.Proofs.Literal.Value

/-!
# Quoted text in a template

When a sum becomes a template the text of each quoted literal is put in it. It should stand for the
same string there, and neither end the template nor open a hole. Quotes and templates have the same
escapes, so these are kept as they are. What may stand in quotes without an escape but not in a
template is a backtick, and a dollar sign before a brace; both are escaped. Line ends make no
difference, because none stands in quotes without a backslash.

Main statements: `Literal.templateChunk_of_read?` for one character or escape,
`Literal.staysInside_of_value?`, and `Literal.stringToTemplate_keeps_value` for whole literals.
-/

namespace CodeActions.Literal

variable {c quote : Char} {cs ds rest : List Char} {us value : List UInt16}

/-! ## §1 Text that stays inside of a template -/

/-- The character is passed by a scan whatever comes next. -/
def IsPlain (c : Char) : Prop := c ≠ '\\' ∧ c ≠ backtick ∧ c ≠ '$'

/-- Behind its first character an escape has plain characters only. -/
theorem Escape.exists_plain_tail {eaten : List Char} (h : Escape eaten us) :
    ∃ c ds, eaten = c :: ds ∧ ∀ d ∈ ds, IsPlain d := by
  rcases h.exists_tail with ⟨rfl, _⟩ | ⟨c, ds, rfl, hds⟩
  · -- only a line end of two characters has something else behind its first
    exact ⟨'\r', ['\n'], rfl, by simp [IsPlain, backtick]⟩
  · refine ⟨c, ds, rfl, fun d hd => ?_⟩
    have hne {c : Char} (hc : isEscapeTail c = false) : d ≠ c := ne_of_isEscapeTail (hds d hd) hc
    exact ⟨hne (by decide), hne (by decide), hne (by decide)⟩

/-- A scan passes over the text up to a backtick that is put behind it, and finds no hole on its
way. -/
def StaysInside (cs : List Char) : Prop :=
  ∀ (reader : CodeReader) (rest : List Char),
    ∃ items, scan reader (cs ++ backtick :: rest) = some (items, rest) ∧
      ∀ item ∈ items, item.code? = none

namespace StaysInside

/-- A text without characters is passed over at once. -/
theorem nil : StaysInside [] := fun _ _ => ⟨[], by simp [scan, backtick], by simp⟩

/-- What stands behind a backslash is passed over. -/
theorem escaped (h : StaysInside cs) : StaysInside ('\\' :: c :: cs) := by
  intro reader rest
  obtain ⟨items, hscan, hitems⟩ := h reader rest
  refine ⟨.escaped c :: items, ?_, List.forall_mem_cons.mpr ⟨rfl, hitems⟩⟩
  simp [scan, hscan]

/-- Any other character is passed over, unless it ends the template or opens a hole. -/
theorem char (hslash : c ≠ '\\') (htick : c ≠ backtick) (hbrace : c = '$' → cs.head? ≠ some '\x7b')
    (h : StaysInside cs) : StaysInside (c :: cs) := by
  intro reader rest
  obtain ⟨items, hscan, hitems⟩ := h reader rest
  refine ⟨.char c :: items, ?_, List.forall_mem_cons.mpr ⟨rfl, hitems⟩⟩
  -- at the end of the text the next character is the backtick
  have hnext : c = '$' → (cs ++ backtick :: rest).head? ≠ some '\x7b' := by
    intro hdollar
    cases cs with
    | nil => simp [backtick]
    | cons d ds => simpa using hbrace hdollar
  rw [List.cons_append, scan_char htick hslash hnext, hscan]
  rfl

/-- Plain characters are passed over one by one. -/
theorem append (hds : ∀ d ∈ ds, IsPlain d) (h : StaysInside cs) : StaysInside (ds ++ cs) := by
  induction ds with
  | nil => exact h
  | cons d ds ih =>
    obtain ⟨⟨hslash, htick, hdollar⟩, hds⟩ := List.forall_mem_cons.mp hds
    exact char hslash htick (fun hd => absurd hd hdollar) (ih hds)

end StaysInside

/-- What is read in a template before a text that stays inside stays inside with it. -/
theorem staysInside_of_read? (h : template.read? cs = some (us, rest)) (hrest : StaysInside rest) :
    StaysInside cs := by
  cases cs with
  | nil => cases h
  | cons c cs =>
    rw [read?_template] at h
    split at h
    -- an escape: its first character is passed over with the backslash, and the others are plain
    case isTrue hslash =>
      subst hslash
      obtain ⟨eaten, rfl, hescape, _⟩ := escape?_eq_some_iff.mp h
      obtain ⟨c, ds, rfl, hds⟩ := hescape.exists_plain_tail
      exact (hrest.append hds).escaped
    -- a character that may stand in a template, alone or as part of a line end
    case isFalse hslash =>
      obtain ⟨hplain, h⟩ := Option.ite_none_left_eq_some.mp h
      obtain ⟨htick, hdollar⟩ := not_or.mp hplain
      refine .char hslash htick (fun hc hbrace => hdollar ⟨hc, hbrace⟩) ?_
      split at h
      case isFalse =>
        cases h
        exact hrest
      case isTrue =>
        -- a line feed behind the carriage return is read together with it
        split at h
        case isTrue hfeed =>
          obtain ⟨tail, rfl⟩ := List.head?_eq_some_iff.mp hfeed
          cases h
          exact hrest.char (by decide) (by decide) (fun hfeed => absurd hfeed (by decide))
        case isFalse =>
          cases h
          exact hrest

/-- Text that stands for something in a template neither ends it nor opens a hole. -/
theorem staysInside_of_value? (h : template.value? cs = some value) : StaysInside cs := by
  -- by induction on what is read step by step
  induction h using Reader.value?_induction with
  | nil => exact .nil
  | step hread _ ih => exact staysInside_of_read? hread ih

/-! ## §2 One character or escape -/

/-- Plain characters are left as they are. -/
theorem templateChunk_append (hds : ∀ d ∈ ds, IsPlain d) (cs : List Char) :
    templateChunk (ds ++ cs) = ds ++ templateChunk cs := by
  induction ds with
  | nil => rfl
  | cons d ds ih =>
    obtain ⟨⟨hslash, htick, hdollar⟩, hds⟩ := List.forall_mem_cons.mp hds
    rw [List.cons_append, templateChunk_cons hslash, if_neg (by simp [htick, hdollar]), ih hds,
      List.cons_append]

/-- In a template the text begins as it did, or with a backslash. -/
theorem head?_templateChunk {d : Char} (h : (templateChunk cs).head? = some d) :
    d = '\\' ∨ cs.head? = some d := by
  revert h
  fun_cases templateChunk cs with
  | case1 => exact nofun
  | case2 | case3 | case4 => exact fun h => .inl (Option.some.inj h).symm
  | case5 => exact .inr

/-- An escape does not get longer by what is escaped behind it. -/
theorem EndsBefore.templateChunk {eaten : List Char} (h : EndsBefore eaten rest) :
    EndsBefore eaten (templateChunk rest) := by
  refine h.of_head? fun d hd hkind => ?_
  rcases head?_templateChunk hd with rfl | hd
  · -- a backslash goes on with no escape
    exact absurd hkind (by decide)
  · exact hd

/-- An escape is written with all of its characters, and ends where it ended. -/
theorem templateChunk_of_escape? (h : escape? cs = some (us, rest)) :
    template.read? (templateChunk ('\\' :: cs)) = some (us, templateChunk rest) := by
  obtain ⟨eaten, rfl, hescape, hends⟩ := escape?_eq_some_iff.mp h
  obtain ⟨c, ds, rfl, hds⟩ := hescape.exists_plain_tail
  -- no character of the escape is changed, since the backslash protects the first and the others
  -- are plain
  have hchunk : templateChunk ('\\' :: (c :: ds ++ rest)) =
      '\\' :: (c :: ds ++ templateChunk rest) := by
    rw [List.cons_append, templateChunk, templateChunk_append hds, List.cons_append]
  rw [hchunk, read?_template, if_pos rfl]
  exact escape?_complete hescape hends.templateChunk

/-- A character that may stand in quotes is written as itself or behind a backslash, and stands for
itself. -/
theorem templateChunk_of_char (hslash : c ≠ '\\') (hreturn : c ≠ '\r') (cs : List Char) :
    template.read? (templateChunk (c :: cs)) = some (units c.toNat, templateChunk cs) := by
  rw [templateChunk_cons hslash]
  split
  -- behind a backslash the backtick and the dollar sign stand for themselves
  case isTrue hescaped =>
    have hself : standsForItself c = true := by
      rcases hescaped with rfl | ⟨rfl, _⟩ <;> decide
    rw [read?_template, if_pos rfl]
    exact escape?_self hself _
  case isFalse hplain =>
    obtain ⟨htick, hdollar⟩ := not_or.mp hplain
    -- a brace that comes next was there before
    have hopens : ¬ (c = backtick ∨ (c = '$' ∧ (templateChunk cs).head? = some '\x7b')) := by
      rintro (hc | ⟨hc, hbrace⟩)
      · exact htick hc
      · rcases head?_templateChunk hbrace with hslash | hbrace
        · exact absurd hslash (by decide)
        · exact hdollar ⟨hc, hbrace⟩
    rw [read?_template, if_neg hslash, if_neg hopens, if_neg hreturn]

/-- What is read in quotes is read in the template, and stands for the same. -/
theorem templateChunk_of_read? (h : (quoted quote).read? cs = some (us, rest)) :
    template.read? (templateChunk cs) = some (us, templateChunk rest) := by
  cases cs with
  | nil => cases h
  | cons c cs =>
    rw [read?_quoted] at h
    split at h
    case isTrue hslash =>
      subst hslash
      exact templateChunk_of_escape? h
    case isFalse hslash =>
      obtain ⟨hplain, h⟩ := Option.ite_none_left_eq_some.mp h
      cases h
      exact templateChunk_of_char hslash (fun hreturn => hplain (.inr (.inr hreturn))) _

/-! ## §3 Whole literals -/

/-- Text that stands for something in quotes stands for the same in a template. -/
theorem value?_templateChunk (h : (quoted quote).value? cs = some value) :
    template.value? (templateChunk cs) = some value := by
  induction h using Reader.value?_induction with
  | nil => exact Reader.value?_nil
  | step hread _ ih =>
    rw [Reader.value?_of_read? (templateChunk_of_read? hread), ih]
    rfl

/-- A literal in single or double quotes that stands for a string becomes text that stays inside of
a template and stands for the same string there. -/
theorem stringToTemplate_keeps_value (hquote : quote = '\'' ∨ quote = '"') {literal : String}
    (h : literalValue? quote literal.toList = some value) :
    StaysInside (stringToTemplate literal).toList ∧
      template.value? (stringToTemplate literal).toList = some value := by
  obtain ⟨body, hbody, hvalue⟩ := exists_body_of_literalValue? h
  have hsize : quote.utf8Size = 1 := by rcases hquote with rfl | rfl <;> rfl
  -- what is put in the template is the text between the quotes, escaped
  have hchunk : (stringToTemplate literal).toList = templateChunk body := by
    rw [stringToTemplate, toList_inner hsize hbody, String.toList_ofList]
  have htemplate : template.value? (templateChunk body) = some value := value?_templateChunk hvalue
  rw [hchunk]
  exact ⟨staysInside_of_value? htemplate, htemplate⟩

/-- A backtick, holes with and without a backslash, a brace behind an escaped dollar sign, and a
line end of two characters behind a backslash. -/
theorem stringToTemplate_keeps_value_holes :
    let literal := "'\x60$\x7ba\x7d\\$\x7b\\u\x7b24\x7d\x7b\\\r\n\\0'"
    let chunk := "\\\x60\\$\x7ba\x7d\\$\x7b\\u\x7b24\x7d\x7b\\\r\n\\0"
    let value : List UInt16 := [96, 36, 123, 97, 125, 36, 123, 36, 123, 0]
    literalValue? '\'' literal.toList = some value ∧ stringToTemplate literal = chunk ∧
      StaysInside chunk.toList ∧ template.value? chunk.toList = some value := by
  intro literal chunk value
  have hvalue : literalValue? '\'' literal.toList = some value := by with_unfolding_all decide
  have hchunk : stringToTemplate literal = chunk := by with_unfolding_all decide
  have hkept := stringToTemplate_keeps_value (.inl rfl) hvalue
  rw [hchunk] at hkept
  exact ⟨hvalue, hchunk, hkept⟩

end CodeActions.Literal
