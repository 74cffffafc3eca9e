import CodeActions.Literal.Concatenation
import CodeActions.Proofs.Literal.Value
import CodeActions.Proofs.Statement.Guard

/-!
# Template text in quotes

When a template becomes a concatenation each stretch of its text is put in quotes. It should stand
for the same string there. Escapes that mean the same are kept, and the characters that quotes do
not allow are escaped. With line feeds this is right. A carriage return is written as itself, though
it stands for a line feed in a template, and the line feed after a backslash and a carriage return
is written, though the three are one escape.

Main statements: `Literal.requote_of_read?` for one character or escape, and
`Literal.quoteChunk_keeps_value_iff`, which says for which text the value is kept.
-/

namespace CodeActions.Literal

/-! ## §1 Characters that are put in quotes -/

variable {c : Char} {cs rest : List Char} {us : List UInt16}

/-- Without a backslash a character is escaped if it may not stand in quotes. -/
theorem requote_cons (hslash : c ≠ '\\') (cs : List Char) :
    requote (c :: cs) =
      if c = '\'' then '\\' :: '\'' :: requote cs
      else if c = '\n' then '\\' :: 'n' :: requote cs
      else if c = '\r' then '\\' :: 'r' :: requote cs
      else c :: requote cs := by
  rw [requote]
  · rintro rfl
    exact absurd rfl hslash
  · rintro d ds rfl
    exact absurd rfl hslash

theorem requote_quote (cs : List Char) : requote ('\'' :: cs) = '\\' :: '\'' :: requote cs := by
  rw [requote_cons (by decide), if_pos rfl]

theorem requote_feed (cs : List Char) : requote ('\n' :: cs) = '\\' :: 'n' :: requote cs := by
  rw [requote_cons (by decide), if_neg (by decide), if_pos rfl]

theorem requote_return (cs : List Char) : requote ('\r' :: cs) = '\\' :: 'r' :: requote cs := by
  rw [requote_cons (by decide), if_neg (by decide), if_neg (by decide), if_pos rfl]

theorem requote_char (hslash : c ≠ '\\') (hquote : c ≠ '\'') (hfeed : c ≠ '\n') (hreturn : c ≠ '\r')
    (cs : List Char) : requote (c :: cs) = c :: requote cs := by
  rw [requote_cons hslash, if_neg hquote, if_neg hfeed, if_neg hreturn]

/-- Digits and braces are left as they are. -/
theorem requote_append {ds : List Char} (h : ∀ d ∈ ds, isEscapeTail d = true) (cs : List Char) :
    requote (ds ++ cs) = ds ++ requote cs := by
  induction ds with
  | nil => rfl
  | cons d ds ih =>
    obtain ⟨hd, hds⟩ := List.forall_mem_cons.mp h
    have hne {c : Char} (hc : isEscapeTail c = false) : d ≠ c := ne_of_isEscapeTail hd hc
    rw [List.cons_append, requote_char (hne (by decide)) (hne (by decide)) (hne (by decide))
      (hne (by decide)), ih hds, List.cons_append]

/-- What is in quotes does not begin with a line feed, nor with a digit that was not there. -/
theorem head?_requote {cs : List Char} {d : Char} (h : (requote cs).head? = some d) :
    d ≠ '\n' ∧ (d.isDigit = true → cs.head? = some d) := by
  have hslash : '\\' ≠ '\n' ∧ '\\'.isDigit = false := by decide
  revert h
  fun_cases requote cs with
  | case1 => exact nofun
  -- a backslash was dropped, and what it stood before is no digit
  | case3 c cs hdropped =>
    rintro ⟨⟩
    rcases hdropped with rfl | rfl
    · exact ⟨by decide, fun hdigit => absurd hdigit (by decide)⟩
    · exact ⟨by decide, fun hdigit => absurd hdigit (by decide)⟩
  -- the character was there before
  | case8 c cs _ _ _ hfeed _ =>
    rintro ⟨⟩
    exact ⟨hfeed, fun _ => rfl⟩
  | case2 | case4 | case5 | case6 | case7 =>
    -- a backslash comes first
    rintro ⟨⟩
    exact ⟨hslash.1, fun hdigit => absurd hdigit (by simp [hslash.2])⟩

/-- An escape does not get longer by what is escaped behind it. -/
theorem EndsBefore.requote {eaten : List Char} (h : EndsBefore eaten rest) :
    EndsBefore eaten (requote rest) := by
  refine h.of_head? fun d hd hkind => ?_
  obtain ⟨hfeed, hdigit⟩ := head?_requote hd
  rcases hkind with rfl | hkind
  · exact absurd rfl hfeed
  · exact hdigit hkind

/-- Each line end in the text stands for the same in quotes: there is no carriage return, unless it
is escaped and no line feed is behind it. -/
def keepsLineEnds : List Char → Bool
  | [] => true
  | '\\' :: '\r' :: '\n' :: _ => false
  | '\\' :: _ :: cs => keepsLineEnds cs
  | c :: cs => c != '\r' && keepsLineEnds cs

/-- Without a backslash it is the carriage return alone that is not kept. -/
theorem keepsLineEnds_cons (hslash : c ≠ '\\') (cs : List Char) :
    keepsLineEnds (c :: cs) = (c != '\r' && keepsLineEnds cs) := by
  rw [keepsLineEnds]
  · rintro ds rfl
    exact absurd rfl hslash
  · rintro d ds rfl
    exact absurd rfl hslash

theorem keepsLineEnds_escape (h : ¬ (c = '\r' ∧ cs.head? = some '\n')) :
    keepsLineEnds ('\\' :: c :: cs) = keepsLineEnds cs := by
  rw [keepsLineEnds]
  rintro rest rfl rfl
  exact h ⟨rfl, rfl⟩

/-- Digits and braces are no line ends. -/
theorem keepsLineEnds_append {ds : List Char} (h : ∀ d ∈ ds, isEscapeTail d = true)
    (cs : List Char) : keepsLineEnds (ds ++ cs) = keepsLineEnds cs := by
  induction ds with
  | nil => rfl
  | cons d ds ih =>
    obtain ⟨hd, hds⟩ := List.forall_mem_cons.mp h
    have hslash : d ≠ '\\' := ne_of_isEscapeTail hd (by decide)
    have hreturn : d ≠ '\r' := ne_of_isEscapeTail hd (by decide)
    simp [keepsLineEnds_cons hslash, hreturn, ih hds]

/-! ## §2 One character or escape -/

/-- The number of units, carriage returns counted twice. It grows where a line end is not kept. -/
def weight (us : List UInt16) : Nat := us.length + us.count 13

@[simp] theorem weight_append (us us' : List UInt16) :
    weight (us ++ us') = weight us + weight us' := by
  simp only [weight, List.length_append, List.count_append]
  omega

/-- What a stretch of a template stands for in quotes: the same, or it has a line end that is not
kept and stands for more. -/
def Follows (raw rest : List Char) (us us' : List UInt16) : Prop :=
  (us' = us ∧ keepsLineEnds raw = keepsLineEnds rest) ∨
    (keepsLineEnds raw = false ∧ weight us < weight us')

/-- An escape in quotes. -/
theorem value?_escape {quote : Char} (h : escape? cs = some (us, rest)) :
    (quoted quote).value? ('\\' :: cs) = ((quoted quote).value? rest).map (us ++ ·) :=
  Reader.value?_of_read? (by rw [read?_quoted, if_pos rfl, h])

theorem value?_feed (quote : Char) (cs : List Char) :
    (quoted quote).value? ('\\' :: 'n' :: cs) = ((quoted quote).value? cs).map ([10] ++ ·) :=
  value?_escape (escape?_complete (.control (c := 'n') (by decide)) ⟨nofun, nofun⟩)

theorem value?_return (quote : Char) (cs : List Char) :
    (quoted quote).value? ('\\' :: 'r' :: cs) = ((quoted quote).value? cs).map ([13] ++ ·) :=
  value?_escape (escape?_complete (.control (c := 'r') (by decide)) ⟨nofun, nofun⟩)

/-- A character that may stand in quotes. -/
theorem value?_char {quote : Char} (hslash : c ≠ '\\') (hquote : c ≠ quote) (hfeed : c ≠ '\n')
    (hreturn : c ≠ '\r') (cs : List Char) :
    (quoted quote).value? (c :: cs) = ((quoted quote).value? cs).map (units c.toNat ++ ·) :=
  Reader.value?_of_read?
    (by rw [read?_quoted, if_neg hslash, if_neg (by simp [hquote, hfeed, hreturn])])

/-- An escape stands for the same in quotes, but for a carriage return with a line feed. -/
theorem requote_of_escape? (h : escape? cs = some (us, rest)) :
    ∃ us', (quoted '\'').value? (requote ('\\' :: cs)) =
      ((quoted '\'').value? (requote rest)).map (us' ++ ·) ∧
      Follows ('\\' :: cs) rest us us' := by
  obtain ⟨eaten, rfl, hescape, hends⟩ := escape?_eq_some_iff.mp h
  rcases hescape.exists_tail with ⟨rfl, rfl⟩ | ⟨c, ds, rfl, hds⟩
  · -- the line feed is not taken for a part of the escape, and is written by itself
    have hreturn (cs : List Char) : escape? ('\r' :: '\\' :: cs) = some ([], '\\' :: cs) :=
      escape?_complete (.lineEnd (c := '\r') (by decide)) ⟨nofun, nofun⟩
    have hrequote : requote ('\\' :: (['\r', '\n'] ++ rest)) =
        '\\' :: '\r' :: '\\' :: 'n' :: requote rest := by
      rw [List.cons_append, requote, if_neg (by decide), List.cons_append, requote_feed,
        List.nil_append]
    refine ⟨[10], ?_, .inr ⟨rfl, by decide⟩⟩
    rw [hrequote, value?_escape (hreturn _), value?_feed, Option.map_map]
    rfl
  · rw [List.cons_append] at h ⊢
    by_cases hdropped : c = backtick ∨ c = '$'
    · -- the backslash is dropped, and the character stands for itself without it
      obtain ⟨hself, hslash, hquote, hfeed, hreturn⟩ :
          standsForItself c = true ∧ c ≠ '\\' ∧ c ≠ '\'' ∧ c ≠ '\n' ∧ c ≠ '\r' := by
        rcases hdropped with rfl | rfl <;> decide
      obtain ⟨rfl, hrest⟩ := Prod.mk.inj (Option.some.inj ((escape?_self hself _).symm.trans h))
      refine ⟨units c.toNat, ?_, .inl ⟨rfl, ?_⟩⟩
      · rw [requote, if_pos hdropped, hrest]
        exact value?_char hslash hquote hfeed hreturn _
      · rw [keepsLineEnds_escape fun hboth => hreturn hboth.1, hrest]
    · -- any other escape is kept with all of its characters
      refine ⟨us, ?_, .inl ⟨rfl, ?_⟩⟩
      · rw [requote, if_neg hdropped, requote_append hds, ← List.cons_append]
        exact value?_escape (escape?_complete hescape hends.requote)
      · rw [keepsLineEnds_escape, keepsLineEnds_append hds]
        -- a line feed behind a carriage return would be part of the escape
        rintro ⟨rfl, hfeed⟩
        cases ds with
        | nil => exact hends.2 rfl hfeed
        | cons d ds =>
          obtain rfl : d = '\n' := Option.some.inj hfeed
          exact absurd (hds '\n' List.mem_cons_self) (by decide)

/-- A character stands for the same in quotes, but for a carriage return. -/
theorem requote_of_char (hslash : c ≠ '\\') (h : template.read? (c :: cs) = some (us, rest)) :
    ∃ us', (quoted '\'').value? (requote (c :: cs)) =
      ((quoted '\'').value? (requote rest)).map (us' ++ ·) ∧
      Follows (c :: cs) rest us us' := by
  rw [read?_template, if_neg hslash] at h
  obtain ⟨_, h⟩ := Option.ite_none_left_eq_some.mp h
  by_cases hreturn : c = '\r'
  · -- it stands for a line feed, together with a line feed behind it
    subst hreturn
    have hkeeps : keepsLineEnds ('\r' :: cs) = false := by
      rw [keepsLineEnds_cons (by decide)]
      rfl
    rw [if_pos rfl] at h
    rw [requote_return, value?_return]
    by_cases hfeed : cs.head? = some '\n'
    · obtain ⟨tail, rfl⟩ := List.head?_eq_some_iff.mp hfeed
      cases h
      refine ⟨[13, 10], ?_, .inr ⟨hkeeps, by decide⟩⟩
      rw [requote_feed, value?_feed, Option.map_map]
      rfl
    · rw [if_neg hfeed] at h
      cases h
      exact ⟨[13], rfl, .inr ⟨hkeeps, by decide⟩⟩
  · -- any other character stands for its own units in both notations
    have hkeeps : keepsLineEnds (c :: cs) = keepsLineEnds cs := by
      rw [keepsLineEnds_cons hslash, bne_iff_ne.mpr hreturn, Bool.true_and]
    rw [if_neg hreturn] at h
    cases h
    refine ⟨units c.toNat, ?_, .inl ⟨rfl, hkeeps⟩⟩
    -- a quote and a line feed are escaped, all others are written as they are
    by_cases hquote : c = '\''
    · subst hquote
      rw [requote_quote]
      exact value?_escape (escape?_self (by decide) _)
    · by_cases hfeed : c = '\n'
      · subst hfeed
        rw [requote_feed]
        exact value?_feed '\'' _
      · rw [requote_char hslash hquote hfeed hreturn]
        exact value?_char hslash hquote hfeed hreturn _

/-- What is read in a template stands for the same in quotes, or it has a line end that is not
kept. -/
theorem requote_of_read? {raw : List Char} (h : template.read? raw = some (us, rest)) :
    ∃ us', (quoted '\'').value? (requote raw) =
      ((quoted '\'').value? (requote rest)).map (us' ++ ·) ∧
      Follows raw rest us us' := by
  cases raw with
  | nil => cases h
  | cons c cs =>
    by_cases hslash : c = '\\'
    · subst hslash
      rw [read?_template, if_pos rfl] at h
      exact requote_of_escape? h
    · exact requote_of_char hslash h

/-! ## §3 A whole stretch -/

/-- In quotes the text stands for as much or more, and for the same exactly if its line ends are
kept. -/
theorem value?_requote {raw : List Char} {value : List UInt16}
    (h : template.value? raw = some value) :
    ∃ value', (quoted '\'').value? (requote raw) = some value' ∧ weight value ≤ weight value' ∧
      (keepsLineEnds raw = true → value' = value) ∧
      (keepsLineEnds raw = false → weight value < weight value') := by
  induction h using Reader.value?_induction with
  | nil => exact ⟨[], Reader.value?_nil, le_rfl, fun _ => rfl, nofun⟩
  -- what is read first and the rest are put together, and weights add up
  | step hread _ ih =>
    obtain ⟨value', hvalue', hle, hkept, hlost⟩ := ih
    obtain ⟨us', hstep, hfollows⟩ := requote_of_read? hread
    refine ⟨us' ++ value', by rw [hstep, hvalue']; rfl, ?_⟩
    rw [weight_append, weight_append]
    -- a line end that is lost once is not made up for later
    rcases hfollows with ⟨rfl, hkeeps⟩ | ⟨hkeeps, hlt⟩
    · rw [hkeeps]
      refine ⟨by omega, fun hkeeps => by rw [hkept hkeeps], fun hkeeps => ?_⟩
      have hlt := hlost hkeeps
      omega
    · rw [hkeeps]
      exact ⟨by omega, nofun, fun _ => by omega⟩

/-- In quotes a stretch of a template stands for a string, and for the same one exactly if its line
ends are kept. -/
theorem quoteChunk_keeps_value_iff {raw : List Char} {value : List UInt16}
    (h : template.value? raw = some value) :
    ∃ value', literalValue? '\'' (quoteChunk raw) = some value' ∧
      (value' = value ↔ keepsLineEnds raw = true) := by
  obtain ⟨value', hvalue', _, hkept, hlost⟩ := value?_requote h
  refine ⟨value', (literalValue?_quotes '\'' (requote raw)).trans hvalue', ?_, hkept⟩
  rintro rfl
  cases hkeeps : keepsLineEnds raw with
  | true => rfl
  -- the weights differ, so the values do
  | false => exact absurd (hlost hkeeps) (Nat.lt_irrefl _)

/-- A line feed, a quote and an escaped backtick. -/
theorem quoteChunk_keeps_value_iff_feed :
    let raw := "it's\n\\\x60\\x41".toList
    let value := [105, 116, 39, 115, 10, 96, 65]
    template.value? raw = some value ∧ quoteChunk raw = "'it\\'s\\n\x60\\x41'".toList ∧
      literalValue? '\'' (quoteChunk raw) = some value := by
  intro raw value
  have hvalue : template.value? raw = some value := by with_unfolding_all decide
  obtain ⟨value', hvalue', hiff⟩ := quoteChunk_keeps_value_iff hvalue
  obtain rfl := hiff.mpr (by decide)
  exact ⟨hvalue, by decide, hvalue'⟩

end CodeActions.Literal

namespace CodeActions

/-- A template with a line end of two characters, `a` before it and `b` behind it. -/
def Sample.twoLines : Tree :=
  construct "template_string" 0 6 []
    [mark "\x60" 0 1, construct "string_fragment" 1 5 [] [], mark "\x60" 5 6]

/-- The line end stands for one line feed in the template, and for two characters in the quotes. -/
theorem Transform.line_end_doubled :
    templateToConcat.run "\x60a\r\nb\x60" (.root Sample.twoLines) =
      .ok (some (.text "'a\\r\\nb'")) ∧
      Literal.quoteChunk "a\r\nb".toList = "'a\\r\\nb'".toList ∧
      Literal.template.value? "a\r\nb".toList = some [97, 10, 98] ∧
      Literal.literalValue? '\'' "'a\\r\\nb'".toList = some [97, 13, 10, 98] := by
  with_unfolding_all decide

end CodeActions
