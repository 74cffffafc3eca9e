import CodeActions.Proofs.Literal.Holes
import CodeActions.Proofs.Literal.Requote
import Mathlib.Logic.Function.Iterate

/-!
# Requoted text is settled

Text that has been put in single quotes once has a form that it keeps. It is made of escapes and of
characters that may stand in quotes, each escape has both of its characters, and a backtick or a
dollar sign is never escaped. That is so for every text, also for one that no template could hold,
such as one that ends in a backslash.

Two things follow. In a template only backticks and dollar signs are escaped, and these escapes are
dropped on the way back, so the literal comes out as it went in. And a scan of the literal is never
thrown off: it takes each escape for an escape, and the first quote that is not part of one is the
last character.

Main statements: `Literal.settled_requote`, `Literal.requote_templateChunk`,
`Literal.round_trips_settle` and `Literal.quoteChunk_closes_at_end`.
-/

namespace CodeActions.Literal

/-! ## §1 Settled text -/

/-- Text as it comes out between single quotes. -/
inductive Settled : List Char → Prop where
  | nil : Settled []
  | escaped {c : Char} {cs : List Char} (hkept : ¬ (c = backtick ∨ c = '$')) (h : Settled cs) :
      Settled ('\\' :: c :: cs)
  | char {c : Char} {cs : List Char} (hslash : c ≠ '\\') (hquote : c ≠ '\'') (hfeed : c ≠ '\n')
      (hreturn : c ≠ '\r') (h : Settled cs) : Settled (c :: cs)

/-- Whatever the text, it is settled when it has been put in quotes. -/
theorem settled_requote (raw : List Char) : Settled (requote raw) := by
  -- one case for each branch of the loop: none of them leaves a backslash without the character
  -- behind it
  fun_induction requote raw with
  | case1 => exact .nil
  -- a backslash at the very end is doubled
  | case2 => exact .escaped (by simp [backtick]) .nil
  -- the backslash before a backtick or a dollar sign is dropped
  | case3 c cs hdropped ih =>
    rcases hdropped with rfl | rfl
    · exact .char (by simp [backtick]) (by simp [backtick]) (by simp [backtick])
        (by simp [backtick]) ih
    · exact .char (by simp) (by simp) (by simp) (by simp) ih
  | case4 c cs hkept ih => exact .escaped hkept ih
  | case5 _ _ _ ih | case6 _ _ _ _ ih | case7 _ _ _ _ _ ih => exact .escaped (by simp [backtick]) ih
  | case8 c cs hlone hpair hquote hfeed hreturn ih =>
    -- a backslash falls into one of the cases before
    have hslash : c ≠ '\\' := by
      rintro rfl
      cases cs with
      | nil => exact hlone rfl rfl
      | cons d ds => exact hpair d ds rfl rfl
    exact .char hslash hquote hfeed hreturn ih

/-! ## §2 Into a template and back -/

/-- The escapes that a template adds are dropped again, and no others are. -/
theorem requote_templateChunk {cs : List Char} (h : Settled cs) :
    requote (templateChunk cs) = cs := by
  induction h with
  | nil => rfl
  | @escaped c cs hkept _ ih => rw [templateChunk, requote, if_neg hkept, ih]
  | @char c cs hslash hquote hfeed hreturn _ ih =>
    rw [templateChunk_cons hslash]
    split
    -- added by the template, and dropped again
    case isTrue hescaped =>
      have hdropped : c = backtick ∨ c = '$' := hescaped.imp_right And.left
      rw [requote, if_pos hdropped, ih]
    case isFalse => rw [requote_char hslash hquote hfeed hreturn, ih]

/-- The text of a template as a literal in single quotes. -/
def quoteText (raw : String) : String := String.ofList (quoteChunk raw.toList)

/-- In a template the literal has the text that was put in quotes, escaped for the template. -/
theorem stringToTemplate_quoteText (raw : String) :
    stringToTemplate (quoteText raw) = String.ofList (templateChunk (requote raw.toList)) := by
  have hbody : (quoteText raw).toList = '\'' :: (requote raw.toList ++ ['\'']) :=
    String.toList_ofList
  rw [stringToTemplate, toList_inner rfl hbody]

/-- On the way back the literal is the same. -/
theorem quoteText_stringToTemplate_quoteText (raw : String) :
    quoteText (stringToTemplate (quoteText raw)) = quoteText raw := by
  rw [stringToTemplate_quoteText, quoteText, String.toList_ofList, quoteChunk,
    requote_templateChunk (settled_requote raw.toList)]
  rfl

/-- A literal that template text has become is the same again after it has been in a template. So
going to a template and back changes template text once at most, however often it is repeated. -/
theorem round_trips_settle (raw : String) :
    quoteText (stringToTemplate (quoteText raw)) = quoteText raw ∧
    stringToTemplate (quoteText (stringToTemplate (quoteText raw))) =
      stringToTemplate (quoteText raw) ∧
    ∀ n : Nat, (stringToTemplate ∘ quoteText)^[n + 1] raw = stringToTemplate (quoteText raw) ∧
      (quoteText ∘ stringToTemplate)^[n] (quoteText raw) = quoteText raw := by
  have hliteral := quoteText_stringToTemplate_quoteText raw
  have htemplate := congrArg stringToTemplate hliteral
  refine ⟨hliteral, htemplate, fun n => ⟨?_, ?_⟩⟩
  · -- after the first round the text is a fixed point
    rw [Function.iterate_succ_apply]
    apply Function.iterate_fixed
    simpa only [Function.comp_apply] using htemplate
  · apply Function.iterate_fixed
    simpa only [Function.comp_apply] using hliteral

example : stringToTemplate (quoteText "\\$a\\") = "$a\\\\" := by with_unfolding_all decide

/-! ## §3 A scan of the literal -/

/-- What a scan finds behind an opening quote up to the quote that closes the literal, and what is
behind that one. A backslash takes the next character with it. -/
def closeQuote (quote : Char) : List Char → Option (List Item × List Char)
  | [] => none
  | '\\' :: c :: cs => (closeQuote quote cs).map fun (items, rest) => (.escaped c :: items, rest)
  | c :: cs =>
    if c = quote then some ([], cs)
    else (closeQuote quote cs).map fun (items, rest) => (.char c :: items, rest)

/-- What a scan finds in a literal at the front of a text, and what is behind the literal. -/
def scanQuoted (quote : Char) : List Char → Option (List Item × List Char)
  | [] => none
  | c :: cs => if c = quote then closeQuote quote cs else none

/-- Settled text may stand between single quotes. -/
theorem Settled.quotedBody {cs : List Char} (h : Settled cs) : QuotedBody '\'' cs := by
  induction h with
  | nil => exact .nil
  | escaped _ _ ih => exact .escaped ih
  | char hslash hquote hfeed hreturn _ ih => exact .char hquote hslash ⟨hfeed, hreturn⟩ ih

/-- Whatever the text, it is one literal when it has been put in quotes. -/
theorem isQuoted_quoteChunk (raw : List Char) : IsQuoted (quoteChunk raw) :=
  ⟨'\'', requote raw, .inl rfl, (settled_requote raw).quotedBody, rfl⟩

/-- The scan goes on to the quote behind the body, and meets no line end on its way that is not
escaped. -/
theorem QuotedBody.closeQuote_eq {quote : Char} {body : List Char} (h : QuotedBody quote body)
    (hquote : quote ≠ '\\') (rest : List Char) :
    ∃ items, closeQuote quote (body ++ quote :: rest) = some (items, rest) ∧
      ∀ item ∈ items, item ≠ .char '\n' ∧ item ≠ .char '\r' := by
  induction h with
  | nil => exact ⟨[], by simp [closeQuote, hquote], by simp⟩
  | @escaped c cs _ ih =>
    obtain ⟨items, hscan, hitems⟩ := ih
    exact ⟨.escaped c :: items, by simp [closeQuote, hscan], by simpa using hitems⟩
  | @char c cs hne hslash hline _ ih =>
    obtain ⟨items, hscan, hitems⟩ := ih
    exact ⟨.char c :: items, by simp [closeQuote, hslash, hne, hscan],
      by simpa [hline] using hitems⟩

/-- Whatever the text and whatever comes behind the literal, a scan that enters the literal leaves
it with its last character, and meets no line end on its way that is not escaped. -/
theorem quoteChunk_closes_at_end (raw rest : List Char) :
    ∃ items, scanQuoted '\'' (quoteChunk raw ++ rest) = some (items, rest) ∧
      ∀ item ∈ items, item ≠ .char '\n' ∧ item ≠ .char '\r' := by
  obtain ⟨items, hscan, hitems⟩ := (settled_requote raw).quotedBody.closeQuote_eq (by simp) rest
  refine ⟨items, ?_, hitems⟩
  simpa [scanQuoted, quoteChunk] using hscan

end CodeActions.Literal
