import CodeActions.Proofs.Snippet
import CodeActions.Proofs.Statement.Guard
import CodeActions.Wrap

/-!
# Expressions inside of a wrap

A wrap puts the text of an expression, whatever it is, into a notation with marks of its own. An
editor that reads the notation has to find the text as it was, and the hole where it was put: no
mark in the text may open a tab stop, and no backslash at its end may reach into what is behind it.

Editors differ in what they know of the notation. There are variables, choices and tab stops in
braces, and the wraps need none of them. So nothing is assumed of an editor but how it reads an
escape, an unmarked character and a tab stop that is only a number.

Main statements: `Snippet.Editor.read_text`, `Snippet.Editor.read_tabStop_digits` and
`Transform.wraps_quote_expression`.
-/

namespace CodeActions

namespace Snippet

/-! ## §1 Editors -/

/-- What an editor makes of the notation, as far as every editor makes the same of it. -/
structure Editor (α : Type) where
  /-- A character that is inserted as it is. -/
  literal : Char → α
  /-- A tab stop by its number, without a text. -/
  tabStop : Nat → α
  read : List Char → List α
  read_nil : read [] = []
  /-- A backslash takes one of the three marks as it is. -/
  read_escaped {c : Char} (h : isEscapable c = true) (cs : List Char) :
    read ('\\' :: c :: cs) = literal c :: read cs
  /-- A character that is none of the marks stands for itself. -/
  read_char {c : Char} (h : isEscapable c = false) (cs : List Char) :
    read (c :: cs) = literal c :: read cs
  /-- A dollar sign and all the digits behind it are a tab stop. -/
  read_digits {digits cs : List Char} (hne : digits ≠ []) (hdigits : ∀ d ∈ digits, d.isDigit = true)
    (hcs : ∀ c ∈ cs.head?, c.isDigit = false) :
    read ('$' :: (digits ++ cs)) = tabStop (number digits) :: read cs

/-- The reader for tab stops with and without a text is one of them. -/
def editor : Editor Item where
  literal := .char
  tabStop index := .stop index []
  read := read
  read_nil := by rw [read]
  read_escaped h cs := by rw [read, if_pos h]
  read_char := by
    intro c h cs
    have hmarks : c ≠ '$' ∧ c ≠ '\x7d' ∧ c ≠ '\\' := by simpa [isEscapable] using h
    simp [read, hmarks]
  read_digits := by
    intro digits cs hne hdigits hcs
    have hspan : cs.takeWhile Char.isDigit = [] ∧ cs.dropWhile Char.isDigit = cs := by
      cases cs with
      | nil => exact ⟨rfl, rfl⟩
      | cons c cs => simp [hcs c rfl]
    apply read_dollar
    rw [readStop?_digits hne hdigits, hspan.1, hspan.2, List.append_nil]

namespace Editor

variable {α : Type} (editor : Editor α)

/-! ## §2 Pieces of a wrap -/

/-- Whatever the text is, the editor finds its characters and goes on behind it. -/
theorem read_text (text cs : List Char) :
    editor.read (text.flatMap Segment.escape ++ cs) =
      text.map editor.literal ++ editor.read cs := by
  induction text with
  | nil => rfl
  | cons c text ih =>
    -- with a backslash or without, every character is read as itself
    cases hc : isEscapable c with
    | true => simp [escape_of_isEscapable hc, editor.read_escaped hc, ih]
    | false => simp [escape_of_not_isEscapable hc, editor.read_char hc, ih]

/-- The number of a tab stop is found if no digit comes next. -/
theorem read_tabStop_digits (n : Nat) {cs : List Char} (hcs : ∀ c ∈ cs.head?, c.isDigit = false) :
    editor.read ('$' :: (Nat.toDigits 10 n ++ cs)) = editor.tabStop n :: editor.read cs := by
  have hnumber : number (Nat.toDigits 10 n) = n := by simpa using number_digits_append n []
  rw [editor.read_digits Nat.toDigits_ne_nil (fun _ => isDigit_of_mem_digits _) hcs, hnumber]

/-- A type assertion is found with the expression before its hole. -/
theorem read_cast (text : String) :
    editor.read (cast text).render.toList =
      ("(" ++ text ++ " as ").toList.map editor.literal ++
        [editor.tabStop 1, editor.literal ')'] := by
  -- the text before the tab stop and the word behind it are one text
  have hrender : (cast text).render.toList =
      ("(" ++ text ++ " as ").toList.flatMap Segment.escape ++
        '$' :: (Nat.toDigits 10 1 ++ [')']) := by
    simp [cast, render, Segment.render, Segment.escape]
  rw [hrender, read_text, read_tabStop_digits _ _ (by simp), editor.read_char rfl, editor.read_nil]

/-- A call is found with its hole before the expression. -/
theorem read_call (text : String) :
    editor.read (call text).render.toList =
      editor.tabStop 0 :: ("(" ++ text ++ ")").toList.map editor.literal := by
  have hrender : (call text).render.toList =
      '$' :: (Nat.toDigits 10 0 ++ ("(" ++ text ++ ")").toList.flatMap Segment.escape) := by
    simp [call, render, Segment.render]
  -- the parenthesis behind the tab stop keeps its number from going on
  have hfirst : ∀ c ∈ (("(" ++ text ++ ")").toList.flatMap Segment.escape).head?,
      c.isDigit = false := by
    simp [Segment.escape]
  have htext := editor.read_text ("(" ++ text ++ ")").toList []
  rw [List.append_nil, editor.read_nil, List.append_nil] at htext
  rw [hrender, read_tabStop_digits _ _ hfirst, htext]

end Editor

/-- Without an editor nothing stands where the type should be. -/
theorem plain_cast (text : String) : (cast text).plain = "(" ++ text ++ " as )" := by
  simp [← String.toList_inj, cast, plain, Segment.plain]

theorem plain_call (text : String) : (call text).plain = "(" ++ text ++ ")" := by
  simp [← String.toList_inj, call, plain, Segment.plain]

end Snippet

/-! ## §3 The two wraps -/

/-- A wrap writes down the text of the expression, whatever it is. -/
theorem Reshaping.ofExpression_eq {source text : String} {t : Tree}
    (hkind : isExpressionKind t.kind = true) (htext : t.text source = .ok text)
    (wrap : String → Snippet) :
    ofExpression source t wrap = .ok (some (.snippet (wrap text))) := by
  rw [ofExpression, if_pos hkind, htext]
  rfl

/-- On an expression both wraps give a snippet, whatever the text of the expression is. Every editor
finds that text in them, between an opening parenthesis and the word `as` with the first tab stop
behind it, or in parentheses behind the last tab stop. Without an editor nothing stands in the
holes. -/
theorem Transform.wraps_quote_expression {source text : String} {n : Node}
    (hkind : isExpressionKind n.kind = true) (htext : n.tree.text source = .ok text) :
    (∃ s, wrapInCast.run source n = .ok (some (.snippet s)) ∧ s.plain = "(" ++ text ++ " as )" ∧
      ∀ {α : Type} (editor : Snippet.Editor α), editor.read s.render.toList =
        ("(" ++ text ++ " as ").toList.map editor.literal ++ [editor.tabStop 1] ++
          ")".toList.map editor.literal) ∧
    ∃ s, wrapInCall.run source n = .ok (some (.snippet s)) ∧ s.plain = "(" ++ text ++ ")" ∧
      ∀ {α : Type} (editor : Snippet.Editor α), editor.read s.render.toList =
        [editor.tabStop 0] ++ ("(" ++ text ++ ")").toList.map editor.literal := by
  refine ⟨⟨.cast text, Reshaping.ofExpression_eq hkind htext _, Snippet.plain_cast text, ?_⟩,
    .call text, Reshaping.ofExpression_eq hkind htext _, Snippet.plain_call text, ?_⟩
  · intro α editor
    simpa using editor.read_cast text
  · intro α editor
    exact editor.read_call text

/-- An expression of nine bytes behind two others. -/
def Sample.marks : Tree := construct "binary_expression" 2 11 [] []

/-- The expression looks like a tab stop and ends in a backslash. -/
theorem Transform.wraps_quote_expression_marks :
    let source := "= $\x7b1:é\x7d+\\;"
    let n := Node.root Sample.marks
    let text := "$\x7b1:é\x7d+\\"
    let s := Snippet.cast text
    isExpressionKind n.kind = true ∧ n.tree.text source = .ok text ∧
      wrapInCast.run source n = .ok (some (.snippet s)) ∧
      s.render = "(\\$\x7b1:é\\\x7d+\\\\ as $1)" ∧
      Snippet.read s.render.toList =
        "($\x7b1:é\x7d+\\ as ".toList.map .char ++ [.stop 1 []] ++ [.char ')'] := by
  intro source n text s
  have hkind : isExpressionKind n.kind = true := by with_unfolding_all decide
  have htext : n.tree.text source = .ok text := by with_unfolding_all decide
  have hrun : wrapInCast.run source n = .ok (some (.snippet s)) := by with_unfolding_all decide
  obtain ⟨⟨s', hrun', _, hread⟩, _⟩ := Transform.wraps_quote_expression hkind htext
  obtain rfl : s = s' := by simpa using hrun.symm.trans hrun'
  exact ⟨hkind, htext, hrun, by decide, hread Snippet.editor⟩

end CodeActions
