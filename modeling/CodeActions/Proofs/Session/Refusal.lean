import CodeActions.Proofs.Selection
import CodeActions.Proofs.Session.Turn

/-!
# Lines that are refused

A line is refused if it brings up an error or the message that the action does not apply. Such a
line changes nothing, with one exception: a selection moves also when it lies outside of the
document. So it has to be known which lines give a selection. A selection that a caller hands over
untrimmed is the one that a session reads off the same line, and the number that it prints is the
one that it reads.

Main statements: `Command.onLine?_of_selection`, `Command.onLine?_apply`,
`Turn.refused_keeps_all_but_selection`.
-/

namespace CodeActions

/-! ## §1 Blank lines -/

/-- A line holds no command exactly if it is blank. -/
theorem Command.onLine?_eq_none_iff (line : String) :
    onLine? line = none ↔ line.toList.all Text.isBlank = true := by
  rw [← Text.trim_eq_nil_iff]
  unfold onLine?
  cases Text.trim line.toList with
  | nil => simp
  | cons c cs => simp

/-! ## §2 Lines with a selection or a number -/

/-- The selection that a line gives, bare or behind `.at`. -/
def Selection.onLine? (line : String) : Option Selection :=
  match Text.trim line.toList with
  | '.' :: rest =>
    match Text.words rest with
    | [['a', 't'], given] => (parse given).toOption
    | _ => none
  | given => (parse given).toOption

namespace Command

/-- The only word for a selection is `at`, and it takes exactly one argument. -/
theorem ofWords_eq_select_iff {word : String} {arguments : List (List Char)} {s : Selection} :
    ofWords word arguments = .ok (.select s) ↔
      word = "at" ∧ ∃ given, arguments = [given] ∧ Selection.parse given = .ok s := by
  by_cases hword : word = "at"
  · subst hword
    simp only [ofWords, String.reduceEq, or_self, if_false, if_true, true_and]
    cases arguments with
    | nil => simp
    | cons given arguments =>
      cases arguments with
      | nil => cases hparse : Selection.parse given <;> simp [hparse]
      | cons => simp
  -- no other word leads to a selection
  · simp only [ofWords, hword, if_false, false_and, iff_false]
    repeat' split
    all_goals exact nofun

/-- A trimmed line is read as a selection, bare or behind the word for it. -/
theorem ofLine_eq_select_iff {line : String} {s : Selection} :
    Command.ofLine (Text.trim line.toList) = .ok (.select s) ↔ Selection.onLine? line = some s := by
  unfold Command.ofLine
  split
  case h_1 rest htrim =>
    -- a command is trimmed once more, which changes nothing
    have hagain : Text.trim ('.' :: rest) = '.' :: rest := Text.trim_trim_of_head htrim (by decide)
    rw [htrim]
    simp only [Command.parse, Selection.onLine?, htrim, hagain]
    cases Text.words rest with
    | nil => simp
    | cons word arguments =>
      simp only [ofWords_eq_select_iff]
      split
      case h_1 given hwords =>
        obtain ⟨rfl, rfl⟩ := List.cons.inj hwords
        simp [toOption_eq_some_iff]
      case h_2 hwords =>
        simp only [reduceCtorEq, iff_false]
        rintro ⟨hword, given, rfl, _⟩
        have hat : word = ['a', 't'] := by simpa using congrArg String.toList hword
        exact hwords given (by rw [hat])
  -- without a dot the whole line is the selection
  case h_2 hdot =>
    have hbare : Selection.onLine? line = (Selection.parse (Text.trim line.toList)).toOption := by
      unfold Selection.onLine?
      split
      case h_1 rest htrim => exact absurd htrim (hdot rest)
      case h_2 => rfl
    rw [hbare, toOption_eq_some_iff]
    cases Selection.parse (Text.trim line.toList) <;> simp

/-- A line commands a selection exactly if it gives one. -/
theorem onLine?_eq_select_iff {line : String} {s : Selection} :
    onLine? line = some (.ok (.select s)) ↔ Selection.onLine? line = some s := by
  rw [← ofLine_eq_select_iff]
  unfold onLine?
  cases Text.trim line.toList with
  | nil => simp [ofLine, Selection.parse, Selection.parsePlace, Text.splitOnce?, bind, Except.bind]
  | cons c rest => simp

/-- A line that commands no selection gives none. -/
theorem selection_eq_none {line : String} (h : ∀ s, onLine? line ≠ some (.ok (.select s))) :
    Selection.onLine? line = none :=
  Option.eq_none_iff_forall_ne_some.mpr fun s hs => h s (onLine?_eq_select_iff.mpr hs)

/-- A line that is a selection selects it, trimmed or not. -/
theorem onLine?_of_selection {line : String} {s : Selection}
    (h : Selection.parse line.toList = .ok s) : onLine? line = some (.ok (.select s)) := by
  have htrim : Selection.parse (Text.trim line.toList) = .ok s := Selection.parse_trim h
  rw [onLine?_eq_select_iff]
  unfold Selection.onLine?
  split
  -- a selection does not begin with a dot
  case h_1 rest hdot =>
    rw [hdot] at htrim
    exact absurd htrim (Selection.parse_dot_ne_ok rest s)
  case h_2 => exact toOption_eq_some_iff.mpr htrim

/-- The number of an action can be given the way it is printed. -/
theorem onLine?_apply {number : Nat} (h : number < Unsigned.bound64) :
    onLine? (".apply " ++ number.repr) = some (.ok (.apply number)) := by
  have hblank : ∀ c ∈ number.repr.toList, Text.isBlank c = false :=
    fun c hc => Text.isBlank_of_isDigit (Unsigned.isDigit_of_mem_repr hc)
  have hwords : Text.words ("apply".toList ++ ' ' :: number.repr.toList) =
      ["apply".toList, number.repr.toList] := by
    rw [Text.words_append_cons (by decide), Text.words_eq_singleton Unsigned.repr_ne_nil hblank]
    rfl
  have hline : (".apply " ++ number.repr).toList =
      '.' :: ("apply".toList ++ ' ' :: number.repr.toList) := by
    simp
  -- the line ends in a digit, so there is nothing to trim
  have htrim : Text.trim (".apply " ++ number.repr).toList = (".apply " ++ number.repr).toList := by
    obtain hnil | ⟨digits, last, hrepr⟩ := List.eq_nil_or_concat number.repr.toList
    · exact absurd hnil Unsigned.repr_ne_nil
    · have hlast : Text.isBlank last = false := hblank last (by simp [hrepr])
      rw [hline, hrepr]
      have hdot : Text.isBlank '.' = false := by decide
      simpa using Text.trim_eq_self hdot hlast ("apply".toList ++ ' ' :: digits)
  -- two words, the second of which is the number as it is printed
  have hparse : parse (".apply " ++ number.repr).toList = .ok (.apply number) := by
    unfold parse
    rw [htrim, hline]
    simp only [hwords, String.ofList_toList, ofWords, String.reduceEq, or_self, if_false, true_or,
      if_true, Unsigned.parse_repr h]
  unfold onLine?
  rw [htrim]
  rw [hline] at hparse ⊢
  exact congrArg some hparse

end Command

/-! ## §3 Refusals -/

/-- Only an action that is declined is reported in these words. -/
theorem Applied.summary_eq_declined_iff (debug : Bool) (applied : Applied) :
    applied.summary debug = "Action does not apply here; nothing changed" ↔
      applied = .declined := by
  cases applied with
  | declined => simp [summary]
  | edited edit replaced =>
    simp only [reduceCtorEq, iff_false]
    intro h
    -- the report on an edit opens with `r`
    have hhead := congrArg (fun s : String => s.toList.head?) h
    cases debug <;> simp [summary, toString] at hhead

/-- The notice is an error, or says that the action does not apply. -/
def Notice.IsRefusal : Notice → Prop
  | .output _ => False
  | .result applied debug => applied.summary debug = "Action does not apply here; nothing changed"
  | .error _ => True

/-- A command that is refused leaves the workspace as it was, the selection apart if it is the
command that moves it. -/
theorem Workspace.Performs.of_refusal {parser : Parser} {w w' : Workspace} {command : Command}
    {notice : Notice} (h : w.Performs parser command w' notice) (hrefusal : notice.IsRefusal) :
    w' = w ∧ (∀ s, command ≠ .select s) ∨
      ∃ s, command = .select s ∧ w' = w.withSession { w.session with selection := s } := by
  cases h with
  | shows | quits | togglesDebug | writes | loads => exact absurd hrefusal id
  | selects selection => exact .inr ⟨selection, rfl, rfl⟩
  | declines => exact .inl ⟨rfl, nofun⟩
  -- the report on an edit is no refusal, in whatever words it comes
  | edits =>
    have := (Applied.summary_eq_declined_iff _ _).mp hrefusal
    cases this
  | fails reason hcommand => exact .inl ⟨rfl, hcommand⟩

/-- A turn that is refused edits nothing. -/
theorem Turn.edit?_of_isRefusal {parser : Parser} {t : Turn} {notice : Notice}
    (hnotice : t.notice? parser = some notice) (h : notice.IsRefusal) : t.edit? parser = none := by
  unfold edit?
  rw [hnotice]
  cases notice with
  | output text => rfl
  | error reason => rfl
  | result applied debug =>
    obtain rfl := (Applied.summary_eq_declined_iff debug applied).mp h
    rfl

/-- A refused line leaves the document, its file, the flags and the files as they were; the
selection becomes the one on the line, if the line gives one. A line brings up one notice unless it
is blank, and a blank line does nothing. -/
theorem Turn.refused_keeps_all_but_selection (parser : Parser) (w : Workspace) (line : String) :
    (∀ notice, Turn.notice? parser ⟨w, line⟩ = some notice → notice.IsRefusal →
      (Turn.after parser ⟨w, line⟩).files = w.files ∧
      (Turn.after parser ⟨w, line⟩).session =
        { w.session with selection := (Selection.onLine? line).getD w.session.selection }) ∧
    (line.toList.all Text.isBlank = false → ∃ notice, Turn.notice? parser ⟨w, line⟩ = some notice) ∧
    (line.toList.all Text.isBlank = true →
      Turn.notice? parser ⟨w, line⟩ = none ∧ Turn.after parser ⟨w, line⟩ = w) := by
  rw [← Command.onLine?_eq_none_iff, ← Bool.not_eq_true, ← Command.onLine?_eq_none_iff]
  rcases Turn.line_cases parser ⟨w, line⟩ with ⟨hline, hafter, hnotice⟩ |
    ⟨error, hline, hafter, hnotice⟩ | ⟨command, notice, hline, hperforms, hnotice⟩
  · -- a blank line brings up no notice at all
    simp only at hline hafter
    simp [hline, hafter, hnotice]
  · simp only at hline hafter
    -- a line without a command gives no selection either
    have hselection : Selection.onLine? line = none := Command.selection_eq_none (by simp [hline])
    simp [hline, hafter, hnotice, hselection]
  · simp only at hline hperforms
    refine ⟨?_, fun _ => ⟨notice, hnotice⟩, fun hnone => by simp [hline] at hnone⟩
    intro notice' hnotice' hrefusal
    obtain rfl : notice = notice' := by simpa [hnotice] using hnotice'
    rcases hperforms.of_refusal hrefusal with ⟨hafter, hcommand⟩ | ⟨s, rfl, hafter⟩
    · have hselection : Selection.onLine? line = none :=
        Command.selection_eq_none (by simpa [hline] using hcommand)
      simp [hafter, hselection]
    · have hselection : Selection.onLine? line = some s := Command.onLine?_eq_select_iff.mp hline
      simp [hafter, hselection, Workspace.withSession]

/-- A selection outside of the document is an error, and yet the selection moves there. -/
theorem Turn.refused_keeps_all_but_selection_outside :
    let w := Sample.workspace.run Sample.parser [".load a.js"]
    Turn.notice? Sample.parser ⟨w, " 9:9 "⟩ = some (.error (.outside ⟨8, 8⟩)) ∧
    (Turn.after Sample.parser ⟨w, " 9:9 "⟩).session =
      { w.session with selection := ⟨⟨8, 8⟩, ⟨8, 8⟩⟩ } := by
  intro w
  have hnotice : Turn.notice? Sample.parser ⟨w, " 9:9 "⟩ = some (.error (.outside ⟨8, 8⟩)) := by
    with_unfolding_all decide
  have hselection : Selection.onLine? " 9:9 " = some ⟨⟨8, 8⟩, ⟨8, 8⟩⟩ := by
    with_unfolding_all decide
  have h := (Turn.refused_keeps_all_but_selection Sample.parser w " 9:9 ").1 _ hnotice trivial
  rw [hselection] at h
  exact ⟨hnotice, h.2⟩

end CodeActions
