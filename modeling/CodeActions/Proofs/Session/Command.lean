import CodeActions.Proofs.Selection.Grammar
import CodeActions.Proofs.Session.Refusal

/-!
# Commands as they are written

Each command has a name and at most one argument. It can be written down as these two words, the
first with a dot in front of it, and read back from there, however the words are spread over the
line. A selection needs no command: a line that is one is taken as if the command stood in front of
it.

Main statements: `Command.parse_of_spread`, `Command.onLine?_at`, `Command.written_reads_back`.
-/

namespace CodeActions

/-! ## §1 Writing -/

/-- A position as a place of a text, its line and its column counted from one. -/
def Position.written (p : Position) : List Char :=
  (p.row + 1).repr.toList ++ ':' :: (p.column + 1).repr.toList

/-- The position can be written: its line and its column fit in 64 bits when they are counted from
one. -/
def Position.Fits (p : Position) : Prop := p.row < 2 ^ 64 - 1 ∧ p.column < 2 ^ 64 - 1

instance (p : Position) : Decidable p.Fits :=
  inferInstanceAs (Decidable (p.row < 2 ^ 64 - 1 ∧ p.column < 2 ^ 64 - 1))

/-- Both ends of a selection. -/
def Selection.written (s : Selection) : List Char := s.start.written ++ '-' :: s.stop.written

namespace Command

/-- The name of a command, in full. -/
def name : Command → String
  | help => "help"
  | quit => "quit"
  | select _ => "at"
  | actions => "actions"
  | path => "path"
  | apply _ => "apply"
  | print => "show"
  | write _ => "write"
  | load _ => "load"
  | debug => "debug"

/-- The argument of a command, if it has one. -/
def argument? : Command → Option (List Char)
  | select selection => some selection.written
  | apply index => some index.repr.toList
  | write file? => file?.map String.toList
  | load file => some file.toList
  | help | quit | actions | path | print | debug => none

/-- The words of a command: its name behind a dot, then its argument. -/
def written (command : Command) : List (List Char) :=
  ('.' :: command.name.toList) :: command.argument?.toList

/-- The numbers of a command fit in 64 bits, and its path is one word. -/
def Writable : Command → Prop
  | select selection => selection.start.Fits ∧ selection.stop.Fits
  | apply index => index < 2 ^ 64
  | write (some file) | load file => Text.IsWord file.toList
  | help | quit | actions | path | print | write none | debug => True

end Command

/-! ## §2 What is written is one word -/

/-- A printed number is one word. -/
theorem Unsigned.isWord_repr (n : Nat) : Text.IsWord n.repr.toList :=
  ⟨repr_ne_nil, fun _ hc => Text.isBlank_of_isDigit (isDigit_of_mem_repr hc)⟩

/-- Two words with a sign between them are one word. -/
theorem Text.IsWord.append_cons {front back : List Char} (hfront : IsWord front)
    (hback : IsWord back) {sign : Char} (hsign : isBlank sign = false) :
    IsWord (front ++ sign :: back) := by
  refine ⟨by simp, fun c hc => ?_⟩
  rcases List.mem_append.mp hc with hc | hc
  · exact hfront.2 c hc
  · rcases List.mem_cons.mp hc with rfl | hc
    · exact hsign
    · exact hback.2 c hc

theorem Position.isWord_written (p : Position) : Text.IsWord p.written :=
  (Unsigned.isWord_repr _).append_cons (Unsigned.isWord_repr _) (by decide)

theorem Command.isWord_name (command : Command) : Text.IsWord command.name.toList := by
  cases command <;> (simp only [name]; decide)

/-- The argument of a command that can be written is one word. -/
theorem Command.Writable.isWord_argument {command : Command} (h : command.Writable)
    {argument : List Char} (hargument : command.argument? = some argument) :
    Text.IsWord argument := by
  cases command with
  -- digits, colons and a dash are no white space
  | select selection =>
    cases hargument
    exact (Position.isWord_written _).append_cons (Position.isWord_written _) (by decide)
  | apply index =>
    cases hargument
    exact Unsigned.isWord_repr index
  | write file? =>
    cases file? with
    | none => cases hargument
    | some file =>
      cases hargument
      exact h
  | load file =>
    cases hargument
    exact h
  | help | quit | actions | path | print | debug => cases hargument

/-! ## §3 Reading back -/

/-- A position that can be written is the place that its text denotes. -/
theorem Position.Fits.isPlace {p : Position} (h : p.Fits) :
    Selection.IsPlace p.written (p.row + 1) (p.column + 1) := by
  -- a number is read the way it is printed, so what is printed is its numeral
  have hnumber {n : Nat} (hn : n < 2 ^ 64 - 1) :
      Selection.IsNumber (n + 1).repr.toList (n + 1) := by
    have hlt : n + 1 < Unsigned.bound64 := Nat.add_lt_of_lt_sub hn
    have hnumeral := ((Unsigned.parse_eq_ok_iff (by decide)).mp (Unsigned.parse_repr hlt)).1
    exact ⟨⟨_, ⟨[], [], nofun, nofun, by simp⟩, hnumeral⟩, by omega, by omega⟩
  exact .intro (hnumber h.1) (hnumber h.2)

/-- A selection is read the way it is written. -/
theorem Selection.parse_written {s : Selection} (hstart : s.start.Fits) (hstop : s.stop.Fits) :
    parse s.written = .ok s :=
  parse_eq_ok_iff_denotes.mpr (.range hstart.isPlace hstop.isPlace)

namespace Command

/-- The name and the argument lead back to the command. -/
theorem ofWords_name {command : Command} (h : command.Writable) :
    ofWords command.name command.argument?.toList = .ok command := by
  cases command with
  | select selection =>
    have hparse : Selection.parse selection.written = .ok selection :=
      Selection.parse_written h.1 h.2
    simp [ofWords, name, argument?, hparse]
  | apply index =>
    have hparse : Unsigned.parse Unsigned.bound64 index.repr.toList = .ok index :=
      Unsigned.parse_repr h
    rw [Nat.toList_repr] at hparse
    simp [ofWords, name, argument?, hparse]
  | write file? => cases file? <;> simp [ofWords, name, argument?]
  | load file => simp [ofWords, name, argument?]
  | help | quit | actions | path | print | debug => simp [ofWords, name]

/-- Only the words of a line matter. -/
theorem parse_of_spread {word : List Char} {arguments : List (List Char)} {line : List Char}
    (h : Text.Spread (('.' :: word) :: arguments) line)
    (hwords : ∀ w ∈ word :: arguments, Text.IsWord w) :
    parse line = ofWords (String.ofList word) arguments := by
  obtain ⟨rest, htrim, hrest⟩ := h.exists_tail (by decide)
  -- behind the dot there are the same words, wherever the line ends
  have hfound : Text.words (Text.trimEnd rest) = word :: arguments := by
    rw [Text.words_trimEnd, hrest.words_eq hwords]
  unfold parse
  rw [htrim]
  simp only [hfound]

/-- A command is read back from its words, however they are spread over the line. -/
theorem parse_written {command : Command} {line : List Char} (h : command.Writable)
    (hline : Text.Spread command.written line) : parse line = .ok command := by
  have hwords : ∀ w ∈ command.name.toList :: command.argument?.toList, Text.IsWord w := by
    intro w hw
    rcases List.mem_cons.mp hw with rfl | hw
    · exact command.isWord_name
    · exact h.isWord_argument (Option.mem_toList.mp hw)
  rw [parse_of_spread hline hwords, String.ofList_toList, ofWords_name h]

/-! ## §4 Selections without a command -/

/-- A line from which a command can be read holds that command. -/
theorem onLine?_of_parse {line : String} {command : Command} (h : parse line.toList = .ok command) :
    onLine? line = some (.ok command) := by
  -- the line is trimmed before it is looked at, and then once more by the reader
  have hagain : Text.trim (Text.trim line.toList) = Text.trim line.toList :=
    (Text.padded_trim line.toList).trim_eq_trim.symm
  have htrimmed : parse (Text.trim line.toList) = .ok command := by
    unfold parse at h ⊢
    rwa [hagain]
  unfold onLine?
  cases htrim : Text.trim line.toList with
  | nil => simp [parse, htrim] at h
  | cons c rest =>
    by_cases hc : c = '.'
    · subst hc
      rw [htrim] at htrimmed
      exact congrArg some htrimmed
    · -- without a dot in front nothing could have been read
      unfold parse at h
      rw [htrim] at h
      grind

/-- Behind `.at` a selection of one word is read like the selection alone. -/
theorem onLine?_at {text : String} {s : Selection} (h : Selection.parse text.toList = .ok s)
    (hinner : Text.NoInnerBlank text.toList) :
    onLine? (".at " ++ text) = some (.ok (.select s)) := by
  have htrim : Selection.parse (Text.trim text.toList) = .ok s := Selection.parse_trim h
  -- an empty text is no selection
  have hne : Text.trim text.toList ≠ [] := by
    intro hnil
    rw [hnil] at htrim
    cases htrim
  -- whatever white space the selection has at its ends goes to the gap and to the end of the line
  have hspread : Text.Spread [".at".toList, Text.trim text.toList] (".at " ++ text).toList := by
    have hline : (".at " ++ text).toList = ".at".toList ++ ' ' :: text.toList := by simp
    rw [hline]
    exact .more ⟨[], [], nofun, nofun, rfl⟩ (by decide) (.last (Text.padded_trim text.toList))
  have hwords : ∀ w ∈ ["at".toList, Text.trim text.toList], Text.IsWord w := by
    simp only [List.forall_mem_cons, List.not_mem_nil, false_implies, implies_true, and_true]
    exact ⟨by decide, hne, hinner.noBlank_trim⟩
  apply onLine?_of_parse
  rw [parse_of_spread hspread hwords]
  exact ofWords_eq_select_iff.mpr ⟨rfl, _, rfl, htrim⟩

/-- A command whose paths are words and whose numbers fit in 64 bits is read back from the line that
is made up of its words, whatever white space stands before, between and behind them. And a
selection that is one word does the same to a session alone and behind `.at`: it is selected, and
the notice is the same. -/
theorem written_reads_back (parser : Parser) (w : Workspace) :
    (∀ command line, command.Writable → Text.Spread command.written line →
      parse line = .ok command) ∧
    ∀ (text : String) (s : Selection), Selection.parse text.toList = .ok s →
      Text.NoInnerBlank text.toList →
      w.processLine parser text = w.processLine parser (".at " ++ text) ∧
      w.processLine parser text =
        ((w.perform parser (.select s)).1, some (w.perform parser (.select s)).2) := by
  refine ⟨fun command line h hline => parse_written h hline, fun text s h hinner => ?_⟩
  have halone : onLine? text = some (.ok (.select s)) := onLine?_of_selection h
  have hbehind : onLine? (".at " ++ text) = some (.ok (.select s)) := onLine?_at h hinner
  -- both lines hold the same command, and only the command matters
  rw [Workspace.processLine_eq, Workspace.processLine_eq, halone, hbehind]
  exact ⟨rfl, rfl⟩

/-- The largest numbers that can be written, with ideographic spaces, tabs and line feeds about
them, a path, and a selection with white space at its ends in a session that has a file open. -/
theorem written_reads_back_extremes :
    let selection : Selection := ⟨⟨2, 4⟩, ⟨18446744073709551614, 9⟩⟩
    let w := Turn.after Sample.parser ⟨Sample.workspace, ".load a.js"⟩
    parse "\u3000 .at\t\n3:5-18446744073709551615:10 ".toList = .ok (.select selection) ∧
    parse ".apply  18446744073709551615".toList = .ok (.apply 18446744073709551615) ∧
    parse ".write .hidden\u2028".toList = .ok (.write (some ".hidden")) ∧
    w.processLine Sample.parser " 1:1-1:4\t" = w.processLine Sample.parser ".at  1:1-1:4\t" := by
  intro selection w
  obtain ⟨hreads, hsame⟩ := written_reads_back Sample.parser w
  have hselect : Text.Spread
      (select selection).written "\u3000 .at\t\n3:5-18446744073709551615:10 ".toList :=
    Text.spread_pair "\u3000 ".toList '\t' ['\n'] [' '] (by decide) (by decide)
  have happly : Text.Spread
      (apply 18446744073709551615).written ".apply  18446744073709551615".toList :=
    Text.spread_pair [] ' ' [' '] [] (by decide) (by decide)
  have hwrite : Text.Spread (write (some ".hidden")).written ".write .hidden\u2028".toList :=
    Text.spread_pair [] ' ' [] "\u2028".toList (by decide) (by decide)
  have hselection : Selection.parse " 1:1-1:4\t".toList = .ok ⟨⟨0, 0⟩, ⟨0, 3⟩⟩ := by decide
  refine ⟨hreads _ _ ⟨by decide, by decide⟩ hselect,
    hreads _ _ (by decide : 18446744073709551615 < 2 ^ 64) happly,
    hreads _ _ (by decide : Text.IsWord ".hidden".toList) hwrite,
    (hsame _ _ hselection (by decide)).1⟩

end Command

end CodeActions
