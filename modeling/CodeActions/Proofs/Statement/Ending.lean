import CodeActions.Proofs.Path
import CodeActions.Proofs.Selection
import CodeActions.Proofs.Statement.Guard

/-!
# Statements that end in an open expression

A statement can end in an expression without being one: `if (x) y = {}` ends in the assignment,
through the statement that is its branch, and an export ends in what it declares. A line behind it
goes on with that expression unless a semicolon is put between. Whether one is put there is judged
by the outermost statement alone: its kind, and the last character of its text.

Main statements: `Text.endsWith_append`, what ends a text ends every text that ends with it,
`Tree.exists_text_eq_append`, the text of a statement ends with that of its last part, and
`Node.guards_open_ending_iff`, when a line behind such a statement is guarded.
-/

namespace CodeActions

/-! ## §1 Ends of texts -/

/-- The end of a text is the end of any text that has it at its end, if it is more than white
space. -/
theorem Text.endsWith_append {back : String} (hback : ∃ c ∈ back.toList, isBlank c = false)
    (mark : Char) (front : String) : endsWith mark (front ++ back) = endsWith mark back := by
  obtain ⟨c, hmem, hc⟩ := hback
  obtain ⟨before, after, hsplit⟩ := List.append_of_mem hmem
  -- both texts are trimmed back to the same character at the most
  have hlast : (trimEnd (front ++ back).toList).getLast? = (trimEnd back.toList).getLast? := by
    rw [String.toList_append, hsplit, ← List.append_assoc, trimEnd_append_cons hc,
      trimEnd_append_cons hc, List.append_assoc, List.getLast?_append_of_ne_nil _ (by simp)]
  rw [endsWith, endsWith, hlast]

/-- A text that opens like the rest of an expression is not empty and does not open with a
semicolon. -/
theorem Text.of_opensWith_continuationStarts {s : String}
    (h : opensWith continuationStarts s = true) : s ≠ "" ∧ opensWith [';'] s = false := by
  unfold opensWith at *
  cases hs : s.toList with
  | nil => simp [hs] at h
  | cons c cs =>
    simp only [hs] at h ⊢
    refine ⟨fun hempty => by simp [hempty] at hs, ?_⟩
    have hc : c ∈ continuationStarts := List.contains_iff_mem.mp h
    -- the semicolon is none of the characters
    have hmark : ';' ∉ continuationStarts := by decide
    simp only [List.contains_eq_mem, List.mem_singleton, decide_eq_false_iff_not]
    rintro rfl
    exact hmark hc

namespace Tree

/-- A part that ends where the whole ends has a text that ends the text of the whole. -/
theorem exists_text_eq_append {source body ending : String} {t u : Tree}
    (hstart : t.span.start ≤ u.span.start) (hstop : u.span.stop = t.span.stop)
    (ht : t.text source = .ok body) (hu : u.text source = .ok ending) :
    ∃ front, body = front ++ ending := by
  obtain ⟨before, after, hsource, hbefore, hend⟩ := Text.slice_eq_ok_iff.mp ht
  obtain ⟨before', after', hsource', hbefore', hend'⟩ := Text.slice_eq_ok_iff.mp hu
  -- up to the common end there is one text, and the front of the whole is the shorter of the two
  -- fronts
  have hwhole : Text.upTo source t.span.stop = .ok (before ++ body) :=
    Text.upTo_eq_ok_iff.mpr ⟨after, hsource, hend⟩
  have hpart : Text.upTo source t.span.stop = .ok (before' ++ ending) :=
    Text.upTo_eq_ok_iff.mpr ⟨after', hsource', hstop ▸ hend'⟩
  have hfronts : before ++ body = before' ++ ending := Except.ok.inj (hwhole.symm.trans hpart)
  obtain ⟨mid, -, hmid⟩ := Text.exists_append_of_byteSize_le hfronts (by omega)
  exact ⟨mid, hmid⟩

/-! ## §2 Last parts -/

/-- The statement itself, its last named child, the last named child of that, and so on. -/
def lastParts (t : Tree) : List Tree :=
  match _h : t.namedChildren.getLast? with
  | some last => t :: last.lastParts
  | none => [t]
termination_by t.size
decreasing_by exact size_lt_of_mem_children (List.mem_filter.mp (List.mem_of_getLast? _h)).1

theorem lastParts_of_getLast? {t last : Tree} (h : t.namedChildren.getLast? = some last) :
    t.lastParts = t :: last.lastParts := by
  -- the definition matches on a hypothesis, so its equation is split by hand
  rw [lastParts]
  split
  case h_1 last' h' =>
    obtain rfl : last' = last := Option.some.inj (h'.symm.trans h)
    rfl
  case h_2 h' => simp [h] at h'

/-- A statement is one of its last parts. -/
theorem self_mem_lastParts (t : Tree) : t ∈ t.lastParts := by
  rw [lastParts]
  split
  · exact List.mem_cons_self
  · exact List.mem_singleton_self t

/-- In a nested tree the last parts lie inside of the whole. -/
theorem Nested.contains_lastParts {t part : Tree} (h : t.Nested) (hpart : part ∈ t.lastParts) :
    t.span.contains part.span = true := by
  -- along the way down every last child lies inside of the one above
  fun_induction lastParts t with
  | case1 t last hlast ih =>
    have hchild : last ∈ t.children := (List.mem_filter.mp (List.mem_of_getLast? hlast)).1
    rcases List.mem_cons.mp hpart with rfl | hpart
    · simp [Span.contains]
    · exact Span.contains_trans (h.top.inside last hchild) (ih (h.child hchild) hpart)
  | case2 t =>
    obtain rfl := List.mem_singleton.mp hpart
    simp [Span.contains]

/-- The statement ends in an open expression: a last part of a kind that ends with an expression
ends where the statement ends, and no semicolon does. -/
structure EndsOpen (source : String) (t part : Tree) : Prop where
  mem : part ∈ t.lastParts
  kind : expressionEndedKinds.contains part.kind = true
  stop : part.span.stop = t.span.stop
  unended : ∃ body, t.text source = .ok body ∧ Text.endsWith ';' body = false

end Tree

/-! ## §3 Guards behind open endings -/

namespace Node

/-- A line that opens like the rest of an expression, behind a statement that ends in an open
expression, is guarded if and only if that statement is itself of a kind that ends with an
expression, or does not end with a brace. The brace is never the end of a block: it is the last
character of the open expression. So behind `if (x) y = {}` no guard is set. -/
theorem guards_open_ending_iff {source statement : String} {n : Node} {previous part : Tree}
    (hn : n.Fits source) (hstatement : Text.opensWith continuationStarts statement = true)
    (hprevious : n.previousCode? = some previous) (hopen : previous.EndsOpen source part) :
    ∃ text body, n.guarded source statement = .ok text ∧ previous.text source = .ok body ∧
      (Text.opensWith [';'] text = true ↔
        expressionEndedKinds.contains previous.kind = true ∨ Text.endsWith '\x7d' body = false) ∧
      (previous.Nested → ∀ ending, part.text source = .ok ending →
        (∃ c ∈ ending.toList, Text.isBlank c = false) →
        Text.endsWith '\x7d' body = Text.endsWith '\x7d' ending) := by
  obtain ⟨hne, hmark⟩ := Text.of_opensWith_continuationStarts hstatement
  obtain ⟨text, htext⟩ := hn.guarded statement
  obtain ⟨body, hbody, hunended⟩ := hopen.unended
  refine ⟨text, body, htext, hbody, ?_, ?_⟩
  · -- no semicolon comes from the line or from the end before it, so the kind and the brace decide
    rw [opens_guarded_iff hne htext, followsUnterminated_iff]
    simp [hmark, hstatement, hprevious, Tree.IsUnterminated, hbody, hunended]
  · -- the last part ends the text of the statement, so both end with the same character
    intro hnested ending hending hvisible
    have hinside := Span.contains_iff.mp (hnested.contains_lastParts hopen.mem)
    obtain ⟨front, rfl⟩ := Tree.exists_text_eq_append hinside.1 hopen.stop hbody hending
    exact Text.endsWith_append hvisible _ front

end Node

namespace Sample

/-- `y = value` as a statement from the 7th byte on, where the value covers the text from the 11th
byte on. -/
def assigning (value : Tree) : Tree :=
  let stop := value.span.stop
  construct "expression_statement" 7 stop []
    [construct "assignment_expression" 7 stop [("left", 0), ("right", 2)]
      [construct "identifier" 7 8 [] [], mark "=" 9 10, value]]

/-- `if (x) y = value`. -/
def assigningIf (value : Tree) : Tree :=
  construct "if_statement" 0 value.span.stop [("condition", 1), ("consequence", 2)]
    [mark "if" 0 2, header 3 6, assigning value]

/-- `if (a || b) go()` on the line behind an offset. -/
def nextIf (offset : Nat) : Tree :=
  construct "if_statement" (offset + 1) (offset + 17) [("condition", 1), ("consequence", 2)]
    [mark "if" (offset + 1) (offset + 3),
      construct "parenthesized_expression" (offset + 4) (offset + 12) []
        [construct "binary_expression" (offset + 5) (offset + 11) [] []],
      construct "expression_statement" (offset + 13) (offset + 17) [] []]

/-- The two statements, one on each line. -/
def twoIfs (value : Tree) : Tree :=
  let next := nextIf value.span.stop
  construct "program" 0 next.span.stop [] [assigningIf value, next]

/-- The second of them. -/
def secondIf (value : Tree) : Node := (Node.root (twoIfs value)).child 1 (nextIf value.span.stop)

/-- The empty object of `if (x) y = {}`. -/
def emptyObject : Tree := construct "object" 11 13 [] [mark "\x7b" 11 12, mark "\x7d" 12 13]

/-- The number of `if (x) y = 1`. -/
def one : Tree := construct "number" 11 12 [] []

/-- The second statement fits if the whole text does. -/
theorem fits_secondIf {source : String} {value : Tree}
    (h : (twoIfs value).fitsPlainly source = true) : (secondIf value).Fits source :=
  (Node.Fits.root (.of_fitsPlainly h)).child (List.mem_of_getElem? (i := 1) rfl)

/-- The statement with the assignment ends in the assignment, if its text ends without a
semicolon. -/
theorem endsOpen_assigningIf {source body : String} {value : Tree}
    (hbody : (assigningIf value).text source = .ok body)
    (hunended : Text.endsWith ';' body = false) :
    (assigningIf value).EndsOpen source (assigning value) where
  mem := by
    have hlast : (assigningIf value).namedChildren.getLast? = some (assigning value) := rfl
    rw [Tree.lastParts_of_getLast? hlast]
    exact List.mem_cons_of_mem _ (Tree.self_mem_lastParts _)
  kind := rfl
  stop := rfl
  unended := ⟨body, hbody, hunended⟩

end Sample

namespace Node

/-- A branch that ends with a number is guarded, although the statement around it is none of the
kinds. -/
theorem guards_open_ending_iff_number :
    let source := "if (x) y = 1\nif (a || b) go()"
    let n := Sample.secondIf Sample.one
    n.Fits source ∧ n.previousCode? = some (Sample.assigningIf Sample.one) ∧
      (Sample.assigningIf Sample.one).EndsOpen source (Sample.assigning Sample.one) ∧
      ∃ text, n.guarded source "(a || b) && (go())" = .ok text ∧
        Text.opensWith [';'] text = true := by
  intro source n
  have hn : n.Fits source := Sample.fits_secondIf (by decide)
  have hbody : (Sample.assigningIf Sample.one).text source = .ok "if (x) y = 1" := by decide
  have hopen := Sample.endsOpen_assigningIf hbody (by decide)
  refine ⟨hn, rfl, hopen, ?_⟩
  have hstatement : Text.opensWith continuationStarts "(a || b) && (go())" = true := by decide
  -- the text that is looked at is the one of the whole statement
  obtain ⟨text, body, htext, hbody', hiff, _⟩ := guards_open_ending_iff hn hstatement rfl hopen
  obtain rfl : body = "if (x) y = 1" := Except.ok.inj (hbody'.symm.trans hbody)
  exact ⟨text, htext, hiff.mpr (.inr (by decide))⟩

/-- A branch that ends with the brace of an object is taken for a block, and the next line goes on
with it. -/
theorem brace_of_object_is_no_end :
    let source := "if (x) y = \x7b\x7d\nif (a || b) go()"
    let n := Sample.secondIf Sample.emptyObject
    n.previousCode? = some (Sample.assigningIf Sample.emptyObject) ∧
      (Sample.assigningIf Sample.emptyObject).EndsOpen source
        (Sample.assigning Sample.emptyObject) ∧
      n.guarded source "(a || b) && (go())" = .ok "(a || b) && (go())" := by
  intro source n
  have hbody : (Sample.assigningIf Sample.emptyObject).text source =
      .ok "if (x) y = \x7b\x7d" := by decide
  exact ⟨rfl, Sample.endsOpen_assigningIf hbody (by decide), by decide⟩

end Node

end CodeActions
