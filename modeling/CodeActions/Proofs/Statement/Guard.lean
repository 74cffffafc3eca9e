import CodeActions.Proofs.Kind

/-!
# Where a statement is guarded

A statement that replaces an `if` gets a semicolon in front if it opens like the rest of an
expression and what stands before it is not terminated. What stands before it is the nearest
construct under the same parent, whatever that is: in a block it is a statement, but before the body
of a loop or of another `if` it is the last part of the header, which is no statement and hardly
ever ends like one.

Main statements: `Node.opens_guarded_iff`, when a guarded statement opens with a semicolon, and
`IfForm.opens_with_guard_iff`, when that happens to an `if` under a given parent.
-/

namespace CodeActions

/-! ## §1 Openings -/

namespace Text

/-- What is put behind a text does not change how it opens. -/
theorem opensWith_append {s : String} (hs : s ≠ "") (chars : List Char) (t : String) :
    opensWith chars (s ++ t) = opensWith chars s := by
  obtain ⟨c, cs, hcons⟩ := List.exists_cons_of_ne_nil (mt String.toList_eq_nil_iff.mp hs)
  simp [opensWith, hcons]

/-- A blank behind a text opens the whole if the text is empty, but a blank is none of the
characters. -/
theorem opensWith_append_blank {chars : List Char} (hblank : ' ' ∉ chars) (s t : String) :
    opensWith chars (s ++ (" " ++ t)) = opensWith chars s := by
  by_cases hs : s = ""
  · simp [hs, opensWith, hblank]
  · exact opensWith_append hs chars _

end Text

namespace Tree

/-- Written with parentheses or without them, the expression opens with one of the characters. -/
def Opens (source : String) (parens : Bool) (chars : List Char) (t : Tree) : Prop :=
  if parens then '(' ∈ chars
  else ∃ text, t.text source = .ok text ∧ Text.opensWith chars text = true

/-- How an expression opens is how its text in print opens. -/
theorem opens_iff {source text : String} {parens : Bool} {t : Tree}
    (h : t.textIn source parens = .ok text) (chars : List Char) :
    t.Opens source parens chars ↔ Text.opensWith chars text = true := by
  obtain ⟨body, hbody, h⟩ := bind_eq_ok_iff.mp h
  cases h
  cases parens with
  | true => simp [Opens, Text.opensWith]
  | false => simp [Opens, hbody]

/-- As a left operand the expression opens with one of the characters. -/
def OpensOperand (source : String) (place : OperandOf) (chars : List Char) (t : Tree) : Prop :=
  t.unwrapParens.Opens source (t.unwrapParens.bindsLooser place) chars

/-- The construct ends neither with a semicolon nor with the brace of a block. -/
def IsUnterminated (source : String) (t : Tree) : Prop :=
  ∃ body, t.text source = .ok body ∧ Text.endsWith ';' body = false ∧
    (expressionEndedKinds.contains t.kind = true ∨ Text.endsWith '\x7d' body = false)

/-- A header in parentheses is not terminated. -/
theorem isUnterminated_of_endsWith_paren {source body : String} {t : Tree}
    (h : t.text source = .ok body) (hparen : Text.endsWith ')' body = true) :
    t.IsUnterminated source := by
  -- a text has one last character, and the parenthesis is neither of the others
  have hlast : (Text.trimEnd body.toList).getLast? = some ')' := by
    simpa [Text.endsWith] using hparen
  exact ⟨body, h, by simp [Text.endsWith, hlast], .inr (by simp [Text.endsWith, hlast])⟩

end Tree

/-! ## §2 Guards -/

namespace Node

variable {source : String} {n : Node}

/-- A node follows something unterminated if the nearest construct before it is unterminated. -/
theorem followsUnterminated_iff :
    n.followsUnterminated source = .ok true ↔
      ∃ previous, n.previousCode? = some previous ∧ previous.IsUnterminated source := by
  unfold followsUnterminated
  cases n.previousCode? with
  -- the first under its parent follows nothing
  | none => exact ⟨nofun, nofun⟩
  | some previous =>
    simp only [Option.some.injEq, exists_eq_left']
    rw [bind_eq_ok_iff]
    refine exists_congr fun body => and_congr_right fun _ => ?_
    simp [pure, Except.pure]

/-- A guard adds nothing but semicolons at the ends. -/
theorem of_guarded {statement text : String} (h : n.guarded source statement = .ok text) :
    ∃ front back, text = front ++ statement ++ back ∧ front ∈ ["", ";"] ∧ back ∈ ["", ";"] := by
  obtain ⟨ends, _, h⟩ := bind_eq_ok_iff.mp h
  -- at the end a semicolon is put if the `if` had one
  obtain ⟨back, hclosed, hback⟩ :
    ∃ back, (if ends then statement else statement ++ ";") = statement ++ back ∧
      back ∈ ["", ";"] := by
    cases ends with
    | true => exact ⟨"", by simp, by simp⟩
    | false => exact ⟨";", rfl, by simp⟩
  simp only [hclosed] at h
  -- at the front it is put only if both questions are answered with yes
  split at h
  case isFalse =>
    cases h
    exact ⟨"", back, by simp, by simp, hback⟩
  case isTrue =>
    obtain ⟨follows, _, h⟩ := bind_eq_ok_iff.mp h
    cases follows with
    | false =>
      cases h
      exact ⟨"", back, by simp, by simp, hback⟩
    | true =>
      cases h
      exact ⟨";", back, by simp [String.append_assoc], by simp, hback⟩

/-- A guarded statement opens with a semicolon if it does so by itself, or opens like the rest of an
expression and stands behind something that is not terminated. -/
theorem opens_guarded_iff {statement text : String} (hstatement : statement ≠ "")
    (h : n.guarded source statement = .ok text) :
    Text.opensWith [';'] text = true ↔ Text.opensWith [';'] statement = true ∨
      (Text.opensWith continuationStarts statement = true ∧
        n.followsUnterminated source = .ok true) := by
  obtain ⟨ends, _, h⟩ := bind_eq_ok_iff.mp h
  -- a semicolon at the end does not change how the statement opens
  have hclosed (chars : List Char) :
      Text.opensWith chars (if ends then statement else statement ++ ";") =
        Text.opensWith chars statement := by
    cases ends with
    | true => rfl
    -- not like the rest of an expression: nothing is put in front
    | false => exact Text.opensWith_append hstatement chars ";"
  simp only at h
  rw [hclosed] at h
  cases hopens : Text.opensWith continuationStarts statement with
  | false =>
    simp only [hopens, Bool.false_eq_true, if_false] at h
    cases h
    simp [hclosed]
  -- like the rest of an expression: what stands before decides
  | true =>
    simp only [hopens, if_true] at h
    obtain ⟨follows, hfollows, h⟩ := bind_eq_ok_iff.mp h
    cases follows with
    | false =>
      cases h
      simp [hclosed, hfollows]
    | true =>
      cases h
      simp [hfollows, Text.opensWith]

/-- The same for a statement that begins with an operand and a blank. -/
theorem opens_guarded_operand_iff {place : Tree.OperandOf} {test : Tree}
    {operand tail text : String} (hoperand : test.asOperand source place = .ok operand)
    (h : n.guarded source (operand ++ (" " ++ tail)) = .ok text) :
    Text.opensWith [';'] text = true ↔ test.OpensOperand source place [';'] ∨
      (test.OpensOperand source place continuationStarts ∧
        n.followsUnterminated source = .ok true) := by
  -- there is at least the blank
  have hstatement : operand ++ (" " ++ tail) ≠ "" := by
    intro hempty
    simpa using congrArg String.toList hempty
  rw [opens_guarded_iff hstatement h, Text.opensWith_append_blank (by decide),
    Text.opensWith_append_blank (by decide), Tree.OpensOperand, Tree.OpensOperand,
    Tree.opens_iff hoperand, Tree.opens_iff hoperand]

end Node

/-! ## §3 What becomes of an `if` -/

/-- A short circuit begins with its left operand. -/
theorem ShortCircuit.of_render {source text : String} {s : ShortCircuit}
    (h : s.render source = .ok text) :
    ∃ left tail, s.left.asOperand source s.operator.operandOf = .ok left ∧
      text = left ++ (" " ++ tail) := by
  obtain ⟨left, hleft, h⟩ := bind_eq_ok_iff.mp h
  obtain ⟨right, _, h⟩ := bind_eq_ok_iff.mp h
  cases h
  exact ⟨left, s.operator.symbol ++ " (" ++ right ++ ")", hleft, by simp only [String.append_assoc]⟩

namespace Conditional

variable {source text : String} {c : Conditional}

/-- A conditional expression begins with its first test, or with a word if it is returned. -/
theorem of_render {test : Tree} {value : ArmValue} {branches : List (Tree × ArmValue)}
    (hbranches : c.branches = (test, value) :: branches) (h : c.render source = .ok text) :
    ∃ lead tail, text = lead ++ (" " ++ tail) ∧
      if c.returned then lead = "return" else test.asOperand source .conditional = .ok lead := by
  obtain ⟨texts, htexts, h⟩ := bind_eq_ok_iff.mp h
  have htext : ∃ otherwise,
      text = (if c.returned then "return " else "") ++ String.join texts ++ otherwise := by
    cases hotherwise : c.otherwise with
    | none =>
      rw [hotherwise] at h
      cases h
      exact ⟨"undefined", rfl⟩
    | some v =>
      rw [hotherwise] at h
      obtain ⟨otherwise, _, h⟩ := bind_eq_ok_iff.mp h
      cases h
      exact ⟨otherwise, rfl⟩
  obtain ⟨otherwise, rfl⟩ := htext
  cases c.returned with
  | true => exact ⟨"return", String.join texts ++ otherwise, by simp [← String.append_assoc], rfl⟩
  | false =>
    -- the first test stands first in the first of the texts that are joined
    rw [hbranches, List.mapM_cons] at htexts
    obtain ⟨first, hfirst, htexts⟩ := bind_eq_ok_iff.mp htexts
    obtain ⟨rest, _, htexts⟩ := bind_eq_ok_iff.mp htexts
    cases htexts
    obtain ⟨left, hleft, hfirst⟩ := bind_eq_ok_iff.mp hfirst
    obtain ⟨arm, _, hfirst⟩ := bind_eq_ok_iff.mp hfirst
    cases hfirst
    refine ⟨left, "? " ++ arm ++ " : " ++ String.join rest ++ otherwise, ?_, hleft⟩
    have hmark : " " ++ "? " = " ? " := rfl
    simp only [← hmark, String.join_cons, String.append_assoc, Bool.false_eq_true, if_false,
      String.empty_append]

/-- A conditional expression has a first test. -/
theorem exists_branch_of_ofIf? {t : Tree} (h : ofIf? t = some c) :
    ∃ test value branches, c.branches = (test, value) :: branches := by
  obtain ⟨chain, _, h⟩ := Option.bind_eq_some_iff.mp h
  obtain ⟨c', hc', h⟩ := Option.bind_eq_some_iff.mp h
  obtain ⟨_, h⟩ := Option.ite_none_right_eq_some.mp h
  cases h
  obtain ⟨branches, _, hc'⟩ := Option.bind_eq_some_iff.mp hc'
  obtain ⟨otherwise, _, hc'⟩ := Option.bind_eq_some_iff.mp hc'
  obtain ⟨⟨test, value⟩, hfirst, hc'⟩ := Option.bind_eq_some_iff.mp hc'
  cases hc'
  obtain ⟨rest, rfl⟩ := List.head?_eq_some_iff.mp hfirst
  exact ⟨test, value, rest, rfl⟩

end Conditional

/-- The two ways to write an `if` as an expression. -/
inductive IfForm where
  | shortCircuit
  | conditional
  deriving Repr, DecidableEq

namespace IfForm

/-- The transform that writes an `if` in this way. -/
def transform : IfForm → Transform
  | .shortCircuit => .ifToBinary
  | .conditional => .ifToTernary

/-- The test with which the expression begins, and the kind of operand that it becomes there. A
conditional expression that is returned begins with a word. -/
def first? (t : Tree) : IfForm → Option (Tree × Tree.OperandOf)
  | .shortCircuit => (ShortCircuit.ofIf? t).map fun s => (s.left, s.operator.operandOf)
  | .conditional => (Conditional.ofIf? t).bind fun c =>
    if c.returned then none else c.branches.head?.map fun branch => (branch.1, .conditional)

variable {source text : String} {n : Node} {form : IfForm}

/-- What is guarded begins with the first test, or with a word if there is none. -/
theorem of_run (hrun : form.transform.run source n = .ok (some (.text text))) :
    ∃ lead tail, n.guarded source (lead ++ (" " ++ tail)) = .ok text ∧
      match form.first? n.tree with
      | some (test, place) => test.asOperand source place = .ok lead
      | none => lead = "return" := by
  cases form with
  -- a short circuit always begins with its left operand
  | shortCircuit =>
    obtain ⟨s, _, hs, hrender, hreplacement⟩ := Reshaping.ofShape_eq_ok_some_iff.mp hrun
    cases hreplacement
    obtain ⟨statement, hstatement, hguarded⟩ := bind_eq_ok_iff.mp hrender
    obtain ⟨left, tail, hleft, rfl⟩ := ShortCircuit.of_render hstatement
    exact ⟨left, tail, hguarded, by simpa [first?, hs] using hleft⟩
  | conditional =>
    obtain ⟨c, _, hc, hrender, hreplacement⟩ := Reshaping.ofShape_eq_ok_some_iff.mp hrun
    cases hreplacement
    obtain ⟨statement, hstatement, hguarded⟩ := bind_eq_ok_iff.mp hrender
    obtain ⟨test, value, branches, hbranches⟩ := Conditional.exists_branch_of_ofIf? hc
    obtain ⟨lead, tail, rfl, hlead⟩ := Conditional.of_render hbranches hstatement
    refine ⟨lead, tail, hguarded, ?_⟩
    -- behind `return` there is no first test to be taken for something else
    cases hreturned : c.returned with
    | true => simpa [first?, hc, hreturned] using hlead
    | false => simpa [first?, hc, hreturned, hbranches] using hlead

/-- What replaces an `if` opens with a semicolon if its first test does, or opens like the rest of
an expression and stands behind something that is not terminated. -/
theorem opens_iff_of_run (hrun : form.transform.run source n = .ok (some (.text text))) :
    Text.opensWith [';'] text = true ↔ ∃ test place, form.first? n.tree = some (test, place) ∧
      (test.OpensOperand source place [';'] ∨
        (test.OpensOperand source place continuationStarts ∧
          n.followsUnterminated source = .ok true)) := by
  obtain ⟨lead, tail, hguarded, hlead⟩ := of_run hrun
  cases hfirst : form.first? n.tree with
  | some first =>
    obtain ⟨test, place⟩ := first
    rw [hfirst] at hlead
    simpa using Node.opens_guarded_operand_iff hlead hguarded
  | none =>
    -- a word opens neither with a semicolon nor like the rest of an expression
    rw [hfirst] at hlead
    obtain rfl : lead = "return" := hlead
    have hword {chars : List Char} (hr : 'r' ∉ chars) :
        Text.opensWith chars ("return" ++ (" " ++ tail)) = false := by
      simp [Text.opensWith, hr]
    simp [Node.opens_guarded_iff (by simp) hguarded, hword, continuationStarts]

/-- An `if` under a parent is replaced by a text that opens with a semicolon if and only if its
first test is written first and opens like the rest of an expression, and the last construct before
it under that parent is not terminated. (A test that opens with a semicolon by itself counts, too;
no expression does.) Nothing else is asked about that construct. So in the body of a loop or of an
`if` whose header ends with a parenthesis the test alone decides, and the semicolon is all the body
that is left. -/
theorem opens_with_guard_iff {owner : Tree} {index : Nat} (hplace : n.place? = some ⟨owner, index⟩)
    (hrun : form.transform.run source n = .ok (some (.text text))) :
    (Text.opensWith [';'] text = true ↔ ∃ test place, form.first? n.tree = some (test, place) ∧
      (test.OpensOperand source place [';'] ∨
        (test.OpensOperand source place continuationStarts ∧
          ∃ previous, (owner.children.take index).reverse.find? Tree.isCode = some previous ∧
            previous.IsUnterminated source))) ∧
    ∀ header body, (owner.children.take index).reverse.find? Tree.isCode = some header →
      header.text source = .ok body → Text.endsWith ')' body = true →
      (Text.opensWith [';'] text = true ↔ ∃ test place, form.first? n.tree = some (test, place) ∧
        (test.OpensOperand source place [';'] ∨
          test.OpensOperand source place continuationStarts)) := by
  have hprevious : n.previousCode? = (owner.children.take index).reverse.find? Tree.isCode := by
    simp [Node.previousCode?, hplace]
  rw [← hprevious, ← Node.followsUnterminated_iff]
  refine ⟨opens_iff_of_run hrun, ?_⟩
  intro header body hheader hbody hparen
  -- the header ends with a parenthesis, so one of the two questions is answered
  have hfollows : n.followsUnterminated source = .ok true :=
    Node.followsUnterminated_iff.mpr
      ⟨header, hheader, Tree.isUnterminated_of_endsWith_paren hbody hparen⟩
  rw [opens_iff_of_run hrun]
  simp only [hfollows, and_true]

end IfForm

namespace Sample

/-- A token. -/
def mark (kind : String) (start stop : Nat) : Tree :=
  .node { kind, span := ⟨start, stop⟩, named := false } [] []

/-- A construct made of its parts. -/
def construct (kind : String) (start stop : Nat) (fields : List (String × Nat))
    (parts : List Tree) : Tree :=
  .node { kind, span := ⟨start, stop⟩ } fields parts

/-- `()`. -/
def noParameters (start : Nat) : Tree :=
  construct "formal_parameters" start (start + 2) []
    [mark "(" start (start + 1), mark ")" (start + 1) (start + 2)]

/-- `if (test) go()` from the 10th byte on, where the test covers the text from the 14th byte on. -/
def unbracedIf (test : Tree) : Tree :=
  let stop := test.span.stop
  let call := construct "call_expression" (stop + 2) (stop + 6) [("function", 0), ("arguments", 1)]
    [construct "identifier" (stop + 2) (stop + 4) [] [],
      construct "arguments" (stop + 4) (stop + 6) [] []]
  construct "if_statement" 10 (stop + 6) [("condition", 1), ("consequence", 2)]
    [mark "if" 10 12,
      construct "parenthesized_expression" 13 (stop + 1) []
        [mark "(" 13 14, test, mark ")" stop (stop + 1)],
      construct "expression_statement" (stop + 2) (stop + 6) [] [call]]

/-- `(x)` between two offsets. -/
def header (start stop : Nat) : Tree :=
  construct "parenthesized_expression" start stop []
    [mark "(" start (start + 1), construct "identifier" (start + 1) (stop - 1) [] [],
      mark ")" (stop - 1) stop]

/-- `while (x) if (test) go()`. -/
def unbracedLoop (test : Tree) : Tree :=
  construct "while_statement" 0 (test.span.stop + 6) [("condition", 1), ("body", 2)]
    [mark "while" 0 5, header 6 9, unbracedIf test]

/-- The body of that loop. -/
def unbracedBody (test : Tree) : Node := (Node.root (unbracedLoop test)).child 2 (unbracedIf test)

/-- The test `a = b`. -/
def assignedTest : Tree :=
  construct "assignment_expression" 14 19 [("left", 0), ("right", 2)]
    [construct "identifier" 14 15 [] [], mark "=" 16 17, construct "identifier" 18 19 [] []]

/-- The test `a || b`. -/
def eitherTest : Tree :=
  construct "binary_expression" 14 20 [("left", 0), ("operator", 1), ("right", 2)]
    [construct "identifier" 14 15 [] [], mark "||" 16 18, construct "identifier" 19 20 [] []]

end Sample

/-- An assignment as a test is written in parentheses, and the header of a loop ends with one. -/
theorem IfForm.opens_with_guard_iff_assigned :
    let n := Sample.unbracedBody Sample.assignedTest
    let source := "while (x) if (a = b) go()"
    n.place? = some ⟨Sample.unbracedLoop Sample.assignedTest, 2⟩ ∧
      IfForm.conditional.transform.run source n =
        .ok (some (.text ";(a = b) ? (go()) : undefined")) ∧
      ∃ test place, IfForm.conditional.first? n.tree = some (test, place) ∧
        (test.OpensOperand source place [';'] ∨
          test.OpensOperand source place continuationStarts) := by
  intro n source
  have hplace : n.place? = some ⟨Sample.unbracedLoop Sample.assignedTest, 2⟩ := rfl
  have hrun : IfForm.conditional.transform.run source n =
      .ok (some (.text ";(a = b) ? (go()) : undefined")) := by
    -- the tree is closed, and the transform is evaluated on it
    with_unfolding_all decide
  have hopens :=
    (opens_with_guard_iff hplace hrun).2 (Sample.header 6 9) "(x)" rfl (by decide) (by decide)
  exact ⟨hplace, hrun, hopens.mp (by decide)⟩

/-- The body of a loop becomes an empty statement, and what it should have done stands behind the
loop. -/
theorem IfForm.guard_takes_the_place_of_the_body :
    let n := Sample.unbracedBody Sample.eitherTest
    n.isField "body" = true ∧ n.parent?.map Tree.kind = some "while_statement" ∧
      IfForm.shortCircuit.transform.run "while (x) if (a || b) go()" n =
        .ok (some (.text ";(a || b) && (go())")) := by
  with_unfolding_all decide

end CodeActions
