import CodeActions.Proofs.Branch
import CodeActions.Proofs.Statement.Guard
import Mathlib.Data.List.Chain
import Mathlib.Data.List.Forall2

/-!
# Statements on lines of their own

A short circuit or a conditional expression that becomes an `if` has its comma sequences taken
apart: each element is a statement on a line of its own. No semicolon is written. So a line that
opens like the rest of an expression goes on with the line before, and that happens exactly if the
element itself opens so, or is put in parentheses to be a statement at all. An element that is
returned is safe, since its line opens with a word.

Main statements: `IfStatement.of_render`, the blocks of an `if` statement as they are written, and
`HiddenIf.statements_stay_apart_iff`, the statements of a block stay apart exactly if the elements
of its comma sequence do.
-/

namespace CodeActions

/-! ## §1 Lists of texts -/

/-- Neighbours in one list are related exactly if those in the other are, if that holds of each two
pairs. -/
theorem isChain_iff_of_forall₂ {α β : Type} {P : α → β → Prop} {R : α → α → Prop} {S : β → β → Prop}
    (hrel : ∀ {x x' y y'}, P x y → P x' y' → (R x x' ↔ S y y')) {xs : List α} {ys : List β}
    (h : List.Forall₂ P xs ys) : xs.IsChain R ↔ ys.IsChain S := by
  induction h with
  | nil => simp
  | cons hxy htail ih =>
    cases htail with
    | nil => simp
    | cons hxy' htail => rw [List.isChain_cons_cons, List.isChain_cons_cons, hrel hxy hxy', ih]

/-! ## §2 Neighbouring lines -/

/-- The statements stay apart on neighbouring lines: the second one does not open like the rest of
an expression, unless a semicolon ends the first. -/
def StayApart (before after : String) : Prop :=
  Text.opensWith continuationStarts after = true → before.toList.getLast? = some ';'

instance (before after : String) : Decidable (StayApart before after) :=
  inferInstanceAs (Decidable (_ → _))

namespace Tree

/-- Written with parentheses or without them, the expression ends with the character. -/
def Ends (source : String) (parens : Bool) (mark : Char) (t : Tree) : Prop :=
  if parens then mark = ')'
  else ∃ text, t.text source = .ok text ∧ text.toList.getLast? = some mark

theorem ends_iff {source text : String} {parens : Bool} {t : Tree}
    (h : t.textIn source parens = .ok text) (mark : Char) :
    t.Ends source parens mark ↔ text.toList.getLast? = some mark := by
  obtain ⟨body, hbody, h⟩ := bind_eq_ok_iff.mp h
  cases h
  cases parens with
  -- in parentheses it ends with the closing one
  | true =>
    have hlast : ("(" ++ body ++ ")").toList.getLast? = some ')' := by
      rw [String.toList_append]
      exact List.getLast?_concat
    rw [Ends, if_pos rfl, if_pos rfl, hlast, Option.some.injEq, eq_comm]
  | false => simp [Ends, hbody]

end Tree

namespace Line

/-- The expression is put in parentheses, since it would be taken for something else as a
statement. -/
def inParens : Line → Bool
  | .statement expression => Tree.statementKeywords.contains expression.leftmost.kind
  | .result _ => false

/-- The line opens like the rest of an expression. One that returns opens with a word. -/
def Continues (source : String) (line : Line) : Prop :=
  match line with
  | .statement expression => expression.Opens source line.inParens continuationStarts
  | .result _ => False

/-- The expression brings the semicolon at the end of the line. -/
def IsEnded (source : String) (line : Line) : Prop :=
  line.expression.Ends source line.inParens ';'

/-- The lines stay apart as neighbours. -/
def StayApart (source : String) (before after : Line) : Prop :=
  after.Continues source → before.IsEnded source

variable {source statement : String} {line : Line}

theorem continues_iff (h : line.render source = .ok statement) :
    line.Continues source ↔ Text.opensWith continuationStarts statement = true := by
  cases line with
  | statement expression => exact Tree.opens_iff h _
  -- the line opens with a word
  | result expression =>
    obtain ⟨text, _, h⟩ := bind_eq_ok_iff.mp h
    cases h
    simp [Continues, Text.opensWith, continuationStarts]

theorem isEnded_iff (h : line.render source = .ok statement) :
    line.IsEnded source ↔ statement.toList.getLast? = some ';' := by
  cases line with
  | statement expression => exact Tree.ends_iff h _
  | result expression =>
    obtain ⟨text, htext, h⟩ := bind_eq_ok_iff.mp h
    cases h
    -- the last character is that of the expression, or the blank behind the word if there is none
    have hlast : ("return " ++ text).toList.getLast? = some ';' ↔
        text.toList.getLast? = some ';' := by
      rw [String.toList_append, List.getLast?_append]
      cases text.toList.getLast? <;> simp
    rw [hlast]
    simp [IsEnded, inParens, Line.expression, Tree.Ends, htext]

/-- The statements of a block stay apart exactly if its lines do. -/
theorem isChain_stayApart_iff {lines : List Line} {statements : List String}
    (h : lines.mapM (render source) = .ok statements) :
    statements.IsChain CodeActions.StayApart ↔ lines.IsChain (StayApart source) := by
  refine (isChain_iff_of_forall₂ ?_ (mapM_eq_ok_iff.mp h)).symm
  intro before after statement statement' hbefore hafter
  exact imp_congr (continues_iff hafter) (isEnded_iff hbefore)

end Line

/-! ## §3 Blocks -/

namespace IfStatement

/-- The lines of the blocks in order. -/
def blocks (s : IfStatement) : List (List Line) := s.branches.map Prod.snd ++ s.otherwise.toList

/-- An `if` statement is written as its blocks, each behind a head of its own. -/
theorem of_render {source text : String} {s : IfStatement} (h : s.render source = .ok text) :
    ∃ parts, text = " else ".intercalate parts ∧
      List.Forall₂ (fun lines part =>
        ∃ head block, Line.block source lines = .ok block ∧ part = head ++ block)
        s.blocks parts := by
  obtain ⟨branches, hbranches, h⟩ := bind_eq_ok_iff.mp h
  obtain ⟨otherwise, hotherwise, h⟩ := bind_eq_ok_iff.mp h
  cases h
  refine ⟨branches ++ otherwise, rfl, List.rel_append ?_ ?_⟩
  · -- the head of a branch is its test
    refine List.forall₂_map_left_iff.mpr ((mapM_eq_ok_iff.mp hbranches).imp ?_)
    intro branch part hpart
    obtain ⟨test, _, hpart⟩ := bind_eq_ok_iff.mp hpart
    obtain ⟨block, hblock, hpart⟩ := bind_eq_ok_iff.mp hpart
    cases hpart
    exact ⟨"if (" ++ test ++ ") ", block, hblock, rfl⟩
  · -- the block of an `else` has no test, and so an empty head
    refine (mapM_eq_ok_iff.mp hotherwise).imp ?_
    intro lines part hpart
    exact ⟨"", part, hpart, by simp⟩

@[simp] theorem blocks_ofChain (body : Tree → List Line) (chain : Chain) :
    (ofChain body chain).blocks = chain.bodies.map body := by
  cases h : chain.otherwise <;> simp [blocks, ofChain, Chain.bodies, h]

end IfStatement

/-! ## §4 `if` statements in disguise -/

/-- The expressions that become `if` statements. -/
inductive HiddenIf where
  | shortCircuit
  | conditional
  | returnedConditional
  deriving Repr, DecidableEq

namespace HiddenIf

/-- The transform that writes the statement. -/
def transform : HiddenIf → Transform
  | .shortCircuit => .binaryToIf
  | .conditional => .ternaryToIf
  | .returnedConditional => .returnTernaryToIf

/-- The expressions that become the blocks of the statement. -/
def bodies? (t : Tree) : HiddenIf → Option (List Tree)
  | .shortCircuit => (t.field? "right").map fun right => [right]
  | .conditional => t.ternaryChain?.map fun chain => (IfStatement.dropUndefined chain).bodies
  | .returnedConditional => t.firstCode?.bind fun value =>
      value.unwrapParens.ternaryChain?.map Chain.bodies

/-- The lines for such an expression. -/
def lines : HiddenIf → Tree → List Line
  | .shortCircuit => IfStatement.lines
  | .conditional => IfStatement.lines
  | .returnedConditional => IfStatement.returningLines

variable {source : String} {n : Node} {replacement : Replacement} {form : HiddenIf}

theorem of_run (hrun : form.transform.run source n = .ok (some replacement)) :
    ∃ bodies s text, form.bodies? n.tree = some bodies ∧ s.blocks = bodies.map form.lines ∧
      IfStatement.render source s = .ok text ∧ replacement = .text text := by
  -- each form finds its expressions in another way, and writes them in the same
  cases form with
  | shortCircuit =>
    obtain ⟨s, text, hs, hrender, hreplacement⟩ := Reshaping.ofShape_eq_ok_some_iff.mp hrun
    obtain ⟨_, hs⟩ := Option.ite_none_right_eq_some.mp hs
    obtain ⟨symbol, _, hs⟩ := Option.bind_eq_some_iff.mp hs
    obtain ⟨operator, _, hs⟩ := Option.bind_eq_some_iff.mp hs
    obtain ⟨left, _, hs⟩ := Option.bind_eq_some_iff.mp hs
    obtain ⟨right, hright, hs⟩ := Option.bind_eq_some_iff.mp hs
    cases hs
    exact ⟨[right], _, text, by simp [bodies?, hright], rfl, hrender, hreplacement⟩
  | conditional =>
    obtain ⟨s, text, hs, hrender, hreplacement⟩ := Reshaping.ofShape_eq_ok_some_iff.mp hrun
    obtain ⟨chain, hchain, rfl⟩ := Option.map_eq_some_iff.mp hs
    exact ⟨(IfStatement.dropUndefined chain).bodies, _, text, by simp [bodies?, hchain],
      IfStatement.blocks_ofChain _ _, hrender, hreplacement⟩
  | returnedConditional =>
    obtain ⟨s, text, hs, hrender, hreplacement⟩ := Reshaping.ofShape_eq_ok_some_iff.mp hrun
    obtain ⟨_, hs⟩ := Option.ite_none_right_eq_some.mp hs
    obtain ⟨value, hvalue, hs⟩ := Option.bind_eq_some_iff.mp hs
    obtain ⟨chain, hchain, hs⟩ := Option.bind_eq_some_iff.mp hs
    cases hs
    exact ⟨chain.bodies, _, text, by simp [bodies?, hvalue, hchain],
      IfStatement.blocks_ofChain _ _, hrender, hreplacement⟩

/-- Each comma sequence becomes a block, one statement to a line, and the statements of a block stay
apart if and only if the elements of its sequence do: none but the first opens like the rest of an
expression, by itself or in the parentheses that it gets as a statement, unless the element before
it brings its own semicolon. -/
theorem statements_stay_apart_iff (hrun : form.transform.run source n = .ok (some replacement)) :
    ∃ bodies parts, form.bodies? n.tree = some bodies ∧
      replacement = .text (" else ".intercalate parts) ∧
      List.Forall₂ (fun body part => ∃ head statements,
        part = head ++ "\x7b\n" ++ "\n".intercalate statements ++ "\n\x7d" ∧
        (form.lines body).mapM (Line.render source) = .ok statements ∧
        (statements.IsChain StayApart ↔ (form.lines body).IsChain (Line.StayApart source)))
        bodies parts := by
  obtain ⟨bodies, s, text, hbodies, hblocks, hrender, rfl⟩ := of_run hrun
  obtain ⟨parts, rfl, hparts⟩ := IfStatement.of_render hrender
  rw [hblocks, List.forall₂_map_left_iff] at hparts
  refine ⟨bodies, parts, hbodies, rfl, hparts.imp ?_⟩
  intro body part hpart
  obtain ⟨head, block, hblock, rfl⟩ := hpart
  obtain ⟨statements, hstatements, hblock⟩ := bind_eq_ok_iff.mp hblock
  cases hblock
  exact ⟨head, statements, by simp only [String.append_assoc], hstatements,
    Line.isChain_stayApart_iff hstatements⟩

end HiddenIf

namespace Sample

/-- `c ? (f(), function () {}) : g()`. -/
def functionTernary : Tree :=
  let function := construct "function_expression" 10 24 [("parameters", 1), ("body", 2)]
    [mark "function" 10 18, construct "formal_parameters" 19 21 [] [],
      construct "statement_block" 22 24 [] []]
  let both := construct "sequence_expression" 5 24 []
    [construct "call_expression" 5 8 [] [], mark "," 8 9, function]
  construct "ternary_expression" 0 31 [("condition", 0), ("consequence", 2), ("alternative", 4)]
    [construct "identifier" 0 1 [] [], mark "?" 2 3,
      construct "parenthesized_expression" 4 25 [] [mark "(" 4 5, both, mark ")" 24 25],
      mark ":" 26 27, construct "call_expression" 28 31 [] []]

/-- `c && (f(), [1].map(g))`. -/
def arrayCircuit : Tree :=
  let both := construct "sequence_expression" 6 21 []
    [construct "call_expression" 6 9 [] [], mark "," 9 10, construct "call_expression" 11 21 [] []]
  construct "binary_expression" 0 22 [("left", 0), ("operator", 1), ("right", 2)]
    [construct "identifier" 0 1 [] [], mark "&&" 2 4,
      construct "parenthesized_expression" 5 22 [] [mark "(" 5 6, both, mark ")" 21 22]]

end Sample

namespace HiddenIf

/-- A function is put in parentheses, and the line before it becomes its call. -/
theorem statements_stay_apart_iff_function :
    let source := "c ? (f(), function () \x7b\x7d) : g()"
    let n := Node.root Sample.functionTernary
    HiddenIf.conditional.transform.run source n =
      .ok (some (.text "if (c) \x7b\nf()\n(function () \x7b\x7d)\n\x7d else \x7b\ng()\n\x7d")) ∧
    ∃ bodies parts, HiddenIf.conditional.bodies? n.tree = some bodies ∧
      Replacement.text "if (c) \x7b\nf()\n(function () \x7b\x7d)\n\x7d else \x7b\ng()\n\x7d" =
        .text (" else ".intercalate parts) ∧
      List.Forall₂ (fun body part => ∃ head statements,
        part = head ++ "\x7b\n" ++ "\n".intercalate statements ++ "\n\x7d" ∧
        (HiddenIf.conditional.lines body).mapM (Line.render source) = .ok statements ∧
        (statements.IsChain StayApart ↔
          (HiddenIf.conditional.lines body).IsChain (Line.StayApart source))) bodies parts := by
  intro source n
  have hrun : HiddenIf.conditional.transform.run source n =
      .ok (some (.text "if (c) \x7b\nf()\n(function () \x7b\x7d)\n\x7d else \x7b\ng()\n\x7d")) := by
    with_unfolding_all decide
  exact ⟨hrun, statements_stay_apart_iff hrun⟩

/-- The second line goes on with the first: the result is a single call. -/
theorem second_line_continues_first :
    HiddenIf.shortCircuit.transform.run "c && (f(), [1].map(g))" (.root Sample.arrayCircuit) =
      .ok (some (.text ("if (c) \x7b\n" ++ "\n".intercalate ["f()", "[1].map(g)"] ++ "\n\x7d"))) ∧
    ¬ ["f()", "[1].map(g)"].IsChain StayApart := by
  with_unfolding_all decide

end HiddenIf

end CodeActions
