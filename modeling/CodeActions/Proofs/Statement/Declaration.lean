import CodeActions.Proofs.Action
import CodeActions.Proofs.Branch.Lines

/-!
# Where a declaration is split

A declaration that becomes several has to stand where several statements can stand. The branch of an
`if`, the body of a loop and the statement behind a label are single statements unless they are
blocks: of several declarations only the first is left in such a place. Of all these places a
declaration is refused in two, the bodies of the `for` loops, since it is the kind of its parent
that is looked at.

Main statements: `Declaration.exists_ofNode?_iff`, when a declaration can be taken apart at all, and
`Declaration.splits_sole_statement_iff`, when it is split in a place for a single statement.
-/

namespace CodeActions

/-! ## §1 Declarations that are split -/

namespace Node

/-- The variables of a declaration, each with its value. -/
def declarators (n : Node) : List Tree :=
  n.tree.namedChildren.filter fun t => t.kind == "variable_declarator"

/-- A declaration of two variables or more without comments. -/
def isSplittable (n : Node) : Bool :=
  Declaration.kinds.contains n.kind && !n.tree.namedChildren.any (fun t => t.kind == "comment") &&
    decide (2 ≤ n.declarators.length)

theorem two_le_declarators {n : Node} (h : n.isSplittable = true) : 2 ≤ n.declarators.length :=
  of_decide_eq_true (Bool.and_eq_true_iff.mp h).2

end Node

namespace Declaration

variable {source : String} {n : Node} {d : Declaration}

/-- The shape of a declaration is its first child and its variables. -/
theorem ofNode?_eq_some_iff : ofNode? n = some d ↔
    (n.isSplittable = true ∧ n.isSingleDeclaration = false) ∧
      n.tree.children.head? = some d.keyword ∧ d.declarators = n.declarators := by
  obtain ⟨keyword, declarators⟩ := d
  have hshape : ofNode? n = if n.isSplittable = true ∧ n.isSingleDeclaration = false then
      n.tree.children.head?.map fun keyword => ⟨keyword, n.declarators⟩ else none := by
    -- the conditions are tested in another order than they are named
    unfold ofNode? Node.isSplittable Node.declarators
    simp only [Bool.and_eq_true, decide_eq_true_eq, Bool.not_eq_true']
    congr 1
    · simp only [eq_iff_iff]
      tauto
    · cases n.tree.children.head? <;> rfl
  rw [hshape, Option.ite_none_right_eq_some, Option.map_eq_some_iff]
  simp only [Declaration.mk.injEq]
  grind

/-- A declaration is taken apart exactly if it has variables to take apart and is not refused for
its parent. -/
theorem exists_ofNode?_iff :
    (∃ d, ofNode? n = some d) ↔ n.isSplittable = true ∧ n.isSingleDeclaration = false := by
  constructor
  · rintro ⟨d, hd⟩
    exact (ofNode?_eq_some_iff.mp hd).1
  · intro h
    -- its variables are children, so there is a first child
    have hlength := Node.two_le_declarators h.1
    cases hchildren : n.tree.children with
    | nil => simp [Node.declarators, Tree.namedChildren, hchildren] at hlength
    | cons keyword rest =>
      exact ⟨⟨keyword, n.declarators⟩, ofNode?_eq_some_iff.mpr ⟨h, by simp [hchildren], rfl⟩⟩

/-- A declaration that is split becomes one line for each variable, with the keyword in front of
each. -/
theorem of_render {text : String} (h : d.render source n = .ok text) :
    ∃ indent keyword terminator lines, text = ("\n" ++ indent).intercalate lines ∧
      List.Forall₂ (fun declarator line => ∃ body, declarator.text source = .ok body ∧
        line = keyword ++ " " ++ body ++ terminator) d.declarators lines := by
  -- keyword, terminator and indentation are read once, before the first line
  obtain ⟨keyword, _, h⟩ := bind_eq_ok_iff.mp h
  obtain ⟨whole, _, h⟩ := bind_eq_ok_iff.mp h
  obtain ⟨indent, _, h⟩ := bind_eq_ok_iff.mp h
  obtain ⟨lines, hlines, h⟩ := bind_eq_ok_iff.mp h
  cases h
  refine ⟨indent, keyword, if Text.endsWith ';' whole then ";" else "", lines, rfl, ?_⟩
  refine (mapM_eq_ok_iff.mp hlines).imp ?_
  intro declarator line hline
  obtain ⟨body, hbody, hline⟩ := bind_eq_ok_iff.mp hline
  cases hline
  exact ⟨body, hbody, rfl⟩

end Declaration

/-! ## §2 Places for a single statement -/

/-- The places where a single statement stands, unless it is a block. -/
inductive SolePlace where
  /-- The branch of an `if`. -/
  | consequence
  /-- The statement of an `else`. -/
  | otherwise
  | whileBody
  | doBody
  | forBody
  | forInBody
  | withBody
  | labeledBody
  deriving Repr, DecidableEq

namespace SolePlace

/-- The construct that the statement belongs to. -/
def owner : SolePlace → String
  | consequence => "if_statement"
  | otherwise => "else_clause"
  | whileBody => "while_statement"
  | doBody => "do_statement"
  | forBody => "for_statement"
  | forInBody => "for_in_statement"
  | withBody => "with_statement"
  | labeledBody => "labeled_statement"

/-- The position of the statement among the children of its owner. An `else` has no name for it. -/
def index? (owner : Tree) : SolePlace → Option Nat
  | consequence => owner.fieldIndex? "consequence"
  | otherwise => owner.children.findIdx? Tree.isCode
  | _ => owner.fieldIndex? "body"

end SolePlace

/-- The node is the single statement of its parent. -/
def Node.StandsAt (n : Node) (sole : SolePlace) : Prop :=
  ∃ place, n.place? = some place ∧ place.parent.kind = sole.owner ∧
    sole.index? place.parent = some place.index

/-- The parent is looked at, but not what the node is in it. -/
theorem Node.isSingleDeclaration_iff {n : Node} {sole : SolePlace} (h : n.StandsAt sole) :
    n.isSingleDeclaration = true ↔ sole = .forBody ∨ sole = .forInBody := by
  obtain ⟨place, hplace, howner, _⟩ := h
  simp only [isSingleDeclaration, parent?, hplace, Option.map_some, howner]
  -- of the owners only the two loops are in the list
  cases sole <;> decide

/-- In a place for a single statement a declaration of several variables is split if and only if the
place is not the body of a `for` loop. What is put there is a line for each variable, two at the
least, and only the first of them is left in the place. -/
theorem Declaration.splits_sole_statement_iff {source : String} {n : Node} {sole : SolePlace}
    (hn : n.Fits source) (hplace : n.StandsAt sole) :
    ∃ answer, Transform.splitDeclaration.run source n = .ok answer ∧
      (answer.isSome = true ↔ n.isSplittable = true ∧ sole ≠ .forBody ∧ sole ≠ .forInBody) ∧
      ∀ replacement ∈ answer, ∃ indent keyword terminator first second rest,
        replacement = .text (("\n" ++ indent).intercalate (first :: second :: rest)) ∧
        List.Forall₂ (fun declarator line => ∃ body, declarator.text source = .ok body ∧
          line = keyword ++ " " ++ body ++ terminator) n.declarators (first :: second :: rest) := by
  have hsingle : n.isSingleDeclaration = false ↔ sole ≠ .forBody ∧ sole ≠ .forInBody := by
    rw [← not_or, ← Node.isSingleDeclaration_iff hplace, Bool.not_eq_true]
  rw [← hsingle, ← exists_ofNode?_iff]
  cases hshape : ofNode? n with
  -- not taken apart: nothing is offered, whatever the reason is
  | none =>
    refine ⟨none, ?_, by simp, by simp⟩
    show Reshaping.ofShape (ofNode? n) (render source n) = .ok none
    rw [hshape]
    rfl
  -- taken apart: the parts of a fitting declaration can always be written
  | some d =>
    obtain ⟨⟨hsplittable, _⟩, _, hdeclarators⟩ := ofNode?_eq_some_iff.mp hshape
    obtain ⟨text, htext⟩ := succeeds_render hn hshape
    refine ⟨some (.text text), Reshaping.ofShape_eq_ok_some_iff.mpr ⟨d, text, hshape, htext, rfl⟩,
      by simp, ?_⟩
    obtain ⟨indent, keyword, terminator, lines, rfl, hlines⟩ := of_render htext
    rw [hdeclarators] at hlines
    -- there are as many lines as variables
    have hlength : 2 ≤ lines.length := hlines.length_eq ▸ Node.two_le_declarators hsplittable
    obtain ⟨first, second, rest, rfl⟩ : ∃ first second rest, lines = first :: second :: rest := by
      match lines, hlength with
      | first :: second :: rest, _ => exact ⟨first, second, rest, rfl⟩
    intro replacement hreplacement
    obtain rfl := Option.mem_some_iff.mp hreplacement
    exact ⟨indent, keyword, terminator, first, second, rest, rfl, hlines⟩

namespace Sample

/-- `var a = 1, b = f()` from an offset on. -/
def twoVariables (start : Nat) : Tree :=
  construct "variable_declaration" start (start + 18) []
    [mark "var" start (start + 3),
      construct "variable_declarator" (start + 4) (start + 9) [("name", 0), ("value", 2)]
        [construct "identifier" (start + 4) (start + 5) [] [], mark "=" (start + 6) (start + 7),
          construct "number" (start + 8) (start + 9) [] []],
      mark "," (start + 9) (start + 10),
      construct "variable_declarator" (start + 11) (start + 18) [("name", 0), ("value", 2)]
        [construct "identifier" (start + 11) (start + 12) [] [], mark "=" (start + 13) (start + 14),
          construct "call_expression" (start + 15) (start + 18) [] []]]

/-- `if (x) var a = 1, b = f()`. -/
def declaringIf : Tree :=
  construct "if_statement" 0 25 [("condition", 1), ("consequence", 2)]
    [mark "if" 0 2, header 3 6, twoVariables 7]

/-- `for (x of y) var a = 1, b = f()`. -/
def declaringLoop : Tree :=
  construct "for_in_statement" 0 31 [("left", 2), ("operator", 3), ("right", 4), ("body", 6)]
    [mark "for" 0 3, mark "(" 4 5, construct "identifier" 5 6 [] [], mark "of" 7 9,
      construct "identifier" 10 11 [] [], mark ")" 11 12, twoVariables 13]

end Sample

namespace Declaration

/-- The body of a loop over the elements of something is left alone. -/
theorem splits_sole_statement_iff_loop :
    let source := "for (x of y) var a = 1, b = f()"
    let n := (Node.root Sample.declaringLoop).child 6 (Sample.twoVariables 13)
    n.Fits source ∧ n.StandsAt .forInBody ∧ n.isSplittable = true ∧
      Transform.splitDeclaration.run source n = .ok none := by
  intro source n
  have hroot : Sample.declaringLoop.Fits source := .of_fitsPlainly (by decide)
  have hn : n.Fits source := (Node.Fits.root hroot).child (List.mem_of_getElem? (i := 6) rfl)
  have hplace : n.StandsAt .forInBody := ⟨⟨Sample.declaringLoop, 6⟩, rfl, rfl, rfl⟩
  obtain ⟨answer, hrun, hsome, _⟩ := splits_sole_statement_iff hn hplace
  -- the declaration is refused, although nothing is wrong with it
  obtain rfl : answer = none := by simpa using hsome
  exact ⟨hn, hplace, by decide, hrun⟩

/-- The second variable leaves the branch of an `if`, and its value is computed in any case. -/
theorem second_declaration_leaves_branch :
    let n := (Node.root Sample.declaringIf).child 2 (Sample.twoVariables 7)
    n.StandsAt .consequence ∧ Transform.splitDeclaration.run "if (x) var a = 1, b = f()" n =
      .ok (some (.text "var a = 1\nvar b = f()")) :=
  ⟨⟨⟨Sample.declaringIf, 2⟩, rfl, rfl, rfl⟩, by decide⟩

end Declaration

end CodeActions
