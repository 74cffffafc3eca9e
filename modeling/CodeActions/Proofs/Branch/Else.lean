import CodeActions.Proofs.Branch.Lines

/-!
# Whose `else` it is

An `else` belongs to the nearest `if` before it that has none yet. So an expression that becomes an
`if` without `else` takes over the `else` of a statement around it, if it is the branch of one.
Which `if` statements are written without `else` is seen from the expression alone, and where it
stands is not looked at.

Main statements: `Reads.unique`, an `else` is read in one way only, `reads_chain_before_else_iff`, a
chain of `if` statements takes the `else` behind it unless it has its own, and
`HiddenIf.takes_outer_else_iff`, when the `else` of the statement around an expression is taken
over.
-/

namespace CodeActions

/-! ## §1 Reading statements with `else` -/

/-- What a statement consists of as far as its `else`s are concerned. -/
inductive ElseToken where
  /-- The test of an `if`. -/
  | test (text : String)
  /-- A statement that is read as a whole, such as a block. -/
  | whole (text : String)
  /-- The word `else`. -/
  | otherwise
  deriving Repr, DecidableEq

/-- How the tokens of an `if` statement are written. -/
def ElseToken.text : ElseToken → String
  | test text => "if (" ++ text ++ ") "
  | whole text => text
  | otherwise => " else "

/-- A statement that has been read. -/
inductive Branching where
  | whole (text : String)
  /-- An `if` without `else`. -/
  | short (test : String) (yes : Branching)
  /-- An `if` with its `else`. -/
  | full (test : String) (yes no : Branching)
  deriving Repr, DecidableEq

/-- The tokens begin with the statement, and the others are left. An `if` has no `else` only if none
follows. -/
inductive Reads : List ElseToken → Branching → List ElseToken → Prop where
  | whole {text : String} {rest : List ElseToken} : Reads (.whole text :: rest) (.whole text) rest
  | short {test : String} {tokens rest : List ElseToken} {yes : Branching}
      (branch : Reads tokens yes rest) (last : rest.head? ≠ some .otherwise) :
      Reads (.test test :: tokens) (.short test yes) rest
  | full {test : String} {tokens middle rest : List ElseToken} {yes no : Branching}
      (branch : Reads tokens yes (.otherwise :: middle)) (other : Reads middle no rest) :
      Reads (.test test :: tokens) (.full test yes no) rest

/-- Tokens are read in one way only. -/
theorem Reads.unique {tokens rest rest' : List ElseToken} {s s' : Branching}
    (h : Reads tokens s rest) (h' : Reads tokens s' rest') : s = s' ∧ rest = rest' := by
  induction h generalizing s' rest' with
  | whole =>
    cases h'
    exact ⟨rfl, rfl⟩
  | short branch last ih =>
    cases h' with
    | short branch' _ =>
      obtain ⟨rfl, rfl⟩ := ih branch'
      exact ⟨rfl, rfl⟩
    | full branch' _ =>
      -- the branch is the same, and what follows it is an `else` in one case only
      obtain ⟨_, rfl⟩ := ih branch'
      exact absurd rfl last
  | full branch other ih ih' =>
    cases h' with
    | short branch' last' =>
      obtain ⟨_, rfl⟩ := ih branch'
      exact absurd rfl last'
    -- the branch is read in one way, and so is what its `else` holds
    | full branch' other' =>
      obtain ⟨rfl, hmiddle⟩ := ih branch'
      obtain rfl := (List.cons.inj hmiddle).2
      obtain ⟨rfl, rfl⟩ := ih' other'
      exact ⟨rfl, rfl⟩

/-! ## §2 Chains -/

/-- A test and the block that it guards, as they are written. -/
abbrev Guarded : Type := String × String

/-- The tokens of a chain of tests, with others behind it. -/
def chainTokens (first : Guarded) (next : List Guarded) (behind : List ElseToken) :
    List ElseToken :=
  match next with
  | [] => .test first.1 :: .whole first.2 :: behind
  | second :: next =>
    .test first.1 :: .whole first.2 :: .otherwise :: chainTokens second next behind

/-- The chain as a statement, with what its last `else` holds. -/
def chainBranching (first : Guarded) (next : List Guarded) (no : Option Branching) : Branching :=
  match next, no with
  | [], none => .short first.1 (.whole first.2)
  | [], some no => .full first.1 (.whole first.2) no
  | second :: next, no => .full first.1 (.whole first.2) (chainBranching second next no)

/-- The `else` that follows a chain is its own. -/
theorem reads_chain_full (first : Guarded) (next : List Guarded) {tokens behind : List ElseToken}
    {no : Branching} (hno : Reads tokens no behind) :
    Reads (chainTokens first next (.otherwise :: tokens))
      (chainBranching first next (some no)) behind := by
  induction next generalizing first with
  | nil => exact .full .whole hno
  | cons second next ih => exact .full .whole (ih second)

/-- The tokens of an `else` with its block, if there is one. -/
def elseTokens : Option String → List ElseToken
  | none => []
  | some block => [.otherwise, .whole block]

theorem chainTokens_append (first : Guarded) (next : List Guarded) (behind more : List ElseToken) :
    chainTokens first next behind ++ more = chainTokens first next (behind ++ more) := by
  induction next generalizing first with
  | nil => rfl
  | cons second next ih => simp [chainTokens, ih]

/-- Behind a test and a chain stands an `else`. If the chain has none of its own it takes it, and
the test goes without. -/
theorem reads_chain_before_else_iff (outer foreign : String) (first : Guarded) (next : List Guarded)
    (own : Option String) {s : Branching} :
    Reads (.test outer :: (chainTokens first next (elseTokens own) ++ [.otherwise, .whole foreign]))
      s [] ↔
      s = match own with
        | none => .short outer (chainBranching first next (some (.whole foreign)))
        | some block =>
            .full outer (chainBranching first next (some (.whole block))) (.whole foreign) := by
  rw [chainTokens_append]
  have hreads : Reads
      (.test outer :: chainTokens first next (elseTokens own ++ [.otherwise, .whole foreign]))
      (match own with
        | none => .short outer (chainBranching first next (some (.whole foreign)))
        | some block =>
          .full outer (chainBranching first next (some (.whole block))) (.whole foreign)) [] := by
    cases own with
    -- the chain takes the `else`, and none is left for the test
    | none => exact .short (reads_chain_full first next .whole) (by simp)
    | some block => exact .full (reads_chain_full first next .whole) .whole
  -- tokens can be read in one way only, so one reading decides the matter
  constructor
  · intro h
    exact (h.unique hreads).1
  · rintro rfl
    exact hreads

/-- How a guarded block of a chain is written. -/
def Guarded.text (branch : Guarded) : String := "if (" ++ branch.1 ++ ") " ++ branch.2

/-- A chain is written as its blocks with the word `else` between them. -/
theorem join_chainTokens (first : Guarded) (next : List Guarded) (own : Option String) :
    String.join ((chainTokens first next (elseTokens own)).map ElseToken.text) =
      " else ".intercalate ((first :: next).map Guarded.text ++ own.toList) := by
  induction next generalizing first with
  | nil =>
    cases own <;> simp [chainTokens, elseTokens, ElseToken.text, Guarded.text, String.append_assoc]
  | cons second next ih =>
    rw [chainTokens, List.map_cons, List.map_cons, List.map_cons, String.join_cons,
      String.join_cons, String.join_cons, ih]
    simp [ElseToken.text, Guarded.text, String.append_assoc]

/-! ## §3 `if` statements that are written -/

/-- If each element of a list is made of something, the list is made of as many things. -/
theorem exists_map_of_forall₂ {α β γ : Type} {P : α → β → Prop} {f : γ → β} {xs : List α}
    {ys : List β} (h : List.Forall₂ P xs ys) (hP : ∀ {x y}, P x y → ∃ z, y = f z) :
    ∃ zs : List γ, ys = zs.map f ∧ zs.length = xs.length := by
  induction h with
  | nil => exact ⟨[], rfl, rfl⟩
  | cons hxy _ ih =>
    obtain ⟨z, rfl⟩ := hP hxy
    obtain ⟨zs, rfl, hlength⟩ := ih
    exact ⟨z :: zs, rfl, by simp [hlength]⟩

namespace IfStatement

variable {source text : String} {s : IfStatement}

/-- Each branch is written as a guarded block. -/
theorem exists_guarded {branch : Test × List Line} {part : String}
    (h : (do
      return "if (" ++ (← branch.1.render source) ++ ") " ++ (← Line.block source branch.2)) =
        .ok part) :
    ∃ guarded, part = Guarded.text guarded := by
  obtain ⟨test, _, h⟩ := bind_eq_ok_iff.mp h
  obtain ⟨block, _, h⟩ := bind_eq_ok_iff.mp h
  cases h
  exact ⟨(test, block), rfl⟩

/-- An `if` statement is written as a chain, with an `else` at its end exactly if it has one. -/
theorem exists_chain_of_render (hbranches : s.branches ≠ []) (h : s.render source = .ok text) :
    ∃ first next own,
      text = String.join ((chainTokens first next (elseTokens own)).map ElseToken.text) ∧
      (own = none ↔ s.otherwise = none) := by
  obtain ⟨branches, hbranch, h⟩ := bind_eq_ok_iff.mp h
  obtain ⟨others, hothers, h⟩ := bind_eq_ok_iff.mp h
  cases h
  obtain ⟨guarded, rfl, hlength⟩ := exists_map_of_forall₂ (mapM_eq_ok_iff.mp hbranch) exists_guarded
  -- there are as many tests in print as branches, so there is a first one
  have hne : guarded ≠ [] := by
    intro hnil
    exact hbranches (List.length_eq_zero_iff.mp (by simp [← hlength, hnil]))
  obtain ⟨first, next, rfl⟩ := List.exists_cons_of_ne_nil hne
  cases hotherwise : s.otherwise with
  -- the last branch ends the text
  | none =>
    rw [hotherwise] at hothers
    cases hothers
    exact ⟨first, next, none, (join_chainTokens first next none).symm, by simp⟩
  -- the `else` stands behind the last branch
  | some lines =>
    rw [hotherwise] at hothers
    obtain ⟨block, _, hothers⟩ := bind_eq_ok_iff.mp hothers
    cases hothers
    exact ⟨first, next, some block, (join_chainTokens first next (some block)).symm, by simp⟩

end IfStatement

namespace HiddenIf

/-- The statement that an expression becomes. -/
def statement? (t : Tree) : HiddenIf → Option IfStatement
  | .shortCircuit => IfStatement.ofShortCircuit? t
  | .conditional => IfStatement.ofTernary? t
  | .returnedConditional => IfStatement.ofReturn? t

/-- The statement has no `else`: that of a short circuit never does, that of a conditional
expression does not if its last alternative is `undefined`. -/
def lacksElse (t : Tree) : HiddenIf → Bool
  | .shortCircuit => true
  | .conditional => t.ternaryChain?.any fun chain =>
    chain.otherwise.any fun last => last.unwrapParens.kind == "undefined"
  | .returnedConditional => false

/-- The expression is of the form. -/
def Suits (t : Tree) : HiddenIf → Prop
  | .shortCircuit => t.kind = "binary_expression" ∧
      (t.operator? = some "&&" ∨ t.operator? = some "||") ∧
      (t.field? "left").isSome = true ∧ (t.field? "right").isSome = true
  | .conditional => t.ternaryChain?.isSome = true
  | .returnedConditional => t.kind = "return_statement" ∧
      (t.firstCode?.bind fun value => value.unwrapParens.ternaryChain?).isSome = true

/-- The statement of an expression has an `else` or not, as the expression tells. -/
theorem of_statement? {t : Tree} {s : IfStatement} {form : HiddenIf}
    (h : form.statement? t = some s) :
    form.Suits t ∧ s.branches ≠ [] ∧ (s.otherwise = none ↔ form.lacksElse t = true) := by
  cases form with
  | shortCircuit =>
    obtain ⟨hkind, h⟩ := Option.ite_none_right_eq_some.mp h
    obtain ⟨symbol, hsymbol, h⟩ := Option.bind_eq_some_iff.mp h
    obtain ⟨operator, hoperator, h⟩ := Option.bind_eq_some_iff.mp h
    obtain ⟨left, hleft, h⟩ := Option.bind_eq_some_iff.mp h
    obtain ⟨right, hright, h⟩ := Option.bind_eq_some_iff.mp h
    cases h
    -- of all operators these two alone are taken
    have hsymbols : t.operator? = some "&&" ∨ t.operator? = some "||" := by
      unfold Logical.ofSymbol? at hoperator
      grind
    exact ⟨⟨hkind, hsymbols, by simp [hleft], by simp [hright]⟩, by simp, by simp [lacksElse]⟩
  | conditional =>
    obtain ⟨chain, hchain, rfl⟩ := Option.map_eq_some_iff.mp h
    obtain ⟨hbranches, last, hlast⟩ := Tree.of_ternaryChain? hchain
    -- an `undefined` at the end of the chain is dropped, and the `else` with it
    refine ⟨by simp [Suits, hchain],
      by simpa [IfStatement.ofChain, IfStatement.dropUndefined] using hbranches, ?_⟩
    simp [lacksElse, hchain, hlast, IfStatement.ofChain, IfStatement.dropUndefined]
  | returnedConditional =>
    obtain ⟨hkind, h⟩ := Option.ite_none_right_eq_some.mp h
    obtain ⟨value, hvalue, h⟩ := Option.bind_eq_some_iff.mp h
    obtain ⟨chain, hchain, h⟩ := Option.bind_eq_some_iff.mp h
    cases h
    obtain ⟨hbranches, last, hlast⟩ := Tree.of_ternaryChain? hchain
    refine ⟨⟨hkind, by simp [hvalue, hchain]⟩, by simpa [IfStatement.ofChain] using hbranches, ?_⟩
    simp [lacksElse, hlast, IfStatement.ofChain]

/-- Every expression of the form becomes a statement. -/
theorem isSome_statement? {t : Tree} {form : HiddenIf} (h : form.Suits t) :
    (form.statement? t).isSome = true := by
  cases form with
  | shortCircuit =>
    obtain ⟨hkind, hsymbols, hleft, hright⟩ := h
    obtain ⟨left, hleft⟩ := Option.isSome_iff_exists.mp hleft
    obtain ⟨right, hright⟩ := Option.isSome_iff_exists.mp hright
    rcases hsymbols with hsymbol | hsymbol <;>
      simp [statement?, IfStatement.ofShortCircuit?, hkind, hsymbol, hleft, hright,
        Logical.ofSymbol?]
  | conditional =>
    obtain ⟨chain, hchain⟩ := Option.isSome_iff_exists.mp h
    simp [statement?, IfStatement.ofTernary?, hchain]
  | returnedConditional =>
    obtain ⟨hkind, hchain⟩ := h
    obtain ⟨chain, hchain⟩ := Option.isSome_iff_exists.mp hchain
    obtain ⟨value, hvalue, hchain⟩ := Option.bind_eq_some_iff.mp hchain
    simp [statement?, IfStatement.ofReturn?, hkind, hvalue, hchain]

theorem fits_statement? {source : String} {t : Tree} {s : IfStatement} {form : HiddenIf}
    (h : t.Fits source) (hs : form.statement? t = some s) : s.Fits source := by
  cases form with
  | shortCircuit => exact .ofShortCircuit h hs
  | conditional => exact .ofTernary h hs
  | returnedConditional => exact .ofReturn h hs

theorem run_eq (source : String) (n : Node) (form : HiddenIf) :
    form.transform.run source n =
      Reshaping.ofShape (form.statement? n.tree) (IfStatement.render source) := by
  cases form <;> rfl

end HiddenIf

/-! ## §4 The `else` of the statement around -/

/-- The test and the `else` of the `if` statement that the node is the branch of, as an expression
statement. -/
def Node.outerElse? (n : Node) : Option (Tree × Tree) :=
  match n.above with
  | ⟨statement, _⟩ :: ⟨outer, index⟩ :: _ =>
    if statement.kind = "expression_statement" ∧ outer.kind = "if_statement" ∧
        outer.fieldIndex? "consequence" = some index then do
      return (← outer.field? "condition", ← (← outer.field? "alternative").firstCode?)
    else
      none
  | _ => none

theorem Node.Fits.outerElse {source : String} {n : Node} (h : n.Fits source) {test otherwise : Tree}
    (houter : n.outerElse? = some (test, otherwise)) :
    test.Fits source ∧ otherwise.Fits source := by
  unfold Node.outerElse? at houter
  split at houter
  case h_1 statement _ outer index _ habove =>
    -- the statement around is an ancestor, and ancestors fit
    have hfits : outer.Fits source := h.above ⟨outer, index⟩ (by simp [habove])
    obtain ⟨_, houter⟩ := Option.ite_none_right_eq_some.mp houter
    obtain ⟨condition, hcondition, houter⟩ := Option.bind_eq_some_iff.mp houter
    obtain ⟨clause, hclause, houter⟩ := Option.bind_eq_some_iff.mp houter
    obtain ⟨body, hbody, houter⟩ := Option.bind_eq_some_iff.mp houter
    cases houter
    exact ⟨hfits.field hcondition, (hfits.field hclause).firstCode hbody⟩
  case h_2 => cases houter

/-- The branch of an `if` with an `else` becomes an `if` statement whenever it is of one of the
forms. The `else` is taken over if and only if that statement has none of its own: always for a
short circuit, and for a conditional expression if its last alternative is `undefined`. -/
theorem HiddenIf.takes_outer_else_iff {source : String} {n : Node} {test otherwise : Tree}
    (form : HiddenIf) (hn : n.Fits source) (houter : n.outerElse? = some (test, otherwise)) :
    ∃ answer outer foreign, form.transform.run source n = .ok answer ∧
      test.text source = .ok outer ∧ otherwise.text source = .ok foreign ∧
      (answer.isSome = true ↔ form.Suits n.tree) ∧
      ∀ replacement ∈ answer, ∃ first next own,
        replacement =
          .text (String.join ((chainTokens first next (elseTokens own)).map ElseToken.text)) ∧
        ∀ s, Reads (.test outer ::
            (chainTokens first next (elseTokens own) ++ [.otherwise, .whole foreign])) s [] ↔
          s = if form.lacksElse n.tree then
              .short outer (chainBranching first next (some (.whole foreign)))
            else .full outer (chainBranching first next (own.map .whole)) (.whole foreign) := by
  obtain ⟨htest, hotherwise⟩ := hn.outerElse houter
  obtain ⟨outer, houter⟩ := htest.text
  obtain ⟨foreign, hforeign⟩ := hotherwise.text
  rw [run_eq]
  cases hshape : form.statement? n.tree with
  -- the expression is not of the form, and nothing is offered
  | none =>
    have hsuits : ¬ form.Suits n.tree := by
      intro hsuits
      simpa [hshape] using isSome_statement? hsuits
    exact ⟨none, outer, foreign, rfl, houter, hforeign, by simp [hsuits], by simp⟩
  | some s =>
    obtain ⟨hsuits, hbranches, hlacks⟩ := of_statement? hshape
    obtain ⟨text, htext⟩ := (fits_statement? hn.tree hshape).render
    refine ⟨some (.text text), outer, foreign, bind_eq_ok_iff.mpr ⟨text, htext, rfl⟩, houter,
      hforeign, by simp [hsuits], ?_⟩
    intro replacement hreplacement
    obtain rfl := Option.mem_some_iff.mp hreplacement
    obtain ⟨first, next, own, rfl, hown⟩ := IfStatement.exists_chain_of_render hbranches htext
    refine ⟨first, next, own, rfl, fun s => ?_⟩
    rw [reads_chain_before_else_iff]
    -- an `else` is in the text exactly if the expression tells so
    have hnone : own = none ↔ form.lacksElse n.tree = true := hown.trans hlacks
    cases own with
    | none => rw [if_pos (hnone.mp rfl)]
    | some block => rw [if_neg (mt hnone.mpr (by simp)), Option.map_some]

namespace Sample

/-- `c` as a statement at an offset. -/
def elseStatement (start : Nat) : Tree :=
  construct "expression_statement" start (start + 1) []
    [construct "identifier" start (start + 1) [] []]

/-- `if (x) branch else c` on two lines, where the branch covers the text from the 7th byte on. -/
def ifElse (branch : Tree) : Tree :=
  let stop := branch.span.stop
  construct "if_statement" 0 (stop + 7) [("condition", 1), ("consequence", 2), ("alternative", 3)]
    [mark "if" 0 2, header 3 6, construct "expression_statement" 7 stop [] [branch],
      construct "else_clause" (stop + 1) (stop + 7) []
        [mark "else" (stop + 1) (stop + 5), elseStatement (stop + 6)]]

/-- The expression that is the branch of the statement. -/
def branchBeforeElse (branch : Tree) : Node :=
  let statement := construct "expression_statement" 7 branch.span.stop [] [branch]
  ((Node.root (ifElse branch)).child 2 statement).child 0 branch

/-- The branch `a && b`. -/
def bothBranch : Tree :=
  construct "binary_expression" 7 13 [("left", 0), ("operator", 1), ("right", 2)]
    [construct "identifier" 7 8 [] [], mark "&&" 9 11, construct "identifier" 12 13 [] []]

/-- The branch `a ? b : undefined`. -/
def undefinedBranch : Tree :=
  construct "ternary_expression" 7 24 [("condition", 0), ("consequence", 2), ("alternative", 4)]
    [construct "identifier" 7 8 [] [], mark "?" 9 10, construct "identifier" 11 12 [] [],
      mark ":" 13 14, construct "undefined" 15 24 [] []]

end Sample

namespace HiddenIf

/-- A conditional expression without a last alternative takes over the `else` of the statement
around it. -/
theorem takes_outer_else_iff_undefined :
    let source := "if (x) a ? b : undefined\nelse c"
    let n := Sample.branchBeforeElse Sample.undefinedBranch
    n.Fits source ∧ n.outerElse? = some (Sample.header 3 6, Sample.elseStatement 30) ∧
      ∃ first next own, HiddenIf.conditional.transform.run source n = .ok (some (.text
          (String.join ((chainTokens first next (elseTokens own)).map ElseToken.text)))) ∧
        ∀ s, Reads (.test "(x)" ::
            (chainTokens first next (elseTokens own) ++ [.otherwise, .whole "c"])) s [] ↔
          s = .short "(x)" (chainBranching first next (some (.whole "c"))) := by
  intro source n
  have hroot : (Sample.ifElse Sample.undefinedBranch).Fits source := .of_fitsPlainly (by decide)
  have hn : n.Fits source :=
    ((Node.Fits.root hroot).child (List.mem_of_getElem? (i := 2) rfl)).child
      (List.mem_of_getElem? (i := 0) rfl)
  have houter : n.outerElse? = some (Sample.header 3 6, Sample.elseStatement 30) := rfl
  have hsuits : n.tree.ternaryChain?.isSome = true := by with_unfolding_all decide
  have hlacks : HiddenIf.conditional.lacksElse n.tree = true := by with_unfolding_all decide
  obtain ⟨answer, outer, foreign, hrun, htest, hotherwise, hsome, hreads⟩ :=
    takes_outer_else_iff .conditional hn houter
  obtain rfl : outer = "(x)" := Except.ok.inj (htest.symm.trans (by decide))
  obtain rfl : foreign = "c" := Except.ok.inj (hotherwise.symm.trans (by decide))
  obtain ⟨replacement, rfl⟩ := Option.isSome_iff_exists.mp (hsome.mpr hsuits)
  obtain ⟨first, next, own, rfl, hiff⟩ := hreads replacement rfl
  rw [if_pos hlacks] at hiff
  exact ⟨hn, houter, first, next, own, hrun, hiff⟩

/-- A short circuit becomes an `if` that the `else` behind it belongs to. -/
theorem outer_else_changes_hands :
    let n := Sample.branchBeforeElse Sample.bothBranch
    n.outerElse?.isSome = true ∧
      HiddenIf.shortCircuit.transform.run "if (x) a && b\nelse c" n =
        .ok (some (.text "if (a) \x7b\nb\n\x7d")) ∧
      Reads [.test "x", .test "a", .whole "\x7b\nb\n\x7d", .otherwise, .whole "c"]
        (.short "x" (.full "a" (.whole "\x7b\nb\n\x7d") (.whole "c"))) [] := by
  refine ⟨by decide, by with_unfolding_all decide, ?_⟩
  exact .short (.full .whole .whole) (by simp)

end HiddenIf

end CodeActions
