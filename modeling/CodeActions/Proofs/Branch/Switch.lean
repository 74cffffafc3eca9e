import CodeActions.Branch.Switch
import CodeActions.Proofs.Branch.Expression
import CodeActions.Proofs.Branch.Lines
import CodeActions.Proofs.Statement.Guard

/-!
# Chains as `switch` statements

A `switch` is a list of clauses. Its labels are evaluated from front to back up to the first that
hits, and the default is entered if none does. From the clause that is entered on, control goes
through the statements of all clauses that follow, up to a jump.

Main statement: `ChainForm.switch_keeps_dispatch`, a chain becomes a `switch` on `true` with a
clause for each of its arms, which evaluates the same tests as the nest that the chain was made of,
enters the clause of the branch that the nest takes and runs no other.
-/

namespace CodeActions

/-- One way through a chain: a body, and the test that it is taken for. What is left has no test. -/
structure Arm where
  condition : Option Tree
  body : Tree

/-- The arms of a chain in order. -/
def Chain.arms (chain : Chain) : List Arm :=
  chain.branches.map (fun branch => ⟨some branch.condition, branch.body⟩) ++
    chain.otherwise.toList.map fun body => ⟨none, body⟩

namespace Switch

/-! ## §1 Clauses -/

/-- What stands behind a `case`: an expression of the source. -/
structure Label where
  expression : Tree
  /-- It stands behind `!!`. -/
  coerced : Bool
  /-- It stands in parentheses that are not from the source. -/
  inParens : Bool

/-- The expression in the parentheses that are put around it. -/
def Label.operand (label : Label) : Expression := .wrapped label.inParens label.expression

/-- A statement of a clause. -/
inductive Item where
  /-- A statement of the source. -/
  | source (statement : Tree)
  /-- The return of an expression of the source. -/
  | result (expression : Tree)
  /-- A `break`. -/
  | leave

/-- Control does not go on behind the statement. -/
def Item.isJump : Item → Bool
  | source t =>
      ["return_statement", "throw_statement", "continue_statement", "break_statement"].contains
        t.kind
  | result _ => true
  | leave => true

/-- A clause of a `switch`. The default has no label. -/
structure Clause where
  label : Option Label
  /-- The statements stand in a block. -/
  inBlock : Bool
  statements : List Item
  /-- A `break` stands behind them. -/
  leaves : Bool

/-- What stands behind the statements. -/
def Clause.exit (c : Clause) : List Item := if c.leaves then [.leave] else []

/-- What control goes through in the clause. -/
def Clause.items (c : Clause) : List Item := c.statements ++ c.exit

/-- The label of a condition: the condition itself if it gives a boolean. -/
def Label.ofCondition (condition : Tree) : Label where
  expression := condition.unwrapParens
  coerced := !condition.unwrapParens.isBooleanValued
  inParens := !condition.unwrapParens.isBooleanValued && !condition.unwrapParens.isPrimary

/-! ### Text -/

/-- The label as it is written. -/
def Label.render (source : String) (label : Label) : Cut String :=
  if label.coerced then do return "!!" ++ (← label.operand.print source)
  else label.operand.print source

/-- The written label does not fall apart in another way: a `!!` is in front of the whole
expression. -/
def Label.Delimited (label : Label) : Prop := label.coerced = true → label.operand.FollowsNot

/-- The label has the condition as a boolean. It is written without the parentheses of the source,
behind `!!` unless its form tells that it gives a boolean, and then in parentheses again where it
would fall apart. -/
structure Label.Coerces (source : String) (label : Label) (condition : Tree) : Prop where
  expression : label.expression = condition.unwrapParens
  coerced : label.coerced = true ↔ ¬ condition.GivesBoolean
  delimited : label.Delimited
  text : label.render source = condition.asBoolean source

/-- The statement as it is written. -/
def Item.render (source : String) : Item → Cut String
  | .source t => t.text source
  | .result e => do return "return (" ++ (← e.text source) ++ ")"
  | .leave => return "break"

/-- Statements on lines of their own. -/
def lines (source : String) (items : List Item) : Cut String := do
  return String.join ((← items.mapM (Item.render source)).map (· ++ "\n"))

namespace Clause

/-- The line that opens the clause. -/
def header (source : String) (c : Clause) : Cut String :=
  match c.label with
  | some label => do return "case " ++ (← label.render source) ++ ":\n"
  | none => return "default:\n"

/-- The clause as it is written. -/
def render (source : String) (c : Clause) : Cut String := do
  let header ← c.header source
  let statements ← lines source c.statements
  let exit ← lines source c.exit
  return header ++ (if c.inBlock then "\x7b\n" ++ statements ++ "\x7d\n" else statements) ++ exit

end Clause

/-- The whole `switch` as it is written. -/
def print (source discriminant : String) (clauses : List Clause) : Cut String := do
  return "switch (" ++ discriminant ++ ") \x7b\n" ++
    String.join (← clauses.mapM (Clause.render source)) ++ "\x7d"

/-! ### Execution -/

section

variable {α σ : Type} (v : Valuation α σ)

/-- The value of a label. Behind `!!` it is the value of the expression, negated twice. -/
def Label.eval (label : Label) (s : σ) : Value α × σ :=
  let (value, s') := v.eval label.expression s
  (if label.coerced then v.negate (v.negate value) else value, s')

/-- From which clause on a `switch` is run, if `otherwise` is run when no label hits. -/
def search (hit : Value α → Bool) (otherwise : List Clause) :
    List Clause → σ → Choice (List Clause) σ
  | [], s => ⟨otherwise, [], s⟩
  | c :: clauses, s =>
    match c.label with
    | none => search hit otherwise clauses s
    | some label =>
      if hit (label.eval v s).1 then ⟨c :: clauses, [label.expression], (label.eval v s).2⟩
      else (search hit otherwise clauses (label.eval v s).2).after label.expression

/-- From which clause on a `switch` is run: the first whose label hits, else the default, wherever
it stands. -/
def enter (hit : Value α → Bool) (clauses : List Clause) (s : σ) : Choice (List Clause) σ :=
  search v hit (clauses.dropWhile fun c => c.label.isSome) clauses s

end

/-- The statements up to the first jump. -/
def throughJump : List Item → List Item
  | [] => []
  | item :: items => if item.isJump then [item] else item :: throughJump items

/-- What control goes through from the first of the clauses on. -/
def executed (clauses : List Clause) : List Item := throughJump (clauses.flatMap Clause.items)

end Switch

/-! ## §2 The clauses of a chain -/

namespace ChainForm

open Switch

/-- The transform to a `switch` on `true`. -/
def toSwitch : ChainForm → Transform
  | statement => Transform.ifToSwitch
  | expression => Transform.ternaryToSwitch

/-- What a body becomes: its statements, or the return of its value. -/
def contents (body : Tree) : ChainForm → List Item
  | statement => body.statements.map .source
  | expression => [.result body.unwrapParens]

/-- The `switch` in its place. An expression makes it a function that is called on the spot. -/
def embed (text : String) : ChainForm → String
  | statement => text
  | expression => "(() => \x7b\n" ++ text ++ "\n\x7d)()"

/-- The clause stands for the arm. -/
structure Writes (form : ChainForm) (source : String) (arm : Arm) (clause : Clause) : Prop where
  label : ∀ condition ∈ arm.condition,
    ∃ label, clause.label = some label ∧ label.Coerces source condition
  default : arm.condition = none → clause.label = none
  statements : clause.statements = form.contents arm.body
  /-- Only behind a case stands a `break`. -/
  leaves : clause.leaves = true → arm.condition.isSome = true
  /-- Control does not fall out of a case. -/
  jumps : arm.condition.isSome = true → clause.items.getLast?.any Item.isJump = true

/-- The clause that an arm becomes if its condition becomes a certain label. -/
def clauseWith (label : Tree → Switch.Label) (arm : Arm) (form : ChainForm) : Clause where
  label := arm.condition.map label
  inBlock := form == statement && arm.body.statements.any Tree.isDeclaration
  statements := form.contents arm.body
  leaves := arm.condition.isSome && !(form.contents arm.body).getLast?.any Item.isJump

/-- The clause that an arm becomes in a `switch` on `true`. -/
def clause (arm : Arm) (form : ChainForm) : Clause := form.clauseWith Label.ofCondition arm

end ChainForm

namespace Switch

variable {source text : String}

/-- The label of a condition is written as the condition is written as a boolean. -/
theorem Label.render_ofCondition (source : String) (condition : Tree) :
    (ofCondition condition).render source = condition.asBoolean source := by
  unfold render ofCondition operand Tree.asBoolean Tree.negated
  simp only [Expression.print_wrapped]
  cases condition.unwrapParens.isBooleanValued with
  | true => exact bind_pure _
  | false => rfl

/-- Behind `!!` the condition is in parentheses unless it is primary. -/
theorem Label.delimited_ofCondition (condition : Tree) : (ofCondition condition).Delimited := by
  intro hcoerced
  have hoperand : (ofCondition condition).operand =
      .wrapped (!condition.unwrapParens.isPrimary) condition.unwrapParens := by
    have hboolean : (!condition.unwrapParens.isBooleanValued) = true := hcoerced
    simp only [operand, ofCondition, hboolean, Bool.true_and]
  rw [hoperand]
  exact Expression.followsNot_wrapped condition.unwrapParens

/-- The label of a condition has the condition as a boolean. -/
theorem Label.coerces_ofCondition (source : String) (condition : Tree) :
    (ofCondition condition).Coerces source condition where
  expression := rfl
  coerced := by
    rw [← Tree.givesBoolean_unwrapParens_iff, ← Tree.isBooleanValued_iff]
    simp [ofCondition]
  delimited := delimited_ofCondition condition
  text := render_ofCondition source condition

theorem getLast?_items_of_leaves {c : Clause} (h : c.leaves = true) :
    c.items.getLast? = some .leave := by
  simp [Clause.items, Clause.exit, h]

/-- Texts on lines of their own are texts with line breaks between them and one behind. -/
theorem join_lines {texts : List String} (h : texts ≠ []) :
    String.join (texts.map (· ++ "\n")) = "\n".intercalate texts ++ "\n" := by
  induction texts with
  | nil => exact absurd rfl h
  | cons first rest ih =>
    cases rest with
    | nil => simp
    | cons second rest => simp_all [String.append_assoc]

theorem lines_of_joinTexts {ts : List Tree} (hts : ts ≠ [])
    (h : Tree.joinTexts source "\n" ts = .ok text) :
    lines source (ts.map .source) = .ok (text ++ "\n") := by
  obtain ⟨texts, htexts, h⟩ := bind_eq_ok_iff.mp h
  cases h
  -- there are as many texts as statements
  have hne : texts ≠ [] := by
    have hlength := (mapM_eq_ok_iff.mp htexts).length_eq
    intro hnil
    simp_all
  refine bind_eq_ok_iff.mpr ⟨texts, ?_, congrArg Except.ok (join_lines hne)⟩
  rw [List.mapM_map]
  exact htexts

end Switch

namespace ChainForm

open Switch

variable {source text : String} {arm : Arm} {form : ChainForm} {label : Tree → Switch.Label}
  {test : Tree → CaseTest}

/-- Control does not fall out of a clause with a label. -/
theorem jumps_clauseWith (h : arm.condition.isSome = true) :
    (form.clauseWith label arm).items.getLast?.any Item.isJump = true := by
  -- without a `break` the last statement is a jump itself
  cases hleaves : (form.clauseWith label arm).leaves with
  | true =>
    rw [getLast?_items_of_leaves hleaves]
    rfl
  | false => simp_all [clauseWith, Clause.items, Clause.exit]

/-- The clause of an arm stands for it. -/
theorem writes_clause (form : ChainForm) (source : String) (arm : Arm) :
    form.Writes source arm (form.clause arm) where
  label := by
    intro condition hcondition
    refine ⟨Label.ofCondition condition, ?_, Label.coerces_ofCondition source condition⟩
    exact congrArg (Option.map Label.ofCondition) hcondition
  default := by
    intro hnone
    exact congrArg (Option.map Label.ofCondition) hnone
  statements := rfl
  leaves := by simp_all [clause, clauseWith]
  jumps := jumps_clauseWith

/-! ### From sections to clauses -/

/-- The section that an arm becomes if its condition becomes a certain test. -/
def sectionWith (test : Tree → CaseTest) (arm : Arm) : Section := ⟨arm.condition.map test, arm.body⟩

theorem sections_onTruth (chain : Chain) :
    (onTruth chain).sections = chain.arms.map (sectionWith .truth) := by
  simp only [onTruth, Chain.arms, List.map_append, List.map_map]
  rfl

/-- How a section is written. -/
def writeSection (source : String) (part : Section) : ChainForm → Cut String
  | statement => part.renderStatements source
  | expression => part.renderReturn source

/-- The opening line depends on the text of the label alone. -/
theorem header_clauseWith (form : ChainForm)
    (hlabel : ∀ condition, (label condition).render source = (test condition).render source) :
    (form.clauseWith label arm).header source = (sectionWith test arm).header source := by
  obtain ⟨condition, body⟩ := arm
  cases condition with
  | none => rfl
  | some condition =>
    simp only [clauseWith, sectionWith, Clause.header, Section.header, Option.map_some, hlabel]

/-- The statements of a section, in the block that it may have, are the lines of the clause. -/
theorem lines_of_statementsText {part : Section} (h : part.statementsText source = .ok text) :
    ∃ body, lines source (statement.contents part.body) = .ok body ∧
      text = if part.isScoped then "\x7b\n" ++ body ++ "\x7d\n" else body := by
  unfold Section.statementsText at h
  split at h
  case isTrue hscoped =>
    -- something is declared, so there is a statement
    have hne : part.body.statements ≠ [] := by
      intro hnil
      simp [Section.isScoped, hnil] at hscoped
    obtain ⟨joined, hjoined, h⟩ := bind_eq_ok_iff.mp h
    cases h
    exact ⟨_, lines_of_joinTexts hne hjoined, by simp [hscoped, String.append_assoc]⟩
  case isFalse hscoped =>
    simp only [if_neg hscoped]
    -- the line break behind the last statement is missing if there is none
    by_cases hempty : part.body.statements = []
    · rw [if_pos (by simp [hempty])] at h
      cases h
      exact ⟨"", by simp only [contents, hempty]; rfl, rfl⟩
    · rw [if_neg (by simp [hempty])] at h
      obtain ⟨joined, hjoined, h⟩ := bind_eq_ok_iff.mp h
      cases h
      exact ⟨_, lines_of_joinTexts hempty hjoined, rfl⟩

/-- A `break` is written exactly if the last statement is no jump. -/
theorem leaves_clauseWith (test : Tree → CaseTest) :
    (statement.clauseWith label arm).leaves = (sectionWith test arm).needsBreak := by
  have hlast : ((arm.body.statements.map Item.source).getLast?.any Item.isJump) =
      arm.body.statements.getLast?.any Tree.isJump := by
    rw [List.getLast?_map, Option.any_map]
    rfl
  simp only [clauseWith, contents, hlast, Section.needsBreak, sectionWith, Option.isSome_map]

theorem lines_exit (source : String) (c : Clause) :
    lines source c.exit = .ok (if c.leaves then "break\n" else "") := by
  unfold Clause.exit
  cases c.leaves <;> rfl

/-- A section is written as the clause of its arm. -/
theorem render_clauseWith
    (hlabel : ∀ condition, (label condition).render source = (test condition).render source)
    (h : form.writeSection source (sectionWith test arm) = .ok text) :
    (form.clauseWith label arm).render source = .ok text := by
  cases form with
  -- opening line, statements in the block they may need, and a `break` if control would fall
  -- through
  | statement =>
    obtain ⟨header, hheader, h⟩ := bind_eq_ok_iff.mp h
    obtain ⟨statements, hstatements, h⟩ := bind_eq_ok_iff.mp h
    cases h
    obtain ⟨body, hbody, rfl⟩ := lines_of_statementsText hstatements
    rw [← header_clauseWith statement hlabel] at hheader
    refine bind_eq_ok_iff.mpr ⟨header, hheader, bind_eq_ok_iff.mpr ⟨body, hbody, ?_⟩⟩
    refine bind_eq_ok_iff.mpr ⟨_, lines_exit source _, ?_⟩
    rw [leaves_clauseWith test]
    rfl
  -- opening line and a return, which needs neither block nor `break`
  | expression =>
    obtain ⟨header, hheader, h⟩ := bind_eq_ok_iff.mp h
    obtain ⟨value, hvalue, h⟩ := bind_eq_ok_iff.mp h
    cases h
    rw [← header_clauseWith expression hlabel] at hheader
    have hbody : lines source (expression.contents arm.body) =
        .ok ("return (" ++ value ++ ")\n") := by
      have hitem : (Item.result arm.body.unwrapParens).render source =
          .ok ("return (" ++ value ++ ")") :=
        bind_eq_ok_iff.mpr ⟨value, hvalue, rfl⟩
      refine bind_eq_ok_iff.mpr ⟨_, mapM_eq_ok_iff.mpr (.cons hitem .nil), ?_⟩
      simp [String.append_assoc, pure, Except.pure]
    refine bind_eq_ok_iff.mpr ⟨header, hheader, bind_eq_ok_iff.mpr ⟨_, hbody, ?_⟩⟩
    refine bind_eq_ok_iff.mpr ⟨_, lines_exit source _, ?_⟩
    -- the return is the jump, so nothing stands behind it
    have hleaves : (expression.clauseWith label arm).leaves = false := by
      simp [clauseWith, contents, Item.isJump]
    have hblock : (expression.clauseWith label arm).inBlock = false := rfl
    simp [hleaves, hblock, String.append_assoc, pure, Except.pure]

/-! ### Whole texts -/

/-- How a `switch` is written in its place. -/
def write (source : String) (s : Switch) : ChainForm → Cut String
  | statement => s.renderStatement source
  | expression => s.renderExpression source

/-- What is written between the parentheses of the opening line. -/
def discriminantText (source : String) (s : Switch) : Cut String :=
  match s.discriminant with
  | some value => value.text source
  | none => return "true"

/-- The opening line has the discriminant between its parentheses. -/
theorem of_header {s : Switch} (h : s.header source = .ok text) :
    ∃ discriminant, discriminantText source s = .ok discriminant ∧
      text = "switch (" ++ discriminant ++ ") \x7b\n" := by
  unfold Switch.header at h
  unfold discriminantText
  cases hvalue : s.discriminant with
  | some value =>
    rw [hvalue] at h
    obtain ⟨discriminant, hdiscriminant, h⟩ := bind_eq_ok_iff.mp h
    cases h
    exact ⟨discriminant, hdiscriminant, rfl⟩
  | none =>
    rw [hvalue] at h
    cases h
    exact ⟨"true", rfl, rfl⟩

theorem mapM_clausesWith (form : ChainForm)
    (hlabel : ∀ condition, (label condition).render source = (test condition).render source)
    {arms : List Arm} {parts : List String}
    (h : (arms.map (sectionWith test)).mapM (fun part => form.writeSection source part) =
      .ok parts) :
    (arms.map (form.clauseWith label)).mapM (Clause.render source) = .ok parts := by
  rw [mapM_eq_ok_iff, List.forall₂_map_left_iff] at h
  rw [mapM_eq_ok_iff, List.forall₂_map_left_iff]
  exact h.imp fun _ _ => render_clauseWith hlabel

/-- A `switch` whose sections are made of arms is written as the clauses of the arms. -/
theorem of_write
    (hlabel : ∀ condition, (label condition).render source = (test condition).render source)
    {s : Switch} {arms : List Arm} (hsections : s.sections = arms.map (sectionWith test))
    (h : form.write source s = .ok text) :
    ∃ discriminant inner, discriminantText source s = .ok discriminant ∧ text = form.embed inner ∧
      Switch.print source discriminant (arms.map (form.clauseWith label)) = .ok inner := by
  cases form with
  -- a statement is written where it stands
  | statement =>
    obtain ⟨header, hheader, h⟩ := bind_eq_ok_iff.mp h
    obtain ⟨parts, hparts, h⟩ := bind_eq_ok_iff.mp h
    obtain ⟨discriminant, hdiscriminant, rfl⟩ := of_header hheader
    cases h
    rw [hsections] at hparts
    exact ⟨discriminant, _, hdiscriminant, rfl,
      bind_eq_ok_iff.mpr ⟨parts, mapM_clausesWith statement hlabel hparts, rfl⟩⟩
  -- an expression is written inside of a function that is called
  | expression =>
    obtain ⟨header, hheader, h⟩ := bind_eq_ok_iff.mp h
    obtain ⟨parts, hparts, h⟩ := bind_eq_ok_iff.mp h
    obtain ⟨discriminant, hdiscriminant, rfl⟩ := of_header hheader
    cases h
    rw [hsections] at hparts
    refine ⟨discriminant, _, hdiscriminant, ?_,
      bind_eq_ok_iff.mpr ⟨parts, mapM_clausesWith expression hlabel hparts, rfl⟩⟩
    simp only [embed, String.append_assoc]
    rfl

/-- An accepted chain is written as a `switch` on `true` with the clauses of its arms. -/
theorem of_toSwitch {n : Node} {replacement : Replacement}
    (hrun : form.toSwitch.run source n = .ok (some replacement)) :
    ∃ chain text, form.chain? n.tree = some chain ∧ replacement = .text (form.embed text) ∧
      Switch.print source "true" (chain.arms.map form.clause) = .ok text := by
  obtain ⟨chain, text, hchain, hwrite, rfl⟩ : ∃ chain text, form.chain? n.tree = some chain ∧
      form.write source (onTruth chain) = .ok text ∧ replacement = .text text := by
    -- whatever a form refuses, what it takes is the chain of the tree
    cases form with
    | statement =>
      obtain ⟨_, text, hs, hrender, rfl⟩ := Reshaping.ofShape_eq_ok_some_iff.mp hrun
      obtain ⟨chain, hchain, rfl⟩ := Option.map_eq_some_iff.mp hs
      exact ⟨chain, text, ifChain_of_statementChain hchain, hrender, rfl⟩
    | expression =>
      obtain ⟨_, text, hs, hrender, rfl⟩ := Reshaping.ofShape_eq_ok_some_iff.mp hrun
      obtain ⟨chain, hchain, rfl⟩ := Option.map_eq_some_iff.mp hs
      exact ⟨chain, text, ternaryChain_of_expressionChain hchain, hrender, rfl⟩
  obtain ⟨_, inner, htrue, rfl, hprint⟩ :=
    of_write (Label.render_ofCondition source) (sections_onTruth chain) hwrite
  cases htrue
  exact ⟨chain, inner, hchain, rfl, hprint⟩

end ChainForm

/-! ## §3 The clause that is entered -/

namespace Switch

section

variable {α σ : Type} {v : Valuation α σ}

/-- The label hits exactly if the condition holds, and both are evaluated to the same state. -/
def Label.Matches (v : Valuation α σ) (hit : Value α → Bool) (label : Label)
    (condition : Tree) : Prop :=
  ∀ s, hit (label.eval v s).1 = v.holds (v.eval condition s).1 ∧
    (label.eval v s).2 = (v.eval condition s).2

/-- The label of a condition is `true` exactly if the condition holds. -/
theorem matches_ofCondition (hv : v.Lawful) (condition : Tree) :
    (Label.ofCondition condition).Matches v Value.isTrue condition := by
  intro s
  rw [← Valuation.eval_unwrapParens hv condition]
  refine ⟨?_, rfl⟩
  cases hboolean : condition.unwrapParens.isBooleanValued with
  -- the condition is a boolean already, so it holds exactly if it is `true`
  | true =>
    have hgives := Tree.isBooleanValued_iff.mp hboolean
    simp only [Label.eval, Label.ofCondition, hboolean]
    exact (Valuation.holds_eq_isTrue (Valuation.isBoolean_of_givesBoolean hv hgives s)).symm
  -- anything else is made the boolean that it counts as
  | false =>
    simp only [Label.eval, Label.ofCondition, hboolean]
    exact Valuation.isTrue_negate_negate _

/-- Without labels nothing is evaluated. -/
theorem search_of_unlabelled {clauses : List Clause} (h : ∀ c ∈ clauses, c.label = none)
    (hit : Value α → Bool) (otherwise : List Clause) (s : σ) :
    search v hit otherwise clauses s = ⟨otherwise, [], s⟩ := by
  induction clauses with
  | nil => rfl
  | cons c clauses ih =>
    simp only [List.forall_mem_cons] at h
    simp only [search, h.1, ih h.2]

/-- The search tries the labels of the branches as the chain tries the branches. -/
theorem search_branches {hit : Value α → Bool} {label : Tree → Label} (clause : Branch → Clause)
    (hlabel : ∀ branch, (clause branch).label = some (label branch.condition)) {rest : List Clause}
    (hrest : ∀ c ∈ rest, c.label = none) (otherwise : List Clause) (last : Option Tree)
    {branches : List Branch}
    (hmatches : ∀ branch ∈ branches, (label branch.condition).Matches v hit branch.condition)
    (s : σ) :
    ∃ i ≤ branches.length,
      search v hit otherwise (branches.map clause ++ rest) s =
        ⟨if i < branches.length then (branches.map clause ++ rest).drop i else otherwise,
          (branches.take (choose v last branches s).tested.length).map fun branch =>
            (label branch.condition).expression,
          (choose v last branches s).state⟩ ∧
      (choose v last branches s).chosen = (branches.map Branch.body ++ last.toList)[i]? := by
  -- each label that fails leaves the state in which the next branch is tried
  induction branches generalizing s with
  | nil =>
    refine ⟨0, Nat.le_refl 0, search_of_unlabelled hrest _ _ s, ?_⟩
    cases last <;> rfl
  | cons branch branches ih =>
    obtain ⟨hfirst, hothers⟩ := List.forall_mem_cons.mp hmatches
    simp only [List.map_cons, List.cons_append, search, hlabel, (hfirst s).1, (hfirst s).2, choose]
    -- the label hits exactly if the test holds
    by_cases hholds : v.holds (v.eval branch.condition s).1 = true
    · exact ⟨0, Nat.zero_le _, by simp [hholds], by simp [hholds]⟩
    · obtain ⟨i, hi, hsearch, hchosen⟩ := ih hothers (v.eval branch.condition s).2
      refine ⟨i + 1, Nat.succ_le_succ hi, ?_, by simpa [hholds, Choice.after] using hchosen⟩
      simp [hholds, hsearch, Choice.after]

/-- A chain evaluates the tests of its branches from the front. -/
theorem tested_choose (v : Valuation α σ) (last : Option Tree) (branches : List Branch) (s : σ) :
    (branches.take (choose v last branches s).tested.length).map
      (fun branch => branch.condition.unwrapParens) = (choose v last branches s).tested := by
  induction branches generalizing s with
  | nil => rfl
  | cons branch branches ih =>
    simp only [choose]
    split
    case isTrue => rfl
    case isFalse => simp [Choice.after, ih]

end

/-! ### Falling through -/

/-- What stands behind a jump is not reached. -/
theorem throughJump_append {items : List Item} (h : items.getLast?.any Item.isJump = true)
    (rest : List Item) : throughJump (items ++ rest) = throughJump items := by
  induction items with
  | nil => cases h
  | cons item items ih =>
    simp only [List.cons_append, throughJump]
    split
    case isTrue => rfl
    case isFalse hitem =>
      -- the jump at the end is not the first item, so it is in the rest
      cases items with
      | nil => simp_all
      | cons next items => rw [ih (by simpa using h)]

/-- If all clauses end with a jump, but for one at the end, control stays in the clause that is
entered. -/
theorem executed_drop {front rest : List Clause}
    (hfront : ∀ c ∈ front, c.items.getLast?.any Item.isJump = true) (hrest : rest.length ≤ 1)
    (i : Nat) : executed ((front ++ rest).drop i) = executed (front ++ rest)[i]?.toList := by
  induction front generalizing i with
  | nil =>
    -- the last clause may end without a jump, since nothing follows it
    match rest, i with
    | [], _ => simp
    | [c], 0 => rfl
    | [c], i + 1 => simp
  | cons c front ih =>
    simp only [List.forall_mem_cons] at hfront
    cases i with
    | zero =>
      simp only [executed, List.cons_append, List.drop_zero, List.flatMap_cons,
        List.getElem?_cons_zero, Option.toList_some, List.flatMap_nil, List.append_nil]
      -- the jump at the end of the clause keeps control from what follows
      exact throughJump_append hfront.1 _
    | succ i => simpa using ih hfront.2 i

end Switch

/-! ## §4 The `switch` of a chain -/

namespace ChainForm

open Switch

section

variable (label : Tree → Switch.Label) (form : ChainForm) (chain : Chain)

/-- The clause of a branch. -/
def caseClause (branch : Branch) : Clause :=
  form.clauseWith label ⟨some branch.condition, branch.body⟩

/-- The default, if the chain has something left. -/
def defaults : List Clause :=
  chain.otherwise.toList.map fun body => form.clauseWith label ⟨none, body⟩

theorem clauses_eq : chain.arms.map (form.clauseWith label) =
    chain.branches.map (caseClause label form) ++ defaults label form chain := by
  simp only [Chain.arms, List.map_append, List.map_map]
  rfl

theorem bodies_eq :
    chain.arms.map Arm.body = chain.branches.map Branch.body ++ chain.otherwise.toList := by
  simp [Chain.arms, Function.comp_def]

theorem label_of_mem_defaults : ∀ c ∈ defaults label form chain, c.label = none := by
  simp [defaults, clauseWith]

/-- The default is found behind all the cases. -/
theorem dropWhile_labelled :
    (chain.branches.map (caseClause label form) ++ defaults label form chain).dropWhile
      (fun c => c.label.isSome) = defaults label form chain := by
  -- every case has a label, and the default has none
  have hcases : ∀ c ∈ chain.branches.map (caseClause label form), c.label.isSome = true := by
    simp [caseClause, clauseWith]
  rw [List.dropWhile_append_of_pos hcases]
  cases h : chain.otherwise <;> simp [defaults, h, clauseWith]

variable {label}

/-- If the labels match the tests, the `switch` evaluates a label for each test that the chain
evaluates and enters the clause of the branch that the chain takes. -/
theorem enter_clausesWith {α σ : Type} {v : Valuation α σ} {hit : Value α → Bool}
    (hmatches : ∀ branch ∈ chain.branches, (label branch.condition).Matches v hit branch.condition)
    (s : σ) :
    ∃ i, (chain.choose v s).chosen = chain.arms[i]?.map Arm.body ∧
      enter v hit (chain.arms.map (form.clauseWith label)) s =
        ⟨(chain.arms.map (form.clauseWith label)).drop i,
          (chain.branches.take (chain.choose v s).tested.length).map fun branch =>
            (label branch.condition).expression,
          (chain.choose v s).state⟩ := by
  obtain ⟨i, hi, hsearch, hchosen⟩ := search_branches (caseClause label form) (fun _ => rfl)
    (label_of_mem_defaults label form chain) (defaults label form chain) chain.otherwise hmatches s
  refine ⟨i, ?_, ?_⟩
  · rw [← List.getElem?_map, bodies_eq]
    exact hchosen
  · -- a label that hits is at its position among the cases
    rw [clauses_eq, enter, dropWhile_labelled, hsearch]
    congr 1
    split
    case isTrue => rfl
    case isFalse hlast =>
      -- no label hits, and the default is what stands behind as many clauses as there are branches
      obtain rfl : i = chain.branches.length := Nat.le_antisymm hi (Nat.le_of_not_lt hlast)
      exact (List.drop_left' (List.length_map _)).symm

/-- Control stays in the clause that is entered. -/
theorem executed_clausesWith (i : Nat) :
    executed ((chain.arms.map (form.clauseWith label)).drop i) =
      executed (chain.arms.map (form.clauseWith label))[i]?.toList := by
  rw [clauses_eq]
  refine executed_drop ?_ ?_ i
  · rw [List.forall_mem_map]
    exact fun branch _ => jumps_clauseWith rfl
  · cases h : chain.otherwise <;> simp [defaults, h]

end

/-- The `switch` evaluates what the chain evaluates and enters the clause of the branch that it
takes. -/
theorem enter_clauses {α σ : Type} {v : Valuation α σ} (hv : v.Lawful) (form : ChainForm)
    (chain : Chain) (s : σ) :
    ∃ i, (chain.choose v s).chosen = chain.arms[i]?.map Arm.body ∧
      enter v Value.isTrue (chain.arms.map form.clause) s =
        ⟨(chain.arms.map form.clause).drop i, (chain.choose v s).tested,
          (chain.choose v s).state⟩ := by
  obtain ⟨i, hchosen, henter⟩ :=
    form.enter_clausesWith chain (fun branch _ => matches_ofCondition hv branch.condition) s
  rw [Chain.choose, ← tested_choose]
  exact ⟨i, hchosen, henter⟩

theorem executed_clauses (form : ChainForm) (chain : Chain) (i : Nat) :
    executed ((chain.arms.map form.clause).drop i) =
      executed (chain.arms.map form.clause)[i]?.toList :=
  form.executed_clausesWith chain i

/-- The clause of an expression returns its value. -/
theorem executed_expression {label : Tree → Switch.Label} (arm : Arm) :
    executed [expression.clauseWith label arm] = [.result arm.body.unwrapParens] := by
  simp [executed, clauseWith, Clause.items, contents, throughJump, Item.isJump]

/-- A chain that is accepted becomes a `switch` on `true` with a clause for each of its arms, in
order: a test becomes a label that has it as a boolean, what is left becomes the default, and a body
becomes its statements or the return of its value. Whatever the tests evaluate to, the `switch`
evaluates those that the nest evaluates, in the same order, and enters the clause of the branch that
the nest takes. Control does not leave it for the next. -/
theorem switch_keeps_dispatch {source : String} {n : Node} {replacement : Replacement}
    (form : ChainForm) (hrun : form.toSwitch.run source n = .ok (some replacement)) :
    ∃ chain clauses text, form.chain? n.tree = some chain ∧ replacement = .text (form.embed text) ∧
      Switch.print source "true" clauses = .ok text ∧
      List.Forall₂ (form.Writes source) chain.arms clauses ∧
      (∀ i, executed (clauses.drop i) = executed clauses[i]?.toList) ∧
      ∀ {α σ : Type} {v : Valuation α σ}, v.Lawful → ∀ s, ∃ i choice,
        (∀ c, Takes v form n.tree s c ↔ c = choice) ∧
        choice.chosen = chain.arms[i]?.map Arm.body ∧
        enter v Value.isTrue clauses s = ⟨clauses.drop i, choice.tested, choice.state⟩ ∧
        (form = .expression → ∃ body e, choice.chosen = some body ∧
          executed (clauses.drop i) = [.result e] ∧ v.eval e = v.eval body) := by
  obtain ⟨chain, text, hchain, hreplacement, hprint⟩ := of_toSwitch hrun
  refine ⟨chain, chain.arms.map form.clause, text, hchain, hreplacement, hprint, ?_,
    executed_clauses form chain, ?_⟩
  · -- the clauses are made arm by arm
    exact List.forall₂_map_right_iff.mpr
      (List.forall₂_same.mpr fun arm _ => form.writes_clause source arm)
  · intro α σ v hv s
    obtain ⟨i, hchosen, henter⟩ := enter_clauses hv form chain s
    refine ⟨i, chain.choose v s, (flattens_of_chain? hchain).takes_iff hv s, hchosen, henter, ?_⟩
    rintro rfl
    -- a conditional expression always has a value, since something is left when all tests fail
    obtain ⟨_, last, hlast⟩ := Tree.of_ternaryChain? hchain
    obtain ⟨body, hbody⟩ := Option.isSome_iff_exists.mp (isSome_chosen v hlast s)
    obtain ⟨arm, harm, rfl⟩ := Option.map_eq_some_iff.mp (hchosen.symm.trans hbody)
    refine ⟨arm.body, arm.body.unwrapParens, hbody, ?_, Valuation.eval_unwrapParens hv arm.body⟩
    rw [executed_clauses, List.getElem?_map, harm]
    exact executed_expression arm

end ChainForm

namespace Sample

/-- Whatever is asked second holds. What is not written as boolean has a number for its value. -/
def secondHolds : Valuation Nat Nat where
  counts a := a == 1
  eval t s := (if t.isBooleanValued then .boolean (s == 1) else .other s, s + 1)

/-- This valuation is as it is asked to be. -/
theorem lawful_secondHolds : secondHolds.Lawful where
  parens := by
    intro t inner hkind hinner
    simp only [secondHolds, Tree.isBooleanValued_of_parens hkind hinner]
  literal := fun hkind _ => ⟨_, if_pos (Tree.isBooleanValued_iff.mpr (.literal hkind))⟩
  negation := fun hkind hoperator _ =>
    ⟨_, if_pos (Tree.isBooleanValued_iff.mpr (.negation hkind hoperator))⟩
  comparison := fun hkind hoperator hmem _ =>
    ⟨_, if_pos (Tree.isBooleanValued_iff.mpr (.comparison hkind hoperator hmem))⟩
  logical := by
    intro t left right hkind hoperator hleft hright s
    refine ⟨s, ?_⟩
    simp only [secondHolds, Tree.isBooleanValued_of_logical hkind hoperator hleft hright]
    cases left.isBooleanValued <;> cases right.isBooleanValued <;> simp

/-- `if (a + b) x() else if (b < c) { return } else y()` on three lines. -/
def nestedIf : Tree :=
  let call (start : Nat) := construct "expression_statement" start (start + 3) []
    [construct "call_expression" start (start + 3) [] []]
  let test (operator : String) (start : Nat) :=
    construct "parenthesized_expression" start (start + 7) []
      [mark "(" start (start + 1),
        construct "binary_expression" (start + 1) (start + 6)
          [("left", 0), ("operator", 1), ("right", 2)]
          [construct "identifier" (start + 1) (start + 2) [] [],
            mark operator (start + 3) (start + 4),
            construct "identifier" (start + 5) (start + 6) [] []],
        mark ")" (start + 6) (start + 7)]
  let inner :=
    construct "if_statement" 20 50 [("condition", 1), ("consequence", 2), ("alternative", 3)]
      [mark "if" 20 22, test "<" 23,
        construct "statement_block" 31 41 []
          [mark "\x7b" 31 32, construct "return_statement" 33 39 [] [], mark "\x7d" 40 41],
        construct "else_clause" 42 50 [] [mark "else" 42 46, call 47]]
  construct "if_statement" 0 50 [("condition", 1), ("consequence", 2), ("alternative", 3)]
    [mark "if" 0 2, test "+" 3, call 11,
      construct "else_clause" 15 50 [] [mark "else" 15 19, inner]]

end Sample

namespace ChainForm

open Switch

/-- A test that is no boolean is coerced as a whole, and the body that does not jump away is left by
a `break`. -/
theorem switch_keeps_dispatch_nested :
    let source := "if (a + b) x()\nelse if (b < c) \x7b return \x7d\nelse y()"
    let n := Node.root Sample.nestedIf
    let replacement := Replacement.text
      "switch (true) \x7b\ncase !!(a + b):\nx()\nbreak\ncase b < c:\nreturn\ndefault:\ny()\n\x7d"
    ChainForm.statement.toSwitch.run source n = .ok (some replacement) ∧ Sample.secondHolds.Lawful ∧
      ∃ chain clauses text, ChainForm.statement.chain? n.tree = some chain ∧
        replacement = .text text ∧ Switch.print source "true" clauses = .ok text ∧
        List.Forall₂ (ChainForm.statement.Writes source) chain.arms clauses ∧
        (∀ i, executed (clauses.drop i) = executed clauses[i]?.toList) ∧
        ∃ i choice, (∀ c, Takes Sample.secondHolds .statement n.tree 0 c ↔ c = choice) ∧
          choice.chosen = chain.arms[i]?.map Arm.body ∧
          enter Sample.secondHolds Value.isTrue clauses 0 =
            ⟨clauses.drop i, choice.tested, choice.state⟩ := by
  intro source n replacement
  have hrun : ChainForm.statement.toSwitch.run source n = .ok (some replacement) := by
    with_unfolding_all decide
  obtain ⟨chain, clauses, text, hchain, htext, hprint, hwrites, hstays, henters⟩ :=
    switch_keeps_dispatch statement hrun
  obtain ⟨i, choice, htakes, hchosen, henter, _⟩ := henters Sample.lawful_secondHolds 0
  exact ⟨hrun, Sample.lawful_secondHolds, chain, clauses, text, hchain, htext, hprint,
    hwrites, hstays, i, choice, htakes, hchosen, henter⟩

end ChainForm

end CodeActions
