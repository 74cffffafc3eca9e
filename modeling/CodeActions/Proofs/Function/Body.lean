import CodeActions.Proofs.Branch.Sequence
import CodeActions.Proofs.Function.Binding

/-!
# Bodies that change with the form of a function

The body of an arrow can be an expression, which is its result. In a function the elements of that
expression become the statements of a block, and the last one is returned. An `undefined` in the
last place need not be returned, since a block that comes to its end returns the same.

The other way round a block becomes a comma sequence, if it is a run of expression statements that
may end with the return of an expression. A sequence for a block that does not return ends with
`undefined`. All other blocks stay as they are.

Main statements: `FunctionBody.writtenAsBlock` and `ArrowBody.writtenAsArrow`, what becomes of the
two kinds of bodies, and `FunctionChange.body_keeps_effects_and_result`.
-/

namespace CodeActions

/-! ## §1 Expressions as blocks -/

/-- The block with these statements, on one line. -/
def Written.printBlock (source : String) (statements : List Written) : Cut String := do
  match ← statements.mapM (Written.print source) with
  | [] => return "\x7b\x7d"
  | texts => return "\x7b " ++ "; ".intercalate texts ++ " \x7d"

/-- The value of `undefined` is the one that a function returns if it returns nothing. -/
def Valuation.KnowsUndefined {α σ : Type} (v : Valuation α σ) (nothing : Value α) : Prop :=
  ∀ ⦃t : Tree⦄, t.kind = "undefined" → ∀ s, (v.eval t s).1 = nothing

/-- To evaluate `undefined` does nothing else. -/
def Valuation.IgnoresUndefined {α σ : Type} (v : Valuation α σ) : Prop :=
  ∀ ⦃t : Tree⦄, t.kind = "undefined" → ∀ s, (v.eval t s).2 = s

/-- The effects are evaluated in order, and then the result, if there is one, is evaluated and
returned. -/
def Valuation.returning {α σ : Type} (v : Valuation α σ) (effects : List Tree)
    (result : Option Tree) (s : σ) : Outcome (Option (Value α)) σ where
  value := result.map fun last => (v.eval last (v.stateAfter effects s)).1
  evaluated := effects ++ result.toList
  state := v.stateAfter (effects ++ result.toList) s

/-- The statements do what the expression with these elements does. They evaluate the elements in
order, where an `undefined` in the last place may be left out, and return the value of the last one.
To return nothing is to return `undefined`.

So if a comma sequence is evaluated part by part, they return the value of the expression and end in
the same state. -/
def Written.MirrorsExpression (statements : List Written) (body : Tree) (es : List Tree) : Prop :=
  ∀ {α σ : Type} {v : Valuation α σ} {nothing : Value α}, v.KnowsUndefined nothing → ∀ s : σ,
    let outcome := Written.execute v nothing statements s
    (outcome.evaluated = es ∨ ∃ u, u.kind = "undefined" ∧ outcome.evaluated ++ [u] = es) ∧
    outcome.value.getD nothing = (v.evalFrom es (nothing, s)).1 ∧
    outcome.state = v.stateAfter outcome.evaluated s ∧
    (v.Transparent → v.Sequential → body.unwrapParens.SequencesHaveParts →
      outcome.value.getD nothing = (v.eval body s).1 ∧
      (v.IgnoresUndefined → outcome.state = (v.eval body s).2))

namespace FunctionBody

variable {source text : String} {es effects : List Tree} {result : Option Tree}

/-- The elements are evaluated for their effects up to the last one, which is returned or left
out. -/
inductive Splits : List Tree → List Tree → Option Tree → Prop where
  | empty : Splits [] [] none
  | returned (effects : List Tree) (last : Tree) : Splits (effects ++ [last]) effects (some last)
  | leftOut {effects : List Tree} {last : Tree} (kind : last.kind = "undefined")
      (ne_nil : effects ≠ []) : Splits (effects ++ [last]) effects none

/-- The body of an arrow that is no block is taken apart into its elements. -/
theorem exists_splits {body : Tree} (hkind : body.kind ≠ "statement_block") :
    ∃ effects result, ofArrow body = .statements effects result ∧
      Splits body.unwrapParens.sequence effects result := by
  unfold ofArrow
  rw [if_neg hkind]
  simp only
  split
  case h_1 hlast =>
    rw [List.getLast?_eq_none_iff.mp hlast]
    exact ⟨[], none, rfl, .empty⟩
  case h_2 last hlast =>
    obtain ⟨front, hfront⟩ := List.getLast?_eq_some_iff.mp hlast
    rw [hfront, List.dropLast_concat]
    split
    -- an `undefined` at the end is what a function without a `return` gives anyway
    case isTrue hundefined =>
      exact ⟨front, none, rfl, .leftOut hundefined.1 (by simpa using hundefined.2)⟩
    case isFalse => exact ⟨front, some last, rfl, .returned front last⟩

/-- The statements that are written. -/
def written (effects : List Tree) (result : Option Tree) : List Written :=
  effects.map Written.ofTree ++ result.toList.map fun last => .result (.tree last)

/-- The text is the block in print. -/
theorem print_of_render (h : (statements effects result).render source = .ok text) :
    Written.printBlock source (written effects result) = .ok text := by
  obtain ⟨front, hfront, h⟩ := bind_eq_ok_iff.mp h
  obtain ⟨back, hback, h⟩ := bind_eq_ok_iff.mp h
  -- the return is written with its value, or not at all
  have hresult : (result.toList.map fun last => Written.result (.tree last)).mapM
      (Written.print source) = .ok back := by
    cases result with
    | none => exact hback
    | some last =>
      obtain ⟨value, hvalue, hback⟩ := bind_eq_ok_iff.mp hback
      cases hback
      rw [Option.toList_some, List.map_singleton, List.mapM_cons]
      exact bind_eq_ok_iff.mpr ⟨_, bind_eq_ok_iff.mpr ⟨value, hvalue, rfl⟩, rfl⟩
  -- both parts are statements of one list
  have htexts : (written effects result).mapM (Written.print source) = .ok (front ++ back) := by
    rw [written, List.mapM_append, Written.mapM_print_ofTree]
    exact bind_eq_ok_iff.mpr ⟨front, hfront, bind_eq_ok_iff.mpr ⟨back, hresult, rfl⟩⟩
  exact bind_eq_ok_iff.mpr ⟨front ++ back, htexts, h⟩

/-- None of the statements goes on with the one before it: an effect is put in parentheses where it
has to be, and a return opens with a word. -/
theorem standsAlone_written (effects : List Tree) (result : Option Tree) :
    ∀ statement ∈ written effects result, statement.StandsAlone := by
  intro statement hstatement
  rcases List.mem_append.mp hstatement with hstatement | hstatement
  · obtain ⟨e, _, rfl⟩ := List.mem_map.mp hstatement
    exact Written.standsAlone_ofTree e
  · obtain ⟨last, _, rfl⟩ := List.mem_map.mp hstatement
    trivial

section

variable {α σ : Type} {v : Valuation α σ} (nothing : Value α)

/-- The effects are expression statements, and the return ends the block. -/
theorem execute_written (effects : List Tree) (result : Option Tree) (s : σ) :
    Written.execute v nothing (written effects result) s = v.returning effects result s := by
  rw [written, Written.execute_append]
  cases result with
  -- the block comes to its end without a value
  | none => simp [Valuation.returning, Written.execute, Outcome.after]
  | some last =>
    simp [Valuation.returning, Written.execute, Outcome.after, Outcome.asStatement, Expression.run,
      Valuation.outcome]

/-- What has been evaluated for its effects or returned are the elements, up to an `undefined` at
the end. -/
theorem Splits.evaluated (h : Splits es effects result) :
    effects ++ result.toList = es ∨
      ∃ u, u.kind = "undefined" ∧ effects ++ result.toList ++ [u] = es := by
  cases h with
  | empty => exact .inl rfl
  | returned effects last => exact .inl rfl
  | leftOut kind => exact .inr ⟨_, kind, by simp⟩

variable {nothing}

/-- The value of the last element is returned. -/
theorem Splits.value_eq (h : Splits es effects result) (hv : v.KnowsUndefined nothing) (s : σ) :
    (v.returning effects result s).value.getD nothing = (v.evalFrom es (nothing, s)).1 := by
  cases h with
  | empty => rfl
  | returned effects last =>
    rw [Valuation.evalFrom_concat]
    rfl
  -- nothing is returned, and nothing is what the element would have given
  | leftOut kind =>
    rw [Valuation.evalFrom_concat]
    exact (hv kind _).symm

/-- An `undefined` that is left out would have changed nothing. -/
theorem Splits.state_eq (h : Splits es effects result) (hv : v.IgnoresUndefined) (s : σ) :
    (v.returning effects result s).state = v.stateAfter es s := by
  cases h with
  | empty => rfl
  | returned effects last => rfl
  | leftOut kind => simp [Valuation.returning, hv kind]

end

/-- The statements do what the body of the arrow does. -/
theorem Splits.mirrors {body : Tree} (h : Splits es effects result)
    (hes : Tree.Flattened [body.unwrapParens] es) :
    Written.MirrorsExpression (written effects result) body es := by
  intro α σ v nothing hundefined s outcome
  have houtcome : outcome = v.returning effects result s := execute_written nothing effects result s
  have hvalue := h.value_eq hundefined s
  rw [houtcome]
  refine ⟨h.evaluated, hvalue, rfl, fun hparens hsequential hparts => ?_⟩
  -- the elements one after the other are the expression, whatever it is nested in
  have hbody : v.evalFrom es (nothing, s) = v.eval body s := by
    rw [Valuation.evalFrom_of_flattened hsequential hes (by simpa using hparts)]
    rw [Valuation.evalFrom_cons, Valuation.evalFrom_nil, hparens.eval_unwrapParens]
  refine ⟨by rw [hvalue, hbody], fun hignores => ?_⟩
  rw [h.state_eq hignores, ← hbody, Valuation.snd_evalFrom]

end FunctionBody

/-- The text is the body of a function that does what the body of the arrow does. A block is
kept. -/
structure Tree.WrittenAsBlock (source : String) (body : Tree) (text : String) : Prop where
  kept : body.kind = "statement_block" → body.text source = .ok text
  statements : body.kind ≠ "statement_block" →
    ∃ es statements, Tree.Flattened [body.unwrapParens] es ∧
      Written.printBlock source statements = .ok text ∧
      (∀ statement ∈ statements, statement.StandsAlone) ∧
      Written.MirrorsExpression statements body es

/-- What is rendered for the body of an arrow is a block that does the same. -/
theorem FunctionBody.writtenAsBlock {source text : String} {body : Tree}
    (h : (ofArrow body).render source = .ok text) : body.WrittenAsBlock source text := by
  refine ⟨fun hkind => ?_, fun hkind => ?_⟩
  · have hkept : ofArrow body = .kept body := if_pos hkind
    rw [hkept] at h
    exact h
  · -- the elements of a sequence inside of a sequence are elements of the whole
    obtain ⟨effects, result, hsplit, hsplits⟩ := exists_splits hkind
    rw [hsplit] at h
    have hes := body.unwrapParens.flattened_sequence
    exact ⟨_, written effects result, hes, print_of_render h, standsAlone_written effects result,
      hsplits.mirrors hes⟩

/-! ## §2 Blocks as expressions -/

/-- The block is a run of expression statements, at least one, that may end with the return of an
expression. -/
def Tree.Collapses (block : Tree) (es : List Tree) : Option Tree → Prop
  | none => es ≠ [] ∧ Runs block.statements es .falls
  | some result => Runs block.statements es (.returns (some result))

/-- The expression does what the block does. Both evaluate these expressions and come to the same
state, and the value of the expression is what the block returns, `undefined` if it does not
return. -/
def Expression.MirrorsBlock (e : Expression) (block : Tree) (es : List Tree) : Prop :=
  ∀ {α σ : Type} {v : Valuation α σ} (nothing : Value α) (s : σ), ∃ outcome,
    execute? v nothing block.statements s = some outcome ∧ outcome.evaluated = es ∧
    e.run v nothing s = ⟨outcome.value.getD nothing, outcome.evaluated, outcome.state⟩

namespace ArrowBody

variable {source text : String} {block : Tree} {es : List Tree} {result : Option Tree}

/-- Only such runs are collapsed. -/
theorem collapses_of_collapse? {body : ArrowBody} (h : collapse? block = some body) :
    ∃ es result, block.Collapses es result := by
  obtain ⟨last, hlast, h⟩ := Option.bind_eq_some_iff.mp h
  obtain ⟨front, hfront⟩ := List.getLast?_eq_some_iff.mp hlast
  rw [hfront, List.dropLast_concat] at h
  -- the last statement shows whether the block returns
  split at h
  -- with a value to return the statements before may be none at all
  case isTrue hkind =>
    obtain ⟨effects, heffects, h⟩ := Option.bind_eq_some_iff.mp h
    obtain ⟨value, hvalue, _⟩ := Option.bind_eq_some_iff.mp h
    exact ⟨effects, some value,
      Runs.returns_iff.mpr ⟨front, last, hfront, hkind, hvalue.symm, heffects⟩⟩
  case isFalse =>
    obtain ⟨effects, heffects, _⟩ := Option.bind_eq_some_iff.mp h
    refine ⟨effects, none, ?_, Runs.falls_iff.mpr (hfront ▸ heffects)⟩
    -- there is a last statement, so there is an expression
    intro hnil
    have hlength := (mapM_eq_some_iff.mp heffects).length_eq
    simp [hnil] at hlength

/-- All of them are. -/
theorem collapse?_of_collapses (h : block.Collapses es result) :
    collapse? block = some (.sequence es result) := by
  unfold collapse?
  cases result with
  | none =>
    obtain ⟨hne, hruns⟩ := h
    have heffects := Runs.falls_iff.mp hruns
    rcases List.eq_nil_or_concat' block.statements with hnil | ⟨front, last, hfront⟩
    · -- without statements there are no expressions
      rw [hnil] at hruns
      cases hruns
      exact absurd rfl hne
    · rw [hfront] at heffects ⊢
      -- with a `return` at the end the statements would not all be expressions
      have hkind : last.kind ≠ "return_statement" := by
        intro hkind
        rw [Tree.expressions?_append_return hkind] at heffects
        cases heffects
      rw [List.getLast?_concat]
      show (if last.kind = "return_statement" then _ else _) = _
      rw [if_neg hkind, heffects]
      rfl
  | some value =>
    obtain ⟨front, last, hfront, hkind, hvalue, heffects⟩ := Runs.returns_iff.mp h
    rw [hfront, List.getLast?_concat, List.dropLast_concat, heffects]
    show (if last.kind = "return_statement" then _ else _) = _
    rw [if_pos hkind, ← hvalue]
    rfl

/-- The text is the sequence in print. -/
theorem print_of_render (h : (sequence es result).render source = .ok text) :
    (ArmValue.expression ⟨es, .returns result⟩).print source = .ok text := by
  apply ArmValue.print_expression
  obtain ⟨effects, heffects, h⟩ := bind_eq_ok_iff.mp h
  obtain ⟨last, hlast, h⟩ := bind_eq_ok_iff.mp h
  have hending : ArmValue.endingTexts source ⟨es, .returns result⟩ = .ok [last] := by
    cases result with
    | none =>
      cases hlast
      rfl
    | some value => exact bind_eq_ok_iff.mpr ⟨last, hlast, rfl⟩
  refine bind_eq_ok_iff.mpr ⟨effects, heffects, bind_eq_ok_iff.mpr ⟨[last], hending, ?_⟩⟩
  -- there is at least the result, so something is written between the parentheses
  split
  case h_1 hnil => simp at hnil
  case h_2 => exact h

variable {α σ : Type} {v : Valuation α σ} (nothing : Value α)

/-- The sequence evaluates its elements in order and has the value of the last one. -/
theorem run_expression (es : List Tree) (result : Option Tree) (s : σ) :
    (ArmValue.expression ⟨es, .returns result⟩).run v nothing s =
      ⟨(v.returning es result s).value.getD nothing, es ++ result.toList,
        (v.returning es result s).state⟩ := by
  have hrun : ((ArmValue.expression ⟨es, .returns result⟩).run v nothing s).asStatement true = _ :=
    ArmValue.run_expression nothing es (.returns result) s
  -- only the parts of the outcome matter from here on
  generalize (ArmValue.expression ⟨es, .returns result⟩).run v nothing s = outcome at hrun ⊢
  obtain ⟨value, evaluated, state⟩ := outcome
  cases result with
  | none =>
    simpa [Valuation.returning, Outcome.asStatement, Outcome.after, Ending.outcome] using hrun
  | some last =>
    simpa [Valuation.returning, Outcome.asStatement, Outcome.after, Ending.outcome,
      Valuation.outcome] using hrun

/-- The block evaluates the same expressions and returns the last one. -/
theorem execute?_of_collapses (h : block.Collapses es result) (s : σ) :
    execute? v nothing block.statements s = some (v.returning es result s) := by
  cases result with
  | none =>
    rw [h.2.execute?_eq_ending]
    simp [Valuation.returning, Ending.outcome, Outcome.after]
  | some value =>
    rw [Runs.execute?_eq_ending nothing h]
    simp [Valuation.returning, Ending.outcome, Outcome.after, Outcome.asStatement,
      Valuation.outcome]

end ArrowBody

/-- The text is the body of an arrow that does what the block of the function does. A block that is
no run of expression statements is kept. -/
structure Tree.WrittenAsArrow (source : String) (block : Tree) (text : String) : Prop where
  collapsed : ∀ {es result}, block.Collapses es result →
    let e := ArmValue.expression ⟨es, .returns result⟩
    e.print source = .ok text ∧ e.Delimited ∧ e.MirrorsBlock block (es ++ result.toList)
  kept : (∀ es result, ¬ block.Collapses es result) → block.text source = .ok text

/-- What is rendered for the block of a function is a sequence that does the same, or the block
itself. -/
theorem ArrowBody.writtenAsArrow {source text : String} {block : Tree}
    (h : (ofFunction block).render source = .ok text) : block.WrittenAsArrow source text := by
  refine ⟨fun {es result} hcollapses => ?_, fun hnone => ?_⟩
  · have hbody : ofFunction block = .sequence es result := by
      rw [ofFunction, collapse?_of_collapses hcollapses]
      rfl
    rw [hbody] at h
    refine ⟨print_of_render h, (ArmValue.delimited_expression _).1, ?_⟩
    intro α σ v nothing s
    exact ⟨_, execute?_of_collapses nothing hcollapses s, rfl, run_expression nothing es result s⟩
  · -- whatever is collapsed is such a run, so this block was not
    have hbody : ofFunction block = .kept block := by
      rw [ofFunction]
      cases hcollapse : collapse? block with
      | none => rfl
      | some body =>
        obtain ⟨es, result, hcollapses⟩ := collapses_of_collapse? hcollapse
        exact absurd hcollapses (hnone es result)
    rw [hbody] at h
    exact h

/-! ## §3 Changes of form -/

namespace FunctionChange

/-- The change makes an arrow of a function. -/
def makesArrow : FunctionChange → Bool
  | .expression | .declaration => true
  | .arrow | .binding => false

/-- What stands in front of the body in the new form. -/
def opening (source : String) (f : FunctionForm) : FunctionChange → Cut String
  | .arrow => do return f.asyncMark ++ "function " ++ (← f.signature.render source) ++ " "
  | .binding => do
    return f.asyncMark ++ "function " ++ (← Signature.optionalText source f.name) ++
      (← f.signature.render source) ++ " "
  | .expression => do return f.asyncMark ++ (← f.signature.render source) ++ " => "
  | .declaration => do
    return "const " ++ (← Signature.optionalText source f.name) ++ " = " ++
      (f.asyncMark ++ (← f.signature.render source) ++ " => ")

variable {source : String} {change : FunctionChange} {n : Node} {replacement : Replacement}

/-- The new form is its opening and its body, and a declaration may be guarded. -/
theorem of_render {f : FunctionForm} {text : String} (h : change.render source n f = .ok text) :
    ∃ head body front back, change.opening source f = .ok head ∧
      text = front ++ (head ++ body) ++ back ∧
      front ∈ ["", ";"] ∧ back ∈ ["", ";"] ∧
      if change.makesArrow then (ArrowBody.ofFunction f.body).render source = .ok body
      else (FunctionBody.ofArrow f.body).render source = .ok body := by
  cases change with
  -- a function expression has no name of its own to write
  | arrow =>
    obtain ⟨signature, hsignature, h⟩ := bind_eq_ok_iff.mp h
    obtain ⟨body, hbody, h⟩ := bind_eq_ok_iff.mp h
    cases h
    exact ⟨_, body, "", "", bind_eq_ok_iff.mpr ⟨signature, hsignature, rfl⟩, by simp, by simp,
      by simp, hbody⟩
  | binding =>
    obtain ⟨name, hname, h⟩ := bind_eq_ok_iff.mp h
    obtain ⟨signature, hsignature, h⟩ := bind_eq_ok_iff.mp h
    obtain ⟨body, hbody, h⟩ := bind_eq_ok_iff.mp h
    cases h
    exact ⟨_, body, "", "",
      bind_eq_ok_iff.mpr ⟨name, hname, bind_eq_ok_iff.mpr ⟨signature, hsignature, rfl⟩⟩,
      by simp, by simp, by simp, hbody⟩
  | expression =>
    obtain ⟨signature, hsignature, h⟩ := bind_eq_ok_iff.mp h
    obtain ⟨body, hbody, h⟩ := bind_eq_ok_iff.mp h
    cases h
    exact ⟨_, body, "", "", bind_eq_ok_iff.mpr ⟨signature, hsignature, rfl⟩, by simp, by simp,
      by simp, hbody⟩
  -- the arrow is written first, as for an expression, and then bound to the name
  | declaration =>
    obtain ⟨binding, hbinding, hguarded⟩ := bind_eq_ok_iff.mp h
    -- of the four only a declaration becomes a statement that needs a guard
    obtain ⟨front, back, rfl, hfront, hback⟩ := Node.of_guarded hguarded
    obtain ⟨name, hname, h⟩ := bind_eq_ok_iff.mp hbinding
    obtain ⟨arrow, harrow, h⟩ := bind_eq_ok_iff.mp h
    cases h
    obtain ⟨signature, hsignature, h⟩ := bind_eq_ok_iff.mp harrow
    obtain ⟨body, hbody, h⟩ := bind_eq_ok_iff.mp h
    cases h
    refine ⟨_, body, front, back,
      bind_eq_ok_iff.mpr ⟨name, hname, bind_eq_ok_iff.mpr ⟨signature, hsignature, rfl⟩⟩,
      ?_, hfront, hback, hbody⟩
    simp only [String.append_assoc]

/-- A function that changes its form keeps what its body does. The new text is an opening, which
does not depend on the body, and the body in its new form.

In a function the body of an arrow becomes a block, which evaluates the elements of the expression
in order and returns the value of the last one. In an arrow a block becomes a comma sequence in
parentheses, which evaluates the expressions of the block in order and has the value that the block
returns. Blocks stay blocks in a function, and in an arrow if they are empty or no runs of
expression statements with an optional return of an expression at the end. -/
theorem body_keeps_effects_and_result
    (hrun : change.transform.run source n = .ok (some replacement)) :
    ∃ f head body front back, change.shape? n = some f ∧ change.opening source f = .ok head ∧
      replacement = .text (front ++ (head ++ body) ++ back) ∧ front ∈ ["", ";"] ∧ back ∈ ["", ";"] ∧
      if change.makesArrow then f.body.WrittenAsArrow source body
      else f.body.WrittenAsBlock source body := by
  obtain ⟨f, text, hf, _, _, htext, rfl⟩ := of_run hrun
  obtain ⟨head, body, front, back, hhead, rfl, hfront, hback, hbody⟩ := of_render htext
  refine ⟨f, head, body, front, back, hf, hhead, rfl, hfront, hback, ?_⟩
  -- the direction of the change is the direction of the rewriting
  split at hbody
  case isTrue hmakes =>
    rw [if_pos hmakes]
    exact ArrowBody.writtenAsArrow hbody
  case isFalse hkeeps =>
    rw [if_neg hkeeps]
    exact FunctionBody.writtenAsBlock hbody

end FunctionChange

namespace Sample

/-- `x => (a(x), b, undefined)`, four bytes from the start. -/
def undefinedArrow : Tree :=
  let rest := construct "sequence_expression" 16 28 []
    [construct "identifier" 16 17 [] [], mark "," 17 18, construct "undefined" 19 28 [] []]
  let all :=
    construct "sequence_expression" 10 28 []
      [construct "call_expression" 10 14 [] [], mark "," 14 15, rest]
  construct "arrow_function" 4 29 [("parameter", 0), ("body", 2)]
    [construct "identifier" 4 5 [] [], mark "=>" 6 8,
      construct "parenthesized_expression" 9 29 [] [mark "(" 9 10, all, mark ")" 28 29]]

/-- `function f(x) { a(x); b }`. -/
def silentFunction : Tree :=
  let parameters := construct "formal_parameters" 10 13 []
    [mark "(" 10 11, construct "identifier" 11 12 [] [], mark ")" 12 13]
  let block := construct "statement_block" 14 25 []
    [mark "\x7b" 14 15,
      construct "expression_statement" 16 21 []
        [construct "call_expression" 16 20 [] [], mark ";" 20 21],
      construct "expression_statement" 22 23 [] [construct "identifier" 22 23 [] []],
      mark "\x7d" 24 25]
  construct "function_declaration" 0 25 [("name", 1), ("parameters", 2), ("body", 3)]
    [mark "function" 0 8, construct "identifier" 9 10 [] [], parameters, block]

end Sample

namespace FunctionChange

/-- An `undefined` at the end goes away with the arrow, and comes with it. -/
theorem body_keeps_effects_and_result_undefined :
    (let source := "f = x => (a(x), b, undefined)"
      let n := Node.root Sample.undefinedArrow
      arrow.transform.run source n = .ok (some (.text "function (x) \x7b a(x); b \x7d")) ∧
        ∃ f head body front back, arrow.shape? n = some f ∧ arrow.opening source f = .ok head ∧
          "function (x) \x7b a(x); b \x7d" = front ++ (head ++ body) ++ back ∧
          f.body.WrittenAsBlock source body) ∧
    (let source := "function f(x) \x7b a(x); b \x7d"
      let n := Node.root Sample.silentFunction
      declaration.transform.run source n =
        .ok (some (.text "const f = (x) => (a(x), b, undefined)")) ∧
        ∃ f head body front back, declaration.shape? n = some f ∧
          declaration.opening source f = .ok head ∧
          "const f = (x) => (a(x), b, undefined)" = front ++ (head ++ body) ++ back ∧
          f.body.WrittenAsArrow source body) := by
  refine ⟨?_, ?_⟩
  · intro source n
    have hrun : arrow.transform.run source n =
        .ok (some (.text "function (x) \x7b a(x); b \x7d")) := by
      with_unfolding_all decide
    obtain ⟨f, head, body, front, back, hf, hhead, htext, _, _, hbody⟩ :=
      body_keeps_effects_and_result hrun
    exact ⟨hrun, f, head, body, front, back, hf, hhead, Replacement.text.inj htext, hbody⟩
  · intro source n
    have hrun : declaration.transform.run source n =
        .ok (some (.text "const f = (x) => (a(x), b, undefined)")) := by
      with_unfolding_all decide
    obtain ⟨f, head, body, front, back, hf, hhead, htext, _, _, hbody⟩ :=
      body_keeps_effects_and_result hrun
    exact ⟨hrun, f, head, body, front, back, hf, hhead, Replacement.text.inj htext, hbody⟩

end FunctionChange

end CodeActions
