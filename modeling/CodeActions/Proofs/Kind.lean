import CodeActions.Proofs.Registry
import CodeActions.Proofs.Text.Slice
import Mathlib.Data.List.Infix

/-!
# The kinds that transforms answer on

Each transform looks for a shape, and a shape is only found in a node of the kind that it is made
for: some shapes ask for the kind at once, others leave the question to the chain of branches that
they are read from. So a transform that gives something for a node is assigned to the kind of that
node by the catalog, and what it gives is finished text. The wraps answer on expressions and leave
holes.

Main statements: `Transform.answersAsAssigned_specific`, `Transform.of_run_generic`,
`Registry.standard_answers_on_its_kinds`.
-/

namespace CodeActions

/-! ## §1 Kinds of branches -/

namespace Tree

variable {t : Tree} {chain : Chain}

theorem kind_of_ifChain? (h : t.ifChain? = some chain) : t.kind = "if_statement" := by
  rw [ifChain?] at h
  exact (Option.ite_none_right_eq_some.mp h).1

theorem kind_of_ternaryChain? (h : t.ternaryChain? = some chain) :
    t.kind = "ternary_expression" := by
  rw [ternaryChain?] at h
  exact (Option.ite_none_right_eq_some.mp h).1

end Tree

theorem Switch.kind_of_statementChain? {t : Tree} {chain : Chain}
    (h : statementChain? t = some chain) : t.kind = "if_statement" := by
  obtain ⟨whole, hwhole, _⟩ := Option.bind_eq_some_iff.mp h
  exact Tree.kind_of_ifChain? hwhole

theorem Switch.kind_of_expressionChain? {t : Tree} {chain : Chain}
    (h : expressionChain? t = some chain) : t.kind = "ternary_expression" :=
  Tree.kind_of_ternaryChain? (Option.ite_none_left_eq_some.mp h).2

theorem Conditional.kind_of_ofIf? {t : Tree} {c : Conditional} (h : ofIf? t = some c) :
    t.kind = "if_statement" := by
  obtain ⟨chain, hchain, _⟩ := Option.bind_eq_some_iff.mp h
  exact Tree.kind_of_ifChain? hchain

theorem ShortCircuit.kind_of_ofIf? {t : Tree} {s : ShortCircuit} (h : ofIf? t = some s) :
    t.kind = "if_statement" :=
  (Option.ite_none_right_eq_some.mp h).1.1

namespace IfStatement

variable {t : Tree} {s : IfStatement}

theorem kind_of_ofShortCircuit? (h : ofShortCircuit? t = some s) : t.kind = "binary_expression" :=
  (Option.ite_none_right_eq_some.mp h).1

theorem kind_of_ofTernary? (h : ofTernary? t = some s) : t.kind = "ternary_expression" := by
  obtain ⟨chain, hchain, _⟩ := Option.map_eq_some_iff.mp h
  exact Tree.kind_of_ternaryChain? hchain

theorem kind_of_ofReturn? (h : ofReturn? t = some s) : t.kind = "return_statement" :=
  (Option.ite_none_right_eq_some.mp h).1

end IfStatement

theorem TwoBranches.kind_of_ofIf? {t : Tree} {b : TwoBranches} (h : ofIf? t = some b) :
    t.kind = "if_statement" :=
  (Option.ite_none_right_eq_some.mp h).1

theorem TwoBranches.kind_of_ofTernary? {t : Tree} {b : TwoBranches} (h : ofTernary? t = some b) :
    t.kind = "ternary_expression" :=
  (Option.ite_none_right_eq_some.mp h).1

/-! ## §2 Kinds of literals, loops, functions and declarations -/

theorem TemplatePart.kind_of_ofNode? {source : String} {n : Node} {parts : List TemplatePart}
    (h : ofNode? source n = .ok (some parts)) : n.kind = "template_string" := by
  unfold ofNode? at h
  split at h
  case isTrue htemplate => exact htemplate.1
  case isFalse => cases h

theorem ConcatPiece.kind_of_ofTree? {t : Tree} {pieces : List ConcatPiece}
    (h : ofTree? t = some pieces) : t.kind = "binary_expression" := by
  have hplus : t.isPlus = true := (Option.ite_none_right_eq_some.mp h).1
  simp only [Tree.isPlus, Bool.and_eq_true, beq_iff_eq] at hplus
  exact hplus.1

theorem Loop.kind_of_ofKind? {kind : String} {t : Tree} {l : Loop} (h : ofKind? kind t = some l) :
    t.kind = kind :=
  (Option.ite_none_right_eq_some.mp h).1

namespace FunctionForm

variable {form : FunctionForm}

theorem kind_of_ofArrow? {n : Node} (h : ofArrow? n = some form) : n.kind = "arrow_function" :=
  (Option.ite_none_right_eq_some.mp h).1.1

theorem kind_of_ofExpression? {t : Tree} (h : ofExpression? t = some form) :
    t.kind = "function_expression" :=
  (Option.ite_none_right_eq_some.mp h).1

theorem kind_of_ofDeclaration? {t : Tree} (h : ofDeclaration? t = some form) :
    t.kind = "function_declaration" :=
  (Option.ite_none_right_eq_some.mp h).1

theorem kind_of_ofBinding? {t : Tree} (h : ofBinding? t = some form) :
    t.kind = "lexical_declaration" ∨ t.kind = "variable_declaration" :=
  (Option.ite_none_right_eq_some.mp h).1

end FunctionForm

theorem Declaration.kind_of_ofNode? {n : Node} {d : Declaration} (h : ofNode? n = some d) :
    n.kind = "lexical_declaration" ∨ n.kind = "variable_declaration" := by
  have hkinds : kinds.contains n.kind = true := (Option.ite_none_right_eq_some.mp h).1.1
  simpa [kinds] using hkinds

/-! ## §3 What a transform gives -/

/-- A transform gives something exactly if it has found its shape, and then it gives the text of the
shape. -/
theorem Reshaping.ofShape_eq_ok_some_iff {α : Type} {shape : Option α} {render : α → Cut String}
    {replacement : Replacement} :
    Reshaping.ofShape shape render = .ok (some replacement) ↔
      ∃ s text, shape = some s ∧ render s = .ok text ∧ replacement = .text text := by
  constructor
  · intro h
    cases shape with
    | none => cases h
    | some s =>
      obtain ⟨text, hrender, htext⟩ := bind_eq_ok_iff.mp h
      cases htext
      exact ⟨s, text, rfl, hrender, rfl⟩
  · rintro ⟨s, text, rfl, hrender, rfl⟩
    exact bind_eq_ok_iff.mpr ⟨text, hrender, rfl⟩

/-- A transform that gives something has found its shape, and gives text. -/
theorem Reshaping.of_ofShape {α : Type} {shape : Option α} {render : α → Cut String}
    {replacement : Replacement} (h : Reshaping.ofShape shape render = .ok (some replacement)) :
    (∃ s, shape = some s) ∧ ∃ text, replacement = .text text := by
  obtain ⟨s, text, hs, _, htext⟩ := ofShape_eq_ok_some_iff.mp h
  exact ⟨⟨s, hs⟩, text, htext⟩

/-- A transform with an answer has given something exactly if it has found its shape. -/
theorem Reshaping.isSome_iff_of_ofShape {α : Type} {shape : Option α} {render : α → Cut String}
    {answer : Option Replacement} (h : Reshaping.ofShape shape render = .ok answer) :
    answer.isSome = true ↔ ∃ s, shape = some s := by
  cases shape with
  | none =>
    cases h
    exact ⟨nofun, nofun⟩
  | some s =>
    obtain ⟨text, _, htext⟩ := bind_eq_ok_iff.mp h
    cases htext
    exact ⟨fun _ => ⟨s, rfl⟩, fun _ => rfl⟩

/-- A `switch` on a value is written for a chain only, and it is text. -/
theorem Switch.of_reshapeOnValue {source : String} {chain : Option Chain}
    {render : Switch → Cut String} {replacement : Replacement}
    (h : Switch.reshapeOnValue source chain render = .ok (some replacement)) :
    (∃ c, chain = some c) ∧ ∃ text, replacement = .text text := by
  cases chain with
  | none => cases h
  | some chain =>
    obtain ⟨tests, _, h⟩ := bind_eq_ok_iff.mp h
    exact ⟨⟨chain, rfl⟩, (Reshaping.of_ofShape h).2⟩

/-- A function is written in another form only if it has the form that is looked for, and it is
text. -/
theorem FunctionForm.of_reshape {source : String} {shape : Option FunctionForm}
    {render : FunctionForm → Cut String} {replacement : Replacement}
    (h : FunctionForm.reshape source shape render = .ok (some replacement)) :
    (∃ form, shape = some form) ∧ ∃ text, replacement = .text text := by
  cases shape with
  | none => cases h
  | some form =>
    obtain ⟨reads, _, h⟩ := bind_eq_ok_iff.mp h
    -- a function that reads a binding of its own is left alone
    cases reads with
    | true => cases h
    | false =>
      obtain ⟨text, _, htext⟩ := bind_eq_ok_iff.mp h
      cases htext
      exact ⟨⟨form, rfl⟩, text, rfl⟩

/-! ## §4 Transforms that are made for certain kinds -/

namespace Transform

/-- The transform gives nothing but text, and that only for nodes of the kinds. -/
def AnswersOn (t : Transform) (kinds : List String) : Prop :=
  ∀ source n replacement, t.run source n = .ok (some replacement) →
    n.kind ∈ kinds ∧ ∃ text, replacement = .text text

/-- A transform that writes down a shape answers on the kinds of nodes that have the shape. -/
theorem AnswersOn.of_shape {t : Transform} {kinds : List String} {α : Type}
    (shape : Node → Option α)
    (hrun : ∀ {source n replacement}, t.run source n = .ok (some replacement) →
      (∃ s, shape n = some s) ∧ ∃ text, replacement = .text text)
    (hkind : ∀ {n s}, shape n = some s → n.kind ∈ kinds) : t.AnswersOn kinds := by
  intro source n replacement h
  obtain ⟨⟨s, hs⟩, htext⟩ := hrun h
  exact ⟨hkind hs, htext⟩

/-- The same for a shape that only one kind of node has. -/
theorem AnswersOn.of_shape_of_kind {t : Transform} {kind : String} {α : Type}
    (shape : Node → Option α)
    (hrun : ∀ {source n replacement}, t.run source n = .ok (some replacement) →
      (∃ s, shape n = some s) ∧ ∃ text, replacement = .text text)
    (hkind : ∀ {n s}, shape n = some s → n.kind = kind) : t.AnswersOn [kind] :=
  .of_shape shape hrun fun h => List.mem_singleton.mpr (hkind h)

theorem answersOn_templateToConcat : templateToConcat.AnswersOn ["template_string"] := by
  intro source n replacement h
  -- the shape is cut out of the source, so it is found or not only after a cut
  obtain ⟨parts?, hparts, h⟩ := bind_eq_ok_iff.mp h
  obtain ⟨⟨parts, rfl⟩, htext⟩ := Reshaping.of_ofShape h
  exact ⟨List.mem_singleton.mpr (TemplatePart.kind_of_ofNode? hparts), htext⟩

theorem answersOn_concatToTemplate : concatToTemplate.AnswersOn ["binary_expression"] :=
  .of_shape_of_kind (fun n => ConcatPiece.ofTree? n.tree) Reshaping.of_ofShape
    ConcatPiece.kind_of_ofTree?

theorem answersOn_binaryToIf : binaryToIf.AnswersOn ["binary_expression"] :=
  .of_shape_of_kind (fun n => IfStatement.ofShortCircuit? n.tree) Reshaping.of_ofShape
    IfStatement.kind_of_ofShortCircuit?

theorem answersOn_ifToBinary : ifToBinary.AnswersOn ["if_statement"] :=
  .of_shape_of_kind (fun n => ShortCircuit.ofIf? n.tree) Reshaping.of_ofShape
    ShortCircuit.kind_of_ofIf?

theorem answersOn_ifToTernary : ifToTernary.AnswersOn ["if_statement"] :=
  .of_shape_of_kind (fun n => Conditional.ofIf? n.tree) Reshaping.of_ofShape
    Conditional.kind_of_ofIf?

theorem answersOn_ifToSwitch : ifToSwitch.AnswersOn ["if_statement"] :=
  .of_shape (fun n => (Switch.statementChain? n.tree).map Switch.onTruth) Reshaping.of_ofShape
    fun h => by
    obtain ⟨chain, hchain, _⟩ := Option.map_eq_some_iff.mp h
    exact List.mem_singleton.mpr (Switch.kind_of_statementChain? hchain)

theorem answersOn_ifToSwitchOnValue : ifToSwitchOnValue.AnswersOn ["if_statement"] :=
  .of_shape_of_kind (fun n => Switch.statementChain? n.tree) Switch.of_reshapeOnValue
    Switch.kind_of_statementChain?

theorem answersOn_swapIfElseBranches : swapIfElseBranches.AnswersOn ["if_statement"] :=
  .of_shape_of_kind (fun n => TwoBranches.ofIf? n.tree) Reshaping.of_ofShape
    TwoBranches.kind_of_ofIf?

theorem answersOn_ternaryToIf : ternaryToIf.AnswersOn ["ternary_expression"] :=
  .of_shape_of_kind (fun n => IfStatement.ofTernary? n.tree) Reshaping.of_ofShape
    IfStatement.kind_of_ofTernary?

theorem answersOn_ternaryToSwitch : ternaryToSwitch.AnswersOn ["ternary_expression"] :=
  .of_shape (fun n => (Switch.expressionChain? n.tree).map Switch.onTruth) Reshaping.of_ofShape
    fun h => by
    obtain ⟨chain, hchain, _⟩ := Option.map_eq_some_iff.mp h
    exact List.mem_singleton.mpr (Switch.kind_of_expressionChain? hchain)

theorem answersOn_ternaryToSwitchOnValue :
    ternaryToSwitchOnValue.AnswersOn ["ternary_expression"] :=
  .of_shape_of_kind (fun n => Switch.expressionChain? n.tree) Switch.of_reshapeOnValue
    Switch.kind_of_expressionChain?

theorem answersOn_swapTernaryBranches : swapTernaryBranches.AnswersOn ["ternary_expression"] :=
  .of_shape_of_kind (fun n => TwoBranches.ofTernary? n.tree) Reshaping.of_ofShape
    TwoBranches.kind_of_ofTernary?

theorem answersOn_returnTernaryToIf : returnTernaryToIf.AnswersOn ["return_statement"] :=
  .of_shape_of_kind (fun n => IfStatement.ofReturn? n.tree) Reshaping.of_ofShape
    IfStatement.kind_of_ofReturn?

theorem answersOn_whileToDoWhile : whileToDoWhile.AnswersOn ["while_statement"] :=
  .of_shape_of_kind (fun n => Loop.ofKind? "while_statement" n.tree) Reshaping.of_ofShape
    Loop.kind_of_ofKind?

theorem answersOn_doWhileToWhile : doWhileToWhile.AnswersOn ["do_statement"] :=
  .of_shape_of_kind (fun n => Loop.ofKind? "do_statement" n.tree) Reshaping.of_ofShape
    Loop.kind_of_ofKind?

theorem answersOn_arrowToFunction : arrowToFunction.AnswersOn ["arrow_function"] :=
  .of_shape_of_kind FunctionForm.ofArrow? FunctionForm.of_reshape
    FunctionForm.kind_of_ofArrow?

/-- A function expression is looked through for its own name first, and only then reshaped. -/
theorem answersOn_functionToArrow : functionToArrow.AnswersOn ["function_expression"] := by
  intro source n replacement h
  unfold functionToArrow at h
  simp only at h
  split at h
  case h_1 => cases h
  case h_2 form hform =>
    obtain ⟨recursive, _, h⟩ := bind_eq_ok_iff.mp h
    cases recursive with
    | true => cases h
    | false =>
      simp only [Bool.false_eq_true, if_false] at h
      exact ⟨List.mem_singleton.mpr (FunctionForm.kind_of_ofExpression? hform),
        (FunctionForm.of_reshape h).2⟩

theorem answersOn_functionDeclarationToArrow :
    functionDeclarationToArrow.AnswersOn ["function_declaration"] :=
  .of_shape_of_kind (fun n => FunctionForm.ofDeclaration? n.tree) FunctionForm.of_reshape
    FunctionForm.kind_of_ofDeclaration?

theorem answersOn_arrowBindingToFunction :
    arrowBindingToFunction.AnswersOn ["lexical_declaration", "variable_declaration"] :=
  .of_shape (fun n => FunctionForm.ofBinding? n.tree) FunctionForm.of_reshape fun h => by
    simpa [Node.kind] using FunctionForm.kind_of_ofBinding? h

theorem answersOn_splitDeclaration :
    splitDeclaration.AnswersOn ["lexical_declaration", "variable_declaration"] :=
  .of_shape Declaration.ofNode? Reshaping.of_ofShape fun h => by
    simpa using Declaration.kind_of_ofNode? h

/-- The transform gives nothing but text, and that only for nodes of a kind that the catalog assigns
it to. -/
def AnswersAsAssigned (t : Transform) : Prop :=
  ∀ source n replacement, t.run source n = .ok (some replacement) →
    (n.kind, t) ∈ Registry.assignments ∧ ∃ text, replacement = .text text

/-- A transform that answers on some kinds is assigned to them if all of these rows are in the
table. -/
theorem AnswersOn.asAssigned {t : Transform} {kinds : List String} (h : t.AnswersOn kinds)
    (hkinds : ∀ kind ∈ kinds, (kind, t) ∈ Registry.assignments) : t.AnswersAsAssigned := by
  intro source n replacement hrun
  obtain ⟨hkind, htext⟩ := h source n replacement hrun
  exact ⟨hkinds n.kind hkind, htext⟩

/-- The catalog knows all kinds on which its transforms answer. -/
theorem answersAsAssigned_specific : ∀ t ∈ specific, t.AnswersAsAssigned := by
  simp only [specific, List.forall_mem_cons]
  refine ⟨answersOn_templateToConcat.asAssigned ?_, answersOn_concatToTemplate.asAssigned ?_,
    answersOn_binaryToIf.asAssigned ?_, answersOn_ifToBinary.asAssigned ?_,
    answersOn_ifToTernary.asAssigned ?_, answersOn_ifToSwitch.asAssigned ?_,
    answersOn_ifToSwitchOnValue.asAssigned ?_, answersOn_swapIfElseBranches.asAssigned ?_,
    answersOn_ternaryToIf.asAssigned ?_, answersOn_ternaryToSwitch.asAssigned ?_,
    answersOn_ternaryToSwitchOnValue.asAssigned ?_, answersOn_swapTernaryBranches.asAssigned ?_,
    answersOn_returnTernaryToIf.asAssigned ?_, answersOn_whileToDoWhile.asAssigned ?_,
    answersOn_doWhileToWhile.asAssigned ?_, answersOn_arrowToFunction.asAssigned ?_,
    answersOn_functionToArrow.asAssigned ?_, answersOn_functionDeclarationToArrow.asAssigned ?_,
    answersOn_arrowBindingToFunction.asAssigned ?_, answersOn_splitDeclaration.asAssigned ?_,
    List.forall_mem_nil _⟩
  -- what is left are the rows of the table
  all_goals simp [Registry.assignments]

end Transform

/-! ## §5 Wraps -/

/-- The search through a text finds exactly its infixes. -/
theorem Text.occursIn_iff {part text : List Char} : occursIn part text = true ↔ part <:+: text := by
  induction text with
  | nil => simp [occursIn]
  | cons c text ih =>
    rw [occursIn, Bool.or_eq_true, List.isPrefixOf_iff_prefix, ih, List.infix_cons_iff]

/-- The expressions are the kinds with that word in their name, but for the statement. -/
theorem isExpressionKind_iff {kind : String} :
    isExpressionKind kind = true ↔
      "expression".toList <:+: kind.toList ∧ kind ≠ "expression_statement" := by
  rw [isExpressionKind, Bool.and_eq_true, Text.occursIn_iff, bne_iff_ne]

/-- A wrap gives a snippet for an expression and nothing for anything else. -/
theorem Reshaping.of_ofExpression {source : String} {t : Tree} {wrap : String → Snippet}
    {replacement : Replacement}
    (h : Reshaping.ofExpression source t wrap = .ok (some replacement)) :
    isExpressionKind t.kind = true ∧ ∃ snippet, replacement = .snippet snippet := by
  unfold Reshaping.ofExpression at h
  split at h
  case isTrue hkind =>
    obtain ⟨text, _, htext⟩ := bind_eq_ok_iff.mp h
    cases htext
    exact ⟨hkind, wrap text, rfl⟩
  case isFalse => cases h

/-- Both wraps answer on expressions, and with holes. -/
theorem Transform.of_run_generic {t : Transform} (ht : t ∈ Transform.generic) {source : String}
    {n : Node} {replacement : Replacement} (h : t.run source n = .ok (some replacement)) :
    isExpressionKind n.kind = true ∧ ∃ snippet, replacement = .snippet snippet := by
  simp only [Transform.generic, List.mem_cons, List.not_mem_nil, or_false] at ht
  rcases ht with rfl | rfl
  · exact Reshaping.of_ofExpression h
  · exact Reshaping.of_ofExpression h

/-! ## §6 The standard registry -/

/-- The standard registry and its transforms agree. Whatever a transform that is registered for
kinds gives for a node is text, and it is registered for the kind of that node. Whatever a generic
transform gives for a node is a snippet, and the node is an expression. The node may be any node of
any tree. -/
theorem Registry.standard_answers_on_its_kinds (source : String) (n : Node)
    (replacement : Replacement) :
    (∀ kind, ∀ t ∈ standard.transformsFor kind, t.run source n = .ok (some replacement) →
      t ∈ standard.transformsFor n.kind ∧ ∃ text, replacement = .text text) ∧
    (∀ t ∈ standard.generic, t.run source n = .ok (some replacement) →
      ("expression".toList <:+: n.kind.toList ∧ n.kind ≠ "expression_statement") ∧
        ∃ snippet, replacement = .snippet snippet) := by
  constructor
  · intro kind t ht hrun
    -- which kind the transform was looked up under does not matter, it is one of the table
    have hspecific : t ∈ Transform.specific :=
      mem_specific_of_mem_assignments (mem_transformsFor_standard_iff.mp ht)
    obtain ⟨hassigned, htext⟩ :=
      Transform.answersAsAssigned_specific t hspecific source n replacement hrun
    exact ⟨mem_transformsFor_standard_iff.mpr hassigned, htext⟩
  · intro t ht hrun
    obtain ⟨hkind, hsnippet⟩ := Transform.of_run_generic ht hrun
    exact ⟨isExpressionKind_iff.mp hkind, hsnippet⟩

namespace Sample

/-- The declaration `var a, b`. -/
def declaration : Tree :=
  .node { kind := "variable_declaration", span := ⟨0, 8⟩ } [] [
    .node { kind := "var", span := ⟨0, 3⟩, named := false } [] [],
    .node { kind := "variable_declarator", span := ⟨4, 5⟩ } [] [],
    .node { kind := ",", span := ⟨5, 6⟩, named := false } [] [],
    .node { kind := "variable_declarator", span := ⟨7, 8⟩ } [] []]

/-- The expression `!a`. -/
def negation : Tree := .node { kind := "unary_expression", span := ⟨0, 2⟩ } [] []

end Sample

/-- A declaration with `var` is split by a transform that is registered for those with `let` and
`const`, and it is registered for this one too. A negation is wrapped into a call. -/
theorem Registry.standard_answers_on_its_kinds_declaration :
    Transform.splitDeclaration ∈ standard.transformsFor "lexical_declaration" ∧
    Transform.splitDeclaration.run "var a, b" (.root Sample.declaration) =
      .ok (some (.text "var a\nvar b")) ∧
    Transform.splitDeclaration ∈ standard.transformsFor "variable_declaration" ∧
    Transform.wrapInCall ∈ standard.generic ∧
    Transform.wrapInCall.run "!a" (.root Sample.negation) = .ok (some (.snippet (.call "!a"))) ∧
    "expression".toList <:+: "unary_expression".toList := by
  have hsplit : Transform.splitDeclaration ∈ standard.transformsFor "lexical_declaration" := by
    rw [mem_transformsFor_standard_iff]
    simp [assignments]
  have hdeclaration : Transform.splitDeclaration.run "var a, b" (.root Sample.declaration) =
      .ok (some (.text "var a\nvar b")) := by rfl
  have hcall : Transform.wrapInCall ∈ standard.generic := .tail _ (.head _)
  have hnegation : Transform.wrapInCall.run "!a" (.root Sample.negation) =
      .ok (some (.snippet (.call "!a"))) := by rfl
  have hspecific := (standard_answers_on_its_kinds _ _ _).1 _ _ hsplit hdeclaration
  have hgeneric := (standard_answers_on_its_kinds _ _ _).2 _ hcall hnegation
  exact ⟨hsplit, hdeclaration, hspecific.1, hcall, hnegation, hgeneric.1.1⟩

end CodeActions
