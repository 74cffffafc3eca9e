import CodeActions.Proofs.Function.Binding

/-!
# Functions that are refused

A function is not changed if its body reads `this`, `super` or `arguments`. The search goes from the
body downwards through arrows, which have none of these by themselves, and stops at everything that
has them: functions, generators, methods and classes.

All that a change needs besides is said by `FunctionChange.Applies`, from the kind of the node down
to the body of the function. Where it applies, the search of the body alone decides.

Main statements: `FunctionChange.applies_of_shape` and `FunctionChange.Applies.exists_shape`, which
functions are found, and `FunctionChange.declines_iff_reads_own_binding`.
-/

namespace CodeActions

/-! ## §1 Functions that are found -/

/-- The function has parameters, in a list or a single one, and a body. -/
structure Tree.IsFunction (t body : Tree) : Prop where
  parameters : (t.field? "parameters").isSome = true ∨ (t.field? "parameter").isSome = true
  body : t.field? "body" = some body

namespace FunctionForm

variable {t body : Tree} {name : Option Tree} {f : FunctionForm}

/-- What has parameters and a body is a function in every form. -/
theorem exists_named? (name : Option Tree) (h : t.IsFunction body) :
    ∃ f, named? name t = some f ∧ f.name = name ∧ f.body = body := by
  -- a list of parameters if there is one, or else the bare one
  obtain ⟨parameters, hparameters⟩ : ∃ parameters, Parameters.ofFunction? t = some parameters := by
    unfold Parameters.ofFunction?
    cases hlist : t.field? "parameters" with
    | some list => exact ⟨.list list, rfl⟩
    | none =>
      have hbare : (t.field? "parameter").isSome = true := by simpa [hlist] using h.parameters
      obtain ⟨parameter, hparameter⟩ := Option.isSome_iff_exists.mp hbare
      exact ⟨.bare parameter, by rw [hparameter]; rfl⟩
  refine ⟨⟨name, t.isAsync, ⟨t.field? "type_parameters", parameters, t.field? "return_type"⟩, body⟩,
    ?_, rfl, rfl⟩
  rw [named?, Signature.ofFunction?, hparameters, h.body]
  rfl

/-- What is found has parameters and a body. -/
theorem of_named? (h : named? name t = some f) : f.name = name ∧ t.IsFunction f.body := by
  obtain ⟨signature, hsignature, h⟩ := Option.bind_eq_some_iff.mp h
  obtain ⟨body, hbody, h⟩ := Option.bind_eq_some_iff.mp h
  cases h
  obtain ⟨parameters, hparameters, _⟩ := Option.bind_eq_some_iff.mp hsignature
  refine ⟨rfl, ?_, hbody⟩
  -- a list is preferred, and a single parameter is only asked for without one
  unfold Parameters.ofFunction? at hparameters
  split at hparameters
  case h_1 list hlist => exact .inl (Option.isSome_iff_exists.mpr ⟨list, hlist⟩)
  case h_2 =>
    obtain ⟨parameter, hparameter, _⟩ := Option.map_eq_some_iff.mp hparameters
    exact .inr (Option.isSome_iff_exists.mpr ⟨parameter, hparameter⟩)

end FunctionForm

namespace FunctionChange

/-- The change applies to the node, and this is the body of the function. Only the search for own
bindings is left. -/
inductive Applies (source : String) (n : Node) : FunctionChange → Tree → Prop where
  /-- An arrow that is not a statement by itself. -/
  | arrow {body : Tree} (kind : n.kind = "arrow_function")
      (parent : ∀ parent ∈ n.parent?, parent.kind ≠ "expression_statement")
      (function : n.tree.IsFunction body) : Applies source n .arrow body
  /-- A function expression that does not call itself. -/
  | expression {body : Tree} (kind : n.kind = "function_expression")
      (function : n.tree.IsFunction body)
      (calls : ¬ ∃ name ∈ n.tree.field? "name", ∃ text, name.text source = .ok text ∧
        body.HasBelow (fun _ => false) (Tree.IsName source ["identifier"] text)) :
      Applies source n .expression body
  /-- A function declaration with a name. -/
  | declaration {body : Tree} (kind : n.kind = "function_declaration")
      (name : (n.tree.field? "name").isSome = true) (function : n.tree.IsFunction body) :
      Applies source n .declaration body
  /-- A declaration of one variable without a type, which is bound to an arrow. -/
  | binding {declarator name value body : Tree}
      (kind : n.kind ∈ ["lexical_declaration", "variable_declaration"])
      (single : (n.tree.codeChildren.filter fun child => child.kind == "variable_declarator") =
        [declarator])
      (untyped : declarator.field? "type" = none)
      (hasName : declarator.field? "name" = some name) (nameKind : name.kind = "identifier")
      (hasValue : declarator.field? "value" = some value)
      (valueKind : value.unwrapParens.kind = "arrow_function")
      (function : value.unwrapParens.IsFunction body) : Applies source n .binding body

variable {source : String} {n : Node} {change : FunctionChange} {body : Tree} {f : FunctionForm}

/-- Where the change applies its function is found, and loses no name that it uses. -/
theorem Applies.exists_shape (h : change.Applies source n body) :
    ∃ f, change.shape? n = some f ∧ f.body = body ∧
      ∀ {loses}, change.losesName source f = .ok loses → loses = false := by
  -- only a function expression can lose its name
  have hnever {loses : Bool} (h : (pure false : Cut Bool) = .ok loses) : loses = false := by
    cases h
    rfl
  cases h with
  | arrow kind parent function =>
    obtain ⟨f, hf, _, hbody⟩ := FunctionForm.exists_named? none function
    refine ⟨f, (if_pos ⟨kind, ?_⟩).trans hf, hbody, hnever⟩
    cases hparent : n.parent? with
    | none => rfl
    | some p => simpa using parent p hparent
  -- it has been searched for its name, and the search says what the condition says
  | expression kind function calls =>
    obtain ⟨f, hf, hname, hbody⟩ := FunctionForm.exists_named? (n.tree.field? "name") function
    refine ⟨f, (if_pos kind).trans hf, hbody, fun {loses} hloses => ?_⟩
    rw [← Bool.not_eq_true, FunctionForm.isRecursive_iff hloses, hname, hbody]
    exact calls
  | declaration kind name function =>
    obtain ⟨name, hname⟩ := Option.isSome_iff_exists.mp name
    obtain ⟨f, hf, _, hbody⟩ := FunctionForm.exists_named? (some name) function
    refine ⟨f, (if_pos kind).trans ?_, hbody, hnever⟩
    rw [hname]
    exact hf
  -- the three conditions on the declarator are tested at once
  | @binding declarator name value _ kind single untyped hasName nameKind hasValue valueKind
      function =>
    obtain ⟨f, hf, _, hbody⟩ := FunctionForm.exists_named? (some name) function
    refine ⟨f, (if_pos (by simpa [Node.kind] using kind)).trans ?_, hbody, hnever⟩
    simp only [single, hasName, hasValue]
    exact (if_pos ⟨by simp [untyped], nameKind, valueKind⟩).trans hf

/-- Only there it is found. -/
theorem applies_of_shape (hf : change.shape? n = some f)
    (hloses : change.losesName source f = .ok false) : change.Applies source n f.body := by
  cases change with
  | arrow =>
    obtain ⟨⟨kind, hparent⟩, hf⟩ := Option.ite_none_right_eq_some.mp hf
    refine .arrow kind ?_ (FunctionForm.of_named? hf).2
    intro parent hmem
    rw [Option.mem_def.mp hmem] at hparent
    simpa using hparent
  -- the name was not found, so the function does not call itself
  | expression =>
    obtain ⟨kind, hf⟩ := Option.ite_none_right_eq_some.mp hf
    obtain ⟨hname, hfunction⟩ := FunctionForm.of_named? hf
    refine .expression kind hfunction ?_
    rw [← hname, ← FunctionForm.isRecursive_iff hloses]
    exact Bool.false_ne_true
  | declaration =>
    obtain ⟨kind, hf⟩ := Option.ite_none_right_eq_some.mp hf
    obtain ⟨name, hname, hf⟩ := Option.bind_eq_some_iff.mp hf
    exact .declaration kind (Option.isSome_iff_exists.mpr ⟨name, hname⟩)
      (FunctionForm.of_named? hf).2
  | binding =>
    unfold shape? FunctionForm.ofBinding? at hf
    obtain ⟨kind, hf⟩ := Option.ite_none_right_eq_some.mp hf
    split at hf
    -- with no declarator or several of them there is no function
    case h_2 => cases hf
    case h_1 declarator single =>
      obtain ⟨name, hname, hf⟩ := Option.bind_eq_some_iff.mp hf
      obtain ⟨value, hvalue, hf⟩ := Option.bind_eq_some_iff.mp hf
      obtain ⟨⟨untyped, nameKind, valueKind⟩, hf⟩ := Option.ite_none_right_eq_some.mp hf
      exact .binding (by simpa [Node.kind] using kind) single (by simpa using untyped) hname
        nameKind hvalue valueKind (FunctionForm.of_named? hf).2

end FunctionChange

/-! ## §2 Ways to own bindings -/

namespace Tree

variable {source : String} {t body b w : Tree} {around : List Tree}

/-- The kinds that have their own `this`, `super` and `arguments`: functions other than arrows, and
what consists of them. -/
def ownBindingKinds : List String :=
  ["function_expression", "function_declaration", "generator_function",
    "generator_function_declaration", "method_definition", "class_body"]

/-- A way leads from the body to `this`, to `super` or to the name `arguments`, through nothing of
these kinds. -/
def ReachesOwnBinding (source : String) (closedKinds : List String) (body : Tree) : Prop :=
  ∃ around b, body.Leads around b ∧ (∀ w ∈ around, w.kind ∉ closedKinds) ∧
    b.IsOwnBinding source ["identifier"]

/-- No name in the body has parts. -/
def NamesAreLeaves (body : Tree) : Prop :=
  ∀ around b, body.Leads around b → b.kind = "identifier" → b.namedChildren = []

/-- The functions but for arrows are those with their own bindings. -/
theorem bindsOwn_iff : t.bindsOwn = true ↔ t.kind ∈ ownBindingKinds := by
  have hown : ∀ kind ∈ functionKinds, kind ≠ "arrow_function" → kind ∈ ownBindingKinds := by decide
  have hfunction : ∀ kind ∈ ownBindingKinds,
      kind ≠ "arrow_function" ∧ kind ∈ functionKinds := by decide
  rw [bindsOwn, Bool.and_eq_true, bne_iff_ne, List.contains_iff_mem]
  exact ⟨fun h => hown _ h.2 h.1, hfunction _⟩

/-- The search goes through everything but names and functions with their own bindings. -/
theorem ownScope_eq_false_iff : t.ownScope = false ↔ t.kind ∉ "identifier" :: ownBindingKinds := by
  rw [ownScope, Bool.or_eq_false_iff, ← Bool.not_eq_true, bindsOwn_iff]
  simp [and_comm]

/-- The search of a body finds something exactly if a way leads there. -/
theorem has_ownScope_iff : body.Has ownScope (IsOwnBinding source ["identifier"]) ↔
    body.ReachesOwnBinding source ("identifier" :: ownBindingKinds) := by
  simp only [has_iff_exists_leads, ownScope_eq_false_iff, ReachesOwnBinding]

/-- A tree on the way is itself reached, and it has parts. -/
theorem Leads.of_mem_around (h : t.Leads around b) (hw : w ∈ around) :
    (∃ outer, t.Leads outer w) ∧ w.namedChildren ≠ [] := by
  -- by induction on the way: a tree on it was passed above, or is the last one
  induction h with
  | here => cases hw
  | @inside t u b around hu _ ih =>
    rcases List.mem_append.mp hw with hw | hw
    · obtain ⟨⟨outer, hleads⟩, hparts⟩ := ih hw
      exact ⟨⟨outer ++ [t], .inside hu hleads⟩, hparts⟩
    · obtain rfl := List.mem_singleton.mp hw
      exact ⟨⟨[], .here _⟩, List.ne_nil_of_mem hu⟩

/-- A name without parts is on no way. -/
theorem NamesAreLeaves.reachesOwnBinding_iff (h : body.NamesAreLeaves) :
    body.ReachesOwnBinding source ("identifier" :: ownBindingKinds) ↔
      body.ReachesOwnBinding source ownBindingKinds := by
  refine exists_congr fun around => exists_congr fun b => and_congr_right fun hleads =>
    and_congr_left' ?_
  refine forall_congr' fun w => imp_congr_right fun hw => ?_
  -- what is on the way has the next tree of the way for a part
  obtain ⟨⟨outer, houter⟩, hparts⟩ := hleads.of_mem_around hw
  have hname : w.kind ≠ "identifier" := fun hkind => hparts (h outer w houter hkind)
  simp [hname]

end Tree

/-! ## §3 Refusals -/

namespace FunctionChange

variable {source : String} {n : Node} {change : FunctionChange} {f : FunctionForm}
  {answer : Option Replacement}

/-- Each of the changes succeeds on a fitting node. -/
theorem succeeds_run (hn : n.Fits source) (change : FunctionChange) :
    Succeeds (change.transform.run source n) := by
  cases change with
  | arrow => exact Transform.succeeds_arrowToFunction hn
  | expression => exact Transform.succeeds_functionToArrow hn
  | declaration => exact Transform.succeeds_functionDeclarationToArrow hn
  | binding => exact Transform.succeeds_arrowBindingToFunction hn

/-- Behind the other conditions the search of the body decides. -/
theorem eq_none_iff_has (hf : change.shape? n = some f)
    (hloses : ∀ {loses}, change.losesName source f = .ok loses → loses = false)
    (hanswer : change.transform.run source n = .ok answer) :
    answer = none ↔ f.body.Has Tree.ownScope (Tree.IsOwnBinding source ["identifier"]) := by
  rw [run_eq, hf] at hanswer
  -- the name has been searched for without success, so the transform goes on to the body
  obtain ⟨loses, hname, hanswer⟩ := bind_eq_ok_iff.mp hanswer
  obtain rfl := hloses hname
  obtain ⟨reads, hreads, hanswer⟩ := bind_eq_ok_iff.mp hanswer
  rw [← Tree.readsOwnBinding_iff hreads]
  -- what has been found is the only reason that is left
  cases reads with
  | true =>
    cases hanswer
    simp
  | false =>
    obtain ⟨text, _, hanswer⟩ := bind_eq_ok_iff.mp hanswer
    cases hanswer
    simp

/-- A change that applies is refused exactly if a way leads from the body of the function to `this`,
`super` or `arguments`, the body included, and goes through no function with its own ones. Arrows do
not end such a way. Where a change does not apply nothing is given. -/
theorem declines_iff_reads_own_binding (hn : n.Fits source) (change : FunctionChange) :
    ∃ answer, change.transform.run source n = .ok answer ∧
      (answer.isSome = true → ∃ body, change.Applies source n body) ∧
      ∀ body, change.Applies source n body →
        (answer = none ↔ body.ReachesOwnBinding source ("identifier" :: Tree.ownBindingKinds)) ∧
        (body.NamesAreLeaves →
          (answer = none ↔ body.ReachesOwnBinding source Tree.ownBindingKinds)) := by
  obtain ⟨answer, hanswer⟩ := succeeds_run hn change
  refine ⟨answer, hanswer, fun hsome => ?_, fun body happlies => ?_⟩
  · -- an answer comes from a function that was found
    obtain ⟨replacement, rfl⟩ := Option.isSome_iff_exists.mp hsome
    obtain ⟨f, _, hf, hloses, _⟩ := of_run hanswer
    exact ⟨f.body, applies_of_shape hf hloses⟩
  · -- where the change applies the same function is found, and is searched
    obtain ⟨f, hf, rfl, hloses⟩ := happlies.exists_shape
    have hdeclines : answer = none ↔
        f.body.ReachesOwnBinding source ("identifier" :: Tree.ownBindingKinds) := by
      rw [eq_none_iff_has hf hloses hanswer, Tree.has_ownScope_iff]
    refine ⟨hdeclines, fun hleaves => ?_⟩
    rw [hdeclines, hleaves.reachesOwnBinding_iff]

end FunctionChange

namespace Sample

/-- An arrow without parameters. -/
def arrowTo (start : Nat) (body : Tree) : Tree :=
  construct "arrow_function" start body.span.stop [("parameters", 0), ("body", 2)]
    [noParameters start, mark "=>" (start + 3) (start + 5), body]

/-- `() => this`, ten bytes from the start. -/
def innerArrow : Tree := arrowTo 10 (construct "this" 16 20 [] [])

/-- `function () { this }`, ten bytes from the start. -/
def innerFunction : Tree :=
  let block := construct "statement_block" 22 30 []
    [mark "\x7b" 22 23, construct "expression_statement" 24 28 [] [construct "this" 24 28 [] []],
      mark "\x7d" 29 30]
  construct "function_expression" 10 30 [("parameters", 1), ("body", 2)]
    [mark "function" 10 18, noParameters 19, block]

end Sample

namespace FunctionChange

/-- An arrow in an arrow is looked into, and a function is not. -/
theorem declines_iff_reads_own_binding_nested :
    (let source := "f = () => () => this"
      let n := Node.root (Sample.arrowTo 4 Sample.innerArrow)
      n.Fits source ∧ arrow.Applies source n Sample.innerArrow ∧
        Sample.innerArrow.ReachesOwnBinding source ("identifier" :: Tree.ownBindingKinds) ∧
        arrow.transform.run source n = .ok none) ∧
    (let source := "f = () => function () \x7b this \x7d"
      let n := Node.root (Sample.arrowTo 4 Sample.innerFunction)
      n.Fits source ∧ arrow.Applies source n Sample.innerFunction ∧
        ¬ Sample.innerFunction.ReachesOwnBinding source ("identifier" :: Tree.ownBindingKinds) ∧
        arrow.transform.run source n =
          .ok (some (.text "function () \x7b return function () \x7b this \x7d \x7d"))) := by
  refine ⟨?_, ?_⟩
  · intro source n
    have hn : n.Fits source := .root (.of_fitsPlainly (by with_unfolding_all decide))
    have happlies : arrow.Applies source n Sample.innerArrow := .arrow rfl nofun ⟨.inl rfl, rfl⟩
    -- the way leads through the inner arrow
    have hthis : Sample.innerArrow.ReachesOwnBinding source
        ("identifier" :: Tree.ownBindingKinds) :=
      ⟨[Sample.innerArrow], _, .inside (.tail _ (.head _)) (.here _),
        List.forall_mem_singleton.mpr (by with_unfolding_all decide), .inl rfl⟩
    obtain ⟨answer, hanswer, _, hdeclines⟩ := declines_iff_reads_own_binding hn arrow
    rw [(hdeclines _ happlies).1.mpr hthis] at hanswer
    exact ⟨hn, happlies, hthis, hanswer⟩
  · intro source n
    have hn : n.Fits source := .root (.of_fitsPlainly (by with_unfolding_all decide))
    have happlies : arrow.Applies source n Sample.innerFunction := .arrow rfl nofun ⟨.inl rfl, rfl⟩
    have hrun : arrow.transform.run source n =
        .ok (some (.text "function () \x7b return function () \x7b this \x7d \x7d")) := by
      with_unfolding_all decide
    obtain ⟨answer, hanswer, _, hdeclines⟩ := declines_iff_reads_own_binding hn arrow
    cases hrun.symm.trans hanswer
    refine ⟨hn, happlies, fun hthis => ?_, hrun⟩
    cases (hdeclines _ happlies).1.mpr hthis

end FunctionChange

end CodeActions
