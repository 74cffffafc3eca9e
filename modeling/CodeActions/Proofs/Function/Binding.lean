import CodeActions.Proofs.Function
import CodeActions.Proofs.Statement.Guard
import CodeActions.Proofs.Tree.Search

/-!
# Names that change their meaning with the form of a function

In an arrow `this`, `super` and `arguments` are those of the function around it, in a function they
are its own. A function expression can also have a name that only itself can see, which is lost in
an arrow. So a function keeps its bindings in the other form if none of these names stands in its
parameters or in its body, functions inside it that have their own left out.

Before a function is changed its body is searched, and in the body those places where a name is an
expression by itself. Parameters are not searched, and a name can also stand for a property and its
value at once, as in `{ arguments }`. These two places are all that is overlooked.

Main statement: `FunctionChange.keepsBindings_iff_of_run`.
-/

namespace CodeActions

/-! ## §1 Changes of form -/

/-- The ways in which a function changes its form. -/
inductive FunctionChange where
  /-- An arrow becomes a function expression. -/
  | arrow
  /-- A function expression becomes an arrow. -/
  | expression
  /-- A function declaration becomes a constant bound to an arrow. -/
  | declaration
  /-- A variable bound to an arrow becomes a function declaration. -/
  | binding
  deriving Repr, DecidableEq

namespace FunctionChange

/-- The transform that makes the change. -/
def transform : FunctionChange → Transform
  | .arrow => .arrowToFunction
  | .expression => .functionToArrow
  | .declaration => .functionDeclarationToArrow
  | .binding => .arrowBindingToFunction

/-- The function that the change is about. -/
def shape? : FunctionChange → Node → Option FunctionForm
  | .arrow, n => FunctionForm.ofArrow? n
  | .expression, n => FunctionForm.ofExpression? n.tree
  | .declaration, n => FunctionForm.ofDeclaration? n.tree
  | .binding, n => FunctionForm.ofBinding? n.tree

/-- The function in its new form. -/
def render (source : String) (n : Node) : FunctionChange → FunctionForm → Cut String
  | .arrow, f => f.renderExpression source
  | .expression, f => f.renderArrow source
  | .declaration, f => do n.guarded source (← f.renderBinding source)
  | .binding, f => f.renderDeclaration source

/-- The function uses a name that it would lose. -/
def losesName (source : String) : FunctionChange → FunctionForm → Cut Bool
  | .expression, f => f.isRecursive source
  | .arrow, _ | .declaration, _ | .binding, _ => return false

/-- The four transforms do the same with the function that they find: they search it and write it in
its new form. -/
theorem run_eq (source : String) (n : Node) (change : FunctionChange) :
    change.transform.run source n =
      match change.shape? n with
      | none => return none
      | some f => do
        if ← change.losesName source f then
          return none
        if ← f.body.readsOwnBinding source then
          return none
        return some (.text (← change.render source n f)) := by
  -- each transform asks for its own shape, and all but one have no name to lose
  cases change with
  | arrow =>
    simp only [transform, shape?, Transform.arrowToFunction]
    cases FunctionForm.ofArrow? n <;> rfl
  | expression =>
    simp only [transform, shape?, Transform.functionToArrow]
    cases FunctionForm.ofExpression? n.tree <;> rfl
  | declaration =>
    simp only [transform, shape?, Transform.functionDeclarationToArrow]
    cases FunctionForm.ofDeclaration? n.tree <;> rfl
  | binding =>
    simp only [transform, shape?, Transform.arrowBindingToFunction]
    cases FunctionForm.ofBinding? n.tree <;> rfl

/-- A function that is changed has passed the searches, and is given in its new form. -/
theorem of_run {source : String} {n : Node} {change : FunctionChange} {replacement : Replacement}
    (h : change.transform.run source n = .ok (some replacement)) :
    ∃ f text, change.shape? n = some f ∧ change.losesName source f = .ok false ∧
      f.body.readsOwnBinding source = .ok false ∧ change.render source n f = .ok text ∧
      replacement = .text text := by
  rw [run_eq] at h
  cases hshape : change.shape? n with
  | none =>
    rw [hshape] at h
    cases h
  | some f =>
    rw [hshape] at h
    -- a search that finds something ends the run with nothing
    obtain ⟨loses, hloses, h⟩ := bind_eq_ok_iff.mp h
    cases loses with
    | true => cases h
    | false =>
      obtain ⟨reads, hreads, h⟩ := bind_eq_ok_iff.mp h
      cases reads with
      | true => cases h
      | false =>
        obtain ⟨text, htext, h⟩ := bind_eq_ok_iff.mp h
        cases h
        exact ⟨f, text, rfl, hloses, hreads, htext, rfl⟩

end FunctionChange

/-! ## §2 Functions that keep their bindings -/

namespace FunctionForm

/-- The kinds of a name that stands for a property and its value at once. -/
def shorthandKinds : List String :=
  ["shorthand_property_identifier", "shorthand_property_identifier_pattern"]

/-- The kinds of a name. -/
def nameKinds : List String := "identifier" :: shorthandKinds

/-- The name that the function itself can see but nobody else. -/
def IsOwnName (source : String) (change : FunctionChange) (f : FunctionForm)
    (name : String) : Prop :=
  change = .expression ∧ ∃ t ∈ f.name, t.text source = .ok name

/-- All names mean the same in the other form. -/
structure KeepsBindings (source : String) (change : FunctionChange) (f : FunctionForm) : Prop where
  parameters : ¬ f.signature.parameters.tree.Has Tree.ownScope (Tree.IsOwnBinding source nameKinds)
  body : ¬ f.body.Has Tree.ownScope (Tree.IsOwnBinding source nameKinds)
  parametersName : ∀ name, f.IsOwnName source change name →
    ¬ f.signature.parameters.tree.Has (fun _ => false) (Tree.IsName source nameKinds name)
  bodyName : ∀ name, f.IsOwnName source change name →
    ¬ f.body.HasBelow (fun _ => false) (Tree.IsName source nameKinds name)

/-- No name changes its meaning in a place that is searched. -/
structure PassesSearch (source : String) (change : FunctionChange) (f : FunctionForm) : Prop where
  body : ¬ f.body.Has Tree.ownScope (Tree.IsOwnBinding source ["identifier"])
  bodyName : ∀ name, f.IsOwnName source change name →
    ¬ f.body.HasBelow (fun _ => false) (Tree.IsName source ["identifier"] name)

/-- A name that changes its meaning is in the parameters, or stands in the body for a property and
its value. -/
inductive Overlooks (source : String) (change : FunctionChange) (f : FunctionForm) : Prop where
  | parameters (h : f.signature.parameters.tree.Has Tree.ownScope
      (Tree.IsOwnBinding source nameKinds))
  | shorthand (h : f.body.Has Tree.ownScope (Tree.IsName source shorthandKinds "arguments"))
  | parametersName {name : String} (hname : f.IsOwnName source change name)
      (h : f.signature.parameters.tree.Has (fun _ => false) (Tree.IsName source nameKinds name))
  | shorthandName {name : String} (hname : f.IsOwnName source change name)
      (h : f.body.HasBelow (fun _ => false) (Tree.IsName source shorthandKinds name))

/-- A name is an identifier or a shorthand. -/
theorem isName_nameKinds (source name : String) :
    Tree.IsName source nameKinds name =
      fun t => t.IsName source ["identifier"] name ∨ t.IsName source shorthandKinds name := by
  funext t
  simp only [Tree.IsName, nameKinds, List.mem_cons, List.not_mem_nil, or_false, or_and_right]

/-- Of the own bindings only `arguments` can be a shorthand, since the others are no names. -/
theorem isOwnBinding_nameKinds (source : String) :
    Tree.IsOwnBinding source nameKinds = fun t =>
      t.IsOwnBinding source ["identifier"] ∨ t.IsName source shorthandKinds "arguments" := by
  funext t
  simp only [Tree.IsOwnBinding, isName_nameKinds, or_assoc]

/-- Where the searched places are clean, only the others can change a meaning. -/
theorem PassesSearch.keepsBindings_iff {source : String} {change : FunctionChange}
    {f : FunctionForm} (h : f.PassesSearch source change) :
    f.KeepsBindings source change ↔ ¬ f.Overlooks source change := by
  -- identifiers have been searched for, so a name that is left is a shorthand
  have hbody : f.body.Has Tree.ownScope (Tree.IsOwnBinding source nameKinds) ↔
      f.body.Has Tree.ownScope (Tree.IsName source shorthandKinds "arguments") := by
    rw [isOwnBinding_nameKinds, Tree.has_or_iff]
    exact or_iff_right h.body
  have hname {name : String} (hname : f.IsOwnName source change name) :
      f.body.HasBelow (fun _ => false) (Tree.IsName source nameKinds name) ↔
        f.body.HasBelow (fun _ => false) (Tree.IsName source shorthandKinds name) := by
    rw [isName_nameKinds, Tree.hasBelow_or_iff]
    exact or_iff_right (h.bodyName name hname)
  constructor
  · -- what is overlooked is a binding that is not kept
    intro hkeeps hoverlooks
    cases hoverlooks with
    | parameters h => exact hkeeps.parameters h
    | shorthand h => exact hkeeps.body (hbody.mpr h)
    | parametersName hown h => exact hkeeps.parametersName _ hown h
    | shorthandName hown h => exact hkeeps.bodyName _ hown ((hname hown).mpr h)
  · -- and a binding that is not kept has been overlooked
    intro hoverlooks
    exact ⟨fun h => hoverlooks (.parameters h), fun h => hoverlooks (.shorthand (hbody.mp h)),
      fun name hown h => hoverlooks (.parametersName hown h),
      fun name hown h => hoverlooks (.shorthandName hown ((hname hown).mp h))⟩

end FunctionForm

/-! ## §3 What is searched -/

namespace FunctionForm

variable {source : String}

/-- A function calls itself by its name if the name stands somewhere below its body. -/
theorem isRecursive_iff {f : FunctionForm} {recursive : Bool}
    (h : f.isRecursive source = .ok recursive) :
    recursive = true ↔ ∃ name ∈ f.name, ∃ text, name.text source = .ok text ∧
      f.body.HasBelow (fun _ => false) (Tree.IsName source ["identifier"] text) := by
  unfold isRecursive at h
  cases hname : f.name with
  -- without a name there is nothing to call
  | none =>
    rw [hname] at h
    cases h
    simp
  | some name =>
    rw [hname] at h
    obtain ⟨text, htext, hmentions⟩ := bind_eq_ok_iff.mp h
    simp [Tree.mentions_iff hmentions, htext]

end FunctionForm

namespace FunctionChange

open FunctionForm

variable {source : String} {change : FunctionChange} {n : Node} {replacement : Replacement}

/-- Each of the transforms searches the body of its function, and that for a function expression
also for its name. -/
theorem passesSearch_of_run (hrun : change.transform.run source n = .ok (some replacement)) :
    ∃ f, change.shape? n = some f ∧ f.PassesSearch source change := by
  obtain ⟨f, _, hf, hloses, hreads, _, _⟩ := of_run hrun
  refine ⟨f, hf, ?_, ?_⟩
  · -- the body was searched, so it has nothing to find
    intro hhas
    cases (Tree.readsOwnBinding_iff hreads).mpr hhas
  · intro name hname
    -- only a function expression has a name of its own, and there it has been searched for
    obtain ⟨rfl, t, ht, htext⟩ := hname
    intro hbelow
    cases (isRecursive_iff hloses).mpr ⟨t, ht, name, htext, hbelow⟩

/-- A function that is changed reads none of its own bindings in the places that are searched. So it
keeps its bindings, unless one of them is read in the parameters, or as a property and its value at
once. -/
theorem keepsBindings_iff_of_run (hrun : change.transform.run source n = .ok (some replacement)) :
    ∃ f, change.shape? n = some f ∧ f.PassesSearch source change ∧
      (f.KeepsBindings source change ↔ ¬ f.Overlooks source change) := by
  obtain ⟨f, hf, hpasses⟩ := passesSearch_of_run hrun
  exact ⟨f, hf, hpasses, hpasses.keepsBindings_iff⟩

end FunctionChange

namespace Sample

/-- `{ return x }`. -/
def returnBlock (start : Nat) : Tree :=
  construct "statement_block" start (start + 12) []
    [mark "\x7b" start (start + 1),
      construct "return_statement" (start + 2) (start + 10) []
        [mark "return" (start + 2) (start + 8),
          construct "identifier" (start + 9) (start + 10) [] []],
      mark "\x7d" (start + 11) (start + 12)]

/-- `function f(x) { return x }`, four bytes from the start. -/
def namedFunction : Tree :=
  construct "function_expression" 4 30 [("name", 1), ("parameters", 2), ("body", 3)]
    [mark "function" 4 12, construct "identifier" 13 14 [] [], header 14 17, returnBlock 18]

/-- Its parts. -/
def namedForm : FunctionForm where
  name := some (construct "identifier" 13 14 [] [])
  isAsync := false
  signature := ⟨none, .list (header 14 17), none⟩
  body := returnBlock 18

/-- `({ arguments })`. -/
def shorthandBody : Tree :=
  construct "parenthesized_expression" 10 25 []
    [mark "(" 10 11,
      construct "object" 11 24 []
        [mark "\x7b" 11 12, construct "shorthand_property_identifier" 13 22 [] [],
          mark "\x7d" 23 24],
      mark ")" 24 25]

/-- `() => ({ arguments })`, four bytes from the start. -/
def shorthandArrow : Tree :=
  construct "arrow_function" 4 25 [("parameters", 0), ("body", 2)]
    [construct "formal_parameters" 4 6 [] [mark "(" 4 5, mark ")" 5 6], mark "=>" 7 9,
      shorthandBody]

/-- Its parts. -/
def shorthandForm : FunctionForm where
  name := none
  isAsync := false
  signature :=
    ⟨none, .list (construct "formal_parameters" 4 6 [] [mark "(" 4 5, mark ")" 5 6]), none⟩
  body := shorthandBody

/-- `(a = arguments)`. -/
def defaultParameters : Tree :=
  construct "formal_parameters" 13 28 []
    [mark "(" 13 14,
      construct "assignment_pattern" 14 27 [("left", 0), ("right", 2)]
        [construct "identifier" 14 15 [] [], mark "=" 16 17, construct "identifier" 18 27 [] []],
      mark ")" 27 28]

/-- `function (a = arguments) { return a }`, four bytes from the start. -/
def defaultFunction : Tree :=
  construct "function_expression" 4 41 [("parameters", 1), ("body", 2)]
    [mark "function" 4 12, defaultParameters, returnBlock 29]

/-- Its parts. -/
def defaultForm : FunctionForm where
  name := none
  isAsync := false
  signature := ⟨none, .list defaultParameters, none⟩
  body := returnBlock 29

end Sample

namespace FunctionChange

open FunctionForm

/-- A function that does not use its name becomes an arrow without it. -/
theorem keepsBindings_iff_of_run_named :
    let source := "g = function f(x) \x7b return x \x7d"
    let n := Node.root Sample.namedFunction
    expression.transform.run source n = .ok (some (.text "(x) => (x)")) ∧
      expression.shape? n = some Sample.namedForm ∧
      Sample.namedForm.IsOwnName source expression "f" ∧
      Sample.namedForm.KeepsBindings source expression := by
  intro source n
  have hrun : expression.transform.run source n = .ok (some (.text "(x) => (x)")) := by
    decide +kernel
  have hshape : expression.shape? n = some Sample.namedForm := by with_unfolding_all rfl
  have htext : (Sample.construct "identifier" 13 14 [] []).text source = .ok "f" := by
    with_unfolding_all decide
  obtain ⟨f, hf, _, hkeeps⟩ := keepsBindings_iff_of_run hrun
  cases hshape.symm.trans hf
  -- the only name that the function can lose is the one in its text
  have hname {name : String} (h : Sample.namedForm.IsOwnName source expression name) :
      name = "f" := by
    obtain ⟨_, t, ht, hname⟩ := h
    cases ht
    cases htext.symm.trans hname
    rfl
  refine ⟨hrun, hshape, ⟨rfl, _, rfl, htext⟩, hkeeps.mpr fun hoverlooks => ?_⟩
  -- no name is found in any of the places
  cases hoverlooks with
  | parameters h => exact absurd h (by with_unfolding_all decide)
  | shorthand h => exact absurd h (by with_unfolding_all decide)
  | parametersName hown h =>
    obtain rfl := hname hown
    exact absurd h (by with_unfolding_all decide)
  | shorthandName hown h =>
    obtain rfl := hname hown
    exact absurd h (by with_unfolding_all decide)

/-- `arguments` is read in the function around the arrow, and is that of the new function
afterwards. The other way round it is read as the default of a parameter. -/
theorem arguments_change_meaning :
    (let source := "f = () => (\x7b arguments \x7d)"
      let n := Node.root Sample.shorthandArrow
      arrow.transform.run source n =
        .ok (some (.text "function () \x7b return \x7b arguments \x7d \x7d")) ∧
        arrow.shape? n = some Sample.shorthandForm ∧
        ¬ Sample.shorthandForm.KeepsBindings source arrow) ∧
    (let source := "f = function (a = arguments) \x7b return a \x7d"
      let n := Node.root Sample.defaultFunction
      expression.transform.run source n = .ok (some (.text "(a = arguments) => (a)")) ∧
        expression.shape? n = some Sample.defaultForm ∧
        ¬ Sample.defaultForm.KeepsBindings source expression) := by
  -- a shorthand in the body, read before and after by another function
  have hbody : Sample.shorthandBody.Has Tree.ownScope
      (Tree.IsOwnBinding "f = () => (\x7b arguments \x7d)" nameKinds) := by
    with_unfolding_all decide
  -- the default of a parameter, where the search does not come
  have hparameters : Sample.defaultParameters.Has Tree.ownScope
      (Tree.IsOwnBinding "f = function (a = arguments) \x7b return a \x7d" nameKinds) := by
    with_unfolding_all decide
  refine ⟨⟨by with_unfolding_all decide, ?_, ?_⟩, by with_unfolding_all decide, ?_, ?_⟩
  · with_unfolding_all rfl
  · exact fun hkeeps => hkeeps.body hbody
  · with_unfolding_all rfl
  · exact fun hkeeps => hkeeps.parameters hparameters

end FunctionChange

end CodeActions
