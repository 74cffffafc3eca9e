import CodeActions.Function.Form
import CodeActions.Proofs.Tree.Fits

/-!
# Functions of fitting trees

A function in any of its forms is made of a name, a signature and a body. Found in a fitting tree
all of them fit, so the function can be written in the other forms.

Main statements: `FunctionForm.Fits.ofBinding`, and one statement `Transform.succeeds_…` for each
transform.
-/

namespace CodeActions

variable {source : String} {t : Tree}

/-! ## §1 Signatures -/

/-- The tree of the parameters. -/
def Parameters.tree : Parameters → Tree
  | .list parameters => parameters
  | .bare parameter => parameter

namespace Signature

/-- The parts of the signature fit. -/
structure Fits (source : String) (s : Signature) : Prop where
  typeParameters : ∀ t ∈ s.typeParameters, t.Fits source
  parameters : s.parameters.tree.Fits source
  returnType : ∀ t ∈ s.returnType, t.Fits source

/-- A list of parameters and a bare one are both fields of the function. -/
theorem fits_parameters (h : t.Fits source) {p : Parameters}
    (hp : Parameters.ofFunction? t = some p) : p.tree.Fits source := by
  unfold Parameters.ofFunction? at hp
  split at hp
  case h_1 parameters hparameters =>
    cases hp
    exact h.field hparameters
  case h_2 =>
    obtain ⟨parameter, hparameter, rfl⟩ := Option.map_eq_some_iff.mp hp
    exact h.field hparameter

/-- The signature of a fitting function fits. -/
theorem Fits.ofFunction (h : t.Fits source) {s : Signature} (hs : ofFunction? t = some s) :
    s.Fits source := by
  obtain ⟨parameters, hparameters, hs⟩ := Option.bind_eq_some_iff.mp hs
  cases hs
  exact ⟨fun u hu => h.field hu, fits_parameters h hparameters, fun u hu => h.field hu⟩

/-- What is not there is written as nothing. -/
theorem succeeds_optionalText {part : Option Tree} (h : ∀ u ∈ part, u.Fits source) :
    Succeeds (optionalText source part) := by
  cases part with
  | none => exact .pure _
  | some u => exact (h u rfl).text

theorem Fits.render {s : Signature} (h : s.Fits source) : Succeeds (s.render source) := by
  -- a bare parameter gets the parentheses that a list has already
  have hparameters : Succeeds (s.parameters.render source) := by
    have hfits := h.parameters
    cases hp : s.parameters with
    | list parameters =>
      rw [hp] at hfits
      exact hfits.text
    | bare parameter =>
      rw [hp] at hfits
      exact hfits.textIn true
  exact (succeeds_optionalText h.typeParameters).bind fun _ _ => hparameters.bind fun _ _ =>
    (succeeds_optionalText h.returnType).bind fun _ _ => .pure _

end Signature

/-! ## §2 Bodies -/

namespace FunctionBody

/-- The body is made of fitting trees. -/
def Fits (source : String) : FunctionBody → Prop
  | .kept block => block.Fits source
  | .statements effects result => (∀ e ∈ effects, e.Fits source) ∧ ∀ u ∈ result, u.Fits source

/-- An arrow's body is kept, or taken apart into the elements of a comma sequence. -/
theorem fits_ofArrow {body : Tree} (h : body.Fits source) : (ofArrow body).Fits source := by
  have hsequence := h.unwrapParens.sequence
  unfold ofArrow
  split
  case isTrue => exact h
  case isFalse =>
    simp only
    split
    case h_1 => exact ⟨by simp, by simp⟩
    case h_2 last hlast =>
      have hfront := Tree.Fits.dropLast hsequence
      have hresult : last.Fits source := Tree.Fits.getLast hsequence hlast
      -- an `undefined` in the last place is left out
      split
      · exact ⟨hfront, by simp⟩
      · exact ⟨hfront, by simpa using hresult⟩

theorem Fits.render {body : FunctionBody} (h : body.Fits source) :
    Succeeds (body.render source) := by
  cases body with
  | kept block => exact Tree.Fits.text h
  | statements effects result =>
    have heffects : Succeeds (effects.mapM fun e => e.asStatement source) :=
      .mapM fun e he => (h.1 e he).asStatement
    -- without a result nothing is returned
    have hreturn : Succeeds (returnTexts source result) := by
      cases result with
      | none => exact .pure _
      | some u => exact (h.2 u rfl).text.bind fun _ _ => .pure _
    refine heffects.bind fun _ _ => hreturn.bind fun _ _ => ?_
    -- an empty block is written in another way, but never fails
    split
    · exact .pure _
    · exact .pure _

end FunctionBody

namespace ArrowBody

/-- The body is made of fitting trees. -/
def Fits (source : String) : ArrowBody → Prop
  | .kept block => block.Fits source
  | .sequence effects result => (∀ e ∈ effects, e.Fits source) ∧ ∀ u ∈ result, u.Fits source

/-- A block is collapsed into the expressions of its statements. -/
theorem fits_collapse {block : Tree} (h : block.Fits source) {body : ArrowBody}
    (hbody : collapse? block = some body) : body.Fits source := by
  obtain ⟨last, hlast, hbody⟩ := Option.bind_eq_some_iff.mp hbody
  -- a last `return` gives its value, and any other last statement is one more effect
  split at hbody
  case isTrue =>
    obtain ⟨effects, heffects, hbody⟩ := Option.bind_eq_some_iff.mp hbody
    obtain ⟨result, hresult, hbody⟩ := Option.bind_eq_some_iff.mp hbody
    cases hbody
    have hlast' : last.Fits source := Tree.Fits.getLast h.statements hlast
    exact ⟨Tree.Fits.expressions (Tree.Fits.dropLast h.statements) heffects,
      by simpa using hlast'.firstCode hresult⟩
  case isFalse =>
    obtain ⟨effects, heffects, hbody⟩ := Option.bind_eq_some_iff.mp hbody
    cases hbody
    exact ⟨Tree.Fits.expressions h.statements heffects, by simp⟩

/-- A block that cannot be collapsed is kept. -/
theorem fits_ofFunction {block : Tree} (h : block.Fits source) :
    (ofFunction block).Fits source := by
  unfold ofFunction
  cases hbody : collapse? block with
  | none => exact h
  | some body => exact fits_collapse h hbody

theorem Fits.render {body : ArrowBody} (h : body.Fits source) : Succeeds (body.render source) := by
  cases body with
  | kept block => exact Tree.Fits.text h
  | sequence effects result =>
    have hresult : Succeeds (resultText source result) := by
      cases result with
      | none => exact .pure _
      | some u => exact (h.2 u rfl).text
    exact (Tree.Fits.texts h.1).bind fun _ _ => hresult.bind fun _ _ => .pure _

end ArrowBody

/-! ## §3 Forms -/

namespace FunctionForm

variable {f : FunctionForm}

/-- The parts of the function fit. -/
structure Fits (source : String) (f : FunctionForm) : Prop where
  name : ∀ t ∈ f.name, t.Fits source
  signature : f.signature.Fits source
  body : f.body.Fits source

/-- In all forms the signature and the body are fields of the function. Only the name comes from
elsewhere. -/
theorem Fits.named (h : t.Fits source) {name : Option Tree} (hname : ∀ u ∈ name, u.Fits source)
    (hf : named? name t = some f) : f.Fits source := by
  obtain ⟨signature, hsignature, hf⟩ := Option.bind_eq_some_iff.mp hf
  obtain ⟨body, hbody, hf⟩ := Option.bind_eq_some_iff.mp hf
  cases hf
  exact ⟨hname, .ofFunction h hsignature, h.field hbody⟩

theorem Fits.ofArrow {n : Node} (h : n.Fits source) (hf : ofArrow? n = some f) : f.Fits source := by
  obtain ⟨_, hf⟩ := Option.ite_none_right_eq_some.mp hf
  exact .named h.tree (by simp) hf

theorem Fits.ofExpression (h : t.Fits source) (hf : ofExpression? t = some f) : f.Fits source := by
  obtain ⟨_, hf⟩ := Option.ite_none_right_eq_some.mp hf
  exact .named h (fun u hu => h.field hu) hf

theorem Fits.ofDeclaration (h : t.Fits source) (hf : ofDeclaration? t = some f) :
    f.Fits source := by
  obtain ⟨_, hf⟩ := Option.ite_none_right_eq_some.mp hf
  obtain ⟨name, hname, hf⟩ := Option.bind_eq_some_iff.mp hf
  exact .named h (by simpa using h.field hname) hf

/-- The function of a binding is found two levels below it, its name beside it. -/
theorem Fits.ofBinding (h : t.Fits source) (hf : ofBinding? t = some f) : f.Fits source := by
  unfold ofBinding? at hf
  obtain ⟨_, hf⟩ := Option.ite_none_right_eq_some.mp hf
  split at hf
  case h_2 => cases hf
  case h_1 declarator hdeclarators =>
    obtain ⟨name, hname, hf⟩ := Option.bind_eq_some_iff.mp hf
    obtain ⟨value, hvalue, hf⟩ := Option.bind_eq_some_iff.mp hf
    -- the one declarator is a child of the declaration
    have hmem : declarator ∈ t.codeChildren :=
      (List.mem_filter.mp (hdeclarators ▸ List.mem_singleton_self declarator)).1
    have hdeclarator : declarator.Fits source := h.child (List.mem_filter.mp hmem).1
    obtain ⟨_, hf⟩ := Option.ite_none_right_eq_some.mp hf
    exact .named (hdeclarator.field hvalue).unwrapParens (by simpa using hdeclarator.field hname) hf

theorem Fits.renderExpression (h : f.Fits source) : Succeeds (f.renderExpression source) :=
  h.signature.render.bind fun _ _ =>
    (FunctionBody.fits_ofArrow h.body).render.bind fun _ _ => .pure _

theorem Fits.renderDeclaration (h : f.Fits source) : Succeeds (f.renderDeclaration source) :=
  (Signature.succeeds_optionalText h.name).bind fun _ _ => h.signature.render.bind fun _ _ =>
    (FunctionBody.fits_ofArrow h.body).render.bind fun _ _ => .pure _

theorem Fits.renderArrow (h : f.Fits source) : Succeeds (f.renderArrow source) :=
  h.signature.render.bind fun _ _ =>
    (ArrowBody.fits_ofFunction h.body).render.bind fun _ _ => .pure _

theorem Fits.renderBinding (h : f.Fits source) : Succeeds (f.renderBinding source) :=
  (Signature.succeeds_optionalText h.name).bind fun _ _ => h.renderArrow.bind fun _ _ => .pure _

/-- A function without a name is not searched. -/
theorem Fits.isRecursive (h : f.Fits source) : Succeeds (f.isRecursive source) := by
  unfold FunctionForm.isRecursive
  split
  case h_1 name hname => exact (h.name name hname).text.bind fun text _ => h.body.mentions text
  case h_2 => exact .pure false

/-- A function is searched and then written, and in a fitting tree both succeed. -/
theorem succeeds_reshape {shape : Option FunctionForm} {render : FunctionForm → Cut String}
    (h : ∀ f ∈ shape, f.Fits source) (hrender : ∀ f, f.Fits source → Succeeds (render f)) :
    Succeeds (reshape source shape render) := by
  cases shape with
  | none => exact .pure none
  | some f =>
    have hf : f.Fits source := h f rfl
    refine hf.body.readsOwnBinding.bind fun reads _ => ?_
    cases reads with
    | true => exact .pure none
    | false => exact (hrender f hf).bind fun _ _ => .pure _

end FunctionForm

namespace Transform

variable {n : Node} (hn : n.Fits source)

include hn

theorem succeeds_arrowToFunction : Succeeds (arrowToFunction.run source n) :=
  FunctionForm.succeeds_reshape (fun _ hf => .ofArrow hn hf) fun _ hf => hf.renderExpression

theorem succeeds_functionToArrow : Succeeds (functionToArrow.run source n) := by
  unfold functionToArrow
  simp only
  split
  case h_1 => exact .pure none
  case h_2 form hform =>
    have hfits : form.Fits source := .ofExpression hn.tree hform
    -- a function that calls itself is refused before it is searched any further
    refine hfits.isRecursive.bind fun recursive _ => ?_
    cases recursive with
    | true => exact .pure none
    | false =>
      have hshape : ∀ f ∈ some form, f.Fits source := by simpa using hfits
      exact FunctionForm.succeeds_reshape hshape fun f hf => hf.renderArrow

theorem succeeds_functionDeclarationToArrow :
    Succeeds (functionDeclarationToArrow.run source n) := by
  refine FunctionForm.succeeds_reshape (fun f hf => .ofDeclaration hn.tree hf) fun f hf => ?_
  exact hf.renderBinding.bind fun text _ => hn.guarded text

theorem succeeds_arrowBindingToFunction : Succeeds (arrowBindingToFunction.run source n) :=
  FunctionForm.succeeds_reshape (fun _ hf => .ofBinding hn.tree hf) fun _ hf => hf.renderDeclaration

omit hn

theorem answers_arrowToFunction : arrowToFunction.Answers := fun _ _ hn _ =>
  succeeds_arrowToFunction hn

theorem answers_functionToArrow : functionToArrow.Answers := fun _ _ hn _ =>
  succeeds_functionToArrow hn

theorem answers_functionDeclarationToArrow : functionDeclarationToArrow.Answers := fun _ _ hn _ =>
  succeeds_functionDeclarationToArrow hn

theorem answers_arrowBindingToFunction : arrowBindingToFunction.Answers := fun _ _ hn _ =>
  succeeds_arrowBindingToFunction hn

end Transform

end CodeActions
