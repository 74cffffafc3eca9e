import CodeActions.Proofs.Branch.Break

/-!
# What an `await` or a `yield` suspends

An `await` or a `yield` suspends the function that it runs in. A conditional expression that becomes
a `switch` is put into a new function, which cannot be suspended, so it is refused if an `await` or
a `yield` is found in it. The search does not look into functions and classes, which have functions
of their own to suspend.

But not all that stands in a method or in a class runs there. Computed names and decorators are
evaluated where the object or the class is, so what stands in them suspends the function further
out. It is overlooked, and the new function cuts it off.

Main statements: `Tree.containsWithin_iff_exists_leads`, what a search finds, and
`Transform.ternaryToSwitch_keeps_suspended_iff`, which conditional expressions are refused, and in
those that are accepted, which `await` and `yield` suspend the same function as before.
-/

namespace CodeActions

/-! ## §1 The search -/

namespace Tree

variable {t b : Tree} {between : List Tree} {stops : List String}

/-- What is below a tree is in one of its children. -/
theorem leads_append_self_iff :
    t.Leads (between ++ [t]) b ↔ ∃ u ∈ t.namedChildren, u.Leads between b := by
  constructor
  · intro h
    -- the way is an index of the relation, so it is named before the case split
    generalize haround : between ++ [t] = around at h
    cases h with
    | here => simp at haround
    | inside hu h =>
      obtain ⟨rfl, _⟩ := List.append_inj' haround rfl
      exact ⟨_, hu, h⟩
  · rintro ⟨u, hu, h⟩
    exact .inside hu h

theorem stopsAt_eq_false_iff :
    t.stopsAt stops = false ↔ t.kind ∉ functionsAndClasses ∧ t.kind ∉ stops := by
  -- the list of the code is the one of the language
  have hkinds : functionKinds = functionsAndClasses := rfl
  simp [stopsAt, hkinds]

/-- The search finds a construct exactly if one is below the node and nothing that stops the search
is between them. Neither the node nor the construct itself stops it. -/
theorem containsWithin_iff_exists_leads (t : Tree) (stops : List String) (test : Tree → Bool) :
    t.containsWithin stops test = true ↔
      ∃ between b, t.Leads (between ++ [t]) b ∧ test b = true ∧
        ∀ u ∈ between, u.kind ∉ functionsAndClasses ∧ u.kind ∉ stops := by
  simp only [containsWithin_iff, HasBelow, has_iff_exists_leads, leads_append_self_iff,
    stopsAt_eq_false_iff]
  constructor
  · rintro ⟨u, hu, between, b, hleads, hopen, hb⟩
    exact ⟨between, b, ⟨u, hu, hleads⟩, hb, hopen⟩
  · rintro ⟨between, b, ⟨u, hu, hleads⟩, hb, hopen⟩
    exact ⟨u, hu, between, b, hleads, hopen, hb⟩

/-- An `await` or a `yield`. -/
def IsSuspension (t : Tree) : Prop := t.kind = "await_expression" ∨ t.kind = "yield_expression"

/-- An `await` or a `yield` is below the tree, and no function and no class body is between them. -/
def HasOpenSuspension (t : Tree) : Prop :=
  ∃ between b, t.Leads (between ++ [t]) b ∧ b.IsSuspension ∧
    ∀ u ∈ between, u.kind ∉ functionsAndClasses

theorem hasSuspension_iff (ht : ¬ t.IsSuspension) :
    t.hasSuspension = true ↔ t.HasOpenSuspension := by
  have hsuspension (u : Tree) : u.isSuspension = true ↔ u.IsSuspension := by
    simp [isSuspension, IsSuspension]
  simp only [hasSuspension, Bool.or_eq_true, hsuspension, ht, false_or,
    containsWithin_iff_exists_leads, HasOpenSuspension, List.not_mem_nil, not_false_eq_true,
    and_true]

end Tree

/-! ## §2 The function that is suspended -/

/-- What runs in a call of its own. In a class these are the methods, the values of the fields and
the blocks. -/
def calledKinds : List String :=
  ["function_expression", "function_declaration", "generator_function",
    "generator_function_declaration", "arrow_function", "method_definition", "field_definition",
    "public_field_definition", "class_static_block"]

/-- The parts of a method or a field that are evaluated where its object or its class is. -/
def outerParts : List String := ["computed_property_name", "decorator"]

/-- What stops the search has a call of its own, but for the body of a class. -/
theorem mem_calledKinds_or_eq {kind : String} (h : kind ∈ functionsAndClasses) :
    kind ∈ calledKinds ∨ kind = "class_body" := by
  have hall : ∀ kind ∈ functionsAndClasses, kind ∈ calledKinds ∨ kind = "class_body" := by decide
  exact hall kind h

namespace Frame

/-- The part is evaluated in a call of the construct. -/
def runs (part frame : Frame) : Bool :=
  calledKinds.contains frame.kind && !outerParts.contains part.kind

/-- The function that an expression suspends: the innermost of the constructs around it that runs
it. -/
def suspended : Frame → List Frame → Option Frame
  | _, [] => none
  | part, frame :: frames => if runs part frame then some frame else suspended frame frames

variable {part : Frame} {frames inside before after : List Frame}

/-- Only what nothing inside runs is left to the constructs further out. -/
theorem suspended_append (part : Frame) (inside outer : List Frame) :
    suspended part (inside ++ outer) =
      (suspended part inside).or (suspended (inside.getLastD part) outer) := by
  induction inside generalizing part with
  | nil => rfl
  | cons frame inside ih =>
    simp only [List.cons_append, suspended, List.getLastD_cons]
    split
    -- what is run inside suspends nothing further out
    case isTrue => rfl
    case isFalse => exact ih frame

theorem suspended_eq_none (h : ∀ frame ∈ frames, frame.kind ∉ calledKinds) :
    suspended part frames = none := by
  induction frames generalizing part with
  | nil => rfl
  | cons frame frames ih =>
    obtain ⟨hframe, hframes⟩ := List.forall_mem_cons.mp h
    simp [suspended, runs, hframe, ih hframes]

/-- What stands in a function that does not run it stands in a part of it that is evaluated further
out. -/
theorem exists_outerPart (hnone : suspended part frames = none) {frame : Frame}
    (hframe : frame ∈ frames) (hcalled : frame.kind ∈ calledKinds) :
    part.kind ∈ outerParts ∨ ∃ outer ∈ frames, outer.kind ∈ outerParts := by
  induction frames generalizing part with
  | nil => cases hframe
  | cons first frames ih =>
    simp only [suspended] at hnone
    split at hnone
    case isTrue => cases hnone
    case isFalse hruns =>
      rcases List.mem_cons.mp hframe with rfl | hframe
      · -- a function runs all of its parts but for those evaluated further out
        left
        simpa [runs, hcalled] using hruns
      · right
        rcases ih hnone hframe with hfirst | ⟨outer, houter, hkind⟩
        · exact ⟨first, List.mem_cons_self, hfirst⟩
        · exact ⟨outer, List.mem_cons_of_mem first houter, hkind⟩

/-- What is written around a `switch` to make a function of it that is called on the spot. -/
def calledOnSpot : List Frame :=
  [.written "statement_block", .written "arrow_function", .written "parenthesized_expression",
    .written "call_expression"]

/-- What nothing in the `switch` runs is run by the new function. -/
theorem suspended_calledOnSpot (h : ∀ frame ∈ frames, frame.kind ∉ calledKinds) (part : Frame)
    (outer : List Frame) :
    suspended part (frames ++ (calledOnSpot ++ outer)) = some (.written "arrow_function") := by
  rw [suspended_append, suspended_eq_none h, Option.none_or]
  simp [calledOnSpot, suspended, runs, kind, calledKinds, outerParts]

/-- The expression suspends the same function in both places, whatever is around them. -/
def SuspendsSame (part : Frame) (inside before after : List Frame) : Prop :=
  ∀ outer, suspended part (inside ++ (before ++ outer)) =
    suspended part (inside ++ (after ++ outer))

/-- What is put into the new function suspends what it did exactly if something that is moved with
it runs it. -/
theorem suspendsSame_iff (hbefore : ∀ frame ∈ before, frame.kind ∉ calledKinds)
    (hafter : ∀ frame ∈ after, frame.kind ∉ calledKinds) :
    SuspendsSame part inside before (after ++ calledOnSpot) ↔
      ∃ frame, suspended part inside = some frame := by
  simp only [SuspendsSame, List.append_assoc, suspended_append part inside,
    suspended_calledOnSpot hafter]
  cases suspended part inside with
  | some frame => simp
  | none =>
    -- with nothing further out there was no function to suspend, but now the new one is there
    simp only [Option.none_or, reduceCtorEq, exists_false, iff_false]
    intro h
    have hnone := h []
    rw [List.append_nil, suspended_eq_none hbefore] at hnone
    cases hnone

end Frame

/-! ## §3 The parts of a conditional expression -/

/-- The branch of the outermost level is an arm of the chain, however the nest goes on. -/
theorem ChainForm.Flattens.exists_first_arm {form : ChainForm} {t : Tree} {chain : Chain}
    (h : form.Flattens t chain) :
    ∃ first, t.branch? = some first ∧ ⟨some first.condition, first.body⟩ ∈ chain.arms := by
  cases h with
  | alone branch | last branch | more branch => exact ⟨_, branch, List.mem_cons_self⟩

namespace Tree

variable {t u e b : Tree} {nest inside : List Tree}

/-- The parentheses around an expression that are left out, the innermost first. -/
def parens (t : Tree) : List Tree :=
  if t.kind = "parenthesized_expression" then
    match _h : t.firstCode? with
    | some inner => inner.parens ++ [t]
    | none => []
  else
    []
termination_by t.size
decreasing_by exact size_lt_of_firstCode? ‹_›

/-- A way leads through the parentheses to what they are around. -/
theorem leads_unwrapParens (t : Tree) : t.Leads t.parens t.unwrapParens := by
  fun_induction parens t with
  | case1 t hkind inner hinner ih =>
    -- what is in the parentheses is no comment, and it has a name
    have hchild : inner ∈ t.namedChildren := by
      have hcode : inner.isCode = true := List.find?_some hinner
      exact List.mem_filter.mpr
        ⟨mem_children_of_firstCode? hinner, (Bool.and_eq_true_iff.mp hcode).1⟩
    rw [unwrapParens_of_firstCode? hkind hinner]
    exact .inside hchild ih
  | case2 t hkind hnone =>
    -- parentheses without code in them are left as they are
    have hself : t.unwrapParens = t := by
      rw [unwrapParens, if_pos hkind]
      split <;> simp_all
    rw [hself]
    exact .here t
  | case3 t hkind =>
    rw [unwrapParens_of_kind_ne hkind]
    exact .here t

theorem kind_of_mem_parens (t : Tree) : ∀ u ∈ t.parens, u.kind = "parenthesized_expression" := by
  fun_induction parens t with
  | case1 t hkind inner _ ih => simpa [or_imp, forall_and, hkind] using ih
  | case2 t => simp
  | case3 t => simp

/-- A test or a value of a conditional expression without the parentheses around it, and the trees
that are around it there, the innermost first. -/
inductive HasPart : Tree → Tree → List Tree → Prop where
  | test {t u : Tree} (h : t.field? "condition" = some u) (hu : u.named = true) :
      HasPart t u.unwrapParens (u.parens ++ [t])
  | value {t u : Tree} (h : t.field? "consequence" = some u) (hu : u.named = true) :
      HasPart t u.unwrapParens (u.parens ++ [t])
  | otherwise {t u : Tree} (h : t.field? "alternative" = some u) (hu : u.named = true)
      (ends : u.unwrapParens.kind ≠ "ternary_expression") :
      HasPart t u.unwrapParens (u.parens ++ [t])
  | next {t u e : Tree} {nest : List Tree} (h : t.field? "alternative" = some u)
      (hu : u.named = true) (goesOn : u.unwrapParens.kind = "ternary_expression")
      (rest : HasPart u.unwrapParens e nest) :
      HasPart t e (nest ++ (u.parens ++ [t]))

/-- Two ways make one. -/
theorem Leads.trans (h : t.Leads nest e) (h' : e.Leads inside b) : t.Leads (inside ++ nest) b := by
  induction h with
  | here => simpa using h'
  | inside hu _ ih =>
    rw [← List.append_assoc]
    exact .inside hu (ih h')

theorem leads_of_field? {name : String} (h : t.field? name = some u) (hu : u.named = true) :
    t.Leads (u.parens ++ [t]) u.unwrapParens :=
  .inside (List.mem_filter.mpr ⟨mem_children_of_field? h, hu⟩) u.leads_unwrapParens

/-- The kinds of what is around a part. -/
def nestKinds : List String := ["ternary_expression", "parenthesized_expression"]

theorem kind_mem_of_mem_level (ht : t.kind = "ternary_expression") :
    ∀ v ∈ u.parens ++ [t], v.kind ∈ nestKinds := by
  refine List.forall_mem_append.mpr ⟨fun v hv => ?_, List.forall_mem_singleton.mpr ?_⟩
  · simp [nestKinds, u.kind_of_mem_parens v hv]
  · simp [nestKinds, ht]

namespace HasPart

theorem leads (h : t.HasPart e nest) : t.Leads nest e := by
  induction h with
  | test h hu | value h hu | otherwise h hu => exact leads_of_field? h hu
  | next h hu _ _ ih => exact (leads_of_field? h hu).trans ih

theorem kind_mem (h : t.HasPart e nest) (ht : t.kind = "ternary_expression") :
    ∀ v ∈ nest, v.kind ∈ nestKinds := by
  induction h with
  | test | value | otherwise => exact kind_mem_of_mem_level ht
  | next _ _ goesOn _ ih => exact List.forall_mem_append.mpr ⟨ih goesOn, kind_mem_of_mem_level ht⟩

/-- The tree itself is the outermost of what is around a part. -/
theorem exists_eq_append (h : t.HasPart e nest) : ∃ within, nest = within ++ [t] := by
  cases h with
  | test | value | otherwise => exact ⟨_, rfl⟩
  | next => exact ⟨_, (List.append_assoc ..).symm⟩

/-- Each part belongs to an arm of the chain. -/
theorem exists_arm (h : t.HasPart e nest) {chain : Chain}
    (hchain : ChainForm.expression.Flattens t chain) :
    ∃ arm ∈ chain.arms,
      e = arm.body.unwrapParens ∨ ∃ condition ∈ arm.condition, e = condition.unwrapParens := by
  induction h generalizing chain with
  -- the test of a level is the condition of the first arm
  | test h =>
    obtain ⟨first, hbranch, harm⟩ := hchain.exists_first_arm
    obtain ⟨_, hcondition, htest, _⟩ := of_branch? hbranch
    cases h.symm.trans hcondition
    exact ⟨_, harm, .inr ⟨_, rfl, by rw [htest, unwrapParens_unwrapParens]⟩⟩
  -- and its value is the body of that arm
  | value h =>
    obtain ⟨first, hbranch, harm⟩ := hchain.exists_first_arm
    obtain ⟨_, _, _, hconsequence⟩ := of_branch? hbranch
    cases h.symm.trans hconsequence
    exact ⟨_, harm, .inl rfl⟩
  | @otherwise t u h _ ends =>
    -- the kind of the alternative tells whether the chain goes on there
    have halternative : ChainForm.expression.alternative? t = some u := h
    cases hchain with
    | alone _ nothing => cases h.symm.trans nothing
    | last _ alternative =>
      cases halternative.symm.trans alternative
      exact ⟨⟨none, u⟩, by simp [Chain.arms], .inl rfl⟩
    | more _ alternative goesOn =>
      cases halternative.symm.trans alternative
      exact absurd goesOn ends
  -- a part of the alternative belongs to an arm of the rest
  | @next t u _ _ h _ goesOn _ ih =>
    have halternative : ChainForm.expression.alternative? t = some u := h
    cases hchain with
    | alone _ nothing => cases h.symm.trans nothing
    | last _ alternative ends =>
      cases halternative.symm.trans alternative
      exact absurd goesOn ends
    | more _ alternative _ rest =>
      cases halternative.symm.trans alternative
      obtain ⟨arm, harm, he⟩ := ih rest
      exact ⟨arm, List.mem_cons_of_mem _ harm, he⟩

end HasPart

end Tree

/-! ## §4 The new function -/

namespace Switch

/-- What is written around the expression of a label to coerce it. -/
def Label.frames (label : Label) : List Frame :=
  if label.coerced then
    (if label.inParens then [.written "parenthesized_expression"] else []) ++
      [.written "unary_expression", .written "unary_expression"]
  else []

/-- An expression of a clause, and what is written around it in the `switch`, the innermost
first. -/
inductive Clause.Holds (c : Clause) : Tree → List Frame → Prop where
  | label {label : Label} (h : c.label = some label) :
      Holds c label.expression
        (label.frames ++ [.written "switch_case", .written "switch_body",
          .written "switch_statement"])
  | result {e : Tree} (h : .result e ∈ c.statements) :
      Holds c e ([.written "parenthesized_expression", .written "return_statement"] ++ c.frames)

/-- The kinds of what is around an expression in a `switch`. -/
def expressionKinds : List String :=
  ["parenthesized_expression", "unary_expression", "return_statement"] ++ switchKinds

theorem Clause.Holds.kind_mem {c : Clause} {e : Tree} {frames : List Frame} (h : c.Holds e frames) :
    ∀ frame ∈ frames, frame.kind ∈ expressionKinds := by
  cases h with
  -- a label is coerced or not, and in parentheses or not
  | @label label =>
    unfold Label.frames
    cases label.coerced <;> cases label.inParens <;> simp [Frame.kind, expressionKinds, switchKinds]
  | result =>
    refine List.forall_mem_append.mpr
      ⟨by simp [Frame.kind, expressionKinds], fun frame hframe => ?_⟩
    exact List.mem_append_right _ (kind_mem_of_mem_frames frame hframe)

/-- The clause of an arm has the test and the value of the arm. -/
theorem exists_holds_clause {arm : Arm} {e : Tree}
    (h : e = arm.body.unwrapParens ∨ ∃ condition ∈ arm.condition, e = condition.unwrapParens) :
    ∃ frames, (ChainForm.expression.clause arm).Holds e frames := by
  rcases h with rfl | ⟨condition, hcondition, rfl⟩
  · -- the value is returned
    exact ⟨_, .result List.mem_cons_self⟩
  · -- the test is the label
    have hlabel : (ChainForm.expression.clause arm).label = some (Label.ofCondition condition) :=
      congrArg (Option.map Label.ofCondition) hcondition
    exact ⟨_, .label hlabel⟩

end Switch

namespace Tree

variable {t e b : Tree} {nest inside : List Tree}

/-- Something on the way to the expression runs it. -/
def IsRunIn (b : Tree) (inside : List Tree) : Prop :=
  ∃ frame, Frame.suspended (.source b) (inside.map .source) = some frame

/-- What the search overlooks in a part stands in a class, in a computed name or in a decorator. -/
theorem HasPart.isRunIn_or (hpart : t.HasPart e nest) (ht : t.kind = "ternary_expression")
    (hopen : ¬ t.HasOpenSuspension) (h : e.Leads inside b) (hb : b.IsSuspension) :
    b.IsRunIn inside ∨ ∃ u ∈ inside, u.kind = "class_body" ∨ u.kind ∈ outerParts := by
  obtain ⟨within, rfl⟩ := hpart.exists_eq_append
  have hleads : t.Leads ((inside ++ within) ++ [t]) b := by
    rw [List.append_assoc]
    exact hpart.leads.trans h
  -- the search was stopped, and not by what is around the part
  obtain ⟨u, hu, hkind⟩ : ∃ u ∈ inside, u.kind ∈ functionsAndClasses := by
    by_contra hnone
    simp only [not_exists, not_and] at hnone
    have hnest : ∀ kind ∈ nestKinds, kind ∉ functionsAndClasses := by decide
    refine hopen ⟨inside ++ within, b, hleads, hb,
      List.forall_mem_append.mpr ⟨hnone, fun u hu => ?_⟩⟩
    exact hnest _ (hpart.kind_mem ht u (List.mem_append_left [t] hu))
  cases hsuspended : Frame.suspended (.source b) (inside.map .source) with
  | some frame => exact .inl ⟨frame, hsuspended⟩
  | none =>
    right
    rcases mem_calledKinds_or_eq hkind with hcalled | hclass
    · rcases Frame.exists_outerPart hsuspended
        (List.mem_map_of_mem hu) hcalled with hself | ⟨outer, houter, hkind⟩
      · -- an `await` or a `yield` is no part of that kind itself
        rcases hb with hb | hb <;> simp [Frame.kind, hb, outerParts] at hself
      · obtain ⟨v, hv, rfl⟩ := List.mem_map.mp houter
        exact ⟨v, hv, .inr hkind⟩
    · exact ⟨u, hu, .inl hclass⟩

/-- What stands in a part suspends the same function in the new place exactly if something in the
part runs it. -/
theorem HasPart.suspendsSame_iff (hpart : t.HasPart e nest) (ht : t.kind = "ternary_expression")
    {clause : Switch.Clause} {frames : List Frame} (hframes : clause.Holds e frames) :
    Frame.SuspendsSame (.source b) (inside.map .source) (nest.map .source)
      (frames ++ Frame.calledOnSpot) ↔ b.IsRunIn inside := by
  -- nothing around a part runs it, neither before nor after
  have hkinds : ∀ kind ∈ nestKinds ++ Switch.expressionKinds, kind ∉ calledKinds := by decide
  refine Frame.suspendsSame_iff ?_ fun frame hframe => ?_
  · refine List.forall_mem_map.mpr fun v hv => ?_
    exact hkinds _ (List.mem_append_left _ (hpart.kind_mem ht v hv))
  · exact hkinds _ (List.mem_append_right _ (hframes.kind_mem frame hframe))

end Tree

/-- A conditional expression with a chain is refused exactly if an `await` or a `yield` is found in
it. -/
theorem Transform.ternaryToSwitch_eq_none_iff {source : String} {n : Node} {chain : Chain}
    (hkind : n.kind = "ternary_expression") (hchain : n.tree.ternaryChain? = some chain)
    {answer : Option Replacement} (hanswer : ternaryToSwitch.run source n = .ok answer) :
    answer = none ↔ n.tree.HasOpenSuspension := by
  -- the expression is no `await` and no `yield` itself
  have hself : ¬ n.tree.IsSuspension := by
    have hkind : n.tree.kind = "ternary_expression" := hkind
    simp [Tree.IsSuspension, hkind]
  have hsome := Reshaping.isSome_iff_of_ofShape hanswer
  rw [← Tree.hasSuspension_iff hself, ← Option.not_isSome_iff_eq_none, hsome]
  simp only [Switch.expressionChain?, hchain]
  cases n.tree.hasSuspension <;> simp

/-- A search finds a construct exactly if one is below the node and nothing that stops the search is
between them. So a conditional expression with a chain is refused if and only if an `await` or a
`yield` is in it, with no function and no class body between. Otherwise its tests and values are put
into a new function. What an `await` or a `yield` in them suspends stays the same, wherever the
expression stands, if and only if something in the test or the value runs it. If it does not stay
the same, a class body, a computed name or a decorator is around it there. -/
theorem Transform.ternaryToSwitch_keeps_suspended_iff (t : Tree) (stops : List String)
    (test : Tree → Bool) (source : String) (n : Node) (chain : Chain) (last : Tree) :
    (t.containsWithin stops test = true ↔
      ∃ between b, t.Leads (between ++ [t]) b ∧ test b = true ∧
        ∀ u ∈ between, u.kind ∉ functionsAndClasses ∧ u.kind ∉ stops) ∧
    (n.Fits source → n.kind = "ternary_expression" → ChainForm.expression.Flattens n.tree chain →
      chain.otherwise = some last →
      ∃ answer, ternaryToSwitch.run source n = .ok answer ∧
        (answer = none ↔ n.tree.HasOpenSuspension) ∧
        ∀ replacement, answer = some replacement →
          ∃ clauses text, replacement = .text (ChainForm.expression.embed text) ∧
            Switch.print source "true" clauses = .ok text ∧
            ∀ e nest, n.tree.HasPart e nest → ∃ clause ∈ clauses, ∃ frames, clause.Holds e frames ∧
              ∀ inside b, e.Leads inside b → b.IsSuspension →
                (Frame.SuspendsSame (.source b) (inside.map .source) (nest.map .source)
                    (frames ++ Frame.calledOnSpot) ↔ b.IsRunIn inside) ∧
                (b.IsRunIn inside ∨
                  ∃ u ∈ inside, u.kind = "class_body" ∨ u.kind ∈ outerParts)) := by
  refine ⟨t.containsWithin_iff_exists_leads stops test, fun hn hkind hflattens hlast => ?_⟩
  have hchain := ChainForm.ternaryChain?_of_flattens hkind hflattens hlast
  obtain ⟨answer, hanswer⟩ := succeeds_ternaryToSwitch hn
  have hrefused := ternaryToSwitch_eq_none_iff hkind hchain hanswer
  refine ⟨answer, hanswer, hrefused, ?_⟩
  rintro replacement rfl
  -- it was not refused, so nothing was found
  have hopen : ¬ n.tree.HasOpenSuspension := fun h => by cases hrefused.mpr h
  have hrun : ChainForm.expression.toSwitch.run source n = .ok (some replacement) := hanswer
  obtain ⟨found, text, hfound, hreplacement, hprint⟩ := ChainForm.of_toSwitch hrun
  cases hchain.symm.trans hfound
  refine ⟨_, text, hreplacement, hprint, fun e nest hpart => ?_⟩
  -- a part belongs to an arm, and the arm to a clause
  obtain ⟨arm, harm, he⟩ := hpart.exists_arm hflattens
  obtain ⟨frames, hframes⟩ := Switch.exists_holds_clause he
  refine ⟨_, List.mem_map_of_mem harm, frames, hframes, fun inside b hleads hb => ?_⟩
  exact ⟨hpart.suspendsSame_iff hkind hframes, hpart.isRunIn_or hkind hopen hleads hb⟩

namespace Sample

/-- A name of one letter. -/
def letter (start : Nat) : Tree := construct "identifier" start (start + 1) [] []

/-- `await x`. -/
def awaiting (start : Nat) : Tree :=
  construct "await_expression" start (start + 7) []
    [mark "await" start (start + 5), letter (start + 6)]

/-- `async () => await x`. -/
def waitingArrow : Tree :=
  construct "arrow_function" 5 24 [("parameters", 1), ("body", 3)]
    [mark "async" 5 10, noParameters 11, mark "=>" 14 16, awaiting 17]

/-- `(async () => await x)`. -/
def wrappedArrow : Tree :=
  construct "parenthesized_expression" 4 25 [] [mark "(" 4 5, waitingArrow, mark ")" 24 25]

/-- `a ? (async () => await x) : y`. -/
def arrowChoice : Tree := conditional (letter 0) wrappedArrow (letter 28)

end Sample

/-- The function in parentheses is what is suspended, before and after. A search that starts at the
function looks into it. -/
theorem Transform.ternaryToSwitch_keeps_suspended_iff_arrow :
    let source := "a ? (async () => await x) : y"
    let n := Node.root Sample.arrowChoice
    let chain : Chain := ⟨[⟨Sample.letter 0, Sample.wrappedArrow⟩], some (Sample.letter 28)⟩
    let e := Sample.waitingArrow
    let b := Sample.awaiting 17
    let replacement := Replacement.text
      "(() => \x7b\nswitch (true) \x7b\ncase !!a:\nreturn (async () => await x)\ndefault:\nreturn (y)\n\x7d\n\x7d)()"
    (e.containsWithin [] Tree.isSuspension = true ∧
      ∃ between b, e.Leads (between ++ [e]) b ∧ b.isSuspension = true ∧
        ∀ u ∈ between, u.kind ∉ functionsAndClasses ∧ u.kind ∉ []) ∧
    n.Fits source ∧ n.kind = "ternary_expression" ∧ ChainForm.expression.Flattens n.tree chain ∧
      ternaryToSwitch.run source n = .ok (some replacement) ∧ ¬ n.tree.HasOpenSuspension ∧
      n.tree.HasPart e [Sample.wrappedArrow, n.tree] ∧ e.Leads [e] b ∧ b.IsSuspension ∧
      b.IsRunIn [e] ∧
      ∃ clauses text, replacement = .text (ChainForm.expression.embed text) ∧
        Switch.print source "true" clauses = .ok text ∧
        ∃ clause ∈ clauses, ∃ frames, clause.Holds e frames ∧
          Frame.SuspendsSame (.source b) [.source e] [.source Sample.wrappedArrow, .source n.tree]
            (frames ++ Frame.calledOnSpot) := by
  intro source n chain e b replacement
  obtain ⟨hsearch, hswitch⟩ :=
    ternaryToSwitch_keeps_suspended_iff e [] Tree.isSuspension source n chain (Sample.letter 28)
  have hfound : e.containsWithin [] Tree.isSuspension = true := by decide
  have hn : n.Fits source := .root (.of_fitsPlainly (by with_unfolding_all decide))
  have hkind : n.kind = "ternary_expression" := rfl
  have hrun : ternaryToSwitch.run source n = .ok (some replacement) := by with_unfolding_all decide
  have hchain : ChainForm.expression.Flattens n.tree chain := by
    have hbranch : n.tree.branch? = some ⟨Sample.letter 0, Sample.wrappedArrow⟩ := by
      with_unfolding_all rfl
    exact .last hbranch rfl (by with_unfolding_all decide)
  -- the value stands in parentheses, which are left out
  have hpart : n.tree.HasPart e [Sample.wrappedArrow, n.tree] := by
    have hunwrapped : Sample.wrappedArrow.unwrapParens = e := by with_unfolding_all rfl
    have hparens : Sample.wrappedArrow.parens = [Sample.wrappedArrow] := by with_unfolding_all rfl
    have hvalue : n.tree.HasPart Sample.wrappedArrow.unwrapParens
        (Sample.wrappedArrow.parens ++ [n.tree]) := .value rfl rfl
    rwa [hunwrapped, hparens] at hvalue
  have hleads : e.Leads [e] b := .inside (.tail _ (.head _)) (.here b)
  have hb : b.IsSuspension := .inl rfl
  obtain ⟨answer, hanswer, hrefused, haccepted⟩ := hswitch hn hkind hchain rfl
  cases hrun.symm.trans hanswer
  have hopen : ¬ n.tree.HasOpenSuspension := fun h => by cases hrefused.mpr h
  obtain ⟨clauses, text, htext, hprint, hparts⟩ := haccepted replacement rfl
  obtain ⟨clause, hclause, frames, hframes, hsuspended⟩ := hparts e _ hpart
  obtain ⟨hsame, _⟩ := hsuspended [e] b hleads hb
  have hruns : b.IsRunIn [e] := ⟨.source e, by with_unfolding_all rfl⟩
  exact ⟨⟨hfound, hsearch.mp hfound⟩, hn, hkind, hchain, hrun, hopen, hpart, hleads, hb, hruns,
    clauses, text, htext, hprint, clause, hclause, frames, hframes, hsame.mpr hruns⟩

namespace Sample

/-- `[await x]`. -/
def waitingName : Tree :=
  construct "computed_property_name" 34 43 [] [mark "[" 34 35, awaiting 35, mark "]" 42 43]

/-- `[await x]() {}`. -/
def waitingMethod : Tree :=
  construct "method_definition" 34 48 [("name", 0), ("parameters", 1), ("body", 2)]
    [waitingName, noParameters 43,
      construct "statement_block" 46 48 [] [mark "\x7b" 46 47, mark "\x7d" 47 48]]

/-- `{ [await x]() {} }`. -/
def waitingObject : Tree :=
  construct "object" 32 50 [] [mark "\x7b" 32 33, waitingMethod, mark "\x7d" 49 50]

/-- `a ? { [await x]() {} } : y`. -/
def objectChoice : Tree := conditional (letter 28) waitingObject (letter 53)

/-- `return a ? { [await x]() {} } : y`. -/
def returnedChoice : Tree :=
  construct "return_statement" 21 54 [] [mark "return" 21 27, objectChoice]

/-- The block around it. -/
def returningBlock : Tree :=
  construct "statement_block" 19 56 [] [mark "\x7b" 19 20, returnedChoice, mark "\x7d" 55 56]

/-- `async function f() { return a ? { [await x]() {} } : y }`. -/
def waitingFunction : Tree :=
  construct "function_declaration" 0 56 [("name", 2), ("parameters", 3), ("body", 4)]
    [mark "async" 0 5, mark "function" 6 14, letter 15, noParameters 16, returningBlock]

/-- The conditional expression in its place. -/
def objectChoiceNode : Node :=
  (((Node.root waitingFunction).child 4 returningBlock).child 1 returnedChoice).child 1 objectChoice

end Sample

/-- The name of the method is computed when the object is made, so `f` is what is suspended. The
search does not look into the method, and the new function is put between the two. -/
theorem Transform.computed_name_is_cut_off :
    let source := "async function f() \x7b return a ? \x7b [await x]() \x7b\x7d \x7d : y \x7d"
    let n := Sample.objectChoiceNode
    let e := Sample.waitingObject
    let inside := [Sample.waitingName, Sample.waitingMethod, e]
    let b := Sample.awaiting 35
    let outer := n.above.map fun place => Frame.source place.parent
    let text :=
      "switch (true) \x7b\ncase !!a:\nreturn (\x7b [await x]() \x7b\x7d \x7d)\ndefault:\nreturn (y)\n\x7d"
    n.Fits source ∧ n.kind = "ternary_expression" ∧ n.tree.HasPart e [n.tree] ∧ e.Leads inside b ∧
      b.IsSuspension ∧
      Frame.suspended (.source b) ((inside ++ [n.tree]).map .source ++ outer) =
        some (.source Sample.waitingFunction) ∧
      ternaryToSwitch.run source n = .ok (some (.text (ChainForm.expression.embed text))) ∧
      ∃ chain last, ChainForm.expression.Flattens n.tree chain ∧ chain.otherwise = some last ∧
        Switch.print source "true" (chain.arms.map ChainForm.expression.clause) = .ok text ∧
        ∃ arm ∈ chain.arms, ∃ frames, (ChainForm.expression.clause arm).Holds e frames ∧
          Frame.suspended (.source b)
            (inside.map .source ++ (frames ++ Frame.calledOnSpot ++ outer)) =
            some (.written "arrow_function") := by
  intro source n e inside b outer text
  -- the function fits, and so does what is in it
  have hn : n.Fits source := by
    have hfunction : (Node.root Sample.waitingFunction).Fits source :=
      .root (.of_fitsPlainly (by with_unfolding_all decide))
    have hblock : ((Node.root Sample.waitingFunction).child 4 Sample.returningBlock).Fits source :=
      hfunction.child (.tail _ (.tail _ (.tail _ (.tail _ (.head _)))))
    exact (hblock.child (.tail _ (.head _))).child (.tail _ (.head _))
  have hself : e.unwrapParens = e := Tree.unwrapParens_of_kind_ne (by decide)
  have hpart : n.tree.HasPart e [n.tree] := by
    have hparens : e.parens = [] := by with_unfolding_all rfl
    have hvalue : n.tree.HasPart e.unwrapParens (e.parens ++ [n.tree]) := .value rfl rfl
    rwa [hself, hparens] at hvalue
  have hleads : e.Leads inside b :=
    .inside (.head _) (.inside (.head _) (.inside (.head _) (.here b)))
  have hrun : ternaryToSwitch.run source n =
      .ok (some (.text (ChainForm.expression.embed text))) := by
    with_unfolding_all decide
  have hchain : ChainForm.expression.Flattens n.tree _ :=
    .last rfl rfl (by with_unfolding_all decide)
  -- the object is returned by the clause of its arm
  have hholds (condition : Option Tree) : (ChainForm.expression.clause ⟨condition, e⟩).Holds e _ :=
    .result (List.mem_singleton.mpr (congrArg _ hself.symm))
  exact ⟨hn, rfl, hpart, hleads, .inl rfl, by with_unfolding_all rfl, hrun, _, _, hchain, rfl,
    by with_unfolding_all decide, _, .head _, _, hholds _, by with_unfolding_all rfl⟩

end CodeActions
