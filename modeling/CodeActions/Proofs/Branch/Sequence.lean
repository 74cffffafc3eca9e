import CodeActions.Proofs.Branch.Conditional
import CodeActions.Proofs.Tree.Search

/-!
# Comma sequences

A comma sequence evaluates its parts from left to right and has the value of the last one. A part
can be a sequence again, so what is evaluated in the end are the elements of all sequences, in the
order of the text. Parentheses are left where they are: a sequence in parentheses is an element.

The same expressions can also be the statements of a block, which evaluates them in the same order.

Main statements: `Tree.flattened_iff`, which elements the library finds, and
`Valuation.evalFrom_of_flattened`, their evaluation one after the other is the evaluation of the
sequence.
-/

namespace CodeActions

/-! ## §1 Elements -/

namespace Tree

/-- The elements of a list of expressions, where a comma sequence is replaced by its parts until
there is none. -/
inductive Flattened : List Tree → List Tree → Prop where
  | nil : Flattened [] []
  | element {t : Tree} {ts es : List Tree} (kind : t.kind ≠ "sequence_expression")
      (rest : Flattened ts es) : Flattened (t :: ts) (t :: es)
  | sequence {t : Tree} {ts es : List Tree} (kind : t.kind = "sequence_expression")
      (rest : Flattened (t.codeChildren ++ ts) es) : Flattened (t :: ts) es

/-- The elements of several trees are collected one after the other, comments left out. -/
theorem sequenceAll_eq (ts : List Tree) : sequenceAll ts = (ts.filter isCode).flatMap sequence := by
  induction ts with
  | nil => simp [sequenceAll]
  | cons t ts ih =>
    rw [sequenceAll, ih]
    cases hcode : t.isCode <;> simp [hcode]

theorem sequence_of_kind {t : Tree} (hkind : t.kind = "sequence_expression") :
    t.sequence = t.codeChildren.flatMap sequence := by
  cases t with
  | node label fields children =>
    have hlabel : label.kind = "sequence_expression" := hkind
    rw [sequence, if_pos hlabel, sequenceAll_eq]
    rfl

theorem sequence_of_kind_ne {t : Tree} (hkind : t.kind ≠ "sequence_expression") :
    t.sequence = [t] := by
  cases t with
  | node label fields children =>
    have hlabel : label.kind ≠ "sequence_expression" := hkind
    rw [sequence, if_neg hlabel]

/-- More expressions in front bring their elements in front. -/
theorem Flattened.append {us ts es : List Tree}
    (hus : ∀ u ∈ us, ∀ {ts es : List Tree}, Flattened ts es →
      Flattened (u :: ts) (u.sequence ++ es))
    (h : Flattened ts es) : Flattened (us ++ ts) (us.flatMap Tree.sequence ++ es) := by
  induction us with
  | nil => exact h
  | cons u us ih =>
    obtain ⟨hu, hus⟩ := List.forall_mem_cons.mp hus
    rw [List.flatMap_cons, List.append_assoc]
    exact hu (ih hus)

theorem Flattened.cons (t : Tree) {ts es : List Tree} (h : Flattened ts es) :
    Flattened (t :: ts) (t.sequence ++ es) := by
  -- by induction on the tree, since the parts of a sequence can be sequences
  induction t using Tree.induction_children generalizing ts es with
  | step t ih =>
    by_cases hkind : t.kind = "sequence_expression"
    · rw [sequence_of_kind hkind]
      apply Flattened.sequence hkind
      exact h.append fun u hu _ _ => ih u (List.mem_filter.mp hu).1
    · rw [sequence_of_kind_ne hkind]
      exact .element hkind h

/-- The elements that are found are those of the expressions, and no others. -/
theorem flattened_iff {ts es : List Tree} : Flattened ts es ↔ es = ts.flatMap sequence := by
  constructor
  · intro h
    induction h with
    | nil => rfl
    | element kind _ ih => simp [sequence_of_kind_ne kind, ih]
    | sequence kind _ ih => simp [sequence_of_kind kind, ih]
  · rintro rfl
    -- all expressions are put in front of nothing
    have h : Flattened (ts ++ []) (ts.flatMap sequence ++ []) :=
      Flattened.nil.append fun u _ _ _ h => h.cons u
    simpa using h

theorem flattened_sequence (t : Tree) : Flattened [t] t.sequence := flattened_iff.mpr (by simp)

/-- No comma sequence in the expression is without parts, neither the expression itself nor one that
it consists of. -/
def SequencesHaveParts (t : Tree) : Prop :=
  ¬ t.Has (fun u => u.kind != "sequence_expression") fun u =>
    u.kind = "sequence_expression" ∧ u.codeChildren = []

theorem SequencesHaveParts.codeChildren_ne_nil {t : Tree} (h : t.SequencesHaveParts)
    (hkind : t.kind = "sequence_expression") : t.codeChildren ≠ [] :=
  fun hnil => h (.here ⟨hkind, hnil⟩)

theorem SequencesHaveParts.part {t u : Tree} (h : t.SequencesHaveParts)
    (hkind : t.kind = "sequence_expression") (hu : u ∈ t.codeChildren) : u.SequencesHaveParts := by
  obtain ⟨hmem, hcode⟩ := List.mem_filter.mp hu
  have hnamed : u ∈ t.namedChildren := List.mem_filter.mpr ⟨hmem, (Bool.and_eq_true_iff.mp hcode).1⟩
  exact fun hempty => h (.inside (by simp [hkind]) hnamed hempty)

end Tree

/-! ## §2 Evaluation -/

namespace Valuation

variable {α σ : Type} (v : Valuation α σ)

/-- The expressions are evaluated one after the other. What is left is the value of the last one and
the state behind it; if there is none, it is what was there before. -/
def evalFrom (ts : List Tree) (before : Value α × σ) : Value α × σ :=
  ts.foldl (fun result t => v.eval t result.2) before

/-- A comma sequence evaluates its parts in order and has the value of the last one. -/
def Sequential : Prop :=
  ∀ ⦃t : Tree⦄, t.kind = "sequence_expression" → t.codeChildren ≠ [] →
    ∀ before, v.eval t before.2 = v.evalFrom t.codeChildren before

variable {v}

@[simp] theorem evalFrom_nil (before : Value α × σ) : v.evalFrom [] before = before := rfl

@[simp] theorem evalFrom_cons (t : Tree) (ts : List Tree) (before : Value α × σ) :
    v.evalFrom (t :: ts) before = v.evalFrom ts (v.eval t before.2) := rfl

theorem evalFrom_append (ts us : List Tree) (before : Value α × σ) :
    v.evalFrom (ts ++ us) before = v.evalFrom us (v.evalFrom ts before) := List.foldl_append

/-- To evaluate the elements of expressions is to evaluate the expressions. -/
theorem evalFrom_of_flattened (hv : v.Sequential) {ts es : List Tree} (h : Tree.Flattened ts es)
    (hts : ∀ t ∈ ts, t.SequencesHaveParts) (before : Value α × σ) :
    v.evalFrom es before = v.evalFrom ts before := by
  induction h generalizing before with
  | nil => rfl
  -- an element is evaluated as it is
  | @element t ts es kind rest ih =>
    rw [evalFrom_cons, evalFrom_cons]
    exact ih (fun u hu => hts u (List.mem_cons_of_mem t hu)) _
  | @sequence t ts es kind rest ih =>
    obtain ⟨ht, hts⟩ := List.forall_mem_cons.mp hts
    -- a part of a sequence has its parts, or it would be found in the sequence
    have hparts : ∀ u ∈ t.codeChildren ++ ts, u.SequencesHaveParts := by
      intro u hu
      rcases List.mem_append.mp hu with hu | hu
      · exact ht.part kind hu
      · exact hts u hu
    -- the sequence leaves what its parts leave, and the other expressions go on from there
    rw [ih hparts, evalFrom_append, evalFrom_cons, hv kind (ht.codeChildren_ne_nil kind)]

theorem snd_evalFrom (ts : List Tree) (before : Value α × σ) :
    (v.evalFrom ts before).2 = v.stateAfter ts before.2 := by
  induction ts generalizing before with
  | nil => rfl
  | cons t ts ih => exact ih _

/-- The value that is left is that of the last expression. -/
theorem evalFrom_concat (ts : List Tree) (t : Tree) (before : Value α × σ) :
    v.evalFrom (ts ++ [t]) before = v.eval t (v.stateAfter ts before.2) := by
  rw [evalFrom_append, evalFrom_cons, evalFrom_nil, snd_evalFrom]

end Valuation

/-! ## §3 Sequences and statements that are written -/

section

variable {α σ : Type} {v : Valuation α σ} (nothing : Value α)

/-- A comma sequence that is written anew evaluates its elements. -/
theorem Expression.run_sequence (first : Tree) (rest : List Tree) (s : σ) :
    (sequence (.tree first) (rest.map .tree)).run v nothing s =
      ⟨(v.evalFrom (first :: rest) (nothing, s)).1, first :: rest,
        v.stateAfter (first :: rest) s⟩ := by
  -- the second element is the first of the rest, from the state behind the first
  induction rest generalizing first s with
  | nil => rfl
  | cons next rest ih =>
    rw [List.map_cons, sequence, run, ih]
    rfl

/-- Statements that are written for expressions evaluate them, and then the other statements are
executed. -/
theorem Written.execute_append (es : List Tree) (rest : List Written) (s : σ) :
    execute v nothing (es.map ofTree ++ rest) s =
      (execute v nothing rest (v.stateAfter es s)).after es := by
  induction es generalizing s with
  | nil => rfl
  | cons e es ih =>
    rw [List.map_cons, List.cons_append, ofTree, execute, Expression.run_wrapped, ih]
    rfl

end

end CodeActions
