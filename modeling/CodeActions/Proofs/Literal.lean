import Mathlib.Data.List.TakeDrop
import CodeActions.Literal.Concatenation
import CodeActions.Literal.Template
import CodeActions.Proofs.Tree.Fits

/-!
# Literals of fitting trees

A template is cut between its delimiters and around its holes. Its delimiters are one byte each, so
all these cuts lie between characters, whatever stands in the template and wherever its holes are. A
sum is taken apart into its operands and the parts of the chain that end with them; the two lists
run in parallel, so the position of the first string in the one is good for the other.

Main statements: `Transform.answers_templateToConcat`, `Transform.answers_concatToTemplate`,
`ConcatPiece.found_by_position`.
-/

namespace CodeActions

/-! ## §1 Templates -/

/-- Behind the opening delimiter of a template and before the closing one its text can be cut. -/
theorem Tree.Lies.inside {source : String} {t : Tree} (h : t.Lies source)
    (hkind : t.kind = "template_string") (herror : t.hasError = false) :
    Text.isBoundary source.toList (t.span.start + 1) = true ∧
      Text.isBoundary source.toList (t.span.stop - 1) = true := by
  obtain ⟨inside, htext⟩ := h.delimited hkind herror
  obtain ⟨front, back, hsource, hstart, hstop⟩ := Text.slice_eq_ok_iff.mp htext
  have htick : Text.byteSize "\x60" = 1 := by decide
  -- one byte behind the start the opening delimiter ends, one before the end the closing one begins
  constructor
  · refine Text.isBoundary_iff.mpr ⟨front ++ "\x60", inside ++ "\x60" ++ back, ?_, ?_⟩
    · simp only [hsource, String.append_assoc]
    · rw [Text.byteSize_append, htick, hstart]
  · refine Text.isBoundary_iff.mpr ⟨front ++ "\x60" ++ inside, "\x60" ++ back, ?_, ?_⟩
    · simp only [hsource, String.append_assoc]
    · simp only [Text.byteSize_append, htick] at hstop ⊢
      omega

namespace TemplatePart

variable {source : String}

/-- The expression of a hole fits. -/
def Fits (source : String) : TemplatePart → Prop
  | .chunk _ => True
  | .hole expression => expression.Fits source

/-- Between two boundaries a chunk can be cut out, and there is none if they are in the wrong order.
-/
theorem succeeds_chunkBetween {start stop : Nat}
    (hstart : Text.isBoundary source.toList start = true)
    (hstop : Text.isBoundary source.toList stop = true) :
    Succeeds (chunkBetween source start stop) := by
  unfold chunkBetween
  split
  case isTrue hlt =>
    have hslice : Succeeds (Text.slice source start stop) :=
      Text.succeeds_slice_iff.mpr ⟨Nat.le_of_lt hlt, hstart, hstop⟩
    exact hslice.bind fun _ _ => .pure _
  case isFalse => exact .pure []

theorem fits_chunkBetween {start stop : Nat} {parts : List TemplatePart}
    (h : chunkBetween source start stop = .ok parts) : ∀ part ∈ parts, part.Fits source := by
  unfold chunkBetween at h
  split at h
  · obtain ⟨raw, _, h⟩ := bind_eq_ok_iff.mp h
    cases h
    simp [Fits]
  · cases h
    simp

/-- However the holes lie, the text between them can be cut out. -/
theorem succeeds_between {stop : Nat} (hstop : Text.isBoundary source.toList stop = true)
    {slots : List Tree} (hslots : ∀ slot ∈ slots, slot.Fits source) {start : Nat}
    (hstart : Text.isBoundary source.toList start = true) :
    Succeeds (between source stop start slots) := by
  -- the start moves to the end of each hole in turn
  induction slots generalizing start with
  | nil => exact (succeeds_chunkBetween hstart hstop).bind fun _ _ => .pure _
  | cons slot slots ih =>
    obtain ⟨hslot, hrest⟩ := List.forall_mem_cons.mp hslots
    refine (succeeds_chunkBetween hstart hslot.lies.start).bind fun chunk _ => ?_
    split
    · exact .pure none
    · exact (ih hrest hslot.lies.stop).bind fun _ _ => .pure _

theorem fits_between {stop : Nat} {slots : List Tree} (hslots : ∀ slot ∈ slots, slot.Fits source)
    {start : Nat} {parts : List TemplatePart}
    (h : between source stop start slots = .ok (some parts)) :
    ∀ part ∈ parts, part.Fits source := by
  induction slots generalizing start parts with
  -- behind the last hole only a chunk is left
  | nil =>
    obtain ⟨chunk, hchunk, h⟩ := bind_eq_ok_iff.mp h
    cases h
    exact fits_chunkBetween hchunk
  | cons slot slots ih =>
    obtain ⟨hslot, hrest⟩ := List.forall_mem_cons.mp hslots
    obtain ⟨chunk, hchunk, h⟩ := bind_eq_ok_iff.mp h
    split at h
    -- a hole without an expression ends the search without parts
    case h_1 => cases h
    case h_2 expression hexpression =>
      obtain ⟨rest?, hbetween, h⟩ := bind_eq_ok_iff.mp h
      obtain ⟨rest, rfl, rfl⟩ := Option.map_eq_some_iff.mp (Except.ok.inj h)
      refine List.forall_mem_append.mpr ⟨fits_chunkBetween hchunk, ?_⟩
      exact List.forall_mem_cons.mpr ⟨hslot.firstCode hexpression, ih hrest hbetween⟩

/-- An empty string in front fits as any chunk does. -/
theorem fits_operands {parts : List TemplatePart} (h : ∀ part ∈ parts, part.Fits source) :
    ∀ part ∈ operands parts, part.Fits source := by
  unfold operands
  split
  · exact List.forall_mem_cons.mpr ⟨trivial, h⟩
  · exact h

theorem succeeds_concatenation {parts : List TemplatePart} (h : ∀ part ∈ parts, part.Fits source) :
    Succeeds (concatenation source parts) := by
  have hparts : Succeeds ((operands parts).mapM (render source)) := by
    refine .mapM fun part hpart => ?_
    have hfits := fits_operands h part hpart
    cases part with
    | chunk raw => exact .pure _
    | hole expression => exact hfits.textIn true
  exact hparts.bind fun _ _ => .pure _

end TemplatePart

/-- A template without errors is always answered for. -/
theorem Transform.answers_templateToConcat : templateToConcat.Answers := by
  intro source n hn herror
  have hslots : ∀ slot ∈ n.tree.namedChildren.filter fun t => t.kind == "template_substitution",
      slot.Fits source := fun slot hslot => hn.tree.namedChild (List.mem_filter.mp hslot).1
  -- the template is cut between its delimiters, which an error could have moved
  have hparts : Succeeds (TemplatePart.ofNode? source n) := by
    unfold TemplatePart.ofNode?
    split
    case isFalse => exact .pure none
    case isTrue htemplate =>
      obtain ⟨hstart, hstop⟩ := hn.tree.lies.inside htemplate.1 herror
      exact TemplatePart.succeeds_between hstop hslots hstart
  refine hparts.bind fun parts? hparts? => Reshaping.succeeds_ofShape fun parts hsome => ?_
  subst hsome
  unfold TemplatePart.ofNode? at hparts?
  split at hparts?
  · exact TemplatePart.succeeds_concatenation (TemplatePart.fits_between hslots hparts?)
  · cases hparts?

/-! ## §2 Sums -/

/-- The operands of a fitting chain fit, and so do the parts that end with them. -/
theorem Tree.Fits.plusOperands {source : String} {t : Tree} (h : t.Fits source)
    {operands : List PlusOperand} (hoperands : t.plusOperands? = some operands) :
    ∀ operand ∈ operands, operand.leaf.Fits source ∧ operand.upTo.Fits source := by
  fun_induction Tree.plusOperands? t generalizing operands with
  -- the chain leans to the left: the right side is one operand, and the whole tree ends with it
  | case1 t _ left right hleft hright ih =>
    obtain ⟨rest, hrest, rfl⟩ := Option.map_eq_some_iff.mp hoperands
    refine List.forall_mem_append.mpr ⟨ih (h.field hleft).unwrapParens hrest, ?_⟩
    simpa using ⟨h.field hright, h⟩
  | case2 => cases hoperands
  | case3 t _ =>
    cases hoperands
    simpa using h

namespace ConcatPiece

variable {source : String}

/-- The tree that the piece is made of. -/
def tree : ConcatPiece → Tree
  | .quoted literal => literal
  | .template literal => literal
  | .hole expression => expression

@[simp] theorem tree_ofLeaf (t : Tree) : (ofLeaf t).tree = t := by
  unfold ofLeaf
  repeat' split
  all_goals rfl

/-- The operand is a string behind its parentheses. -/
def startsText (leaf : Tree) : Bool := isStringLike leaf.unwrapParens

/-- The pieces of a list of operands, by the position of the first string. -/
theorem of_ofOperands {operands : List PlusOperand} {pieces : List ConcatPiece}
    (h : ofOperands? operands = some pieces) :
    ∃ i, operands.findIdx? (fun operand => startsText operand.leaf) = some i ∧
      pieces =
        (operands.take i).getLast?.toList.map (fun operand => .hole operand.upTo.unwrapParens) ++
          (operands.drop i).map fun operand => ofLeaf operand.leaf.unwrapParens := by
  unfold ofOperands? at h
  -- what is split off is everything before the first string, which is a position
  rw [List.span_eq_takeWhile_dropWhile, List.takeWhile_eq_take_findIdx_not,
    List.dropWhile_eq_drop_findIdx_not] at h
  simp only [Bool.not_not] at h
  split at h
  case h_1 => cases h
  case h_2 before after hafter hspan =>
    obtain ⟨rfl, rfl⟩ := Prod.mk.inj hspan
    cases h
    refine ⟨_, List.findIdx?_eq_some_iff_findIdx_eq.mpr ⟨?_, rfl⟩, rfl⟩
    -- something is left behind the position
    by_contra hlength
    exact hafter (List.drop_eq_nil_of_le (Nat.le_of_not_lt hlength))

theorem fits_ofOperands {operands : List PlusOperand}
    (h : ∀ operand ∈ operands, operand.leaf.Fits source ∧ operand.upTo.Fits source)
    {pieces : List ConcatPiece} (hpieces : ofOperands? operands = some pieces) :
    ∀ piece ∈ pieces, piece.tree.Fits source := by
  obtain ⟨i, _, rfl⟩ := of_ofOperands hpieces
  refine List.forall_mem_append.mpr ⟨?_, ?_⟩
  · -- what stands before the first string is one part of the chain
    rw [List.forall_mem_map]
    intro operand hoperand
    have hmem := List.mem_of_mem_take (List.mem_of_mem_getLast? (Option.mem_toList.mp hoperand))
    exact (h operand hmem).2.unwrapParens
  · -- from there on each operand is a piece
    rw [List.forall_mem_map]
    intro operand hoperand
    rw [tree_ofLeaf]
    exact (h operand (List.mem_of_mem_drop hoperand)).1.unwrapParens

theorem succeeds_templateLiteral {pieces : List ConcatPiece}
    (h : ∀ piece ∈ pieces, piece.tree.Fits source) : Succeeds (templateLiteral source pieces) := by
  have hpieces : Succeeds (pieces.mapM (render source)) := by
    refine .mapM fun piece hpiece => ?_
    have htext : Succeeds (piece.tree.text source) := (h piece hpiece).text
    cases piece <;> exact htext.bind fun _ _ => .pure _
  exact hpieces.bind fun _ _ => .pure _

end ConcatPiece

/-! ## §3 Positions in a sum -/

/-- The operands of a chain of `+`, and the parts of the chain that end with them, put behind two
lists that are already there. -/
def Tree.collectPlus? (t : Tree) (leaves parts : List Tree) : Option (List Tree × List Tree) :=
  if t.isPlus then
    match _h : t.field? "left", t.field? "right" with
    | some left, some right =>
      (left.unwrapParens.collectPlus? leaves parts).map fun lists =>
        (lists.1 ++ [right], lists.2 ++ [t])
    | _, _ => none
  else
    some (leaves ++ [t], parts ++ [t])
termination_by t.size
decreasing_by exact Nat.lt_of_le_of_lt (Tree.size_unwrapParens_le left) (Tree.size_lt_of_field? _h)

/-- The two lists are the two sides of the list of operands. -/
theorem Tree.collectPlus?_eq (t : Tree) (leaves parts : List Tree) :
    t.collectPlus? leaves parts = t.plusOperands?.map fun operands =>
      (leaves ++ operands.map PlusOperand.leaf, parts ++ operands.map PlusOperand.upTo) := by
  -- `plusOperands?` is the one without accumulators, so the induction is on its recursion
  fun_induction Tree.plusOperands? t with
  -- both lists grow by one at the end, so they stay in parallel
  | case1 t hplus left right hleft hright ih =>
    rw [Tree.collectPlus?, if_pos hplus]
    split
    case h_1 left' right' hleft' hright' =>
      obtain rfl : left' = left := Option.some.inj (hleft'.symm.trans hleft)
      obtain rfl : right' = right := Option.some.inj (hright'.symm.trans hright)
      simp [ih, Function.comp_def]
    case h_2 hmissing => exact absurd hright (hmissing left right hleft)
  -- a sum without one of its sides has no operands, in either form
  | case2 t hplus hmissing =>
    rw [Tree.collectPlus?, if_pos hplus]
    split
    case h_1 left right hleft hright => exact absurd hright (hmissing left right hleft)
    case h_2 => rfl
  | case3 t hplus =>
    rw [Tree.collectPlus?, if_neg hplus]
    rfl

namespace ConcatPiece

/-- The pieces of a sum are found by the position of its first string. The position is one of the
list of operands, and the one before it, if there is one, is one of the list of parts. -/
theorem found_by_position {t : Tree} {pieces : List ConcatPiece} (h : ofTree? t = some pieces) :
    ∃ leaves parts i, t.collectPlus? [] [] = some (leaves, parts) ∧
      leaves.findIdx? startsText = some i ∧ i < leaves.length ∧ (0 < i → i - 1 < parts.length) ∧
      pieces =
        (if i = 0 then [] else parts[i - 1]?.toList.map fun part => .hole part.unwrapParens) ++
          (leaves.drop i).map fun leaf => ofLeaf leaf.unwrapParens := by
  unfold ofTree? at h
  obtain ⟨_, h⟩ := Option.ite_none_right_eq_some.mp h
  obtain ⟨operands, hoperands, h⟩ := Option.bind_eq_some_iff.mp h
  obtain ⟨i, hi, rfl⟩ := of_ofOperands h
  have hlength : i < operands.length := (List.findIdx?_eq_some_iff_findIdx_eq.mp hi).1
  refine ⟨operands.map PlusOperand.leaf, operands.map PlusOperand.upTo, i, ?_, ?_, ?_, ?_, ?_⟩
  · rw [Tree.collectPlus?_eq, hoperands]
    rfl
  · rw [List.findIdx?_map]
    exact hi
  · simpa using hlength
  · -- the two lists are equally long
    rw [List.length_map]
    omega
  · rw [← List.map_drop, List.map_map]
    refine congrArg (· ++ _) ?_
    -- the last operand before the position stands one place before it
    by_cases hzero : i = 0
    · simp [hzero]
    · have hbefore : operands[i - 1]? = some operands[i - 1] := List.getElem?_eq_getElem (by omega)
      rw [if_neg hzero, List.getLast?_take, if_neg hzero, List.getElem?_map, hbefore]
      rfl

end ConcatPiece

theorem Transform.answers_concatToTemplate : concatToTemplate.Answers := by
  intro source n hn _
  refine Reshaping.succeeds_ofShape fun pieces hpieces => ?_
  unfold ConcatPiece.ofTree? at hpieces
  obtain ⟨_, hpieces⟩ := Option.ite_none_right_eq_some.mp hpieces
  obtain ⟨operands, hoperands, hpieces⟩ := Option.bind_eq_some_iff.mp hpieces
  have hfits := hn.tree.plusOperands hoperands
  exact ConcatPiece.succeeds_templateLiteral (ConcatPiece.fits_ofOperands hfits hpieces)

end CodeActions
