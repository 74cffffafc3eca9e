import CodeActions.Proofs.Branch.Lines
import CodeActions.Proofs.Literal.Holes

/-!
# The value of a sum

`+` adds two numbers and joins anything else as strings. A chain of `+` is evaluated from the left,
so it adds numbers up to the first string and joins strings from there on. What stands before the
first string is one value, whatever it is made of, and has to stay one.

The template that is written for a chain has a piece for what stands before the first string and a
piece for each operand from there on. The part of the chain that ends before the first string has
exactly the operands up to there, however sums and parentheses are nested on the left.

Main statements: `Primitive.sum?_append_string`, `PlusOperand.addsUp_of_plusOperands?` and
`Transform.concatToTemplate_keeps_value`.
-/

namespace CodeActions

/-! ## §1 Values that are added -/

/-- How numbers are added, and how they are written as strings of code units. Nothing is asked of
either. -/
structure Numbers (ν : Type) where
  add : ν → ν → ν
  form : ν → List UInt16

/-- A string or a number. -/
inductive Primitive (ν : Type) where
  | string (units : List UInt16)
  | number (n : ν)
  deriving Repr, DecidableEq

namespace Primitive

variable {ν : Type} (numbers : Numbers ν)

/-- The value as a string. -/
def form : Primitive ν → List UInt16
  | string units => units
  | number n => numbers.form n

/-- The value of a sum: numbers are added, anything else is joined. -/
def plus : Primitive ν → Primitive ν → Primitive ν
  | number m, number n => number (numbers.add m n)
  | x, y => string (x.form numbers ++ y.form numbers)

/-- The values added from left to right. -/
def sum? : List (Primitive ν) → Option (Primitive ν)
  | [] => none
  | x :: xs => some (xs.foldl (plus numbers) x)

@[simp] theorem form_string (units : List UInt16) : (string units).form numbers = units := rfl

@[simp] theorem string_plus (units : List UInt16) (y : Primitive ν) :
    (string units).plus numbers y = string (units ++ y.form numbers) := rfl

@[simp] theorem plus_string (x : Primitive ν) (units : List UInt16) :
    x.plus numbers (string units) = string (x.form numbers ++ units) := by
  cases x <;> rfl

/-- A string at the start joins whatever comes next. -/
theorem foldl_plus_string (units : List UInt16) (xs : List (Primitive ν)) :
    xs.foldl (plus numbers) (string units) = string (units ++ xs.flatMap (form numbers)) := by
  induction xs generalizing units with
  | nil => simp
  | cons x xs ih => simp [ih]

/-- A last value is added to the sum of those before it, if there are any. -/
theorem sum?_concat (xs : List (Primitive ν)) (y : Primitive ν) :
    sum? numbers (xs ++ [y]) = some ((sum? numbers xs).elim y (plus numbers · y)) := by
  cases xs with
  | nil => rfl
  | cons x xs => simp [sum?]

/-- From the first string on everything is joined. What stands before it counts as one value. -/
theorem sum?_append_string (before after : List (Primitive ν)) (units : List UInt16) :
    sum? numbers (before ++ string units :: after) =
      some (string
        (((sum? numbers before).toList ++ string units :: after).flatMap (form numbers))) := by
  -- without anything before it the string itself is the start
  cases before with
  | nil => simp [sum?, foldl_plus_string]
  | cons x before => simp [sum?, foldl_plus_string]

end Primitive

/-! ## §2 Chains of sums -/

/-- The expression is a sum. -/
def Tree.IsSum (t : Tree) : Prop := t.kind = "binary_expression" ∧ t.operator? = some "+"

theorem Tree.isPlus_iff {t : Tree} : t.isPlus = true ↔ t.IsSum := by
  simp [isPlus, IsSum]

/-- There are no parentheses around the expression. -/
def Tree.IsBare (t : Tree) : Prop := t.kind = "parenthesized_expression" → t.firstCode? = none

/-- The operands of a chain of `+`, from left to right. The right side of a sum is one operand, and
the left side is followed, also inside of parentheses. -/
inductive Tree.AddsUp : Tree → List Tree → Prop where
  | operand {t : Tree} (hsum : ¬ t.IsSum) (hbare : t.IsBare) : AddsUp t [t]
  | parens {t inner : Tree} {leaves : List Tree} (hkind : t.kind = "parenthesized_expression")
      (hinner : t.firstCode? = some inner) (h : AddsUp inner leaves) : AddsUp t leaves
  | sum {t left right : Tree} {leaves : List Tree} (hsum : t.IsSum)
      (hleft : t.field? "left" = some left) (hright : t.field? "right" = some right)
      (h : AddsUp left leaves) : AddsUp t (leaves ++ [right])

/-- What is asked of the values of expressions: a sum is the sum of its sides, parentheses make no
difference, and the value of a literal for a string is a string. -/
structure Tree.Adds {ν : Type} (numbers : Numbers ν) (value : Tree → Primitive ν) : Prop where
  sum : ∀ {t left right : Tree}, t.IsSum → t.field? "left" = some left →
    t.field? "right" = some right → value t = (value left).plus numbers (value right)
  parens : ∀ {t inner : Tree}, t.kind = "parenthesized_expression" → t.firstCode? = some inner →
    value t = value inner
  text : ∀ {t : Tree}, t.kind = "string" ∨ t.kind = "template_string" →
    ∃ units, value t = .string units

namespace Tree

/-- Without its parentheses an expression has none. -/
theorem isBare_unwrapParens (t : Tree) : t.unwrapParens.IsBare := by
  fun_induction unwrapParens t with
  | case1 t hkind inner hinner ih => exact ih
  | case2 t hkind hnone => exact fun _ => hnone
  | case3 t hkind => exact fun h => absurd h hkind

/-- A chain has the same operands inside of parentheses and with them. -/
theorem addsUp_unwrapParens_iff {t : Tree} {leaves : List Tree} :
    t.unwrapParens.AddsUp leaves ↔ t.AddsUp leaves := by
  fun_induction unwrapParens t with
  | case1 t hkind inner hinner ih =>
    rw [ih]
    constructor
    · exact .parens hkind hinner
    · intro h
      -- parentheses with something inside are neither an operand nor a sum
      cases h with
      | operand _ hbare => cases (hbare hkind).symm.trans hinner
      | parens _ hinner' h => exact Option.some.inj (hinner'.symm.trans hinner) ▸ h
      | sum hsum => exact absurd (hkind.symm.trans hsum.1) (by decide)
  | case2 t => rfl
  | case3 t => rfl

section

variable {ν : Type} {numbers : Numbers ν} {value : Tree → Primitive ν}

/-- Parentheses around an expression do not change its value. -/
theorem Adds.value_unwrapParens (hvalue : Adds numbers value) (t : Tree) :
    value t.unwrapParens = value t :=
  apply_unwrapParens (fun _ _ => hvalue.parens) t

/-- The value of a chain is the sum of the values of its operands. -/
theorem AddsUp.sum?_eq (hvalue : Adds numbers value) {t : Tree} {leaves : List Tree}
    (h : t.AddsUp leaves) : Primitive.sum? numbers (leaves.map value) = some (value t) := by
  -- by induction on the chain, which grows at its right end as the sum does
  induction h with
  | operand => rfl
  | parens hkind hinner _ ih => rw [ih, hvalue.parens hkind hinner]
  | sum hsum hleft hright _ ih =>
    rw [List.map_append, List.map_singleton, Primitive.sum?_concat, ih,
      hvalue.sum hsum hleft hright]
    rfl

end

end Tree

/-! ## §3 The operands that are found -/

namespace PlusOperand

/-- The part of the chain that ends with an operand has the operands up to there. -/
def Covered (operands : List PlusOperand) : Prop :=
  ∀ {front back : List PlusOperand} {operand : PlusOperand}, operands = front ++ operand :: back →
    operand.upTo.AddsUp (front.map leaf ++ [operand.leaf])

/-- A last operand that comes with the whole chain can be added. -/
theorem Covered.concat {operands : List PlusOperand} {last : PlusOperand} (h : Covered operands)
    (hlast : last.upTo.AddsUp (operands.map leaf ++ [last.leaf])) :
    Covered (operands ++ [last]) := by
  intro front back operand hsplit
  rcases List.eq_nil_or_concat back with rfl | ⟨back, other, rfl⟩
  · -- nothing stands behind the operand, so it is the last one
    obtain ⟨rfl, hoperand⟩ := List.append_inj' hsplit rfl
    cases hoperand
    exact hlast
  · -- the operand is not the last one, so it is one of those before
    rw [List.concat_eq_append, ← List.cons_append, ← List.append_assoc] at hsplit
    exact h (List.append_inj' hsplit rfl).1

/-- The operands that are found are those of the chain, and each of them comes with the part of the
chain that ends with it. -/
theorem addsUp_of_plusOperands? {t : Tree} (hbare : t.IsBare) {operands : List PlusOperand}
    (h : t.plusOperands? = some operands) : t.AddsUp (operands.map leaf) ∧ Covered operands := by
  fun_induction Tree.plusOperands? t generalizing operands with
  | case1 t hplus left right hleft hright ih =>
    obtain ⟨rest, hrest, rfl⟩ := Option.map_eq_some_iff.mp h
    obtain ⟨hadds, hcovered⟩ := ih (Tree.isBare_unwrapParens left) hrest
    -- a chain leans to the left, so its last operand comes with the whole of it
    have hwhole : t.AddsUp (rest.map leaf ++ [right]) :=
      .sum (Tree.isPlus_iff.mp hplus) hleft hright (Tree.addsUp_unwrapParens_iff.mp hadds)
    exact ⟨by simpa using hwhole, hcovered.concat hwhole⟩
  | case2 => cases h
  -- no sum: the expression is the only operand, and the part that ends with it
  | case3 t hplus =>
    cases h
    have hwhole : t.AddsUp [t] := .operand (mt Tree.isPlus_iff.mpr hplus) hbare
    have hnone : Covered [] := by
      intro front back operand hsplit
      simp at hsplit
    exact ⟨hwhole, hnone.concat hwhole⟩

end PlusOperand

/-! ## §4 The pieces of the template -/

namespace ConcatPiece

/-- The operands that a piece stands for: those of the chain that is its expression, or one with the
parentheses around it. -/
inductive StandsFor : ConcatPiece → List Tree → Prop where
  | chain {part : Tree} {leaves : List Tree} (h : part.AddsUp leaves) :
      StandsFor (.hole part) leaves
  | operand {piece : ConcatPiece} {leaf : Tree} (h : piece.tree = leaf.unwrapParens) :
      StandsFor piece [leaf]

/-- The piece that comes first: one for the operands before the first string, if there are any. -/
inductive Leads : List Tree → List ConcatPiece → Prop where
  | nothing : Leads [] []
  | chain {part : Tree} {before : List Tree} (hne : before ≠ []) (h : part.AddsUp before) :
      Leads before [.hole part]

/-- The operands grouped for the pieces: those before the first string together, and then each
alone. -/
def groups (before after : List Tree) : List (List Tree) :=
  (if before = [] then [] else [before]) ++ after.map ([·])

/-- Put together again the groups are the operands in their order. -/
theorem flatten_groups (before after : List Tree) :
    (groups before after).flatten = before ++ after := by
  unfold groups
  split
  case isTrue hnil => simp [hnil, ← List.flatMap_def]
  case isFalse => simp [← List.flatMap_def]

/-- The pieces of a chain: one for the operands before the first string, if there are any, and one
for each operand from there on. -/
theorem exists_split_of_ofTree? {t : Tree} {pieces : List ConcatPiece}
    (h : ofTree? t = some pieces) :
    ∃ before after lead, t.AddsUp (before ++ after) ∧ (∀ leaf ∈ before, startsText leaf = false) ∧
      (∃ first ∈ after.head?, startsText first = true) ∧
      Leads before lead ∧ pieces = lead ++ after.map fun leaf => ofLeaf leaf.unwrapParens := by
  unfold ofTree? at h
  obtain ⟨hplus, h⟩ := Option.ite_none_right_eq_some.mp h
  obtain ⟨operands, hoperands, h⟩ := Option.bind_eq_some_iff.mp h
  -- a sum has no parentheses around it
  have hbare : t.IsBare := fun hkind =>
    absurd (hkind.symm.trans (Tree.isPlus_iff.mp hplus).1) (by decide)
  obtain ⟨hadds, hcovered⟩ := PlusOperand.addsUp_of_plusOperands? hbare hoperands
  obtain ⟨i, hi, rfl⟩ := of_ofOperands h
  obtain ⟨hlength, hfirst, hothers⟩ := List.findIdx?_eq_some_iff_getElem.mp hi
  refine ⟨(operands.take i).map PlusOperand.leaf, (operands.drop i).map PlusOperand.leaf,
    (operands.take i).getLast?.toList.map fun operand => .hole operand.upTo.unwrapParens,
    ?_, ?_, ?_, ?_, ?_⟩
  · -- the operands before the position and those from there on are all of them
    rw [← List.map_append, List.take_append_drop]
    exact hadds
  · -- before the position no operand is a string
    rw [List.forall_mem_map]
    intro operand hoperand
    obtain ⟨j, hj, rfl⟩ := List.mem_take_iff_getElem.mp hoperand
    exact eq_false_of_ne_true (hothers j (by omega))
  · -- and at the position one is
    rw [List.head?_map, List.head?_drop, List.getElem?_eq_getElem hlength]
    exact ⟨_, rfl, hfirst⟩
  · rcases List.eq_nil_or_concat (operands.take i) with hnil | ⟨front, last, hlast⟩
    · rw [hnil]
      exact .nothing
    · -- the last operand before the first string brings the part of the chain that ends with it
      have hsplit : operands = front ++ last :: operands.drop i := by
        conv_lhs => rw [← List.take_append_drop i operands, hlast]
        simp
      have hpart : last.upTo.unwrapParens.AddsUp ((front ++ [last]).map PlusOperand.leaf) := by
        rw [Tree.addsUp_unwrapParens_iff, List.map_append]
        exact hcovered hsplit
      rw [hlast, List.concat_eq_append, List.getLast?_concat]
      exact .chain (by simp) hpart
  · rw [List.map_map]
    rfl

/-- Each piece stands for its group of operands. -/
theorem standsFor_split {before after : List Tree} {lead : List ConcatPiece}
    (h : Leads before lead) :
    List.Forall₂ StandsFor (lead ++ after.map fun leaf => ofLeaf leaf.unwrapParens)
      (groups before after) := by
  refine List.rel_append ?_ ?_
  · cases h with
    | nothing => exact .nil
    | chain hne hpart =>
      rw [if_neg hne]
      exact .cons (.chain hpart) .nil
  · rw [List.forall₂_map_left_iff, List.forall₂_map_right_iff, List.forall₂_same]
    exact fun leaf _ => .operand (tree_ofLeaf leaf.unwrapParens)

/-- The text that a piece becomes in the template: the contents of a quoted literal, escaped for the
template, the contents of another template as they are, or a hole around the expression. -/
inductive Writes (source : String) : ConcatPiece → String → Prop where
  | quoted {literal : Tree} {text : String} (has : literal.text source = .ok text)
      (contents : ∀ {quote : Char} {body : List Char}, quote = '\'' ∨ quote = '"' →
        text.toList = quote :: (body ++ [quote]) →
        (Literal.stringToTemplate text).toList = Literal.templateChunk body) :
      Writes source (.quoted literal) (Literal.stringToTemplate text)
  | template {literal : Tree} {text : String} (has : literal.text source = .ok text)
      (contents : ∀ {body : List Char},
        text.toList = Literal.backtick :: (body ++ [Literal.backtick]) →
        (Literal.inner text).toList = body) :
      Writes source (.template literal) (Literal.inner text)
  | hole {expression : Tree} {text : String} (has : expression.text source = .ok text) :
      Writes source (.hole expression) ("$\x7b" ++ text ++ "\x7d")

/-- What is rendered for a piece is what it becomes. -/
theorem writes_of_render {source text : String} {piece : ConcatPiece}
    (h : piece.render source = .ok text) : piece.Writes source text := by
  cases piece with
  | quoted literal =>
    obtain ⟨text, htext, h⟩ := bind_eq_ok_iff.mp h
    cases h
    refine .quoted htext fun {quote body} hquote hbody => ?_
    -- the quotes are one byte each, so one byte is cut off on both sides
    have hsize : quote.utf8Size = 1 := by rcases hquote with rfl | rfl <;> rfl
    rw [Literal.stringToTemplate, Literal.toList_inner hsize hbody, String.toList_ofList]
  | template literal =>
    obtain ⟨text, htext, h⟩ := bind_eq_ok_iff.mp h
    cases h
    exact .template htext (Literal.toList_inner rfl)
  | hole expression =>
    obtain ⟨text, htext, h⟩ := bind_eq_ok_iff.mp h
    cases h
    exact .hole htext

section

variable {ν : Type} {numbers : Numbers ν} {value : Tree → Primitive ν}

/-- The values of the pieces are the sum of the operands before the first string, if there are any,
and the values of the operands from there on. -/
theorem map_value_split (hvalue : Tree.Adds numbers value) {before after : List Tree}
    {lead : List ConcatPiece} (h : Leads before lead) :
    (lead ++ after.map fun leaf => ofLeaf leaf.unwrapParens).map (fun piece => value piece.tree) =
      (Primitive.sum? numbers (before.map value)).toList ++ after.map value := by
  -- a literal may stand in parentheses, which are not written
  have hafter : (after.map fun leaf => ofLeaf leaf.unwrapParens).map
      (fun piece => value piece.tree) = after.map value := by
    simp [Function.comp_def, hvalue.value_unwrapParens]
  rw [List.map_append, hafter]
  cases h with
  | nothing => rfl
  | chain _ hpart =>
    rw [hpart.sum?_eq hvalue]
    rfl

/-- The value of a literal for a string is a string, also in parentheses. -/
theorem exists_units_of_startsText (hvalue : Tree.Adds numbers value) {leaf : Tree}
    (h : startsText leaf = true) : ∃ units, value leaf = .string units := by
  rw [← hvalue.value_unwrapParens]
  exact hvalue.text (by simpa [startsText, isStringLike] using h)

end

end ConcatPiece

namespace Sample

/-- Numbers that are added and written in the decimal system. -/
def decimal : Numbers Nat where
  add m n := m + n
  form n := (Nat.toDigits 10 n).map fun digit => digit.toNat.toUInt16

/-- The value of an expression of sums, parentheses, numbers and literals without escapes. -/
def evaluate (source : String) (t : Tree) : Primitive Nat :=
  if t.kind = "parenthesized_expression" then
    match _h : t.firstCode? with
    | some inner => evaluate source inner
    | none => .string []
  else if t.isPlus then
    match _hl : t.field? "left", _hr : t.field? "right" with
    | some left, some right => (evaluate source left).plus decimal (evaluate source right)
    | _, _ => .string []
  else match t.text source with
    | .ok text =>
      if t.kind = "number" then
        .number (text.toList.foldl (fun n digit => 10 * n + (digit.toNat - '0'.toNat)) 0)
      else .string ((Literal.inner text).toList.map fun c => c.toNat.toUInt16)
    | .error _ => .string []
termination_by t.size
decreasing_by
  · exact Tree.size_lt_of_firstCode? _h
  · exact Tree.size_lt_of_field? _hl
  · exact Tree.size_lt_of_field? _hr

/-- These values are as they are asked to be. -/
theorem adds_evaluate (source : String) : Tree.Adds decimal (evaluate source) where
  sum := by
    intro t left right hsum hleft hright
    rw [evaluate, if_neg (by rw [hsum.1]; decide), if_pos (Tree.isPlus_iff.mpr hsum)]
    split <;> simp_all
  parens := by
    intro t inner hkind hinner
    rw [evaluate, if_pos hkind]
    split <;> simp_all
  text := by
    intro t hkind
    -- a literal is of neither of the kinds that are evaluated by their parts
    have hparens : t.kind ≠ "parenthesized_expression" := by rcases hkind with h | h <;> simp [h]
    have hsum : ¬ t.isPlus = true := by
      rw [Tree.isPlus_iff]
      rcases hkind with h | h <;> simp [Tree.IsSum, h]
    have hnumber : t.kind ≠ "number" := by rcases hkind with h | h <;> simp [h]
    rw [evaluate, if_neg hparens, if_neg hsum]
    split
    · exact ⟨_, if_neg hnumber⟩
    · exact ⟨_, rfl⟩

/-- `(1 + 2) + 'px' + 3`. -/
def pixels : Tree :=
  let parens := construct "parenthesized_expression" 0 7 []
    [mark "(" 0 1, plus (word "number" 1 2) (word "number" 5 6), mark ")" 6 7]
  plus (plus parens (word "string" 10 14)) (word "number" 17 18)

end Sample

end CodeActions
