import CodeActions.Proofs.Branch.Lines
import Mathlib.Data.List.SplitBy

/-!
# Operands that are written alike

Two expressions are the same if they consist of the same tokens. The tests of a chain are merged by
another measure: their left sides have to agree in all characters that are not white space. Between
two tokens white space is mostly layout, but it is part of a string, and it keeps two words or two
signs apart. So of the tokens two things are not compared: where they begin and end, and the white
space inside of them.

Main statements: `Token.eq_iff`, tokens are the same if they agree in what is compared and in what
is not, and `Chain.merged_operands_agree_iff`, which tests are merged, and when the merged ones have
the same left side.
-/

namespace CodeActions

/-! ## §1 What is compared of tokens -/

/-- A token, or a comment. -/
@[ext] structure Token where
  text : List Char
  isComment : Bool
  deriving Repr, DecidableEq

namespace Token

/-- The characters of the tokens one after the other, white space left out. -/
def glue (tokens : List Token) : List Char := tokens.flatMap fun token => Text.squash token.text

/-- What the glue does not show of a text: its length, and the white space inside of it. -/
def mask (text : List Char) : List (Option Char) := text.map (Option.guard Text.isBlank)

/-- What the glue does not show of the tokens: the masks of their texts, and which of them are
comments. -/
def outline (tokens : List Token) : List (Bool × List (Option Char)) :=
  tokens.map fun token => (token.isComment, mask token.text)

/-- The texts of the tokens, comments left out. -/
def code (tokens : List Token) : List (List Char) :=
  (tokens.filter fun token => !token.isComment).map text

@[simp] theorem glue_append (tokens tokens' : List Token) :
    glue (tokens ++ tokens') = glue tokens ++ glue tokens' :=
  List.flatMap_append

theorem squash_cons (c : Char) (cs : List Char) :
    Text.squash (c :: cs) = if Text.isBlank c then Text.squash cs else c :: Text.squash cs := by
  cases hblank : Text.isBlank c <;> simp [Text.squash, hblank]

theorem mask_cons (c : Char) (cs : List Char) :
    mask (c :: cs) = (if Text.isBlank c then some c else none) :: mask cs := by
  cases hblank : Text.isBlank c <;> simp [mask, Option.guard, hblank]

/-- A character is left in the text exactly where the mask has nothing. -/
theorem length_squash (text : List Char) : (Text.squash text).length = (mask text).count none := by
  induction text with
  | nil => rfl
  | cons c cs ih => cases hblank : Text.isBlank c <;> simp [squash_cons, mask_cons, hblank, ih]

/-- A text is known by what is compared of it and by what is not. -/
theorem text_eq_of_mask {text text' : List Char} (hsquash : Text.squash text = Text.squash text')
    (hmask : mask text = mask text') : text = text' := by
  induction text generalizing text' with
  | nil => exact (List.map_eq_nil_iff.mp hmask.symm).symm
  | cons c cs ih =>
    cases text' with
    | nil => simp [mask] at hmask
    | cons d ds =>
      rw [mask_cons, mask_cons, List.cons.injEq] at hmask
      obtain ⟨hfirst, hrest⟩ := hmask
      rw [squash_cons, squash_cons] at hsquash
      -- the masks show the first characters if they are white space, else the texts show them
      cases hc : Text.isBlank c <;> cases hd : Text.isBlank d <;>
        simp only [hc, hd, Bool.false_eq_true, if_true, if_false, reduceCtorEq, Option.some.injEq,
          List.cons.injEq] at hfirst hsquash
      · rw [hsquash.1, ih hsquash.2 hrest]
      · rw [hfirst, ih hsquash hrest]

/-- The glue and the outline make up the tokens. -/
theorem eq_iff {tokens tokens' : List Token} :
    tokens = tokens' ↔ glue tokens = glue tokens' ∧ outline tokens = outline tokens' := by
  refine ⟨fun h => by simp [h], ?_⟩
  rintro ⟨hglue, houtline⟩
  induction tokens generalizing tokens' with
  | nil => exact (List.map_eq_nil_iff.mp houtline.symm).symm
  | cons token tokens ih =>
    cases tokens' with
    | nil => simp [outline] at houtline
    | cons token' tokens' =>
      simp only [outline, List.map_cons, List.cons.injEq, Prod.mk.injEq] at houtline
      obtain ⟨⟨hcomment, hmask⟩, hrest⟩ := houtline
      simp only [glue, List.flatMap_cons] at hglue
      -- the first tokens have the same length less their white space, so the glue falls apart at
      -- the same place
      have hlength : (Text.squash token.text).length = (Text.squash token'.text).length := by
        rw [length_squash, length_squash, hmask]
      obtain ⟨hfirst, hglue⟩ := List.append_inj hglue hlength
      rw [Token.ext (text_eq_of_mask hfirst hmask) hcomment, ih hglue hrest]

/-! ### Code without comments -/

theorem code_of_plain {tokens : List Token} (h : ∀ token ∈ tokens, token.isComment = false) :
    code tokens = tokens.map text := by
  rw [code, List.filter_eq_self.mpr (by simpa using h)]

theorem glue_of_plain {tokens : List Token} (h : ∀ token ∈ tokens, token.isComment = false) :
    glue tokens = (code tokens).flatMap Text.squash := by
  rw [glue, code_of_plain h, List.flatMap_map]

/-- Where there are no comments the code shows all tokens. -/
theorem map_code_of_plain {tokens : List Token} (h : ∀ token ∈ tokens, token.isComment = false) :
    (code tokens).map (⟨·, false⟩) = tokens := by
  rw [code_of_plain h, List.map_map]
  calc tokens.map ((⟨·, false⟩) ∘ text) = tokens.map id :=
        List.map_congr_left fun token htoken => Token.ext rfl (h token htoken).symm
    _ = tokens := List.map_id tokens

/-! ### Tokens that need no white space -/

/-- The tokens can be told apart without white space: there is none inside of them, and a relation
that holds between the neighbouring characters of a token does not hold where two tokens meet. -/
structure Separable (joins : Char → Char → Bool) (texts : List (List Char)) : Prop where
  nonempty : [] ∉ texts
  solid : ∀ text ∈ texts, ∀ c ∈ text, Text.isBlank c = false
  runs : ∀ text ∈ texts, text.IsChain fun c d => joins c d = true
  breaks : texts.IsChain fun text next => ∃ h h', joins (text.getLast h) (next.head h') = false

/-- Separable tokens are read back from their characters alone. -/
theorem Separable.splitBy_eq {joins : Char → Char → Bool} {texts : List (List Char)}
    (h : Separable joins texts) : (texts.flatMap Text.squash).splitBy joins = texts := by
  -- there is no white space to leave out
  have hsquash : ∀ text ∈ texts, Text.squash text = id text := by
    intro text htext
    apply List.filter_eq_self.mpr
    intro c hc
    simp [h.solid text htext c hc]
  rw [List.flatMap_congr hsquash, List.flatMap_id, List.splitBy_flatten h.nonempty h.runs h.breaks]

end Token

/-! ## §2 The tokens of a tree -/

namespace Tree

mutual

/-- The nodes without children, in the order of the text. -/
def leaves : Tree → List Tree
  | node label fields [] => [node label fields []]
  | node _ _ (t :: ts) => t.leaves ++ leavesOfAll ts

/-- The leaves of all the trees. -/
def leavesOfAll : List Tree → List Tree
  | [] => []
  | t :: ts => t.leaves ++ leavesOfAll ts

end

/-- The tree as a token. -/
def token (source : String) (t : Tree) : Cut Token :=
  (t.text source).map fun text => ⟨text.toList, t.kind == "comment"⟩

/-- The leaves of the tree as tokens. -/
def tokens (source : String) (t : Tree) : Cut (List Token) := t.leaves.mapM (token source)

/-- What is compared of the leaves. -/
def glue (source : String) (t : Tree) : Cut (List Char) := (t.tokens source).map Token.glue

/-- What is not compared of the leaves. -/
def outline (source : String) (t : Tree) : Cut (List (Bool × List (Option Char))) :=
  (t.tokens source).map Token.outline

/-- The texts of the leaves, comments left out. -/
def code (source : String) (t : Tree) : Cut (List (List Char)) := (t.tokens source).map Token.code

theorem leavesOfAll_eq (ts : List Tree) : leavesOfAll ts = ts.flatMap leaves := by
  induction ts with
  | nil => rfl
  | cons t ts ih => simp [leavesOfAll, ih]

theorem leaves_of_children {t : Tree} (h : t.children ≠ []) :
    t.leaves = t.children.flatMap leaves := by
  cases t with
  | node label fields children =>
    cases children with
    | nil => exact absurd rfl h
    | cons t ts => simp [leaves, leavesOfAll_eq]

theorem leaves_of_childless {t : Tree} (h : t.children = []) : t.leaves = [t] := by
  cases t with
  | node label fields children =>
    obtain rfl : children = [] := h
    rfl

/-- Each node of the tree has a text, which is that of its children but for white space around
them. -/
inductive Laid (source : String) : Tree → Prop where
  | intro {t : Tree} {text : String} {parts : List Token} (has : t.text source = .ok text)
      (consists : t.children.mapM (token source) = .ok parts)
      (covers : t.children ≠ [] → Text.squash text.toList = Token.glue parts)
      (children : ∀ u ∈ t.children, Laid source u) : Laid source t

namespace Laid

variable {source : String} {t u : Tree}

theorem child (h : t.Laid source) (hu : u ∈ t.children) : u.Laid source := by
  cases h with
  | intro _ _ _ children => exact children u hu

theorem succeeds_text (h : t.Laid source) : Succeeds (t.text source) := by
  cases h with
  | intro has => exact ⟨_, has⟩

theorem unwrapParens (h : t.Laid source) : t.unwrapParens.Laid source := by
  fun_induction Tree.unwrapParens t with
  | case1 t _ inner hinner ih => exact ih (h.child (mem_children_of_firstCode? hinner))
  | case2 t => exact h
  | case3 t => exact h

/-- The left side of a test for equality is laid out like the test. -/
theorem equality (h : t.Laid source) {sides : Tree × Tree} (hsides : t.equality? = some sides) :
    sides.1.Laid source := by
  obtain ⟨_, left, hleft, hvalue, _⟩ := sides_of_equality? hsides
  exact hvalue ▸ (h.child (mem_children_of_field? hleft)).unwrapParens

end Laid

/-- The leaves of the tree have texts, and its own text has the same characters but for white
space. -/
def Spells (source : String) (t : Tree) : Prop :=
  ∃ text tokens, t.text source = .ok text ∧ t.tokens source = .ok tokens ∧
    Text.squash text.toList = Token.glue tokens

/-- If each of the trees has the characters of its leaves, all of them together have. -/
theorem exists_tokens_of_spells {source : String} {ts : List Tree} (h : ∀ t ∈ ts, t.Spells source) :
    ∃ parts tokens, ts.mapM (token source) = .ok parts ∧
      (ts.flatMap leaves).mapM (token source) = .ok tokens ∧
      Token.glue parts = Token.glue tokens := by
  induction ts with
  | nil => exact ⟨[], [], rfl, rfl, rfl⟩
  | cons t ts ih =>
    obtain ⟨⟨text, tokens, htext, htokens, hglue⟩, hrest⟩ := List.forall_mem_cons.mp h
    obtain ⟨parts, tokens', hparts, htokens', hglue'⟩ := ih hrest
    -- a tree is a token as well, with the characters of its leaves
    have htoken : t.token source = .ok ⟨text.toList, t.kind == "comment"⟩ :=
      map_eq_ok_iff.mpr ⟨text, htext, rfl⟩
    refine ⟨⟨text.toList, t.kind == "comment"⟩ :: parts, tokens ++ tokens', ?_, ?_, ?_⟩
    · rw [List.mapM_cons]
      exact bind_eq_ok_iff.mpr ⟨_, htoken, bind_eq_ok_iff.mpr ⟨parts, hparts, rfl⟩⟩
    · rw [List.flatMap_cons, List.mapM_append]
      exact bind_eq_ok_iff.mpr ⟨tokens, htokens, bind_eq_ok_iff.mpr ⟨tokens', htokens', rfl⟩⟩
    · rw [Token.glue_append, ← hglue, ← hglue']
      rfl

/-- A tree that is laid out has the characters of its leaves. -/
theorem Laid.spells {source : String} {t : Tree} (h : t.Laid source) : t.Spells source := by
  induction h with
  | @intro t text parts has consists covers _ ih =>
    by_cases hchildren : t.children = []
    · -- a leaf is its own only token
      have htoken : t.token source = .ok ⟨text.toList, t.kind == "comment"⟩ :=
        map_eq_ok_iff.mpr ⟨text, has, rfl⟩
      refine ⟨text, [⟨text.toList, t.kind == "comment"⟩], has, ?_, by simp [Token.glue]⟩
      rw [tokens, leaves_of_childless hchildren, List.mapM_cons]
      exact bind_eq_ok_iff.mpr ⟨_, htoken, rfl⟩
    · -- the children cover the text, and each of them has the characters of its own leaves
      obtain ⟨parts', tokens, hparts', htokens, hglue⟩ := exists_tokens_of_spells ih
      cases consists.symm.trans hparts'
      refine ⟨text, tokens, has, ?_, ?_⟩
      · rw [Tree.tokens, leaves_of_children hchildren]
        exact htokens
      · rw [covers hchildren, hglue]

/-- What is compared of the leaves is the text less its white space. -/
theorem Laid.glue_eq {source text : String} {t : Tree} (h : t.Laid source)
    (htext : t.text source = .ok text) : t.glue source = .ok (Text.squash text.toList) := by
  obtain ⟨text', tokens, htext', htokens, hglue⟩ := h.spells
  cases htext.symm.trans htext'
  exact map_eq_ok_iff.mpr ⟨tokens, htokens, hglue.symm⟩

mutual

/-- Checks that the tree is laid out in the text. -/
def isLaid (source : String) : Tree → Bool
  | node label fields children =>
    (match (node label fields children).text source, children.mapM (token source) with
      | .ok text, .ok parts => children.isEmpty || Text.squash text.toList == Token.glue parts
      | _, _ => false) && areLaid source children

/-- Checks that all the trees are laid out in the text. -/
def areLaid (source : String) : List Tree → Bool
  | [] => true
  | t :: ts => t.isLaid source && areLaid source ts

end

theorem areLaid_eq_true_iff {source : String} {ts : List Tree} :
    areLaid source ts = true ↔ ∀ t ∈ ts, t.isLaid source = true := by
  induction ts with
  | nil => simp [areLaid]
  | cons t ts ih => simp [areLaid, ih]

theorem Laid.of_isLaid {source : String} {t : Tree} (h : t.isLaid source = true) :
    t.Laid source := by
  induction t using Tree.induction_children with
  | step t ih =>
    cases t with
    | node label fields children =>
      -- the check asks of a node and of its children what the predicate says
      simp only [isLaid, Bool.and_eq_true, areLaid_eq_true_iff] at h
      obtain ⟨hcovers, hchildren⟩ := h
      split at hcovers
      case h_1 text parts htext hparts =>
        refine .intro htext hparts (fun hne => ?_) fun u hu => ih u hu (hchildren u hu)
        replace hne : children ≠ [] := hne
        simpa [hne] using hcovers
      case h_2 => cases hcovers

/-- There is no comment in the tree. -/
def IsPlain (t : Tree) : Prop := ∀ leaf ∈ t.leaves, leaf.kind ≠ "comment"

instance (t : Tree) : Decidable t.IsPlain :=
  inferInstanceAs (Decidable (∀ leaf ∈ t.leaves, leaf.kind ≠ "comment"))

theorem IsPlain.isComment_eq {source : String} {t : Tree} {tokens : List Token} (h : t.IsPlain)
    (htokens : t.tokens source = .ok tokens) : ∀ token ∈ tokens, token.isComment = false := by
  unfold IsPlain at h
  replace htokens := mapM_eq_ok_iff.mp htokens
  -- the leaves and their tokens are gone through together
  generalize t.leaves = leaves at h htokens
  induction htokens with
  | nil => simp
  | cons hleaf _ ih =>
    obtain ⟨hfirst, hrest⟩ := List.forall_mem_cons.mp h
    obtain ⟨text, _, rfl⟩ := map_eq_ok_iff.mp hleaf
    exact List.forall_mem_cons.mpr ⟨by simpa using hfirst, ih hrest⟩

/-- The tokens of the tree can be told apart without white space. -/
def Separable (joins : Char → Char → Bool) (source : String) (t : Tree) : Prop :=
  ∃ texts, t.code source = .ok texts ∧ Token.Separable joins texts

section

variable {source : String} {t u : Tree}

/-- Trees have the same tokens if these agree in what is compared and in what is not. -/
theorem tokens_eq_iff (ht : t.Laid source) (hu : u.Laid source) :
    t.tokens source = u.tokens source ↔
      t.glue source = u.glue source ∧ t.outline source = u.outline source := by
  obtain ⟨_, tokens, _, htokens, _⟩ := ht.spells
  obtain ⟨_, tokens', _, htokens', _⟩ := hu.spells
  simp only [glue, outline, htokens, htokens', Except.map, Except.ok.injEq]
  exact Token.eq_iff

theorem code_eq_of_tokens (h : t.tokens source = u.tokens source) :
    t.code source = u.code source := by
  rw [code, code, h]

/-- Without comments the code is all there is. -/
theorem IsPlain.tokens_eq_of_code (hplain : t.IsPlain) (hplain' : u.IsPlain) (ht : t.Laid source)
    (hu : u.Laid source) (hcode : t.code source = u.code source) :
    t.tokens source = u.tokens source := by
  obtain ⟨_, tokens, _, htokens, _⟩ := ht.spells
  obtain ⟨_, tokens', _, htokens', _⟩ := hu.spells
  simp only [code, htokens, htokens', Except.map, Except.ok.injEq] at hcode
  rw [htokens, htokens', ← Token.map_code_of_plain (hplain.isComment_eq htokens), hcode,
    Token.map_code_of_plain (hplain'.isComment_eq htokens')]

/-- What is compared of the leaves determines them if they need no white space. -/
theorem IsPlain.code_eq_of_separable {joins : Char → Char → Bool} (hplain : t.IsPlain)
    (hplain' : u.IsPlain) (hglue : t.glue source = u.glue source) (ht : t.Separable joins source)
    (hu : u.Separable joins source) : t.code source = u.code source := by
  obtain ⟨texts, hcode, hseparable⟩ := ht
  obtain ⟨texts', hcode', hseparable'⟩ := hu
  obtain ⟨tokens, htokens, rfl⟩ := map_eq_ok_iff.mp hcode
  obtain ⟨tokens', htokens', rfl⟩ := map_eq_ok_iff.mp hcode'
  simp only [glue, htokens, htokens', Except.map, Except.ok.injEq] at hglue
  rw [Token.glue_of_plain (hplain.isComment_eq htokens),
    Token.glue_of_plain (hplain'.isComment_eq htokens')] at hglue
  -- both are read back from the same characters
  rw [hcode, hcode', ← hseparable.splitBy_eq, hglue, hseparable'.splitBy_eq]

end

end Tree

/-! ## §3 Merged tests -/

namespace Chain

variable {source : String} {chain : Chain} {operands : List Tree}

/-- All tests are for equality, with these left sides, parentheses left out. -/
def Compares (chain : Chain) (operands : List Tree) : Prop :=
  List.Forall₂ (fun branch operand => ∃ label, branch.condition.equality? = some (operand, label))
    chain.branches operands

theorem compares_iff : chain.Compares operands ↔
    ∃ sides, (chain.branches.mapM fun branch => branch.condition.equality?) = some sides ∧
      operands = sides.map Prod.fst := by
  -- the sides are those that the transform collects
  simp only [Compares, mapM_eq_some_iff]
  generalize chain.branches = branches
  constructor
  · intro h
    -- the right sides are collected test by test
    induction h with
    | nil => exact ⟨[], .nil, rfl⟩
    | cons hfirst _ ih =>
      obtain ⟨label, hlabel⟩ := hfirst
      obtain ⟨sides, hsides, rfl⟩ := ih
      exact ⟨(_, label) :: sides, .cons hlabel hsides, rfl⟩
  · rintro ⟨sides, hsides, rfl⟩
    exact List.forall₂_map_right_iff.mpr (hsides.imp fun branch side hside => ⟨side.2, hside⟩)

theorem Compares.unique {operands' : List Tree} (h : chain.Compares operands)
    (h' : chain.Compares operands') : operands = operands' := by
  obtain ⟨sides, hsides, rfl⟩ := compares_iff.mp h
  obtain ⟨sides', hsides', rfl⟩ := compares_iff.mp h'
  cases hsides.symm.trans hsides'
  rfl

theorem Compares.laid (h : chain.Compares operands)
    (hlaid : ∀ branch ∈ chain.branches, branch.condition.Laid source) :
    ∀ operand ∈ operands, operand.Laid source := by
  obtain ⟨sides, hsides, rfl⟩ := compares_iff.mp h
  rw [List.forall_mem_map]
  intro side hside
  obtain ⟨branch, hbranch, hequality⟩ := exists_of_mem_mapM hsides hside
  exact (hlaid branch hbranch).equality hequality

/-- Texts are taken for the same exactly if the trees agree in what is compared. -/
theorem sameTokens_iff {t u : Tree} {text text' : String} (ht : t.Laid source) (hu : u.Laid source)
    (htext : t.text source = .ok text) (htext' : u.text source = .ok text') :
    Text.sameTokens text text' = true ↔ t.glue source = u.glue source := by
  rw [ht.glue_eq htext, hu.glue_eq htext', Except.ok.injEq]
  exact beq_iff_eq

/-- The same for the first left side and all the others. -/
theorem all_sameTokens_iff {t : Tree} {us : List Tree} {text : String} {texts : List String}
    (ht : t.Laid source) (hus : ∀ u ∈ us, u.Laid source) (htext : t.text source = .ok text)
    (htexts : us.mapM (fun u => u.text source) = .ok texts) :
    (texts.all fun other => Text.sameTokens text other) = true ↔
      ∀ u ∈ us, t.glue source = u.glue source := by
  have hforall := mapM_eq_ok_iff.mp htexts
  -- the induction is on the pairs of trees and texts
  clear htexts
  induction hforall with
  | nil => simp
  | cons hother _ ih =>
    obtain ⟨hu, hus⟩ := List.forall_mem_cons.mp hus
    rw [List.all_cons, Bool.and_eq_true, List.forall_mem_cons]
    exact and_congr (sameTokens_iff ht hu htext hother) (ih hus)

/-- The tests are merged exactly if there are any, all of them are for equality and their left sides
agree in what is compared. -/
theorem equalityTests?_isSome_iff
    (hlaid : ∀ branch ∈ chain.branches, branch.condition.Laid source) :
    ∃ answer, chain.equalityTests? source = .ok answer ∧
      (answer.isSome = true ↔ ∃ operands, chain.Compares operands ∧ operands ≠ [] ∧
        ∀ operand ∈ operands, ∀ other ∈ operands, operand.glue source = other.glue source) := by
  simp only [compares_iff]
  unfold equalityTests?
  split
  -- some test is none for equality
  case h_1 hsides => exact ⟨none, rfl, by simp [hsides]⟩
  -- there is no test at all
  case h_2 hsides => exact ⟨none, rfl, by simp [hsides]⟩
  case h_3 value label rest hsides =>
    have hcompares : chain.Compares (value :: rest.map Prod.fst) :=
      compares_iff.mpr ⟨_, hsides, rfl⟩
    obtain ⟨hvalue, hothers⟩ := List.forall_mem_cons.mp (hcompares.laid hlaid)
    obtain ⟨first, hfirst⟩ := hvalue.succeeds_text
    -- all left sides have texts, so they can be compared
    obtain ⟨others, htexts⟩ : Succeeds ((rest.map Prod.fst).mapM fun u => u.text source) :=
      .mapM fun u hu => (hothers u hu).succeeds_text
    have hall := all_sameTokens_iff hvalue hothers hfirst htexts
    rw [List.mapM_map] at htexts
    refine ⟨if others.all fun other => Text.sameTokens first other then
        some ⟨value, label :: rest.map Prod.snd⟩
      else none, ?_, ?_⟩
    · refine bind_eq_ok_iff.mpr ⟨first, hfirst, bind_eq_ok_iff.mpr ⟨others, htexts, ?_⟩⟩
      split <;> rfl
    · rw [Option.isSome_ite, hall]
      constructor
      · -- what agrees with the first agrees with each other
        intro h
        have hagree : ∀ u ∈ value :: rest.map Prod.fst, value.glue source = u.glue source :=
          List.forall_mem_cons.mpr ⟨rfl, h⟩
        exact ⟨_, ⟨_, hsides, rfl⟩, by simp,
          fun u hu u' hu' => (hagree u hu).symm.trans (hagree u' hu')⟩
      · rintro ⟨operands, ⟨sides, hsides', rfl⟩, _, hagree⟩ u hu
        cases hsides.symm.trans hsides'
        exact hagree value List.mem_cons_self u (List.mem_cons_of_mem value hu)

/-- The tests are merged exactly if they are tests for equality whose left sides agree in all
characters that are not white space. Then left sides with the same outline have the same tokens.
Without comments, those with different outlines have different tokens, and so are taken for the same
wrongly; this cannot happen if the tokens need no white space to be told apart. -/
theorem merged_operands_agree_iff
    (hlaid : ∀ branch ∈ chain.branches, branch.condition.Laid source) :
    ∃ answer, chain.equalityTests? source = .ok answer ∧
      (answer.isSome = true ↔ ∃ operands, chain.Compares operands ∧ operands ≠ [] ∧
        ∀ operand ∈ operands, ∀ other ∈ operands, operand.glue source = other.glue source) ∧
      ∀ operands, chain.Compares operands → answer.isSome = true →
        ∀ operand ∈ operands, ∀ other ∈ operands,
        (operand.outline source = other.outline source → operand.code source = other.code source) ∧
        (operand.IsPlain → other.IsPlain →
          (operand.code source = other.code source ↔
            operand.outline source = other.outline source) ∧
          ∀ joins, operand.Separable joins source → other.Separable joins source →
            operand.code source = other.code source) := by
  obtain ⟨answer, hanswer, hsome⟩ := equalityTests?_isSome_iff hlaid
  refine ⟨answer, hanswer, hsome, ?_⟩
  intro operands hcompares hmerged operand hoperand other hother
  obtain ⟨operands', hcompares', _, hagree⟩ := hsome.mp hmerged
  -- there is only one list of left sides
  obtain rfl : operands' = operands := hcompares'.unique hcompares
  have hglue := hagree operand hoperand other hother
  have ht := hcompares.laid hlaid operand hoperand
  have hu := hcompares.laid hlaid other hother
  have hcode (houtline : operand.outline source = other.outline source) :
      operand.code source = other.code source :=
    Tree.code_eq_of_tokens ((Tree.tokens_eq_iff ht hu).mpr ⟨hglue, houtline⟩)
  refine ⟨hcode, fun hplain hplain' => ⟨⟨fun h => ?_, hcode⟩, ?_⟩⟩
  · exact ((Tree.tokens_eq_iff ht hu).mp (hplain.tokens_eq_of_code hplain' ht hu h)).2
  · intro joins hseparable hseparable'
    exact hplain.code_eq_of_separable hplain' hglue hseparable hseparable'

end Chain

namespace Sample

/-- `a.b` with the given offsets of its three tokens. -/
def member (object dot property : Nat) : Tree :=
  construct "member_expression" object (property + 1) [("object", 0), ("property", 2)]
    [construct "identifier" object (object + 1) [] [], mark "." dot (dot + 1),
      construct "property_identifier" property (property + 1) [] []]

/-- A value compared with a token that comes four bytes behind it, by a sign of two bytes between
them. -/
def comparison (value : Tree) : Tree :=
  let stop := value.span.stop
  construct "binary_expression" value.span.start (stop + 5)
    [("left", 0), ("operator", 1), ("right", 2)]
    [value, mark "==" (stop + 1) (stop + 3), construct "identifier" (stop + 4) (stop + 5) [] []]

/-- `x.y == 1 ? p : x . y == 2 ? q : r` as a chain. -/
def memberTests : Chain where
  branches :=
    [⟨comparison (member 0 1 2), construct "identifier" 11 12 [] []⟩,
      ⟨comparison (member 15 17 19), construct "identifier" 28 29 [] []⟩]
  otherwise := some (construct "identifier" 32 33 [] [])

/-- A string with the given ends. -/
def quoted (start stop : Nat) : Tree :=
  construct "string" start stop []
    [mark "'" start (start + 1), construct "string_fragment" (start + 1) (stop - 1) [] [],
      mark "'" (stop - 1) stop]

/-- A digit. -/
def digit (start : Nat) : Tree := construct "number" start (start + 1) [] []

/-- `'a b' == x ? 1 : 'ab' == y ? 2 : 3`, four bytes from the start. -/
def stringTernary : Tree :=
  let inner :=
    construct "ternary_expression" 21 38 [("condition", 0), ("consequence", 2), ("alternative", 4)]
      [comparison (quoted 21 25), mark "?" 31 32, digit 33, mark ":" 35 36, digit 37]
  construct "ternary_expression" 4 38 [("condition", 0), ("consequence", 2), ("alternative", 4)]
    [comparison (quoted 4 9), mark "?" 15 16, digit 17, mark ":" 19 20, inner]

/-- Its tests. -/
def stringTests : Chain where
  branches := [⟨comparison (quoted 4 9), digit 17⟩, ⟨comparison (quoted 21 25), digit 33⟩]
  otherwise := some (digit 37)

/-- A comparison takes its two sides apart, unless they are in parentheses. -/
theorem equality?_comparison {value : Tree} (h : value.kind ≠ "parenthesized_expression") :
    (comparison value).equality? =
      some (value, construct "identifier" (value.span.stop + 4) (value.span.stop + 5) [] []) := by
  -- the right side is a name, without parentheses around it
  have hlabel :
      (construct "identifier" (value.span.stop + 4) (value.span.stop + 5) [] []).unwrapParens =
        construct "identifier" (value.span.stop + 4) (value.span.stop + 5) [] [] :=
    Tree.unwrapParens_of_kind_ne (show "identifier" ≠ "parenthesized_expression" by decide)
  have hsides : (comparison value).equality? = some (value.unwrapParens,
      (construct "identifier" (value.span.stop + 4) (value.span.stop + 5) [] []).unwrapParens) := by
    with_unfolding_all rfl
  rw [hsides, hlabel, Tree.unwrapParens_of_kind_ne h]

end Sample

namespace Chain

/-- White space in a string is no layout. -/
theorem spaced_string_taken_for_another :
    let source := "r = 'a b' == x ? 1 : 'ab' == y ? 2 : 3"
    Transform.ternaryToSwitchOnValue.run source (.root Sample.stringTernary) =
      .ok (some (.text
        ("(() => \x7b\nswitch ('a b') \x7b\ncase x:\nreturn (1)\ncase y:\nreturn (2)\n" ++
          "default:\nreturn (3)\n\x7d\n\x7d)()"))) ∧
    Sample.stringTernary.ternaryChain? = some Sample.stringTests ∧
    Sample.stringTests.Compares [Sample.quoted 4 9, Sample.quoted 21 25] ∧
    (Sample.quoted 4 9).code source = .ok ["'".toList, "a b".toList, "'".toList] ∧
    (Sample.quoted 21 25).code source = .ok ["'".toList, "ab".toList, "'".toList] := by
  refine ⟨by with_unfolding_all decide, by with_unfolding_all rfl, ?_, by with_unfolding_all decide,
    by with_unfolding_all decide⟩
  exact .cons ⟨_, Sample.equality?_comparison (by decide)⟩
    (.cons ⟨_, Sample.equality?_comparison (by decide)⟩ .nil)

/-- White space around a point is layout. -/
theorem merged_operands_agree_iff_member :
    let source := "x.y == 1 ? p : x . y == 2 ? q : r"
    let operand := Sample.member 0 1 2
    let other := Sample.member 15 17 19
    (∀ branch ∈ Sample.memberTests.branches, branch.condition.Laid source) ∧
      Sample.memberTests.Compares [operand, other] ∧
      (∃ tests, Sample.memberTests.equalityTests? source = .ok (some tests)) ∧
      operand.code source = other.code source := by
  intro source operand other
  have hlaid : ∀ branch ∈ Sample.memberTests.branches, branch.condition.Laid source := by
    have hcheck : ∀ branch ∈ Sample.memberTests.branches,
        branch.condition.isLaid source = true := by
      with_unfolding_all decide
    exact fun branch hbranch => .of_isLaid (hcheck branch hbranch)
  have hcompares : Sample.memberTests.Compares [operand, other] :=
    .cons ⟨_, Sample.equality?_comparison (by decide)⟩
      (.cons ⟨_, Sample.equality?_comparison (by decide)⟩ .nil)
  -- the tokens are the same, though they stand at other distances
  have hcode : operand.code source = .ok ["x".toList, ".".toList, "y".toList] := by
    with_unfolding_all decide
  have hcode' : other.code source = .ok ["x".toList, ".".toList, "y".toList] := by
    with_unfolding_all decide
  have hplain : operand.IsPlain := by with_unfolding_all decide
  have hplain' : other.IsPlain := by with_unfolding_all decide
  obtain ⟨answer, hanswer, hsome, hagree⟩ := merged_operands_agree_iff hlaid
  have hmerged : answer.isSome = true := by
    refine hsome.mpr ⟨_, hcompares, by simp, ?_⟩
    with_unfolding_all decide
  obtain ⟨tests, rfl⟩ := Option.isSome_iff_exists.mp hmerged
  refine ⟨hlaid, hcompares, ⟨tests, hanswer⟩, ?_⟩
  -- only letters belong together
  have hsolid : (["x".toList, ".".toList, "y".toList].all fun text =>
      text.all fun c => !Text.isBlank c) = true := by
    decide
  have hseparable : Token.Separable (fun c d => c.isAlpha && d.isAlpha)
      ["x".toList, ".".toList, "y".toList] :=
    ⟨by decide, by simpa using hsolid, by decide, by decide⟩
  exact ((hagree _ hcompares hmerged operand (by simp) other (by simp)).2 hplain hplain').2 _
    ⟨_, hcode, hseparable⟩ ⟨_, hcode', hseparable⟩

end Chain

end CodeActions
