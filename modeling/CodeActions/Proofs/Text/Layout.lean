import CodeActions.Text.Blank
import Mathlib.Data.List.DropRight

/-!
# White space around words

How a text is laid out does not matter to those who trim it or take it apart into words: white space
at the ends goes, whatever its amount, and so does white space between words as long as there is
some.

Main statements: `Text.trim_eq_iff_padded`, what trimming leaves is what white space was put around,
and `Text.Spread.words_eq`, words that are spread over a text are found again.
-/

namespace CodeActions.Text

/-- There is nothing but white space. -/
def AllBlank (cs : List Char) : Prop := ∀ c ∈ cs, isBlank c = true

/-- There is no white space. -/
def NoBlank (cs : List Char) : Prop := ∀ c ∈ cs, isBlank c = false

instance (cs : List Char) : Decidable (AllBlank cs) :=
  decidable_of_iff (cs.all isBlank = true) List.all_eq_true

instance (cs : List Char) : Decidable (NoBlank cs) :=
  decidable_of_iff (cs.all (fun c => !isBlank c) = true) (by simp [NoBlank])

/-- There is something, and no white space in it. -/
def IsWord (cs : List Char) : Prop := cs ≠ [] ∧ NoBlank cs

instance (cs : List Char) : Decidable (IsWord cs) :=
  inferInstanceAs (Decidable (cs ≠ [] ∧ NoBlank cs))

/-! ## §1 Trimming -/

/-- A text has nothing left after trimming exactly if it is white space throughout. -/
theorem trim_eq_nil_iff (cs : List Char) : trim cs = [] ↔ cs.all isBlank = true := by
  unfold trim trimEnd
  rw [List.reverse_eq_nil_iff, List.dropWhile_eq_nil_iff, List.all_eq_true]
  constructor
  · intro h
    -- what trimming the front leaves would begin with a character that is no white space
    have hnil : trimStart cs = [] := by
      by_contra hne
      have hhead := List.head_dropWhile_not isBlank (l := cs) hne
      have hblank : isBlank ((trimStart cs).head hne) = true := h _ (by simp)
      exact Bool.false_ne_true (hhead.symm.trans hblank)
    exact List.dropWhile_eq_nil_iff.mp hnil
  · intro h c hc
    have hc' : c ∈ trimStart cs := List.mem_reverse.mp hc
    exact h c ((List.dropWhile_sublist isBlank).mem hc')

theorem trimEnd_trimEnd (cs : List Char) : trimEnd (trimEnd cs) = trimEnd cs := by
  unfold trimEnd
  rw [List.reverse_reverse, List.dropWhile_idempotent]

/-- What trimming left is left alone by a second trimming, if it begins with no white space. -/
theorem trim_trim_of_head {cs rest : List Char} {c : Char} (h : trim cs = c :: rest)
    (hc : isBlank c = false) : trim (c :: rest) = c :: rest := by
  have hstart : trimStart (c :: rest) = c :: rest := List.dropWhile_cons_of_neg (by simp [hc])
  unfold trim at h ⊢
  rw [hstart, ← h, trimEnd_trimEnd]

/-- White space in front is trimmed up to the first character that is none. -/
theorem trimStart_append_cons {c : Char} (hc : isBlank c = false) (front back : List Char) :
    trimStart (front ++ c :: back) = trimStart front ++ c :: back := by
  unfold trimStart
  rw [List.dropWhile_append]
  split
  case isTrue hempty => simp [List.isEmpty_iff.mp hempty, hc]
  case isFalse => rfl

/-- White space behind is trimmed back to the last character that is none. -/
theorem trimEnd_append_cons {c : Char} (hc : isBlank c = false) (front back : List Char) :
    trimEnd (front ++ c :: back) = front ++ c :: trimEnd back := by
  -- the same as trimming the front of the text read backwards
  have hreverse : (front ++ c :: back).reverse = back.reverse ++ c :: front.reverse := by simp
  unfold trimEnd
  rw [hreverse, show (back.reverse ++ c :: front.reverse).dropWhile isBlank =
    back.reverse.dropWhile isBlank ++ c :: front.reverse from trimStart_append_cons hc _ _]
  simp

/-- A character that is no white space has its own end of the text trimmed on either side. -/
theorem trim_append_cons {c : Char} (hc : isBlank c = false) (front back : List Char) :
    trim (front ++ c :: back) = trimStart front ++ c :: trimEnd back := by
  unfold trim
  rw [trimStart_append_cons hc, trimEnd_append_cons hc]

@[simp] theorem trim_trimStart (cs : List Char) : trim (trimStart cs) = trim cs := by
  unfold trim trimStart
  rw [List.dropWhile_idempotent]

@[simp] theorem trim_trimEnd (cs : List Char) : trim (trimEnd cs) = trim cs := by
  cases hstart : trimStart cs with
  | nil =>
    have hblank : ∀ c ∈ cs, isBlank c = true := List.dropWhile_eq_nil_iff.mp hstart
    have hnil : trimEnd cs = [] := by
      unfold trimEnd
      rw [List.reverse_eq_nil_iff, List.dropWhile_eq_nil_iff]
      exact fun c hc => hblank c (List.mem_reverse.mp hc)
    rw [hnil, (trim_eq_nil_iff cs).mpr (List.all_eq_true.mpr hblank)]
    rfl
  | cons c rest =>
    -- the first character that is no white space keeps the two ends apart
    have hcs : cs = cs.takeWhile isBlank ++ c :: rest := by
      rw [← hstart]
      exact List.takeWhile_append_dropWhile.symm
    have hc : isBlank c = false := by
      have hne : trimStart cs ≠ [] := by simp [hstart]
      have hhead : isBlank ((trimStart cs).head hne) = false := List.head_dropWhile_not isBlank hne
      simpa only [hstart, List.head_cons] using hhead
    rw [hcs, trimEnd_append_cons hc, trim_append_cons hc, trim_append_cons hc, trimEnd_trimEnd]

theorem mem_of_mem_trimStart {c : Char} {cs : List Char} (h : c ∈ trimStart cs) : c ∈ cs :=
  (List.dropWhile_sublist isBlank).mem h

theorem mem_of_mem_trimEnd {c : Char} {cs : List Char} (h : c ∈ trimEnd cs) : c ∈ cs :=
  List.mem_reverse.mp ((List.dropWhile_sublist isBlank).mem (List.mem_reverse.mp h))

/-- A text without white space at its ends is left alone. -/
theorem trim_eq_self {c last : Char} (hc : isBlank c = false) (hlast : isBlank last = false)
    (mid : List Char) : trim (c :: (mid ++ [last])) = c :: (mid ++ [last]) := by
  have hstart : trimStart (c :: mid) = c :: mid := trimStart_append_cons hc [] mid
  -- seen from the last character there is only the front to trim, and its first character stops
  -- that
  have htrim := trim_append_cons hlast (c :: mid) []
  rw [hstart] at htrim
  exact htrim

/-- The digits lie in none of the ranges of white space. -/
theorem isBlank_of_isDigit {c : Char} (h : c.isDigit = true) : isBlank c = false := by
  have hrange : 48 ≤ c.toNat ∧ c.toNat ≤ 57 := Char.isDigit_iff_toNat.mp h
  unfold isBlank inRanges
  rw [List.any_eq_false]
  simp only [blankRanges, List.forall_mem_cons, Bool.and_eq_true, decide_eq_true_eq,
    List.not_mem_nil, false_implies, implies_true, and_true]
  omega

/-! ## §2 White space at the ends -/

/-- A text with any amount of white space on both sides. -/
def Padded (core cs : List Char) : Prop :=
  ∃ before after, AllBlank before ∧ AllBlank after ∧ cs = before ++ core ++ after

theorem trimStart_append_of_allBlank {before : List Char} (h : AllBlank before) (cs : List Char) :
    trimStart (before ++ cs) = trimStart cs :=
  List.dropWhile_append_of_pos h

theorem trimEnd_append_of_allBlank {after : List Char} (h : AllBlank after) (cs : List Char) :
    trimEnd (cs ++ after) = trimEnd cs := by
  unfold trimEnd
  rw [List.reverse_append, List.dropWhile_append_of_pos]
  intro c hc
  exact h c (List.mem_reverse.mp hc)

/-- What is trimmed from the front is white space. -/
theorem exists_trimStart (cs : List Char) :
    ∃ before, AllBlank before ∧ cs = before ++ trimStart cs :=
  ⟨cs.takeWhile isBlank, fun _ hc => List.mem_takeWhile_imp hc,
    List.takeWhile_append_dropWhile.symm⟩

/-- What is trimmed from the end is white space, read backwards as well as forwards. -/
theorem exists_trimEnd (cs : List Char) : ∃ after, AllBlank after ∧ cs = trimEnd cs ++ after := by
  refine ⟨(cs.reverse.takeWhile isBlank).reverse, fun c hc => ?_, ?_⟩
  · exact List.mem_takeWhile_imp (List.mem_reverse.mp hc)
  · rw [trimEnd, ← List.reverse_append, List.takeWhile_append_dropWhile, List.reverse_reverse]

/-- A text is made up of the white space in front of it, what trimming leaves, and the white space
behind it. -/
theorem padded_trim (cs : List Char) : Padded (trim cs) cs := by
  obtain ⟨before, hbefore, hstart⟩ := exists_trimStart cs
  obtain ⟨after, hafter, hend⟩ := exists_trimEnd (trimStart cs)
  refine ⟨before, after, hbefore, hafter, ?_⟩
  calc cs = before ++ trimStart cs := hstart
    _ = before ++ (trim cs ++ after) := congrArg (before ++ ·) hend
    _ = before ++ trim cs ++ after := (List.append_assoc ..).symm

/-- White space that is put around a text is trimmed away again. -/
theorem Padded.trim_eq_trim {core cs : List Char} (h : Padded core cs) : trim cs = trim core := by
  obtain ⟨before, after, hbefore, hafter, rfl⟩ := h
  calc trim (before ++ core ++ after)
      = trim (before ++ core) := by
        rw [← trim_trimEnd, trimEnd_append_of_allBlank hafter, trim_trimEnd]
    _ = trim core := by rw [← trim_trimStart, trimStart_append_of_allBlank hbefore, trim_trimStart]

theorem trim_of_noBlank {cs : List Char} (h : NoBlank cs) : trim cs = cs := by
  cases cs with
  | nil => rfl
  | cons c rest =>
    have hc : isBlank c = false := h c List.mem_cons_self
    -- a single character is both ends at once
    obtain hnil | ⟨mid, last, rfl⟩ := List.eq_nil_or_concat rest
    · subst hnil
      exact trim_append_cons hc [] []
    · have hlast : isBlank last = false := h last (by simp)
      rw [List.concat_eq_append]
      exact trim_eq_self hc hlast mid

/-- A text without white space is what trimming leaves exactly if white space was put around it. -/
theorem trim_eq_iff_padded {core cs : List Char} (hcore : NoBlank core) :
    trim cs = core ↔ Padded core cs := by
  constructor
  · rintro rfl
    exact padded_trim cs
  · intro h
    rw [h.trim_eq_trim, trim_of_noBlank hcore]

/-! ## §3 White space between words -/

/-- The words in front of a text with its words done. -/
theorem foldr_growWord (front : List Char) (words : List (List Char)) :
    front.foldr growWord ([], words) =
      ((front.foldr growWord ([], [])).1, (front.foldr growWord ([], [])).2 ++ words) := by
  -- words grow from the right, so those behind are finished and stay at the end
  induction front with
  | nil => rfl
  | cons c front ih =>
    rw [List.foldr_cons, List.foldr_cons, ih]
    obtain ⟨word, done⟩ := front.foldr growWord ([], [])
    unfold growWord
    split
    · cases word <;> rfl
    · rfl

/-- White space ends a word. -/
theorem words_append_cons {c : Char} (hc : isBlank c = true) (front back : List Char) :
    words (front ++ c :: back) = words front ++ words back := by
  have hback : (c :: back).foldr growWord ([], []) = ([], words back) := by
    simp [growWord, hc, words]
  unfold words
  rw [List.foldr_append, hback, foldr_growWord]
  obtain ⟨word, done⟩ := front.foldr growWord ([], [])
  cases word <;> rfl

/-- A text without white space is one word. -/
theorem words_eq_singleton {cs : List Char} (hne : cs ≠ []) (h : ∀ c ∈ cs, isBlank c = false) :
    words cs = [cs] := by
  -- from the right the word under way takes in one character after the other, and none is finished
  have hgrown : ∀ ds : List Char, (∀ c ∈ ds, isBlank c = false) →
      ds.foldr growWord ([], []) = (ds, []) := by
    intro ds hds
    induction ds with
    | nil => rfl
    | cons c ds ih =>
      rw [List.forall_mem_cons] at hds
      rw [List.foldr_cons, ih hds.2]
      simp [growWord, hds.1]
  unfold words
  rw [hgrown cs h]
  cases cs with
  | nil => exact absurd rfl hne
  | cons c cs => rfl

/-- Words in order, with some white space between any two of them and any amount of it at the
ends. -/
inductive Spread : List (List Char) → List Char → Prop where
  | last {word cs : List Char} (h : Padded word cs) : Spread [word] cs
  | more {words : List (List Char)} {word cs rest : List Char} {gap : Char} (h : Padded word cs)
      (hgap : isBlank gap = true) (hrest : Spread words rest) :
      Spread (word :: words) (cs ++ gap :: rest)

/-- Two words on a line. -/
theorem spread_pair {word word' line : List Char} (before : List Char) (gap : Char)
    (between behind : List Char) (hblank : AllBlank (before ++ gap :: between ++ behind))
    (hline : line = before ++ word ++ gap :: (between ++ word' ++ behind)) :
    Spread [word, word'] line := by
  simp only [AllBlank, List.forall_mem_append, List.forall_mem_cons] at hblank
  obtain ⟨⟨hbefore, hgap, hbetween⟩, hbehind⟩ := hblank
  rw [hline]
  exact .more ⟨before, [], hbefore, nofun, by simp⟩ hgap
    (.last ⟨between, behind, hbetween, hbehind, rfl⟩)

/-- White space alone holds no words. -/
theorem words_of_allBlank {cs : List Char} (h : AllBlank cs) : words cs = [] := by
  induction cs with
  | nil => rfl
  | cons c cs ih =>
    obtain ⟨hc, hcs⟩ := List.forall_mem_cons.mp h
    have hsplit : words ([] ++ c :: cs) = words [] ++ words cs := words_append_cons hc [] cs
    rw [List.nil_append] at hsplit
    rw [hsplit, ih hcs]
    rfl

theorem words_append_of_allBlank {after : List Char} (h : AllBlank after) (cs : List Char) :
    words (cs ++ after) = words cs := by
  cases after with
  | nil => rw [List.append_nil]
  | cons c after =>
    obtain ⟨hc, hafter⟩ := List.forall_mem_cons.mp h
    rw [words_append_cons hc, words_of_allBlank hafter, List.append_nil]

/-- White space in front starts no word. -/
theorem words_allBlank_append {before : List Char} (h : AllBlank before) (cs : List Char) :
    words (before ++ cs) = words cs := by
  -- its last character is the one that ends a word, the empty one of the white space before it
  obtain rfl | ⟨front, last, rfl⟩ := List.eq_nil_or_concat before
  · rfl
  · rw [List.concat_eq_append] at h ⊢
    obtain ⟨hfront, hlast⟩ := List.forall_mem_append.mp h
    rw [List.append_assoc, List.singleton_append, words_append_cons (hlast last List.mem_cons_self),
      words_of_allBlank hfront, List.nil_append]

theorem words_trimEnd (cs : List Char) : words (trimEnd cs) = words cs := by
  obtain ⟨after, hafter, hend⟩ := exists_trimEnd cs
  calc words (trimEnd cs) = words (trimEnd cs ++ after) := (words_append_of_allBlank hafter _).symm
    _ = words cs := by rw [← hend]

/-- White space around a word does not belong to it. -/
theorem Padded.words_eq {word cs : List Char} (h : Padded word cs) (hword : IsWord word) :
    words cs = [word] := by
  obtain ⟨before, after, hbefore, hafter, rfl⟩ := h
  rw [words_append_of_allBlank hafter, words_allBlank_append hbefore,
    words_eq_singleton hword.1 hword.2]

/-- Words that are spread over a text are found again. -/
theorem Spread.words_eq {ws : List (List Char)} {cs : List Char} (h : Spread ws cs)
    (hws : ∀ word ∈ ws, IsWord word) : words cs = ws := by
  induction h with
  | @last word _ h => exact h.words_eq (hws word List.mem_cons_self)
  | more h hgap _ ih =>
    -- the gap ends the first word, and behind it the others are found by induction
    obtain ⟨hword, hrest⟩ := List.forall_mem_cons.mp hws
    rw [words_append_cons hgap, h.words_eq hword, ih hrest, List.singleton_append]

/-- The first character of the first word is what a trimmed text begins with, and the words go on
behind it. -/
theorem Spread.exists_tail {c : Char} {word : List Char} {ws : List (List Char)} {cs : List Char}
    (h : Spread ((c :: word) :: ws) cs) (hc : isBlank c = false) :
    ∃ rest, trim cs = c :: trimEnd rest ∧ Spread (word :: ws) rest := by
  -- only the front of the text is used up, so both ways of spreading are dealt with alike
  have htrim {before : List Char} (hbefore : AllBlank before) (rest : List Char) :
      trim (before ++ c :: rest) = c :: trimEnd rest := by
    have hnil : trimStart before = [] := List.dropWhile_eq_nil_iff.mpr hbefore
    rw [trim_append_cons hc, hnil, List.nil_append]
  have hpadded {after : List Char} (hafter : AllBlank after) : Padded word (word ++ after) :=
    ⟨[], after, nofun, hafter, rfl⟩
  cases h with
  | last h =>
    obtain ⟨before, after, hbefore, hafter, rfl⟩ := h
    exact ⟨word ++ after, by simpa using htrim hbefore (word ++ after), .last (hpadded hafter)⟩
  | @more _ _ _ rest gap h hgap hrest =>
    obtain ⟨before, after, hbefore, hafter, rfl⟩ := h
    refine ⟨word ++ after ++ gap :: rest, ?_, .more (hpadded hafter) hgap hrest⟩
    simpa using htrim hbefore (word ++ after ++ gap :: rest)

/-! ## §4 White space inside -/

/-- No white space has other characters on both sides. -/
def NoInnerBlank (cs : List Char) : Prop :=
  ∀ front c back, cs = front ++ c :: back → isBlank c = true → AllBlank front ∨ AllBlank back

/-- A trimmed text neither begins nor ends with white space. -/
theorem head_last_trim {cs : List Char} (hne : trim cs ≠ []) :
    isBlank ((trim cs).head hne) = false ∧ isBlank ((trim cs).getLast hne) = false := by
  have hstart : trimStart cs ≠ [] := by
    intro hnil
    rw [trim, hnil] at hne
    exact hne rfl
  constructor
  · -- trimming the end keeps the first character
    obtain ⟨c, rest, hcs⟩ := List.exists_cons_of_ne_nil hstart
    have hc : isBlank c = false := by
      have hhead : isBlank ((trimStart cs).head hstart) = false :=
        List.head_dropWhile_not isBlank hstart
      simpa only [hcs, List.head_cons] using hhead
    have htrim : trim cs = c :: trimEnd rest := by
      rw [trim, hcs]
      exact trimEnd_append_cons hc [] rest
    simpa only [htrim, List.head_cons] using hc
  · have hdrop : (trimStart cs).reverse.dropWhile isBlank ≠ [] := by
      intro hnil
      rw [trim, trimEnd, hnil] at hne
      exact hne rfl
    have hlast := List.head_dropWhile_not isBlank hdrop
    simpa only [trim, trimEnd, List.getLast_reverse] using hlast

/-- What is left after trimming has no white space if there was none inside. -/
theorem NoInnerBlank.noBlank_trim {cs : List Char} (h : NoInnerBlank cs) : NoBlank (trim cs) := by
  intro c hc
  have hne : trim cs ≠ [] := List.ne_nil_of_mem hc
  obtain ⟨hhead, hlast⟩ := head_last_trim hne
  obtain ⟨front, back, hsplit⟩ := List.append_of_mem hc
  obtain ⟨before, after, _, _, hcs⟩ := padded_trim cs
  by_contra hblank
  rw [Bool.not_eq_false] at hblank
  -- white space that was left would have other characters on both sides in the whole text
  have hcs' : cs = (before ++ front) ++ c :: (back ++ after) := by
    rw [hcs, hsplit]
    simp
  -- one side would be white space up to an end of the trimmed text
  rcases h _ c _ hcs' hblank with hfront | hback
  · have hfirst : isBlank ((trim cs).head hne) = true := by
      simp only [hsplit]
      cases front with
      | nil => exact hblank
      | cons d front => exact hfront d (by simp)
    exact Bool.false_ne_true (hhead.symm.trans hfirst)
  · have hfinal : isBlank ((trim cs).getLast hne) = true := by
      simp only [hsplit]
      obtain rfl | ⟨back, d, rfl⟩ := List.eq_nil_or_concat back
      · simpa using hblank
      · have hd : isBlank d = true := hback d (by simp)
        simpa using hd
    exact Bool.false_ne_true (hlast.symm.trans hfinal)

/-- White space has other characters on both sides exactly if trimming leaves some. -/
theorem noInnerBlank_iff {cs : List Char} : NoInnerBlank cs ↔ NoBlank (trim cs) := by
  refine ⟨NoInnerBlank.noBlank_trim, fun h front c back hsplit hc => ?_⟩
  obtain ⟨before, after, hbefore, hafter, hcs⟩ := padded_trim cs
  rw [hcs] at hsplit
  -- the white space stands behind what is left, or in it, or before it
  rcases List.append_eq_append_iff.mp hsplit with ⟨mid, _, hmid⟩ | ⟨mid, hmid, hback⟩
  · exact .inr fun d hd => hafter d (by simp [hmid, hd])
  · cases mid with
    | nil =>
      rw [List.nil_append] at hback
      exact .inr fun d hd => hafter d (hback ▸ List.mem_cons_of_mem c hd)
    | cons m mid =>
      obtain ⟨rfl, _⟩ := List.cons.inj hback
      rcases List.append_eq_append_iff.mp hmid with ⟨mid', _, hcore⟩ | ⟨mid', hfront, _⟩
      · have hnot : isBlank c = false := h c (by simp [hcore])
        exact absurd (hnot.symm.trans hc) Bool.false_ne_true
      · exact .inl fun d hd => hbefore d (by simp [hfront, hd])

instance (cs : List Char) : Decidable (NoInnerBlank cs) := decidable_of_iff _ noInnerBlank_iff.symm

end CodeActions.Text
