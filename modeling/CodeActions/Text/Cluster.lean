import CodeActions.Text.Bond

/-!
# Clusters

A cluster is what a reader takes for one character. A text falls apart into clusters, and a
backspace in a typed line takes the cluster before it away. Main statements: the clusters make up
the text, and a line without backspaces stays as it was typed.
-/

namespace CodeActions.Text

/-! ## §1 Where a cluster goes on -/

/-- How far a row of characters that waits for its second half has come. -/
inductive Progress where
  | none
  | begun
  /-- Only the second half is missing. -/
  | ready
  deriving Repr, DecidableEq, Inhabited

/-- What is known about the characters so far. -/
structure Before where
  /-- The bond of the last character. Nothing joins the start of a text. -/
  last : Bond := .control
  /-- The last character is the first half of a flag. -/
  halfFlag : Bool := false
  /-- An emoji that a joiner may join to the next one. -/
  emoji : Progress := .none
  /-- A consonant that a linker may link to the next one. -/
  conjunct : Progress := .none
  deriving Repr, DecidableEq, Inhabited

/-- The next character belongs to the cluster of the last one. -/
def Before.joins (before : Before) (next : Bond) : Bool :=
  match before.last, next with
  | .control, _ => false
  | _, .control => false
  | _, .extend => true
  | _, .nonJoiner => true
  | _, .linker => true
  | _, .joiner => true
  | _, .spacing => true
  | .leader, _ => true
  | .hangulLead, .hangulLead => true
  | .hangulLead, .hangulVowel => true
  | .hangulLead, .hangulOpen => true
  | .hangulLead, .hangulClosed => true
  | .hangulOpen, .hangulVowel => true
  | .hangulOpen, .hangulTail => true
  | .hangulVowel, .hangulVowel => true
  | .hangulVowel, .hangulTail => true
  | .hangulClosed, .hangulTail => true
  | .hangulTail, .hangulTail => true
  -- these three depend on more than the last character
  | _, .flagHalf => before.halfFlag
  | _, .pictograph => before.emoji == .ready
  | _, .consonant => before.conjunct == .ready
  | _, _ => false

/-- An emoji may have extenders; then one joiner makes it ready. -/
def Progress.afterEmoji (progress : Progress) : Bond → Progress
  | .pictograph => .begun
  | .extend => if progress = .begun then .begun else .none
  | .nonJoiner => if progress = .begun then .begun else .none
  | .linker => if progress = .begun then .begun else .none
  | .joiner => if progress = .begun then .ready else .none
  | _ => .none

/-- A consonant may have extenders and joiners; one linker among them makes it ready. -/
def Progress.afterConjunct (progress : Progress) : Bond → Progress
  | .consonant => .begun
  | .extend => progress
  | .joiner => progress
  | .linker => if progress = .none then .none else .ready
  | _ => .none

/-- What is known after one more character. -/
def Before.next (before : Before) (b : Bond) : Before where
  last := b
  halfFlag := b == .flagHalf && !before.halfFlag
  emoji := before.emoji.afterEmoji b
  conjunct := before.conjunct.afterConjunct b

/-! ## §2 Clusters -/

/-- The rest of the cluster that is open, and the clusters after it. -/
def clustersAfter (before : Before) : List Char → List Char × List (List Char)
  | [] => ([], [])
  | c :: cs =>
    let (rest, later) := clustersAfter (before.next (bond c)) cs
    if before.joins (bond c) then (c :: rest, later) else ([], (c :: rest) :: later)

/-- The clusters of a text, in order. -/
def clusters (cs : List Char) : List (List Char) := (clustersAfter {} cs).2

theorem clustersAfter_append (before : Before) (cs : List Char) :
    (clustersAfter before cs).1 ++ (clustersAfter before cs).2.flatten = cs := by
  induction cs generalizing before with
  | nil => rfl
  | cons c cs ih =>
    have h := ih (before.next (bond c))
    by_cases hj : before.joins (bond c) = true <;> simp [clustersAfter, hj, h]

/-- Nothing joins the start of a text. -/
theorem clustersAfter_start (cs : List Char) : (clustersAfter {} cs).1 = [] := by
  cases cs <;> simp [clustersAfter, Before.joins]

/-- The clusters make up the text. -/
theorem flatten_clusters (cs : List Char) : (clusters cs).flatten = cs := by
  simpa [clusters, clustersAfter_start] using clustersAfter_append {} cs

/-! ## §3 Backspaces -/

/-- The key that takes the last cluster away. -/
def backspace : Char := '\x08'

/-- One more cluster after those that are kept, the last one first. A backspace takes one away. -/
def typeCluster (kept : List (List Char)) (cluster : List Char) : List (List Char) :=
  if cluster = [backspace] then kept.tail else cluster :: kept

/-- What a typed line comes to. -/
def typed (cs : List Char) : List Char := ((clusters cs).foldl typeCluster []).reverse.flatten

theorem foldl_typeCluster {cs : List (List Char)} (h : [backspace] ∉ cs) (kept : List (List Char)) :
    cs.foldl typeCluster kept = cs.reverse ++ kept := by
  induction cs generalizing kept with
  | nil => rfl
  | cons c cs ih =>
    simp only [List.mem_cons, not_or] at h
    simp [typeCluster, Ne.symm h.1, ih h.2]

/-- A line without backspaces stays as it was typed. -/
theorem typed_of_not_mem {cs : List Char} (h : backspace ∉ cs) : typed cs = cs := by
  have hc : [backspace] ∉ clusters cs := by
    intro hm
    apply h
    rw [← flatten_clusters cs]
    exact List.mem_flatten.mpr ⟨[backspace], hm, List.mem_singleton.mpr rfl⟩
  simp [typed, foldl_typeCluster hc, flatten_clusters]

end CodeActions.Text
