import CodeActions.Function.Binding
import CodeActions.Proofs.Text.Slice
import Mathlib.Data.List.Basic

/-!
# What a search in a tree finds

A search looks at the constructs of a tree from the top downwards. Some constructs are closed: they
are looked at, but not into. What can be found is said once, by `Tree.Has`, and each search of the
library is an instance of it.

The text of a name is cut out of the source, and a cut can fail. A search that gives an answer at
all gives the right one.

Main statements: `Tree.has_iff_exists_leads`, what is found is at the end of an open way, and the
searches of the library, `Tree.readsOwnBinding_iff`, `Tree.mentions_iff` and
`Tree.containsWithin_iff`.
-/

namespace CodeActions

/-! ## §1 Searching a list -/

/-- A search through a list that answers has found something exactly if it is there. -/
theorem anyM_iff {ε α : Type} {f : α → Except ε Bool} {P : α → Prop} {xs : List α} {found : Bool}
    (h : ∀ x ∈ xs, ∀ {b}, f x = .ok b → (b = true ↔ P x)) (hfound : xs.anyM f = .ok found) :
    found = true ↔ ∃ x ∈ xs, P x := by
  induction xs with
  | nil =>
    cases hfound
    simp
  | cons x xs ih =>
    obtain ⟨hx, hxs⟩ := List.forall_mem_cons.mp h
    obtain ⟨b, hb, hrest⟩ := bind_eq_ok_iff.mp hfound
    simp only [List.mem_cons, exists_eq_or_imp, ← hx hb]
    -- the search stops at the first element that is found, and else its answer is that for the rest
    cases b with
    | true =>
      cases hrest
      simp
    | false => simp [ih hxs hrest]

namespace Tree

/-! ## §2 Constructs of a tree -/

/-- Some construct of the tree passes the test. What lies in a closed construct does not count. -/
inductive Has (closed : Tree → Bool) (test : Tree → Prop) : Tree → Prop where
  | here {t : Tree} (h : test t) : Has closed test t
  | inside {t u : Tree} (hopen : closed t = false) (hu : u ∈ t.namedChildren)
      (h : Has closed test u) : Has closed test t

/-- Some construct below the node passes the test, whatever the node is. -/
def HasBelow (closed : Tree → Bool) (test : Tree → Prop) (t : Tree) : Prop :=
  ∃ u ∈ t.namedChildren, u.Has closed test

section

variable {closed : Tree → Bool} {test test' : Tree → Prop} {t : Tree}

/-- A search looks at the node, and below it unless it is closed. -/
theorem has_iff : t.Has closed test ↔ test t ∨ closed t = false ∧ t.HasBelow closed test := by
  constructor
  · intro h
    cases h with
    | here h => exact .inl h
    | inside hopen hu h => exact .inr ⟨hopen, _, hu, h⟩
  · intro h
    rcases h with h | ⟨hopen, u, hu, h⟩
    · exact .here h
    · exact .inside hopen hu h

/-- What passes a test is found by a search for anything that is no less. -/
theorem Has.mono (htest : ∀ u, test u → test' u) (h : t.Has closed test) : t.Has closed test' := by
  induction h with
  | here h => exact .here (htest _ h)
  | inside hopen hu _ ih => exact .inside hopen hu ih

/-- The way from a tree down to one of its constructs, through the trees that are around it, the
innermost first. -/
inductive Leads : Tree → List Tree → Tree → Prop where
  | here (t : Tree) : Leads t [] t
  | inside {t u b : Tree} {around : List Tree} (hu : u ∈ t.namedChildren) (h : Leads u around b) :
      Leads t (around ++ [t]) b

/-- What stands at the end of a way through open constructs is found. -/
theorem Leads.has {b : Tree} {around : List Tree} (h : t.Leads around b)
    (hopen : ∀ u ∈ around, closed u = false) (hb : test b) : t.Has closed test := by
  induction h with
  | here t => exact .here hb
  | inside hu _ ih =>
    simp only [List.mem_append, List.mem_singleton, or_imp, forall_and, forall_eq] at hopen
    exact .inside hopen.2 hu (ih hopen.1 hb)

/-- What a search finds is at the end of a way through nothing that is closed. -/
theorem has_iff_exists_leads :
    t.Has closed test ↔
      ∃ around b, t.Leads around b ∧ (∀ u ∈ around, closed u = false) ∧ test b := by
  constructor
  · intro h
    induction h with
    | here h => exact ⟨[], _, .here _, by simp, h⟩
    | @inside t u hopen hu _ ih =>
      obtain ⟨around, b, hleads, haround, hb⟩ := ih
      -- the way begins one step higher up, so the node becomes the outermost of those around
      refine ⟨around ++ [t], b, .inside hu hleads, ?_, hb⟩
      simpa [or_imp, forall_and] using ⟨haround, hopen⟩
  · rintro ⟨around, b, hleads, haround, hb⟩
    exact hleads.has haround hb

/-- A search for two things is a search for each of them. -/
theorem has_or_iff :
    t.Has closed (fun u => test u ∨ test' u) ↔ t.Has closed test ∨ t.Has closed test' := by
  constructor
  · intro h
    induction h with
    | here h => exact h.imp .here .here
    | inside hopen hu _ ih => exact ih.imp (.inside hopen hu) (.inside hopen hu)
  · intro h
    rcases h with h | h
    · exact h.mono fun _ => .inl
    · exact h.mono fun _ => .inr

theorem hasBelow_or_iff :
    t.HasBelow closed (fun u => test u ∨ test' u) ↔
      t.HasBelow closed test ∨ t.HasBelow closed test' := by
  simp only [HasBelow, has_or_iff, and_or_left, exists_or]

mutual

/-- What can be tested can be searched for. -/
def decideHas [DecidablePred test] : (t : Tree) → Decidable (t.Has closed test)
  | node label fields children =>
    have := decideAnyHas children
    decidable_of_iff (test (node label fields children) ∨
      closed (node label fields children) = false ∧
      ∃ u ∈ children, u.named = true ∧ u.Has closed test) (by
        rw [has_iff]
        simp [HasBelow, namedChildren, and_assoc])

/-- The same for several trees. -/
def decideAnyHas [DecidablePred test] : (ts : List Tree) →
    Decidable (∃ u ∈ ts, u.named = true ∧ u.Has closed test)
  | [] => .isFalse (by simp)
  | t :: ts =>
    have := decideHas t
    have := decideAnyHas ts
    decidable_of_iff
      ((t.named = true ∧ t.Has closed test) ∨ ∃ u ∈ ts, u.named = true ∧ u.Has closed test)
      (by simp)

end

instance [DecidablePred test] : DecidablePred (Has closed test) := decideHas

instance [DecidablePred test] : DecidablePred (HasBelow closed test) := fun t =>
  inferInstanceAs (Decidable (∃ u ∈ t.namedChildren, u.Has closed test))

end

/-! ## §3 Searches for names -/

/-- The tree is a name, in a place of the given kind. -/
def IsName (source : String) (kinds : List String) (name : String) (t : Tree) : Prop :=
  t.kind ∈ kinds ∧ t.text source = .ok name

/-- A function with its own `this` is not looked into, and a name has no parts. -/
def ownScope (t : Tree) : Bool := t.bindsOwn || t.kind == "identifier"

/-- `this`, `super`, or `arguments` in a place of one of the kinds. -/
def IsOwnBinding (source : String) (kinds : List String) (t : Tree) : Prop :=
  t.kind = "this" ∨ t.kind = "super" ∨ t.IsName source kinds "arguments"

instance (source : String) (kinds : List String) (name : String) :
    DecidablePred (IsName source kinds name) :=
  fun t => inferInstanceAs (Decidable (t.kind ∈ kinds ∧ t.text source = .ok name))

instance (source : String) (kinds : List String) : DecidablePred (IsOwnBinding source kinds) :=
  fun t => inferInstanceAs
    (Decidable (t.kind = "this" ∨ t.kind = "super" ∨ t.IsName source kinds "arguments"))

variable {source name : String}

/-- The search through several trees is one through their list, without the punctuation. -/
theorem anyReadsOwnBinding_eq (ts : List Tree) :
    anyReadsOwnBinding source ts = (ts.filter named).anyM (readsOwnBinding source) := by
  induction ts with
  | nil => rfl
  | cons t ts ih =>
    cases hnamed : t.named with
    | false => simpa [anyReadsOwnBinding, hnamed] using ih
    | true =>
      rw [anyReadsOwnBinding, List.filter_cons_of_pos hnamed, List.anyM, ← ih, hnamed]
      refine congrArg (readsOwnBinding source t >>= ·) (funext fun found => ?_)
      cases found <;> rfl

/-- The search for own bindings is right if it answers. -/
theorem readsOwnBinding_iff {t : Tree} {found : Bool} (h : t.readsOwnBinding source = .ok found) :
    found = true ↔ t.Has ownScope (IsOwnBinding source ["identifier"]) := by
  induction t using Tree.induction_children generalizing found with
  | step t ih =>
    cases t with
    | node label fields children =>
      rw [readsOwnBinding] at h
      rw [has_iff]
      split at h
      case isTrue hkind =>
        -- `this` and `super` are seen at once
        cases h
        have hown : (node label fields children).IsOwnBinding source ["identifier"] := by
          rcases hkind with hkind | hkind
          · exact .inl hkind
          · exact .inr (.inl hkind)
        simp [hown]
      case isFalse hkind =>
        have hown : (node label fields children).IsOwnBinding source ["identifier"] ↔
            (node label fields children).IsName source ["identifier"] "arguments" := by
          simp only [IsOwnBinding, kind, label_node, ← or_assoc]
          exact or_iff_right hkind
        rw [hown]
        split at h
        case isTrue hname =>
          -- a name is compared and has no parts
          obtain ⟨text, htext, h⟩ := bind_eq_ok_iff.mp h
          cases h
          simp [IsName, ownScope, kind, hname, htext]
        case isFalse hname =>
          have hnot : ¬ (node label fields children).IsName source ["identifier"] "arguments" := by
            simp [IsName, kind, hname]
          split at h
          -- a function that binds its own is closed, so nothing in it counts
          case isTrue hbinds =>
            cases h
            simp [hnot, ownScope, hbinds]
          case isFalse hbinds =>
            have hopen : (node label fields children).ownScope = false := by
              simp [ownScope, hbinds, kind, hname]
            rw [anyReadsOwnBinding_eq] at h
            rw [anyM_iff (fun u hu => ih u (List.mem_filter.mp hu |>.1)) h]
            simp [hnot, hopen, HasBelow, namedChildren]

/-- The search for a name in a construct: the construct itself, if it is a name, and what is below
it. -/
def mentionsHere (source name : String) (t : Tree) : Cut Bool := do
  if t.kind = "identifier" then
    if (← t.text source) = name then
      return true
  t.mentions source name

/-- So is the search for a name. -/
theorem anyMentions_eq (ts : List Tree) :
    anyMentions source name ts = (ts.filter named).anyM (mentionsHere source name) := by
  induction ts with
  | nil => rfl
  | cons t ts ih =>
    cases hnamed : t.named with
    | false => simpa [anyMentions, hnamed] using ih
    | true =>
      rw [anyMentions, List.filter_cons_of_pos hnamed, List.anyM, ← ih, hnamed, mentionsHere]
      -- without the name in this place both go on below it, and then with the other trees
      have hbelow : (do if ← t.mentions source name then return true
                        anyMentions source name ts) =
          t.mentions source name >>= fun found => match found with
            | true => pure true
            | false => anyMentions source name ts := by
        refine congrArg (t.mentions source name >>= ·) (funext fun found => ?_)
        cases found <;> rfl
      by_cases hkind : t.kind = "identifier"
      · simp only [if_true, if_pos hkind, bind_assoc]
        refine congrArg (t.text source >>= ·) (funext fun text => ?_)
        split
        · rfl
        · exact hbelow
      · simp only [if_true, if_neg hkind]
        exact hbelow

/-- The search for a name is right if it answers. -/
theorem mentions_iff {t : Tree} {found : Bool} (h : t.mentions source name = .ok found) :
    found = true ↔ t.HasBelow (fun _ => false) (IsName source ["identifier"] name) := by
  induction t using Tree.induction_children generalizing found with
  | step t ih =>
    cases t with
    | node label fields children =>
      rw [mentions, anyMentions_eq] at h
      refine anyM_iff (fun u hu found hfound => ?_) h
      have hbelow {b : Bool} (hb : u.mentions source name = .ok b) :
          b = true ↔ u.HasBelow (fun _ => false) (IsName source ["identifier"] name) :=
        ih u (List.mem_filter.mp hu).1 hb
      -- a child is looked at itself before the search goes below it
      unfold mentionsHere at hfound
      rw [has_iff]
      split at hfound
      case isTrue hkind =>
        obtain ⟨text, htext, hfound⟩ := bind_eq_ok_iff.mp hfound
        split at hfound
        case isTrue hname =>
          cases hfound
          simp [IsName, hkind, htext, hname]
        case isFalse hname => simp [IsName, htext, hname, hbelow hfound]
      case isFalse hkind => simp [IsName, hkind, hbelow hfound]

/-! ## §4 Searches for constructs -/

section

variable {stops : List String} {test : Tree → Bool}

/-- The search is not to look into the construct. -/
def stopsAt (stops : List String) (t : Tree) : Bool :=
  functionKinds.contains t.kind || stops.contains t.kind

/-- And so is the search for a construct, which looks into those that do not stop it. -/
theorem anyWithin_iff (ts : List Tree) :
    anyWithin stops test ts = true ↔ ∃ u ∈ ts, u.named = true ∧
      (test u = true ∨ u.stopsAt stops = false ∧ u.containsWithin stops test = true) := by
  induction ts with
  | nil => simp [anyWithin]
  | cons t ts ih =>
    rw [anyWithin, Bool.or_eq_true, ih]
    simp [stopsAt, and_assoc]

/-- The search for a construct finds one exactly if there is one below the node. -/
theorem containsWithin_iff {t : Tree} :
    t.containsWithin stops test = true ↔ t.HasBelow (stopsAt stops) (fun u => test u = true) := by
  induction t using Tree.induction_children with
  | step t ih =>
    cases t with
    | node label fields children =>
      rw [containsWithin, anyWithin_iff]
      simp only [HasBelow, namedChildren, children_node, List.mem_filter, and_assoc]
      refine exists_congr fun u => and_congr_right fun hu => and_congr_right fun _ => ?_
      rw [has_iff, ih u hu]

end

end Tree

end CodeActions
