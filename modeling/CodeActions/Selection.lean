import CodeActions.Position
import CodeActions.Text.Blank
import CodeActions.Text.Unsigned

/-!
# Selections

A selection is written as one place or as two with a dash between them. A place is a line and a
column, both counted from one, with a colon between them and white space allowed around each.
-/

namespace CodeActions

/-- Two places of a text; a cursor has both in one. -/
structure Selection where
  start : Position
  stop : Position
  deriving Repr, DecidableEq, Inhabited

/-- Why a text is no selection. Each fault names the place that has it. -/
inductive SelectionError where
  | noColon (place : String)
  | badLine (place : String) (cause : UnsignedError)
  | badColumn (place : String) (cause : UnsignedError)
  /-- Lines and columns are counted from one. -/
  | zero (place : String)
  deriving Repr, DecidableEq

namespace SelectionError

/-- The wording of each fault. -/
def message : SelectionError → String
  | noColon place => s!"Expected LINE:COL, got '{place}'"
  | badLine place _ => s!"Bad line number in '{place}'"
  | badColumn place _ => s!"Bad column number in '{place}'"
  | zero place => s!"Lines and columns start at 1, got '{place}'"

/-- What is wrong with the number, if it is a number that is wrong. -/
def cause? : SelectionError → Option UnsignedError
  | badLine _ cause | badColumn _ cause => some cause
  | noColon _ | zero _ => none

end SelectionError

/-- What stands before and after the first occurrence of a character. -/
def Text.splitOnce? (mark : Char) : List Char → Option (List Char × List Char)
  | [] => none
  | c :: cs =>
    if c = mark then some ([], cs)
    else (splitOnce? mark cs).map fun (front, back) => (c :: front, back)

/-- A text is split at the first occurrence of the mark. -/
theorem Text.splitOnce?_eq_some_iff {mark : Char} {cs front back : List Char} :
    splitOnce? mark cs = some (front, back) ↔ cs = front ++ mark :: back ∧ mark ∉ front := by
  induction cs generalizing front with
  | nil => simp [splitOnce?]
  | cons c cs ih =>
    unfold splitOnce?
    by_cases hc : c = mark
    · subst hc
      cases front with
      | nil => simp [eq_comm]
      | cons c' front => simp +contextual [eq_comm]
    · cases front with
      | nil => simp [hc]
      | cons c' front =>
        simp only [hc, if_false, Option.map_eq_some_iff, Prod.mk.injEq, List.cons.injEq,
          Prod.exists]
        grind

theorem Text.splitOnce?_eq_none_iff {mark : Char} {cs : List Char} :
    splitOnce? mark cs = none ↔ mark ∉ cs := by
  induction cs with
  | nil => simp [splitOnce?]
  | cons c cs ih =>
    unfold splitOnce?
    by_cases hc : c = mark
    · simp [hc]
    · simp [hc, Ne.symm hc, ih]

namespace Selection

/-- A cursor at the start of a text. -/
def atOrigin : Selection := ⟨.origin, .origin⟩

/-- A number with white space around it. -/
def parseNumber (cs : List Char) : Except UnsignedError Nat :=
  Unsigned.parse Unsigned.bound64 (Text.trim cs)

/-- A place, the line before the column. -/
def parsePlace (cs : List Char) : Except SelectionError Position :=
  match Text.splitOnce? ':' cs with
  | none => .error (.noColon (String.ofList cs))
  | some (line, column) =>
    match parseNumber line with
    | .error cause => .error (.badLine (String.ofList cs) cause)
    | .ok line =>
      match parseNumber column with
      | .error cause => .error (.badColumn (String.ofList cs) cause)
      | .ok column =>
        if line = 0 ∨ column = 0 then .error (.zero (String.ofList cs))
        else .ok ⟨line - 1, column - 1⟩

/-- One place, or two with a dash between them. -/
def parse (cs : List Char) : Except SelectionError Selection :=
  match Text.splitOnce? '-' cs with
  | none => do
    let place ← parsePlace cs
    return ⟨place, place⟩
  | some (start, stop) => do
    return ⟨← parsePlace start, ← parsePlace stop⟩

end Selection

end CodeActions
