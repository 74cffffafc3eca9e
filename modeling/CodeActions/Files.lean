import CodeActions.FileName

/-!
# Files

The files that a session can read and write. A file is reached by a path; different paths can lead
to one file, and a path can lead nowhere.
-/

namespace CodeActions

/-- Texts by name, and the name that each path leads to. -/
structure Files where
  entries : List (String × String) := []
  /-- The name that a path leads to. A path that leads nowhere can be neither read nor written. -/
  locate : String → Option String := FileName.here?

namespace Files

/-- The text that a path leads to. -/
def read? (files : Files) (path : String) : Option String := do
  files.entries.lookup (← files.locate path)

/-- The text that a path leads to, or the reason why there is none. -/
def read (files : Files) (path : String) : Except FileName.PathError String :=
  match files.read? path with
  | some text => .ok text
  | none =>
    .error (FileName.obstacle
      (fun name => (files.entries.lookup (String.ofList name)).isSome) path.toList)

/-- The entries with a text under a name. A new name goes to the end. -/
def insert (name text : String) : List (String × String) → List (String × String)
  | [] => [(name, text)]
  | (other, old) :: rest =>
    if other = name then (other, text) :: rest else (other, old) :: insert name text rest

/-- The files after a text was written to a path. -/
def write? (files : Files) (path text : String) : Option Files := do
  let name ← files.locate path
  return { files with entries := insert name text files.entries }

/-! ## Reading what was written -/

theorem lookup_insert (name text other : String) (entries : List (String × String)) :
    (insert name text entries).lookup other =
      if other = name then some text else entries.lookup other := by
  induction entries with
  | nil =>
    by_cases h : other = name
    · simp [insert, h]
    · have hne : (other == name) = false := by simpa using h
      simp [insert, List.lookup_cons, h, hne]
  | cons e rest ih =>
    obtain ⟨key, old⟩ := e
    by_cases hk : key = name
    · by_cases h : other = name
      · simp [insert, hk, h]
      · have hne : (other == name) = false := by simpa using h
        simp [insert, List.lookup_cons, hk, h, hne]
    · by_cases h : other = key
      · subst h
        simp [insert, hk]
      · have hne : (other == key) = false := by simpa using h
        simp [insert, List.lookup_cons, hk, hne, ih]

/-- A path leads to the written text if it leads to the same name as the path that was written;
otherwise it leads to what it led to before. -/
theorem read?_write? {files files' : Files} {path text : String}
    (h : files.write? path text = some files') (other : String) :
    files'.read? other =
      if files.locate other = files.locate path then some text else files.read? other := by
  cases hp : files.locate path with
  | none => simp [write?, hp] at h
  | some name =>
    obtain rfl : { files with entries := insert name text files.entries } = files' := by
      simpa [write?, hp] using h
    cases ho : files.locate other with
    | none => simp [read?, ho]
    | some otherName => simp [read?, ho, lookup_insert]

end Files

end CodeActions
