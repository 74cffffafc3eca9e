import CodeActions.Edit.Json
import CodeActions.Proofs.Text.Slice

/-!
# Edits and their JSON

An edit leaves the program as JSON and can come back. A JSON object is a table of names: its entries
mean the same in any order, and whoever passes the object on may reorder them. So an edit has to be
read back from every object that is the same in this sense, and no two edits may be written as the
same value.

A replacement and a segment have several forms, which an entry tells apart. The entry is looked up
by its name, so it does not matter where it stands. The offsets, rows and columns of an edit are
read as numbers of 64 bits, and larger ones are refused.

Main statements: `Json.Same.record?`, `Segment.readsBack`, `Replacement.readsBack`, `Edit.readsBack`
and `Edit.json_loses_nothing`.
-/

namespace CodeActions

/-! ## §1 Objects as tables -/

namespace Json

/-- The values differ at most in the order of entries: each name has the same value in both
objects. -/
inductive Same : Json → Json → Prop where
  | refl (j : Json) : Same j j
  | arr {items items' : List Json} (h : List.Forall₂ Same items items') :
      Same (.arr items) (.arr items')
  | obj {entries entries' : List (String × Json)}
      (h : ∀ name, Option.Rel Same (entries.lookup name) (entries'.lookup name)) :
      Same (.obj entries) (.obj entries')

/-- Where no name occurs twice, the value of a name does not depend on the order. -/
theorem lookup_eq_of_perm {entries entries' : List (String × Json)} (hperm : entries.Perm entries')
    (hnames : (entries.map Prod.fst).Nodup) (name : String) :
    entries.lookup name = entries'.lookup name := by
  induction hperm with
  | nil => rfl
  -- both look at the same entry first
  | cons entry _ ih =>
    obtain ⟨key, value⟩ := entry
    simp only [List.map_cons, List.nodup_cons] at hnames
    simp only [List.lookup_cons, ih hnames.2]
  | swap first second rest =>
    obtain ⟨key, value⟩ := first
    obtain ⟨key', value'⟩ := second
    -- at most one of the two has the name
    have hne : key' ≠ key := by
      simp only [List.map_cons, List.nodup_cons, List.mem_cons, not_or] at hnames
      exact hnames.1.1
    simp only [List.lookup_cons]
    by_cases hkey : name = key
    · subst hkey
      simp [beq_false_of_ne hne.symm]
    · simp [beq_false_of_ne hkey]
  | trans hperm _ ih ih' =>
    -- a reordering has the same names, so they still differ
    rw [ih hnames, ih' ((hperm.map Prod.fst).nodup_iff.mp hnames)]

namespace Same

variable {j j' : Json} {entries entries' : List (String × Json)} {items : List Json}

theorem rel_refl (value? : Option Json) : Option.Rel Same value? value? := by
  cases value? with
  | none => exact .none
  | some j => exact .some (.refl j)

/-- Entries with different names can be put in any order, and each value can be exchanged for the
same one. -/
theorem of_perm {middle : List (String × Json)} (hperm : entries.Perm middle)
    (hnames : (entries.map Prod.fst).Nodup)
    (hvalues : List.Forall₂ (fun entry entry' => entry.1 = entry'.1 ∧ Same entry.2 entry'.2)
      middle entries') :
    Same (.obj entries) (.obj entries') := by
  apply Same.obj
  intro name
  rw [lookup_eq_of_perm hperm hnames]
  -- from here on the names may repeat: both sides find the first entry
  clear hperm hnames
  induction hvalues with
  | nil => exact .none
  | @cons entry entry' _ _ hentry _ ih =>
    obtain ⟨key, value⟩ := entry
    obtain ⟨key', value'⟩ := entry'
    obtain ⟨rfl, hsame⟩ := hentry
    simp only [List.lookup_cons]
    cases name == key with
    | true => exact .some hsame
    | false => exact ih

/-- Two entries can change places. -/
theorem swap {name name' : String} {i i' : Json} (hne : name ≠ name') (h : Same j i)
    (h' : Same j' i') :
    Same (.obj [(name, j), (name', j')]) (.obj [(name', i'), (name, i)]) :=
  of_perm (.swap (name', j') (name, j) []) (by simp [hne]) (.cons ⟨rfl, h'⟩ (.cons ⟨rfl, h⟩ .nil))

@[simp] theorem nat_iff {n : Nat} : Same (.nat n) j ↔ j = .nat n :=
  ⟨fun h => by cases h; rfl, fun h => h ▸ .refl _⟩

@[simp] theorem str_iff {s : String} : Same (.str s) j ↔ j = .str s :=
  ⟨fun h => by cases h; rfl, fun h => h ▸ .refl _⟩

/-- Only a list is the same as a list, item by item. -/
theorem exists_items (h : Same (.arr items) j) :
    ∃ items', j = .arr items' ∧ List.Forall₂ Same items items' := by
  cases h with
  | refl => exact ⟨items, rfl, List.forall₂_same.mpr fun j _ => .refl j⟩
  | arr h => exact ⟨_, rfl, h⟩

/-- Only an object is the same as an object, name by name. -/
theorem exists_entries (h : Same (.obj entries) j) :
    ∃ entries', j = .obj entries' ∧
      ∀ name, Option.Rel Same (entries.lookup name) (entries'.lookup name) := by
  cases h with
  | refl => exact ⟨entries, rfl, fun name => rel_refl _⟩
  | obj h => exact ⟨_, rfl, h⟩

/-- An entry that one object has is in the other one as well. -/
theorem exists_lookup {name : String} {value : Json} (hentry : entries.lookup name = some value)
    (h : Option.Rel Same (entries.lookup name) (entries'.lookup name)) :
    ∃ value', entries'.lookup name = some value' ∧ Same value value' := by
  rw [hentry] at h
  cases hentry' : entries'.lookup name with
  | none => rw [hentry'] at h; cases h
  | some value' =>
    rw [hentry'] at h
    cases h with
    | some h => exact ⟨value', rfl, h⟩

/-- A record is found in both values, with the same fields. -/
theorem record? (h : Same j j') (names : List String) {fields : List Json}
    (hfields : j.record? names = some fields) :
    ∃ fields', j'.record? names = some fields' ∧ List.Forall₂ Same fields fields' := by
  cases h with
  | refl => exact ⟨fields, hfields, List.forall₂_same.mpr fun j _ => .refl j⟩
  -- fields may also stand in a list, in the order of their names
  | @arr items items' h =>
    simp only [Json.record?, Option.ite_none_right_eq_some] at hfields
    obtain ⟨hlength, ⟨⟩⟩ := hfields
    exact ⟨items', by simp [Json.record?, ← h.length_eq, hlength], h⟩
  | @obj entries entries' h =>
    simp only [Json.record?, mapM_eq_some_iff] at hfields ⊢
    -- name by name
    induction hfields with
    | nil => exact ⟨[], .nil, .nil⟩
    | cons hentry _ ih =>
      obtain ⟨value', hvalue', hsame⟩ := exists_lookup hentry (h _)
      obtain ⟨fields', hfields', hall⟩ := ih
      exact ⟨value' :: fields', .cons hvalue' hfields', .cons hsame hall⟩

/-- Fields that have only one form are found as they are. -/
theorem record?_eq (h : Same j j') {names : List String} {fields : List Json}
    (hfields : j.record? names = some fields)
    (hform : ∀ field ∈ fields, ∀ other, Same field other → other = field) :
    j'.record? names = some fields := by
  obtain ⟨fields', hfields', hall⟩ := h.record? names hfields
  suffices heq : fields' = fields by rw [hfields', heq]
  clear hfields hfields'
  induction hall with
  | nil => rfl
  | cons hfield _ ih =>
    simp only [List.forall_mem_cons] at hform
    rw [hform.1 _ hfield, ih hform.2]

end Same

/-! ## §2 Values that are read back -/

variable {α : Type} {write : α → Json} {read? : Json → Option α}

/-- The value is read back from what is written for it, in whatever order the entries are. -/
def ReadsBack (write : α → Json) (read? : Json → Option α) (x : α) : Prop :=
  ∀ j, (write x).Same j → read? j = some x

/-- No two values are written as the same JSON. -/
def TellsApart (write : α → Json) : Prop := ∀ x y, (write x).Same (write y) → x = y

/-- What is read back is not written like anything else. -/
theorem tellsApart_of_readsBack (h : ∀ x, ReadsBack write read? x) : TellsApart write := by
  intro x y hsame
  -- read the second value: it gives the first one, and it gives itself
  have hx : read? (write y) = some x := h x _ hsame
  have hy : read? (write y) = some y := h y _ (.refl _)
  exact Option.some.inj (hx.symm.trans hy)

/-- A list is read back item by item. -/
theorem mapM_of_readsBack (h : ∀ x, ReadsBack write read? x) {xs : List α} {items : List Json}
    (hitems : List.Forall₂ Same (xs.map write) items) : items.mapM read? = some xs := by
  rw [List.forall₂_map_left_iff] at hitems
  rw [mapM_eq_some_iff]
  exact (hitems.imp fun x j hsame => h x j hsame).flip

theorem natBelow?_nat {bound n : Nat} (h : n < bound) : (Json.nat n).natBelow? bound = some n := by
  simp [natBelow?, h]

end Json

open Json (Same ReadsBack TellsApart)

/-! ## §3 Spans and positions -/

/-- Both offsets are numbers of 64 bits. -/
def Span.FitsWords (s : Span) : Prop := s.start < Unsigned.bound64 ∧ s.stop < Unsigned.bound64

/-- The row and the column are numbers of 64 bits. -/
def Position.FitsWords (p : Position) : Prop :=
  p.row < Unsigned.bound64 ∧ p.column < Unsigned.bound64

instance (s : Span) : Decidable s.FitsWords := inferInstanceAs (Decidable (_ ∧ _))

instance (p : Position) : Decidable p.FitsWords := inferInstanceAs (Decidable (_ ∧ _))

theorem Span.record?_toJson (s : Span) :
    s.toJson.record? ["start", "end"] = some [.nat s.start, .nat s.stop] := rfl

theorem Position.record?_toJson (p : Position) :
    p.toJson.record? ["row", "column"] = some [.nat p.row, .nat p.column] := rfl

/-- A span is read back as long as its offsets are not too large. -/
theorem Span.readsBack {s : Span} (h : s.FitsWords) : ReadsBack toJson ofJson? s := by
  intro j hsame
  have hfields := hsame.record?_eq s.record?_toJson (by simp)
  simp [ofJson?, hfields, Json.offset?, Json.natBelow?_nat h.1, Json.natBelow?_nat h.2]

/-- So is a position. -/
theorem Position.readsBack {p : Position} (h : p.FitsWords) : ReadsBack toJson ofJson? p := by
  intro j hsame
  have hfields := hsame.record?_eq p.record?_toJson (by simp)
  simp [ofJson?, hfields, Json.offset?, Json.natBelow?_nat h.1, Json.natBelow?_nat h.2]

/-- Spans are told apart whatever their offsets are, also those that would not be read back. -/
theorem Span.tellsApart : TellsApart toJson := by
  rintro ⟨start, stop⟩ ⟨start', stop'⟩ hsame
  -- the numbers stand in the JSON in full, so it is not read but compared
  have hfields := hsame.record?_eq (record?_toJson _) (by simp)
  simpa [record?_toJson, eq_comm] using hfields

theorem Position.tellsApart : TellsApart toJson := by
  rintro ⟨row, column⟩ ⟨row', column'⟩ hsame
  have hfields := hsame.record?_eq (record?_toJson _) (by simp)
  simpa [record?_toJson, eq_comm] using hfields

/-! ## §4 Snippets -/

/-- The type of a segment is looked up by its name, wherever it stands. -/
theorem Segment.ofJson?_of_same {entries : List (String × Json)} {word : String} {j : Json}
    (hword : entries.lookup "type" = some (.str word)) (hsame : Same (.obj entries) j) :
    ofJson? j = ofFields? word j := by
  obtain ⟨entries', rfl, hentries⟩ := hsame.exists_entries
  obtain ⟨value, hvalue, hsame⟩ := Same.exists_lookup hword (hentries "type")
  obtain rfl : value = .str word := Same.str_iff.mp hsame
  simp [ofJson?, hvalue, Json.str?]

/-- Each form of a segment is found by its type, and then its fields by their names. -/
theorem Segment.readsBack (segment : Segment) : ReadsBack toJson ofJson? segment := by
  intro j hsame
  cases segment with
  | text value =>
    have hfields : j.record? ["value"] = some [.str value] := hsame.record?_eq rfl (by simp)
    rw [ofJson?_of_same rfl hsame]
    simp [ofFields?, hfields, Json.str?]
  -- the index is a number of 32 bits already, so none is too large
  | placeholder index initial =>
    have hfields : j.record? ["index", "default"] = some [.nat index.toNat, .str initial] :=
      hsame.record?_eq rfl (by simp)
    rw [ofJson?_of_same rfl hsame]
    simp [ofFields?, hfields, Json.str?, Json.natBelow?_nat index.toNat_lt_size]
  | cursor =>
    have hfields : j.record? [] = some [] := hsame.record?_eq rfl (by simp)
    rw [ofJson?_of_same rfl hsame]
    simp [ofFields?, hfields]

/-- A snippet is read back segment by segment. -/
theorem Snippet.readsBack (s : Snippet) : ReadsBack toJson ofJson? s := by
  intro j hsame
  obtain ⟨fields, hfields, hall⟩ := hsame.record? ["segments"] rfl
  -- the record has one field, and that is a list
  obtain ⟨segments, _, hsegments, hnil, rfl⟩ := List.forall₂_cons_left_iff.mp hall
  obtain rfl := List.forall₂_nil_left_iff.mp hnil
  obtain ⟨items, rfl, hitems⟩ := hsegments.exists_items
  simp [ofJson?, hfields, Json.arr?, Json.mapM_of_readsBack Segment.readsBack hitems]

/-! ## §5 Edits -/

/-- A replacement is read back in its form, which its kind tells. -/
theorem Replacement.readsBack (replacement : Replacement) :
    ReadsBack toJson ofJson? replacement := by
  intro j hsame
  cases replacement with
  | text value =>
    have hfields : j.record? ["kind", "value"] = some [.str "text", .str value] :=
      hsame.record?_eq rfl (by simp)
    simp [ofJson?, hfields, Json.tag?, Json.str?]
  -- the snippet may have been reordered as well, so the field is only the same and not equal
  | snippet value =>
    obtain ⟨fields, hfields, hall⟩ := hsame.record? ["kind", "value"] rfl
    obtain ⟨j', hsnippet, rfl⟩ : ∃ j', value.toJson.Same j' ∧ fields = [.str "snippet", j'] := by
      simpa [List.forall₂_cons_left_iff] using hall
    simp [ofJson?, hfields, Json.tag?, value.readsBack j' hsnippet]

/-- All offsets, rows and columns of the edit are numbers of 64 bits. -/
structure Edit.FitsWords (e : Edit) : Prop where
  span : e.span.FitsWords
  start : e.start.FitsWords
  stop : e.stop.FitsWords

namespace Edit

theorem record?_toJson (e : Edit) : e.toJson.record? ["range", "start", "end", "replacement"] =
    some [e.span.toJson, e.start.toJson, e.stop.toJson, e.replacement.toJson] := rfl

/-- An edit is read back field by field. -/
theorem readsBack {e : Edit} (h : e.FitsWords) : ReadsBack toJson ofJson? e := by
  intro j hsame
  obtain ⟨fields, hfields, hall⟩ := hsame.record? _ e.record?_toJson
  match fields, hall with
  | [span, start, stop, replacement],
      .cons hspan (.cons hstart (.cons hstop (.cons hreplacement .nil))) =>
    simp [ofJson?, hfields, Span.readsBack h.span span hspan,
      Position.readsBack h.start start hstart, Position.readsBack h.stop stop hstop,
      e.replacement.readsBack replacement hreplacement]

/-- Edits are told apart field by field. -/
theorem tellsApart : TellsApart toJson := by
  rintro ⟨span, start, stop, replacement⟩ ⟨span', start', stop', replacement'⟩ hsame
  obtain ⟨fields, hfields, hall⟩ := hsame.record? _ (record?_toJson _)
  obtain rfl := Option.some.inj ((record?_toJson _).symm.trans hfields)
  simp only [List.forall₂_cons] at hall
  obtain ⟨hspan, hstart, hstop, hreplacement, _⟩ := hall
  rw [Span.tellsApart _ _ hspan, Position.tellsApart _ _ hstart, Position.tellsApart _ _ hstop,
    Json.tellsApart_of_readsBack Replacement.readsBack _ _ hreplacement]

/-- An edit of 64-bit numbers is read back from its JSON, also if entries have been reordered on the
way, and makes of every text what it made before. Whatever their numbers, no two edits, no two
replacements and no two segments are written as the same JSON, and so neither a text is taken for a
snippet nor one form of a segment for another. -/
theorem json_loses_nothing :
    (∀ e : Edit, e.FitsWords → ∀ j, e.toJson.Same j → ofJson? j = some e ∧
      ∀ source, (ofJson? j).map (fun decoded => decoded.applyTo source) = some (e.applyTo source)) ∧
    (∀ e e' : Edit, e.toJson.Same e'.toJson → e = e') ∧
    (∀ r r' : Replacement, r.toJson.Same r'.toJson → r = r') ∧
    ∀ s s' : Segment, s.toJson.Same s'.toJson → s = s' := by
  refine ⟨fun e hfits j hsame => ?_, tellsApart, Json.tellsApart_of_readsBack Replacement.readsBack,
    Json.tellsApart_of_readsBack Segment.readsBack⟩
  have hread : ofJson? j = some e := readsBack hfits j hsame
  exact ⟨hread, fun source => by rw [hread, Option.map_some]⟩

end Edit

namespace Sample

/-- A segment of each form. -/
def threeForms : Snippet := ⟨[.text "cursor", .placeholder 4294967295 "", .cursor]⟩

/-- The JSON of the snippet with the type of the text behind its value. -/
def typeLast : Json :=
  .obj [("segments", .arr [.obj [("value", .str "cursor"), ("type", .str "text")],
    .obj [("type", .str "placeholder"), ("index", .nat 4294967295), ("default", .str "")],
    .obj [("type", .str "cursor")]])]

/-- The snippet in place of a backward span, with the largest numbers there are. -/
def extremeEdit : Edit :=
  ⟨⟨18446744073709551615, 0⟩, ⟨0, 18446744073709551615⟩, ⟨7, 1⟩, .snippet threeForms⟩

/-- The JSON of the edit with its entries in reverse. -/
def reordered : Json :=
  .obj [("replacement", .obj [("value", typeLast), ("kind", .str "snippet")]),
    ("end", .obj [("column", .nat 1), ("row", .nat 7)]),
    ("start", .obj [("column", .nat 18446744073709551615), ("row", .nat 0)]),
    ("range", .obj [("end", .nat 0), ("start", .nat 18446744073709551615)])]

end Sample

open Sample in
/-- The edit is read back from its JSON in another order. An empty text is not written like an empty
snippet. -/
theorem Edit.json_loses_nothing_reordered :
    extremeEdit.FitsWords ∧ extremeEdit.toJson.Same reordered ∧
      Edit.ofJson? reordered = some extremeEdit ∧
      ¬ (Replacement.text "").toJson.Same (Replacement.snippet ⟨[]⟩).toJson := by
  have hfits : extremeEdit.FitsWords := ⟨by decide, by decide, by decide⟩
  have hsnippet : threeForms.toJson.Same typeLast := by
    refine .of_perm (.refl _) (by simp)
      (.cons ⟨rfl, .arr (.cons ?_ (.cons (.refl _) (.cons (.refl _) .nil)))⟩ .nil)
    exact .swap (by simp) (.refl _) (.refl _)
  -- the four entries come in reverse, and inside of each the entries have changed places
  have hsame : extremeEdit.toJson.Same reordered := by
    refine .of_perm (List.reverse_perm _).symm (by simp)
      (.cons ⟨rfl, ?_⟩ (.cons ⟨rfl, ?_⟩ (.cons ⟨rfl, ?_⟩ (.cons ⟨rfl, ?_⟩ .nil))))
    · exact .swap (by simp) (.refl _) hsnippet
    · exact .swap (by simp) (.refl _) (.refl _)
    · exact .swap (by simp) (.refl _) (.refl _)
    · exact .swap (by simp) (.refl _) (.refl _)
  obtain ⟨hread, _, hreplacement, _⟩ := Edit.json_loses_nothing
  exact ⟨hfits, hsame, (hread _ hfits _ hsame).1, fun h => nomatch hreplacement _ _ h⟩

end CodeActions
