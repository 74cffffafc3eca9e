import CodeActions.Edit.Basic
import CodeActions.Json.Basic
import CodeActions.Text.Unsigned

/-!
# Edits as JSON

An edit is an object of its parts. A replacement says by its `kind` whether it is a text or a
snippet, and a segment of a snippet by its `type` which of the three it is.
-/

namespace CodeActions

/-- A word that selects one of several forms: the word alone, or as the only key of an object that
holds nothing. -/
def Json.tag? : Json → Option String
  | .str word => some word
  | .obj [(word, .null)] => some word
  | _ => none

/-- A number that fits in 64 bits. -/
def Json.offset? (j : Json) : Option Nat := j.natBelow? Unsigned.bound64

/-! ## §1 Writing -/

def Span.toJson (s : Span) : Json := .obj [("start", .nat s.start), ("end", .nat s.stop)]

def Position.toJson (p : Position) : Json := .obj [("row", .nat p.row), ("column", .nat p.column)]

def Segment.toJson : Segment → Json
  | .text value => .obj [("type", .str "text"), ("value", .str value)]
  | .placeholder index initial =>
    .obj [("type", .str "placeholder"), ("index", .nat index.toNat), ("default", .str initial)]
  | .cursor => .obj [("type", .str "cursor")]

def Snippet.toJson (s : Snippet) : Json := .obj [("segments", .arr (s.segments.map Segment.toJson))]

def Replacement.toJson : Replacement → Json
  | .text value => .obj [("kind", .str "text"), ("value", .str value)]
  | .snippet value => .obj [("kind", .str "snippet"), ("value", value.toJson)]

def Edit.toJson (e : Edit) : Json :=
  .obj [("range", e.span.toJson), ("start", e.start.toJson), ("end", e.stop.toJson),
    ("replacement", e.replacement.toJson)]

/-! ## §2 Reading

Entries that are not asked for are passed over, and every record may also stand as the list of its
fields. -/

def Span.ofJson? (j : Json) : Option Span := do
  match ← j.record? ["start", "end"] with
  | [start, stop] => return ⟨← start.offset?, ← stop.offset?⟩
  | _ => none

def Position.ofJson? (j : Json) : Option Position := do
  match ← j.record? ["row", "column"] with
  | [row, column] => return ⟨← row.offset?, ← column.offset?⟩
  | _ => none

/-- A segment of the type that the word names, from the fields. -/
def Segment.ofFields? (word : String) (fields : Json) : Option Segment := do
  if word = "text" then
    match ← fields.record? ["value"] with
    | [value] => return .text (← value.str?)
    | _ => none
  else if word = "placeholder" then
    match ← fields.record? ["index", "default"] with
    | [index, initial] =>
        return .placeholder (UInt32.ofNat (← index.natBelow? UInt32.size)) (← initial.str?)
    | _ => none
  else if word = "cursor" then
    let _ ← fields.record? []
    return .cursor
  else
    none

def Segment.ofJson? : Json → Option Segment
  | .obj entries => do
    let word ← (← entries.lookup "type").str?
    ofFields? word (.obj entries)
  | .arr (word :: fields) => do ofFields? (← word.str?) (.arr fields)
  | _ => none

def Snippet.ofJson? (j : Json) : Option Snippet := do
  match ← j.record? ["segments"] with
  | [segments] => return ⟨← (← segments.arr?).mapM Segment.ofJson?⟩
  | _ => none

def Replacement.ofJson? (j : Json) : Option Replacement := do
  match ← j.record? ["kind", "value"] with
  | [kind, value] =>
    let word ← kind.tag?
    if word = "text" then
      return .text (← value.str?)
    else if word = "snippet" then
      return .snippet (← Snippet.ofJson? value)
    else
      none
  | _ => none

def Edit.ofJson? (j : Json) : Option Edit := do
  match ← j.record? ["range", "start", "end", "replacement"] with
  | [span, start, stop, replacement] =>
    return ⟨← Span.ofJson? span, ← Position.ofJson? start, ← Position.ofJson? stop,
      ← Replacement.ofJson? replacement⟩
  | _ => none

end CodeActions
