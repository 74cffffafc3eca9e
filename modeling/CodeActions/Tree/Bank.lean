import CodeActions.Document
import CodeActions.Json.Basic
import CodeActions.Tree.Rows

/-!
# Tree banks

A tree bank holds the trees of texts that were parsed elsewhere. A text is found by its dialect and
its fingerprint, so the bank need not hold the texts themselves.

As JSON a bank is a list of entries. An entry is an object with

- `dialect` and `hash`, the fingerprint as hexadecimal digits;
- `kinds`, a list of strings, and `nodes`, a flat list of numbers, five for each node in the order
  of `Tree.rows`: which kind, the marks, the two ends of the span, the number of children. The marks
  add up 1 for a named node, 2 for an error, 4 for a missing token and 8 for a tree that has one of
  these;
- `fields`, a list of strings, and `links`, a flat list of numbers, three for each field of a node:
  which node, which field, which child. Both may be left out.
-/

namespace CodeActions

/-! ## §1 Fingerprints -/

/-- One byte of a fingerprint: it is mixed in, then the whole is multiplied by a fixed prime. -/
def Text.mixByte (hash : UInt64) (byte : UInt8) : UInt64 :=
  (hash ^^^ byte.toUInt64) * 0x100000001b3

/-- The fingerprint of a text: its bytes in UTF-8, mixed in one after the other. -/
def Text.fingerprint (s : String) : UInt64 :=
  s.toUTF8.toList.foldl mixByte 0xcbf29ce484222325

/-! ## §2 Banks -/

/-- The tree of one text. -/
structure Tree.Entry where
  dialect : Dialect
  hash : UInt64
  tree : Tree
  deriving Inhabited

/-- Trees of texts that were parsed elsewhere. -/
structure Tree.Bank where
  entries : List Tree.Entry := []
  deriving Inhabited

/-- The tree of a text that nobody parsed: a single error. -/
def Tree.unparsed (source : String) : Tree :=
  .node
    { kind := "ERROR", span := ⟨0, Text.byteSize source⟩, isError := true, hasError := true } [] []

namespace Tree.Bank

/-- The parser that looks texts up. -/
def parser (bank : Bank) : Parser := fun dialect source =>
  let hash := Text.fingerprint source
  match bank.entries.find? fun e => e.dialect == dialect && e.hash == hash with
  | some e => e.tree
  | none => unparsed source

/-! ## §3 Reading -/

/-- A number in hexadecimal digits. -/
def readHash (digits : String) : UInt64 :=
  digits.toList.foldl (fun hash c => hash * 16 + digit c) 0
where
  /-- The value of a digit. -/
  digit (c : Char) : UInt64 :=
    UInt64.ofNat (if c.isDigit then c.toNat - '0'.toNat else c.toNat - 'a'.toNat + 10)

/-- One bit of the marks. -/
def mark (marks : Nat) (bit : Nat) : Bool := marks / bit % 2 == 1

/-- The rows that a flat list of numbers describes, each without its fields. -/
def readRows (kinds : Array String) : List Nat → List Row
  | kind :: marks :: start :: stop :: arity :: rest =>
    let label : Label := {
      kind := kinds[kind]?.getD ""
      span := ⟨start, stop⟩
      named := mark marks 1
      isError := mark marks 2
      isMissing := mark marks 4
      hasError := mark marks 8 }
    { label, arity } :: readRows kinds rest
  | _ => []

/-- Gives the rows the fields that a flat list of numbers describes. -/
def readLinks (fields : Array String) : List Nat → Array Row → Array Row
  | row :: field :: child :: rest, rows =>
    readLinks fields rest (rows.modify row fun row =>
      { row with fields := row.fields ++ [(fields[field]?.getD "", child)] })
  | _, rows => rows

/-- A list of which each item is read in the same way; a missing list is empty. -/
def list? {α : Type} (entries : List (String × Json)) (name : String) (read? : Json → Option α) :
    Option (List α) :=
  match entries.lookup name with
  | none => some []
  | some items => do (← items.arr?).mapM read?

/-- A number of any size. -/
def nat? : Json → Option Nat
  | .nat value => some value
  | _ => none

/-- One entry. -/
def entryOfJson? : Json → Option Entry
  | .obj entries => do
    let dialect ← Dialect.ofTag? (← (← entries.lookup "dialect").str?)
    let hash := readHash (← (← entries.lookup "hash").str?)
    let kinds ← list? entries "kinds" Json.str?
    let nodes ← list? entries "nodes" nat?
    let fields ← list? entries "fields" Json.str?
    let links ← list? entries "links" nat?
    let rows := readLinks fields.toArray links (readRows kinds.toArray nodes).toArray
    return { dialect, hash, tree := ← ofRows? rows.toList }
  | _ => none

/-- A bank. -/
def ofJson? (j : Json) : Option Bank := do
  return ⟨← (← j.arr?).mapM entryOfJson?⟩

end Tree.Bank

end CodeActions
