import CodeActions.FileName

/-!
# Dialects

The three dialects of the language, and the ways to name one: by a word on the command line, by the
tag in a configuration, or by the extension of a file.
-/

namespace CodeActions

/-- A dialect of the source language. -/
inductive Dialect where
  /-- JavaScript, JSX included. -/
  | javaScript
  /-- TypeScript without JSX. -/
  | typeScript
  /-- TypeScript with JSX. -/
  | tsx
  deriving Repr, DecidableEq, Inhabited

namespace Dialect

/-- How a dialect is shown. -/
def name : Dialect → String
  | javaScript => "javascript"
  | typeScript => "typescript"
  | tsx => "tsx"

/-! ## §1 Words and tags -/

/-- ASCII letters in lower case, everything else as it is. -/
def folded (word : String) : String := String.ofList (word.toList.map Char.toLower)

/-- The dialect that a word names, in upper or lower case; an unknown word is given back folded. -/
def ofName (word : String) : Except String Dialect :=
  match folded word with
  | "js" | "javascript" | "jsx" => .ok javaScript
  | "ts" | "typescript" => .ok typeScript
  | "tsx" => .ok tsx
  | other => .error other

/-- The dialect that a tag in a configuration names. Case matters. -/
def ofTag? : String → Option Dialect
  | "javascript" | "js" => some javaScript
  | "typescript" | "ts" => some typeScript
  | "tsx" => some tsx
  | _ => none

/-! ## §2 File extensions -/

/-- The dialect that the extension of a file stands for. -/
def ofPath? (path : String) : Option Dialect := do
  let name ← FileName.ofPath? path.toList
  let extension ← FileName.extension? name
  match folded (String.ofList extension) with
  | "js" | "mjs" | "cjs" | "jsx" => some javaScript
  | "ts" | "mts" | "cts" => some typeScript
  | "tsx" => some tsx
  | _ => none

end Dialect

end CodeActions
