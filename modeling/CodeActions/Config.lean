import CodeActions.Dialect
import CodeActions.Edit.Json
import CodeActions.FileName
import CodeActions.Json.Reader

/-!
# Configuration

What an engine can be told: the dialect of texts that do not say theirs, whether the generic
transforms are offered, and whether edits are checked before they are handed out. A configuration
is read from JSON; what it does not mention keeps its default.
-/

namespace CodeActions

/-- The settings of an engine. -/
structure Config where
  /-- The dialect of texts whose name does not tell. -/
  dialect : Dialect := .javaScript
  /-- Offer the generic transforms on every expression. -/
  genericWraps : Bool := true
  /-- Refuse edits that bring syntax errors in. -/
  verifyOutput : Bool := true
  deriving Repr, DecidableEq, Inhabited

/-- Why there is no configuration. -/
inductive ConfigError where
  | unknownDialect (word : String)
  /-- The file is not a configuration. -/
  | malformed (path : String)
  /-- There is no file to read. -/
  | unreadable (reason : FileName.PathError)
  deriving Repr, DecidableEq

/-- The wording of each fault. -/
def ConfigError.message : ConfigError → String
  | .unknownDialect word => s!"Configuration error: unknown dialect '{word}'"
  | .malformed path => s!"Configuration error: {path}: not a configuration"
  | .unreadable reason => "I/O error: " ++ reason.message

/-- The dialect that a word names, in upper or lower case. -/
def Dialect.parse (word : String) : Except ConfigError Dialect :=
  match Dialect.ofName word with
  | .ok dialect => .ok dialect
  | .error other => .error (.unknownDialect other)

/-- The dialect that a tag names. -/
def Dialect.ofJson? (j : Json) : Option Dialect := do Dialect.ofTag? (← j.tag?)

namespace Config

/-- A setting that stands at most once among the entries, read in a given way. -/
def setting? {α : Type} (entries : List (String × Json)) (name : String) (read? : Json → Option α)
    (default : α) : Option α :=
  match entries.filter fun (key, _) => key == name with
  | [] => some default
  | [(_, value)] => read? value
  | _ => none

/-- A configuration as an object of settings, or as the list of them, which may end early. -/
def ofJson? : Json → Option Config
  | .obj entries => do
    return {
      dialect := ← setting? entries "dialect" Dialect.ofJson? .javaScript
      genericWraps := ← setting? entries "generic_wraps" Json.bool? true
      verifyOutput := ← setting? entries "verify_output" Json.bool? true }
  | .arr [] => some {}
  | .arr [dialect] => do return { dialect := ← Dialect.ofJson? dialect }
  | .arr [dialect, wraps] => do
    return { dialect := ← Dialect.ofJson? dialect, genericWraps := ← wraps.bool? }
  | .arr [dialect, wraps, verify] => do
    return {
      dialect := ← Dialect.ofJson? dialect
      genericWraps := ← wraps.bool?
      verifyOutput := ← verify.bool? }
  | _ => none

/-- The configuration in the text of a file, if the file can be read. -/
def load (path : String) : Except FileName.PathError String → Except ConfigError Config
  | .error reason => .error (.unreadable reason)
  | .ok source =>
    match (Json.parse? source).bind ofJson? with
    | some config => .ok config
    | none => .error (.malformed path)

end Config

end CodeActions
