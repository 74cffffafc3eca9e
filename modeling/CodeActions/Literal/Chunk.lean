import CodeActions.Text.Cut

/-!
# Literal text in quotes and in templates

The same characters are written differently in a quoted string and in a template literal. Both use
the backslash to take the character after it as it is; what needs one differs: the quote and line
ends in a string, the backtick and `${` in a template. Here text passes from one notation into the
other without being evaluated: escapes that mean the same in both are kept.
-/

namespace CodeActions.Literal

/-- The delimiter of template literals. -/
def backtick : Char := '\x60'

/-- Characters from a template as they are written between single quotes. The escapes of a backtick
and of a dollar sign are dropped, and a backslash at the very end is doubled. -/
def requote : List Char → List Char
  | [] => []
  | ['\\'] => ['\\', '\\']
  | '\\' :: c :: cs =>
    if c = backtick ∨ c = '$' then c :: requote cs else '\\' :: c :: requote cs
  | c :: cs =>
    if c = '\'' then '\\' :: '\'' :: requote cs
    else if c = '\n' then '\\' :: 'n' :: requote cs
    else if c = '\r' then '\\' :: 'r' :: requote cs
    else c :: requote cs

/-- Characters from a template as a single-quoted literal. -/
def quoteChunk (raw : List Char) : List Char := '\'' :: (requote raw ++ ['\''])

/-- Characters from a quoted literal as they are written in a template. A dollar sign is escaped
only right before an opening brace. -/
def templateChunk : List Char → List Char
  | [] => []
  | ['\\'] => ['\\']
  | '\\' :: c :: cs => '\\' :: c :: templateChunk cs
  | c :: cs =>
    if c = backtick ∨ (c = '$' ∧ cs.head? = some '\x7b') then '\\' :: c :: templateChunk cs
    else c :: templateChunk cs

/-- What stands between the delimiters of a literal, one byte each. A literal that has no such
inside is empty. -/
def inner (literal : String) : String :=
  match Text.slice literal 1 (Text.byteSize literal - 1) with
  | .ok body => body
  | .error _ => ""

/-- The contents of a quoted literal as they are written in a template. -/
def stringToTemplate (literal : String) : String :=
  String.ofList (templateChunk (inner literal).toList)

end CodeActions.Literal
