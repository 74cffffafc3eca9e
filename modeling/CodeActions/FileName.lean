import CodeActions.Text.Cut

/-!
# File names

A path is made of parts with slashes between them. The last part that names something is the name of
the file, and what follows the last dot of a name is its extension. Names and paths have a greatest
length, counted in bytes.
-/

namespace CodeActions.FileName

/-- The parts of a path between its slashes. -/
def parts (path : List Char) : List (List Char) :=
  path.foldr step [[]]
where
  /-- A slash opens a new part; any other character joins the first part. -/
  step (c : Char) : List (List Char) → List (List Char)
    | [] => [[c]]
    | part :: parts => if c = '/' then [] :: part :: parts else (c :: part) :: parts

/-- A part that stays where it is. -/
def isHere (part : List Char) : Bool := part.isEmpty || part == ['.']

/-- The last part of a path that names something. A path that ends in `..` names no file. -/
def ofPath? (path : List Char) : Option (List Char) :=
  match ((parts path).filter fun part => !isHere part).getLast? with
  | some ['.', '.'] => none
  | last => last

/-- What follows the last dot of a name, unless that dot opens the name. -/
def extension? (name : List Char) : Option (List Char) :=
  match name.reverse.span (· != '.') with
  -- two characters at least are left: the dot, and something in front of it
  | (extension, _ :: _ :: _) => some extension.reverse
  | _ => none

/-! ## §1 The directory at hand -/

/-- A name that is too long for a file. -/
def isLongName (part : List Char) : Bool := 255 < Text.size part

/-- A path that is too long to be followed. -/
def isLongPath (path : List Char) : Bool := 4095 < Text.size path

/-- A part can be the name of a file. -/
def isPlain (part : List Char) : Bool :=
  !isHere part && part != ['.', '.'] && !part.contains '\x00' && !isLongName part

/-- The name of a file in the directory at hand. A path that leads elsewhere has none. -/
def here? (path : String) : Option String :=
  if isLongPath path.toList then none
  else
    match parts path.toList with
    -- an empty first part: the path starts at the root
    | [] :: _ => none
    | parts =>
      match parts.dropWhile isHere with
      | [part] => if isPlain part then some (String.ofList part) else none
      | _ => none

/-! ## §2 Paths that lead to no file -/

/-- Why a path leads to no file. -/
inductive PathError where
  | missing
  /-- A file stands where the path goes on. -/
  | notDirectory
  /-- The path ends at a directory. -/
  | isDirectory
  | tooLong
  deriving Repr, DecidableEq

/-- The wording of each reason, with its number. -/
def PathError.message : PathError → String
  | missing => "No such file or directory (os error 2)"
  | notDirectory => "Not a directory (os error 20)"
  | isDirectory => "Is a directory (os error 21)"
  | tooLong => "File name too long (os error 36)"

/-- What stops a walk along the parts of a path. The walk is at home in the directory at hand, whose
names are those of files; of other directories nothing is known but that they are there. -/
def walk (isFile : List Char → Bool) (atHome : Bool) : List (List Char) → PathError
  | [] => .isDirectory
  | part :: rest =>
    if isHere part then walk isFile atHome rest
    else if part = ['.', '.'] then walk isFile false rest
    else if isLongName part then .tooLong
    else if atHome && isFile part && !rest.isEmpty then .notDirectory
    else .missing

/-- Why a path that cannot be read leads to no file. -/
def obstacle (isFile : List Char → Bool) (path : List Char) : PathError :=
  if path.isEmpty then .missing
  else if isLongPath path then .tooLong
  else walk isFile (path.head? != some '/') (parts path)

end CodeActions.FileName
