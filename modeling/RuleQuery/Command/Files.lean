/-
# Files

The command line reads files by their paths. Here a directory is the list of the files in it, each
with its path relative to the directory; a path is followed name by name. Outside that directory
there is nothing but the directories above it.
-/

namespace RuleQuery.Command

/-- Why a file cannot be read. -/
inductive FileFault
  | notFound
  | notADirectory
  | isADirectory
  | nameTooLong
  | forbidden
  | notText
  | other (text : String)
  deriving DecidableEq, Repr

def FileFault.message : FileFault → String
  | .notFound => "No such file or directory (os error 2)"
  | .notADirectory => "Not a directory (os error 20)"
  | .isADirectory => "Is a directory (os error 21)"
  | .nameTooLong => "File name too long (os error 36)"
  | .forbidden => "Permission denied (os error 13)"
  | .notText => "stream did not contain valid UTF-8"
  | .other text => text

/-- What comes of reading each path. -/
abbrev Files := String → Except FileFault String

/-- Whether there is something under a path. -/
def Files.has (files : Files) (path : String) : Bool :=
  match files path with
  | .error .notFound | .error .notADirectory | .error .nameTooLong => false
  | _ => true

/-- The names between the slashes of a path. -/
def pathNames : List Char → List (List Char)
  | [] => [[]]
  | c :: cs =>
    if c = '/' then [] :: pathNames cs
    else match pathNames cs with
      | [] => [[c]]
      | name :: names => (c :: name) :: names

/-- The number of bytes of a text. -/
def byteCount (cs : List Char) : Nat := (String.ofList cs).utf8ByteSize

/-- The greatest number of bytes of a name, and of a whole path. -/
def nameLimit : Nat := 255

def pathLimit : Nat := 4095

/-- A name that stays in a directory. -/
def staysIn (name : List Char) : Bool := name = [] || name = ['.']

/-- A name that leads to the directory above. -/
def leadsUp (name : List Char) : Bool := name = ['.', '.']

/-- Follow the names of a path from a directory outside the tree. -/
def followOutside : List (List Char) → Except FileFault String
  | [] => .error .isADirectory
  | name :: names =>
    if staysIn name || leadsUp name then followOutside names
    else if nameLimit < byteCount name then .error .nameTooLong
    else .error .notFound

/-- Follow the names of a path from a directory inside the tree. -/
def follow (tree : List (List (List Char) × String)) (directory : List (List Char)) :
    List (List Char) → Except FileFault String
  | [] => .error .isADirectory
  | name :: names =>
    if staysIn name then follow tree directory names
    else if leadsUp name then
      if directory.isEmpty then followOutside names else follow tree directory.dropLast names
    else if nameLimit < byteCount name then .error .nameTooLong
    else
      let path := directory ++ [name]
      match tree.find? fun file => file.1 == path with
      | some file => if names.isEmpty then .ok file.2 else .error .notADirectory
      | none =>
        if tree.any fun file => file.1.take path.length == path then follow tree path names
        else .error .notFound

/-- The files of a directory. -/
def Files.ofList (listed : List (String × String)) : Files := fun path =>
  let tree := listed.map fun file =>
    ((pathNames file.1.toList).filter fun name => !staysIn name, file.2)
  if pathLimit < path.utf8ByteSize then .error .nameTooLong
  else match path.toList with
    | [] => .error .notFound
    | '/' :: cs => followOutside (pathNames cs)
    | cs => follow tree [] (pathNames cs)

end RuleQuery.Command
