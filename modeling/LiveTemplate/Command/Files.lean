import LiveTemplate.Text.Basic

namespace LiveTemplate.Command

inductive ReadFailure where
  | missing
  | notADirectory
  | isADirectory
  | nameTooLong
  | nullInName
  | notUtf8
  | other (message : String)
  deriving DecidableEq, Repr

def ReadFailure.message : ReadFailure → String
  | .missing => "No such file or directory (os error 2)"
  | .notADirectory => "Not a directory (os error 20)"
  | .isADirectory => "Is a directory (os error 21)"
  | .nameTooLong => "File name too long (os error 36)"
  | .nullInName => "file name contained an unexpected NUL byte"
  | .notUtf8 => "stream did not contain valid UTF-8"
  | .other message => message

abbrev Reader := Text → Except ReadFailure Text

def decodeUtf8 (bytes : ByteArray) : Except ReadFailure Text :=
  match String.fromUTF8? bytes with
  | some s => .ok s.toList
  | none => .error .notUtf8

def pathNames (path : Text) : List Text :=
  path.splitOnP (· == '/')

/-- The last name of a path, if there is one that is not a directory seen from inside. -/
def fileName? (path : Text) : Option Text :=
  (((pathNames path).filter fun name => name ≠ [] ∧ name ≠ ['.']).getLast?).filter
    (· ≠ ['.', '.'])

/-- The files of a working directory by their names from there on; every directory on the way to a
file exists, and nothing is known of what lies outside. -/
structure FileTree where
  files : List (List Text × ByteArray)

inductive Place where
  | outside
  | inside (names : List Text)
  deriving DecidableEq, Repr

namespace FileTree

def file? (t : FileTree) (names : List Text) : Option ByteArray :=
  t.files.lookup names

def isDirectory (t : FileTree) (names : List Text) : Bool :=
  names.isEmpty || t.files.any fun (file, _) => names.isPrefixOf file && names ≠ file

def maxName : Nat := 255

def maxPath : Nat := 4095

def step (t : FileTree) (place : Place) (name : Text) : Except ReadFailure Place :=
  match place with
  | .outside =>
    if name = [] ∨ name = ['.'] ∨ name = ['.', '.'] then .ok .outside
    else if maxName < name.byteLength then .error .nameTooLong
    else .error .missing
  | .inside names =>
    if !t.isDirectory names then .error .notADirectory
    else if name = [] ∨ name = ['.'] then .ok place
    else if name = ['.', '.'] then
      .ok (if names.isEmpty then .outside else .inside names.dropLast)
    else if maxName < name.byteLength then .error .nameTooLong
    else if t.isDirectory (names ++ [name]) ∨ (t.file? (names ++ [name])).isSome then
      .ok (.inside (names ++ [name]))
    else .error .missing

def read (t : FileTree) : Reader := fun path => do
  if path.isEmpty then .error .missing
  else if path.contains '\x00' then .error .nullInName
  else if maxPath < path.byteLength then .error .nameTooLong
  else
    let start := if path.head? = some '/' then Place.outside else .inside []
    match ← (pathNames path).foldlM t.step start with
    | .outside => .error .isADirectory
    | .inside names =>
      match t.file? names with
      | some bytes => decodeUtf8 bytes
      | none => .error .isADirectory

end FileTree

end LiveTemplate.Command
