import LiveTemplate.Digest.Blake3
import LiveTemplate.Style.Renaming
import LiveTemplate.Style.ClassNames

/-! Class names made distinct by the scope of their stylesheet: an underscore and the first digits of
a digest of scope and class. -/

namespace LiveTemplate.Style

def digitCount : Nat := 8

def lastSalt : Nat := 1024

def utf8 (t : Text) : List UInt8 :=
  t.flatMap String.utf8EncodeChar

def saltBytes (salt : Nat) : List UInt8 :=
  Blake3.bytesOfWord salt.toUInt32

def hexDigits (bytes : List UInt8) : Text :=
  bytes.flatMap fun b => [Nat.digitChar (b.toNat / 16), Nat.digitChar (b.toNat % 16)]

/-- Scope and class with a colon between them; salt zero adds nothing. -/
def digestInput (scope className : Text) (salt : Nat) : List UInt8 :=
  utf8 (scope ++ ':' :: className) ++
    (if salt = 0 then [] else utf8 [':'] ++ saltBytes salt)

abbrev Digest := List UInt8 → List UInt8

def saltedName (digest : Digest) (scope className : Text) (salt : Nat) : Text :=
  '_' :: (hexDigits (digest (digestInput scope className salt))).take digitCount

def isClear (className : Text) (classes : List Text) (name : Text) : Bool :=
  classes.all fun other => other == className || !Text.occurs other name

/-- The first salted name in which no other class occurs, and the one without salt if there is none. -/
def clearName (digest : Digest) (scope className : Text) (classes : List Text) : Text :=
  ((List.range (lastSalt + 1)).findSome? fun salt =>
    let name := saltedName digest scope className salt
    if isClear className classes name then some name else none).getD
      (saltedName digest scope className 0)

/-- The classes of a stylesheet, the longest first, so that a class is replaced before any class it
contains. -/
def classesByLength (css : Text) : List Text :=
  (classesOf css).mergeSort fun a b => b.byteLength ≤ a.byteLength

def renamingBy (digest : Digest) (scope css : Text) : Renaming :=
  let classes := classesByLength css
  Table.ofList (classes.map fun className =>
    (className, clearName digest scope className classes))

def scopedName (scope className : Text) : Text :=
  saltedName Blake3.digest scope className 0

def scopedRenaming (scope css : Text) : Renaming :=
  renamingBy Blake3.digest scope css

end LiveTemplate.Style
