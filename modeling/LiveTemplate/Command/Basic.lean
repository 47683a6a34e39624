import LiveTemplate.Command.Assignment
import LiveTemplate.Command.Failure
import LiveTemplate.Template.Component

namespace LiveTemplate.Command

open Template
open Style (Renaming)

structure Request where
  template : Text
  style : Option Text := none
  /-- The scope of the stylesheet; the name of its file if none is given. -/
  scope : Option Text := none
  ignoreCase : Bool := false
  deriving DecidableEq, Repr

inductive Action where
  | render (request : Request) (assignments : List Assignment) (plain : Bool)
  | inspect (request : Request)
  deriving DecidableEq, Repr

def Request.nameCase (r : Request) : NameCase :=
  if r.ignoreCase then .insensitive else .sensitive

def readFile (read : Reader) (path : Text) : Except Failure Text :=
  (read path).mapError (.read path)

def scopeOf (path : Text) (scope : Option Text) : Text :=
  scope.getD ((fileName? path).getD "style".toList)

abbrev Renamer := Text → Text → Renaming

def loadRenaming (rename : Renamer) (read : Reader) (path : Text) (scope : Option Text) :
    Except Failure Renaming := do
  let css ← readFile read path
  return rename (scopeOf path scope) css

def Request.renames (rename : Renamer) (read : Reader) (r : Request) :
    Except Failure (Option Renaming) :=
  match r.style with
  | some path => (loadRenaming rename read path r.scope).map some
  | none => .ok none

/-- The template is read before the stylesheet. -/
def Request.load (rename : Renamer) (read : Reader) (r : Request) : Except Failure Component := do
  let template ← readFile read r.template
  let renames ← r.renames rename read
  (Component.build template { renames, nameCase := r.nameCase }).mapError (.build r.template)

def assign (c : Component) (a : Assignment) : Except Failure Component :=
  match c.update a.name a.value with
  | (next, .ok ()) => .ok next
  | (_, .error cause) => .error (.set a.name cause)

def Request.render (rename : Renamer) (read : Reader) (r : Request)
    (assignments : List Assignment) (plain : Bool) : Except Failure Text := do
  let component ← assignments.foldlM assign (← r.load rename read)
  return if plain then component.plainText else component.markup

def heading (title : String) (count : Nat) : Text :=
  title.toList ++ " (".toList ++ Nat.toDigits 10 count ++ "):\n".toList

def listed (item : Text) : Text :=
  ' ' :: ' ' :: item ++ ['\n']

def listing (title : String) (items : List Text) : Text :=
  heading title items.length ++ items.flatMap listed

def describeHandle (c : Component) (handle : Text) : Except Failure Text := do
  let id ← (c.element handle).mapError .template
  return handle ++ " -> <".toList ++ (c.document.tag? id).getD ['?'] ++ ['>']

def describeRename (entry : Text × Text) : Text :=
  entry.1 ++ " -> ".toList ++ entry.2

def classListing : Option Renaming → Text
  | some renames => listing "classes" (renames.entries.map describeRename)
  | none => []

/-- Variables as they first come, handles in order of their characters, and classes in the order in
which they are replaced. -/
def Request.inspect (rename : Renamer) (read : Reader) (r : Request) : Except Failure Text := do
  let component ← r.load rename read
  let handles ← (component.handles.keys.mergeSort Text.atMost).mapM (describeHandle component)
  let classes ← r.renames rename read
  return listing "variables" (component.values.map (·.1)) ++ listing "handles" handles ++
    classListing classes

end LiveTemplate.Command
