import LiveTemplate.Document.Copy
import LiveTemplate.Document.Printer
import LiveTemplate.Markup.Fragment
import LiveTemplate.Style.Renaming
import LiveTemplate.Template.Tracker
import LiveTemplate.Template.Error
import LiveTemplate.Template.Shadow
import LiveTemplate.Text.Blank

namespace LiveTemplate.Template

open Markup
open Style (Renaming)

structure Options where
  /-- Applied to the template before anything is read from it. -/
  renames : Option Renaming := none
  nameCase : NameCase := .sensitive

structure Component where
  document : Document
  root : NodeId
  tracker : Tracker
  handles : Table NodeId
  deriving DecidableEq, Repr

def rootOf (template : Text) : Except BuildError Node :=
  match parse? template.trim with
  | none => .error .markup
  | some [] => .error .noRoot
  | some (node :: _) => .ok node

def plantRoot (template : Text) : Except BuildError (Document × NodeId) :=
  (rootOf template).map fun node => Document.plant {} node

def Options.renamed (o : Options) (template : Text) : Text :=
  match o.renames with
  | some map => map.apply template
  | none => template

namespace Component

def refresh (c : Component) : Component × Nat :=
  let (document, writes) := c.tracker.apply c.document
  ({ c with document }, writes)

def build (template : Text) (o : Options) : Except Error Component :=
  match plantRoot (o.renamed template) with
  | .error cause => .error (.build cause)
  | .ok (document, root) =>
    let shadow := Shadow.of document root
    let tracker := Tracker.ofNodes document shadow.texts o.nameCase
    .ok (refresh { document, root, tracker, handles := shadow.handles }).1

def value? (c : Component) (name : Text) : Option Text :=
  (c.tracker.get? name).map (·.value)

def values (c : Component) : List (Text × Text) :=
  c.tracker.vars.entries.map fun (name, v) => (name, v.value)

def update (c : Component) (name value : Text) : Component × Except Error Unit :=
  match c.tracker.set? name value with
  | some tracker => ((refresh { c with tracker }).1, .ok ())
  | none => (c, .error (.invalidVariable name))

/-- Sets several variables and then renders once. All names are looked up before the first value is
stored. -/
def updateAll (c : Component) (values : List (Text × Text)) : Component × Except Error Unit :=
  match values.find? fun store => !c.tracker.contains store.1 with
  | some (name, _) => (c, .error (.invalidVariable name))
  | none =>
    match c.tracker.setAll values with
    | (tracker, .ok ()) => ((refresh { c with tracker }).1, .ok ())
    | (tracker, .error cause) => ({ c with tracker }, .error cause)

/-- The element that declares a handle: the parent that the registered node has now. -/
def element (c : Component) (handle : Text) : Except Error NodeId :=
  match (c.handles.get? handle).bind c.document.parentElement? with
  | some id => .ok id
  | none => .error (.handleNotFound handle)

def plainText (c : Component) : Text :=
  c.document.plainText c.root

def markup (c : Component) : Text :=
  c.document.markup c.root

/-- Puts a copy of the component as it stands under a node of a document; the copy stays there
without a parent if it cannot be put under the node. -/
def mount (c : Component) (target : Document) (parent : NodeId) :
    Document × Except Error NodeId :=
  match target.copyFrom c.document c.root with
  | (target, .error cause) => (target, .error (.document cause))
  | (copied, .ok id) =>
    match copied.append parent id with
    | (mounted, .error cause) => (mounted, .error (.document cause))
    | (mounted, .ok ()) => (mounted, .ok id)

end Component

end LiveTemplate.Template
