import LiveTemplate.Markup.Node

namespace LiveTemplate

open Markup

abbrev NodeId := Nat

structure Record where
  content : Content
  parent : Option NodeId := none
  children : List NodeId := []
  deriving DecidableEq, Repr

/-- Nodes are never given up; one that has been taken out of the tree merely has no parent. -/
structure Document where
  records : Array Record := #[]
  /-- How often the content of a text node has been written. -/
  textWrites : Nat := 0
  deriving DecidableEq, Repr

inductive DocumentError where
  | unknownNode (id : NodeId)
  | notAnElement (id : NodeId)
  | cycle (parent child : NodeId)
  deriving DecidableEq, Repr

def DocumentError.message : DocumentError → String
  | .unknownNode id => s!"node NodeId({id}) does not belong to this document"
  | .notAnElement id => s!"node NodeId({id}) is not an element and cannot take children"
  | .cycle parent child => s!"appending NodeId({child}) under NodeId({parent}) would create a cycle"

def Record.isText (r : Record) : Bool :=
  match r.content with
  | .text _ => true
  | _ => false

def Record.isElement (r : Record) : Bool :=
  match r.content with
  | .element _ _ => true
  | _ => false

def Record.tag? (r : Record) : Option Text :=
  match r.content with
  | .element tag _ => some tag
  | _ => none

def Record.attributes? (r : Record) : Option Attributes :=
  match r.content with
  | .element _ attributes => some attributes
  | _ => none

def Record.text? (r : Record) : Option Text :=
  match r.content with
  | .text content => some content
  | _ => none

namespace Document

def size (d : Document) : Nat :=
  d.records.size

def record? (d : Document) (id : NodeId) : Option Record :=
  d.records[id]?

def parent? (d : Document) (id : NodeId) : Option NodeId :=
  (d.record? id).bind (·.parent)

def children (d : Document) (id : NodeId) : List NodeId :=
  ((d.record? id).map (·.children)).getD []

def firstChild? (d : Document) (id : NodeId) : Option NodeId :=
  (d.children id).head?

def isElement (d : Document) (id : NodeId) : Bool :=
  ((d.record? id).map Record.isElement).getD false

def isText (d : Document) (id : NodeId) : Bool :=
  ((d.record? id).map Record.isText).getD false

def tag? (d : Document) (id : NodeId) : Option Text :=
  (d.record? id).bind Record.tag?

def text? (d : Document) (id : NodeId) : Option Text :=
  (d.record? id).bind Record.text?

def parentElement? (d : Document) (id : NodeId) : Option NodeId :=
  (d.parent? id).filter d.isElement

def attribute? (d : Document) (id : NodeId) (name : Text) : Option Text :=
  ((d.record? id).bind Record.attributes?).bind (·.get? name)

def create (d : Document) (content : Content) : Document × NodeId :=
  ({ d with records := d.records.push { content } }, d.size)

def modify (d : Document) (id : NodeId) (f : Record → Record) : Document :=
  { d with records := d.records.modify id f }

/-- Replaces the content of a text node, which counts as a write even if nothing changes. -/
def setText? (d : Document) (id : NodeId) (content : Text) : Option Document :=
  if d.isText id then
    some { d.modify id fun r => { r with content := .text content } with
      textWrites := d.textWrites + 1 }
  else none

def modifyAttributes (d : Document) (id : NodeId) (f : Attributes → Attributes) : Document :=
  d.modify id fun r =>
    match r.content with
    | .element tag attributes => { r with content := .element tag (f attributes) }
    | _ => r

def setAttribute? (d : Document) (id : NodeId) (name value : Text) : Option Document :=
  if d.isElement id then some (d.modifyAttributes id (·.insert name value)) else none

def removeAttribute (d : Document) (id : NodeId) (name : Text) : Document × Option Text :=
  match (d.record? id).bind Record.attributes? with
  | none => (d, none)
  | some attributes =>
    let (value, others) := attributes.extract name
    (d.modifyAttributes id fun _ => others, value)

end Document

end LiveTemplate
