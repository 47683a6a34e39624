import LiveTemplate.Document.Links

namespace LiveTemplate.Document

open Markup

mutual

def plant (d : Document) : Node → Document × NodeId
  | .text content => d.create (.text content)
  | .comment content => d.create (.comment content)
  | .element tag attributes children =>
    let (d, id) := d.create (.element tag attributes)
    (d.plantUnder id children, id)

def plantUnder (d : Document) (parent : NodeId) : List Node → Document
  | [] => d
  | node :: more =>
    let (d, id) := d.plant node
    (d.attach parent id).plantUnder parent more

end

def treeWithin (d : Document) : Nat → NodeId → Option Node
  | 0, _ => none
  | n + 1, id =>
    (d.record? id).map fun r =>
      match r.content with
      | .text content => .text content
      | .comment content => .comment content
      | .element tag attributes => .element tag attributes (r.children.filterMap (d.treeWithin n))

/-- The tree that stands at a node; it is no deeper than the document has nodes. -/
def tree? (d : Document) (id : NodeId) : Option Node :=
  d.treeWithin d.size id

def copyFrom (d source : Document) (id : NodeId) : Document × Except DocumentError NodeId :=
  match source.tree? id with
  | some node =>
    let (d, root) := d.plant node
    (d, .ok root)
  | none => (d, .error (.unknownNode id))

end LiveTemplate.Document
