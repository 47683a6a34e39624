import LiveTemplate.Document.Basic

namespace LiveTemplate.Document

def ancestorsWithin (d : Document) : Nat → Option NodeId → List NodeId
  | 0, _ => []
  | _, none => []
  | n + 1, some id => id :: d.ancestorsWithin n (d.parent? id)

/-- The parent, its parent and so on, the nearest first; a chain without a cycle has fewer nodes than
the document. -/
def ancestors (d : Document) (id : NodeId) : List NodeId :=
  d.ancestorsWithin d.size (d.parent? id)

def attach (d : Document) (parent child : NodeId) : Document :=
  (d.modify child fun r => { r with parent := some parent }).modify parent
    fun r => { r with children := r.children ++ [child] }

def detach (d : Document) (child : NodeId) : Document :=
  match d.parent? child with
  | none => d
  | some old =>
    (d.modify child fun r => { r with parent := none }).modify old
      fun r => { r with children := r.children.filter (· ≠ child) }

def append (d : Document) (parent child : NodeId) : Document × Except DocumentError Unit :=
  if (d.record? parent).isNone then (d, .error (.unknownNode parent))
  else if !d.isElement parent then (d, .error (.notAnElement parent))
  else if (d.record? child).isNone then (d, .error (.unknownNode child))
  else if child = parent ∨ child ∈ d.ancestors parent then (d, .error (.cycle parent child))
  else ((d.detach child).attach parent child, .ok ())

end LiveTemplate.Document
