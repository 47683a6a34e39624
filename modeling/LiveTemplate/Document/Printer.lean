import LiveTemplate.Document.Basic
import LiveTemplate.Markup.Written

namespace LiveTemplate.Document

open Markup

def textWithin (d : Document) : Nat → NodeId → Text
  | 0, _ => []
  | n + 1, id =>
    match d.record? id with
    | none => []
    | some r =>
      match r.content with
      | .text content => content
      | .comment _ => []
      | .element _ _ => r.children.flatMap (d.textWithin n)

/-- The texts at and below a node in document order; a comment gives its own content and none that
is inside an element. -/
def plainText (d : Document) (id : NodeId) : Text :=
  match d.record? id with
  | some ⟨.comment content, _, _⟩ => content
  | _ => d.textWithin d.size id

def isInVerbatim (d : Document) (id : NodeId) : Bool :=
  (((d.parent? id).bind d.tag?).map isVerbatim).getD false

def markupWithin (d : Document) : Nat → NodeId → Text
  | 0, _ => []
  | n + 1, id =>
    match d.record? id with
    | none => []
    | some r =>
      match r.content with
      | .text content => writtenText (d.isInVerbatim id) content
      | .comment content => writtenComment content
      | .element tag attributes =>
        writtenElement tag attributes (r.children.flatMap (d.markupWithin n))

def markup (d : Document) (id : NodeId) : Text :=
  d.markupWithin d.size id

end LiveTemplate.Document
