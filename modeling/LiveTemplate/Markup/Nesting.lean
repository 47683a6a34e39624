import LiveTemplate.Markup.Element
import LiveTemplate.Markup.Node

namespace LiveTemplate.Markup

/-- An element whose end has not been met; `inner` holds its children, the newest first. -/
structure OpenElement where
  tag : Text
  attributes : Attributes
  inner : List Node := []
  deriving Repr

def OpenElement.close (e : OpenElement) : Node :=
  .element e.tag e.attributes e.inner.reverse

/-- `top` holds the nodes outside every open element, the newest first, and `opened` the open
elements, the innermost first. -/
structure Nesting where
  top : List Node := []
  opened : List OpenElement := []
  deriving Repr

namespace Nesting

def add (n : Nesting) (node : Node) : Nesting :=
  match n.opened with
  | [] => { n with top := node :: n.top }
  | e :: outer => { n with opened := { e with inner := node :: e.inner } :: outer }

def tags (n : Nesting) : List Text :=
  n.opened.map (·.tag)

def closeInnermost (n : Nesting) : Nesting :=
  match n.opened with
  | [] => n
  | e :: outer => { n with opened := outer }.add e.close

def close (n : Nesting) : Nat → Nesting
  | 0 => n
  | count + 1 => n.closeInnermost.close count

/-- How many of the tags, the innermost first, reach to the first target, unless a shield comes
before it. -/
def reach? (targets shields : List Text) : List Text → Option Nat
  | [] => none
  | tag :: outer =>
    if targets.contains tag then some 1
    else if shields.contains tag then none
    else (reach? targets shields outer).map (· + 1)

def endNearest (n : Nesting) (targets shields : List Text) : Nesting :=
  n.close ((reach? targets shields n.tags).getD 0)

/-- A start tag ends what it implies the end of and opens its element, which stays childless if it
is void or closed by its own tag. -/
def startTag (n : Nesting) (tag : Text) (attributes : Attributes) (closed : Bool) : Nesting :=
  let n := (impliedEnds tag).foldl (fun n rule => n.endNearest rule.targets rule.shields) n
  if closed || isVoid tag then n.add (.element tag attributes [])
  else { n with opened := ⟨tag, attributes, []⟩ :: n.opened }

/-- An end tag without an open element of its name is dropped. -/
def endTag (n : Nesting) (tag : Text) : Nesting :=
  n.endNearest [tag] []

def finish (n : Nesting) : List Node :=
  (n.close n.opened.length).top.reverse

end Nesting

end LiveTemplate.Markup
