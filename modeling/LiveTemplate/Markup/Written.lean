import LiveTemplate.Markup.Element
import LiveTemplate.Markup.Escape
import LiveTemplate.Markup.Node

namespace LiveTemplate.Markup

def writtenAttribute (name value : Text) : Text :=
  ' ' :: name ++ "=\"".toList ++ escapedValue value ++ ['"']

def writtenStartTag (tag : Text) (attributes : Attributes) : Text :=
  '<' :: tag ++ attributes.entries.flatMap (fun (name, value) => writtenAttribute name value) ++ ['>']

def writtenEndTag (tag : Text) : Text :=
  "</".toList ++ tag ++ ['>']

def writtenComment (content : Text) : Text :=
  "<!--".toList ++ content ++ "-->".toList

/-- Text directly inside an element of verbatim text is not escaped. -/
def writtenText (verbatim : Bool) (content : Text) : Text :=
  if verbatim then content else escapedText content

/-- A void element has neither the content nor the end tag. -/
def writtenElement (tag : Text) (attributes : Attributes) (inner : Text) : Text :=
  writtenStartTag tag attributes ++ if isVoid tag then [] else inner ++ writtenEndTag tag

end LiveTemplate.Markup
