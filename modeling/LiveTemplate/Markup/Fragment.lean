import LiveTemplate.Markup.Lexer
import LiveTemplate.Markup.Nesting
import LiveTemplate.Markup.Reference

namespace LiveTemplate.Markup

/-- Names in lower case, values with their references read; of two attributes of one name the first
counts. -/
def Attributes.ofWritten (written : WrittenAttributes) : Attributes :=
  written.foldl (fun known (name, value) => known.insertNew name.lowerAscii (decode value)) {}

def rawChildren (tag content : Text) : List Node :=
  if content.isEmpty then []
  else if isVerbatim tag then [.text content]
  else [.text (decode content)]

def Nesting.read (n : Nesting) : Token → Nesting
  | .text content => n.add (.text (decode content))
  | .comment content => n.add (.comment content)
  | .doctype => n
  | .startTag name written closed =>
      n.startTag name.lowerAscii (Attributes.ofWritten written) closed
  | .endTag name => n.endTag name.lowerAscii
  | .raw name written content _ =>
      n.add (.element name.lowerAscii (Attributes.ofWritten written)
        (rawChildren name content))

def nodesOfTokens (tokens : List Token) : List Node :=
  (tokens.foldl Nesting.read {}).finish

/-- The nodes of a source; there are none to give if some part of it is no token. -/
def parse? (source : Text) : Option (List Node) :=
  (tokens? source).map nodesOfTokens

end LiveTemplate.Markup
