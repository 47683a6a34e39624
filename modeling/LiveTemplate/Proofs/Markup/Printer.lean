import LiveTemplate.Markup.Written

namespace LiveTemplate.Markup

mutual

def Node.written (verbatim : Bool) : Node → Text
  | .text content => writtenText verbatim content
  | .comment content => writtenComment content
  | .element tag attributes children =>
    writtenElement tag attributes (writtenAll (isVerbatim tag) children)

def writtenAll (verbatim : Bool) : List Node → Text
  | [] => []
  | node :: more => node.written verbatim ++ writtenAll verbatim more

end

mutual

def Node.texts : Node → List Text
  | .text content => [content]
  | .comment _ => []
  | .element _ _ children => textsAll children

def textsAll : List Node → List Text
  | [] => []
  | node :: more => node.texts ++ textsAll more

end

def Node.plainText : Node → Text
  | .comment content => content
  | node => node.texts.flatten

end LiveTemplate.Markup
