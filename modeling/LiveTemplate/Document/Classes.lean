import LiveTemplate.Document.Basic
import LiveTemplate.Text.Blank

namespace LiveTemplate.Document

def classAttribute : Text := "class".toList

def classes (d : Document) (id : NodeId) : List Text :=
  Text.words ((d.attribute? id classAttribute).getD [])

def hasClass (d : Document) (id : NodeId) (className : Text) : Bool :=
  (d.classes id).contains className

def toggled (className : Text) (classes : List Text) : List Text :=
  if classes.contains className then classes.erase className else classes ++ [className]

def toggleClass? (d : Document) (id : NodeId) (className : Text) : Option (Document × Bool) :=
  (d.setAttribute? id classAttribute
    (List.intercalate [' '] (toggled className (d.classes id)))).map
    fun changed => (changed, !d.hasClass id className)

end LiveTemplate.Document
