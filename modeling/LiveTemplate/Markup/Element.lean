import LiveTemplate.Text.Basic

namespace LiveTemplate.Markup

def voidTags : List Text :=
  ["area", "base", "br", "col", "embed", "hr", "img", "input", "link", "meta", "source", "track",
    "wbr"].map String.toList

def isVoid (tag : Text) : Bool :=
  voidTags.contains tag.lowerAscii

def verbatimTags : List Text :=
  ["script", "style"].map String.toList

def isVerbatim (tag : Text) : Bool :=
  verbatimTags.contains tag.lowerAscii

/-- Elements that hold text only, in which character references are read all the same. -/
def plainTextTags : List Text :=
  ["textarea", "title"].map String.toList

def rawTags : List Text :=
  verbatimTags ++ plainTextTags

def isRaw (tag : Text) : Bool :=
  rawTags.contains tag.lowerAscii

def paragraphClosers : List Text :=
  ["address", "article", "aside", "blockquote", "dd", "details", "div", "dl", "dt", "fieldset",
    "figcaption", "figure", "footer", "form", "h1", "h2", "h3", "h4", "h5", "h6", "header", "hr",
    "li", "main", "menu", "nav", "ol", "p", "pre", "section", "table", "ul"].map String.toList

/-- Elements that shield a paragraph around them from being ended. -/
def paragraphShields : List Text :=
  ["button", "caption", "object", "table", "td", "template", "th"].map String.toList

/-- The open elements that a start tag ends, and the elements that shield those around them. -/
structure ImpliedEnd where
  targets : List Text
  shields : List Text
  deriving DecidableEq, Repr

def impliedEndRules : List (List Text × ImpliedEnd) :=
  [(["li"], ["li"], ["ol", "ul", "menu"]),
    (["dt", "dd"], ["dt", "dd"], ["dl"]),
    (["option"], ["option"], ["select", "datalist", "optgroup"]),
    (["optgroup"], ["optgroup", "option"], ["select"]),
    (["thead", "tbody", "tfoot"], ["thead", "tbody", "tfoot"], ["table"]),
    (["tr"], ["tr"], ["table", "thead", "tbody", "tfoot"]),
    (["td", "th"], ["td", "th"], ["tr", "table"])].map
    fun (tags, targets, shields) =>
      (tags.map String.toList, ⟨targets.map String.toList, shields.map String.toList⟩)

def impliedEnds (tag : Text) : List ImpliedEnd :=
  (if paragraphClosers.contains tag then [⟨["p".toList], paragraphShields⟩] else []) ++
    ((impliedEndRules.find? (·.1.contains tag)).map (·.2)).toList

end LiveTemplate.Markup
