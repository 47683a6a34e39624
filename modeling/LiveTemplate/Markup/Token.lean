import LiveTemplate.Text.Basic

namespace LiveTemplate.Markup

abbrev WrittenAttributes := List (Text × Text)

inductive Token where
  | text (content : Text)
  | comment (content : Text)
  | doctype
  | startTag (name : Text) (attributes : WrittenAttributes) (closed : Bool)
  | endTag (name : Text)
  /-- An element of raw text with its content and, if it is `ended`, with its end tag. -/
  | raw (name : Text) (attributes : WrittenAttributes) (content : Text) (ended : Bool)
  deriving DecidableEq, Repr

end LiveTemplate.Markup
