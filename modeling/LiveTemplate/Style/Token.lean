import LiveTemplate.Text.Basic

/-! The tokens of a stylesheet. Names are kept; the contents of strings, addresses and numbers, of
which nothing else is known here than that they are there, are not. -/

namespace LiveTemplate.Style

inductive Bracket where
  | round
  | square
  | curly
  deriving DecidableEq, Repr

inductive Token where
  | ident (name : Text)
  /-- A name and the parenthesis that opens its arguments. -/
  | function (name : Text)
  | atKeyword (name : Text)
  | hash (name : Text)
  | string
  | badString
  | url
  | badUrl
  | number
  | percentage
  | dimension (unit : Text)
  | space
  | comment
  | cdo
  | cdc
  /-- An equals sign joined to the character before it, as in `~=`. -/
  | matcher (c : Char)
  | delim (c : Char)
  | opener (bracket : Bracket)
  | closer (bracket : Bracket)
  deriving DecidableEq, Repr

def Token.opens? : Token → Option Bracket
  | .function _ => some .round
  | .opener bracket => some bracket
  | _ => none

def Token.closes? : Token → Option Bracket
  | .closer bracket => some bracket
  | _ => none

end LiveTemplate.Style
