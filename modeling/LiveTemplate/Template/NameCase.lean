import LiveTemplate.Text.LowerCase

namespace LiveTemplate.Template

inductive NameCase where
  | sensitive
  /-- Names that agree in lower case are the same. -/
  | insensitive
  deriving DecidableEq, Repr

def NameCase.normalize : NameCase → Text → Text
  | .sensitive, name => name
  | .insensitive, name => Text.lower name

end LiveTemplate.Template
