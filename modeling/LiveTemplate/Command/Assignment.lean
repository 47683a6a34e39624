import LiveTemplate.Text.Basic

namespace LiveTemplate.Command

structure Assignment where
  name : Text
  value : Text
  deriving DecidableEq, Repr

inductive AssignmentError where
  | noEquals (text : Text)
  | noName (text : Text)
  deriving DecidableEq, Repr

def AssignmentError.message : AssignmentError → String
  | .noEquals text => "expected NAME=VALUE, got `" ++ String.ofList text ++ "`"
  | .noName text => "missing variable name in `" ++ String.ofList text ++ "`"

/-- The first equals sign ends the name, which is not empty; the value may be. -/
def Assignment.read (text : Text) : Except AssignmentError Assignment :=
  match Text.cut ['='] text with
  | none => .error (.noEquals text)
  | some ([], _) => .error (.noName text)
  | some (name, value) => .ok { name, value }

end LiveTemplate.Command
