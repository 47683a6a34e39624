import LiveTemplate.Document.Basic

namespace LiveTemplate.Template

inductive BuildError where
  /-- Nothing but blanks and doctypes. -/
  | noRoot
  | markup
  deriving DecidableEq, Repr

def BuildError.message : BuildError → String
  | .noRoot => "template produced no root node"
  | .markup => "template markup could not be parsed"

inductive Error where
  | build (cause : BuildError)
  | invalidVariable (name : Text)
  | handleNotFound (handle : Text)
  | document (cause : DocumentError)
  deriving DecidableEq, Repr

def Error.message : Error → String
  | .build cause => "failed to create component from template: " ++ cause.message
  | .invalidVariable name =>
      "invalid variable name `" ++ String.ofList name ++ "`, check the template"
  | .handleNotFound handle => "no element with handle `" ++ String.ofList handle ++ "` found"
  | .document cause => cause.message

end LiveTemplate.Template
