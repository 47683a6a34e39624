import LiveTemplate.Command.Files
import LiveTemplate.Template.Error

namespace LiveTemplate.Command

inductive Failure where
  | read (path : Text) (cause : ReadFailure)
  | build (path : Text) (cause : Template.Error)
  | set (name : Text) (cause : Template.Error)
  | template (cause : Template.Error)
  deriving DecidableEq, Repr

def errorChain : Template.Error → List String
  | .build cause => [(Template.Error.build cause).message, cause.message]
  | cause => [cause.message]

def Failure.chain : Failure → List String
  | .read path cause => ["failed to read " ++ String.ofList path, cause.message]
  | .build path cause => ("failed to build " ++ String.ofList path) :: errorChain cause
  | .set name cause => ("cannot set `" ++ String.ofList name ++ "`") :: errorChain cause
  | .template cause => errorChain cause

def Failure.summary (f : Failure) : String :=
  ": ".intercalate f.chain

def indented (first rest cause : String) : String :=
  first ++ ("\n" ++ rest).intercalate (cause.splitOn "\n") ++ "\n"

def numbered (n : Nat) (cause : String) : String :=
  let number := toString n
  indented ("".pushn ' ' (5 - number.length) ++ number ++ ": ") "       " cause

def reportedCauses : List String → String
  | [] => ""
  | [cause] => "\nCaused by:\n" ++ indented "    " "    " cause
  | causes => "\nCaused by:\n" ++ String.join (causes.mapIdx numbered)

def Failure.report (f : Failure) : String :=
  match f.chain with
  | [] => ""
  | tried :: causes => "Error: " ++ tried ++ "\n" ++ reportedCauses causes

end LiveTemplate.Command
