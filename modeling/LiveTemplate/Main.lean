import LiveTemplate.Command.Run

namespace LiveTemplate.Command

def failureOf : IO.Error → ReadFailure
  | .noFileOrDirectory _ _ _ => .missing
  | .inappropriateType _ code _ => if code = 21 then .isADirectory else .notADirectory
  | e => .other (toString e)

def readPath (path : Text) : IO (Except ReadFailure Text) := do
  try
    return decodeUtf8 (← IO.FS.readBinFile (String.ofList path))
  catch e =>
    return .error (failureOf e)

def readPaths (paths : List Text) : IO Reader := do
  let found ← paths.mapM fun path => return (path, ← readPath path)
  return fun path => (found.lookup path).getD (.error .missing)

end LiveTemplate.Command

open LiveTemplate.Command in
def main (args : List String) : IO UInt32 := do
  let args := args.map String.toList
  let paths :=
    match readArguments args with
    | .ok action => action.paths
    | .error _ => []
  let outcome := run (← readPaths paths) args
  IO.print (String.ofList outcome.output)
  IO.eprint (String.ofList outcome.errors)
  return outcome.code.toUInt32
