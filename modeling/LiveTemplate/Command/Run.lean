import LiveTemplate.Command.Arguments
import LiveTemplate.Style.ScopedName

namespace LiveTemplate.Command

structure Outcome where
  code : Nat
  output : Text := []
  errors : Text := []
  deriving DecidableEq, Repr

def versionText : Text := "stencil 0.1.1\n".toList

def helpText : Text :=
  ("Render and inspect HTML component templates\n\n" ++
    "Usage: stencil [-v]... render <TEMPLATE> [OPTIONS]\n" ++
    "       stencil [-v]... inspect <TEMPLATE> [OPTIONS]\n\n" ++
    "Options:\n" ++
    "  --style <STYLE>     Stylesheet whose class names are hashed into the template\n" ++
    "  --scope <SCOPE>     Hash scope for --style (default: the name of the stylesheet)\n" ++
    "  --ignore-case       Treat variable names case-insensitively\n" ++
    "  --set <NAME=VALUE>  Variable value, applied in order (render only, repeatable)\n" ++
    "  --text              Print text content instead of HTML (render only)\n").toList

def Stop.outcome : Stop → Outcome
  | .usage => { code := 2, errors := helpText }
  | .help => { code := 0, output := helpText }
  | .version => { code := 0, output := versionText }

/-- What a command writes; a rendering gets a line end of its own. -/
def Action.output (read : Reader) : Action → Except Failure Text
  | .render request assignments plain =>
    (request.render Style.scopedRenaming read assignments plain).map (· ++ ['\n'])
  | .inspect request => request.inspect Style.scopedRenaming read

def run (read : Reader) (args : List Text) : Outcome :=
  match readArguments args with
  | .error stop => stop.outcome
  | .ok action =>
    match action.output read with
    | .ok output => { code := 0, output }
    | .error failure => { code := 1, errors := failure.report.toList }

def Action.paths : Action → List Text
  | .render request _ _ | .inspect request => request.template :: request.style.toList

end LiveTemplate.Command
