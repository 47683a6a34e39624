import LiveTemplate.Command.Basic

/-! The arguments of the program. They are read from left to right, and the first one that does not
fit ends the reading. -/

namespace LiveTemplate.Command

inductive Stop where
  | usage
  | help
  | version
  deriving DecidableEq, Repr

inductive CommandName where
  | render
  | inspect
  deriving DecidableEq, Repr

def CommandName.read? (t : Text) : Option CommandName :=
  if t = "render".toList then some .render
  else if t = "inspect".toList then some .inspect
  else none

inductive ValueOption where
  | style
  | scope
  | set
  deriving DecidableEq, Repr

inductive Switch where
  | ignoreCase
  | text
  | verbose
  | help
  deriving DecidableEq, Repr

def ValueOption.read? (name : CommandName) (t : Text) : Option ValueOption :=
  if t = "style".toList then some .style
  else if t = "scope".toList then some .scope
  else if t = "set".toList ∧ name = .render then some .set
  else none

def Switch.read? (name : CommandName) (t : Text) : Option Switch :=
  if t = "ignore-case".toList then some .ignoreCase
  else if t = "text".toList ∧ name = .render then some .text
  else if t = "verbose".toList then some .verbose
  else if t = "help".toList then some .help
  else none

structure Reading where
  name : CommandName
  template : Option Text := none
  style : Option Text := none
  scope : Option Text := none
  ignoreCase : Bool := false
  text : Bool := false
  assignments : List Assignment := []
  /-- An option whose value has to come next. -/
  awaited : Option ValueOption := none
  /-- Whether all that follows is taken as it stands. -/
  literal : Bool := false
  deriving DecidableEq, Repr

/-- Whether an argument is an option; a hyphen alone is not. -/
def isOption : Text → Bool
  | '-' :: _ :: _ => true
  | _ => false

namespace Reading

/-- A path is never empty, and only assignments may come more than once. -/
def setValue (r : Reading) (option : ValueOption) (value : Text) : Except Stop Reading :=
  match option with
  | .style =>
    if value.isEmpty ∨ r.style.isSome then .error .usage
    else .ok { r with style := some value, awaited := none }
  | .scope =>
    if r.scope.isSome then .error .usage else .ok { r with scope := some value, awaited := none }
  | .set =>
    match Assignment.read value with
    | .ok assignment =>
      .ok { r with assignments := r.assignments ++ [assignment], awaited := none }
    | .error _ => .error .usage

def flip (r : Reading) : Switch → Except Stop Reading
  | .ignoreCase => if r.ignoreCase then .error .usage else .ok { r with ignoreCase := true }
  | .text => if r.text then .error .usage else .ok { r with text := true }
  | .verbose => .ok r
  | .help => .error .help

def positional (r : Reading) (arg : Text) : Except Stop Reading :=
  if arg.isEmpty ∨ r.template.isSome then .error .usage else .ok { r with template := some arg }

def longOption (r : Reading) (t : Text) : Except Stop Reading :=
  match Text.cut ['='] t with
  | some (name, value) =>
    match ValueOption.read? r.name name with
    | some option => r.setValue option value
    | none => .error .usage
  | none =>
    match ValueOption.read? r.name t, Switch.read? r.name t with
    | some option, _ => .ok { r with awaited := some option }
    | none, some switch => r.flip switch
    | none, none => .error .usage

def shortOption (r : Reading) (c : Char) : Except Stop Reading :=
  if c = 'v' then r.flip .verbose
  else if c = 'h' then r.flip .help
  else .error .usage

def argument (r : Reading) (arg : Text) : Except Stop Reading :=
  if r.literal then r.positional arg
  else if isOption arg then
    if r.awaited.isSome then .error .usage
    else
      match arg with
      | ['-', '-'] => .ok { r with literal := true }
      | '-' :: '-' :: t => r.longOption t
      | _ => arg.tail.foldlM shortOption r
  else
    match r.awaited with
    | some option => r.setValue option arg
    | none => r.positional arg

/-- A command needs a template, and a scope needs a stylesheet. -/
def action (r : Reading) : Except Stop Action :=
  match r.template with
  | none => .error .usage
  | some template =>
    if r.awaited.isSome ∨ (r.scope.isSome ∧ r.style.isNone) then .error .usage
    else
      let request : Request :=
        { template, style := r.style, scope := r.scope, ignoreCase := r.ignoreCase }
      match r.name with
      | .render => .ok (.render request r.assignments r.text)
      | .inspect => .ok (.inspect request)

end Reading

def readCommand (name : CommandName) (args : List Text) : Except Stop Action := do
  (← args.foldlM Reading.argument { name }).action

def readHelp : List Text → Stop
  | [] => .help
  | [name] => if (CommandName.read? name).isSome ∨ name = "help".toList then .help else .usage
  | _ => .usage

def leadingLetter (c : Char) : Except Stop Unit :=
  if c = 'v' then .ok ()
  else if c = 'h' then .error .help
  else if c = 'V' then .error .version
  else .error .usage

def leadingOption : Text → Except Stop Unit
  | '-' :: '-' :: t =>
    if t = "verbose".toList then .ok ()
    else if t = "help".toList then .error .help
    else if t = "version".toList then .error .version
    else .error .usage
  | arg => arg.tail.forM leadingLetter

def readArguments : List Text → Except Stop Action
  | [] => .error .usage
  | arg :: rest =>
    if isOption arg then do
      leadingOption arg
      readArguments rest
    else
      match CommandName.read? arg with
      | some name => readCommand name rest
      | none => .error (if arg = "help".toList then readHelp rest else .usage)

end LiveTemplate.Command
