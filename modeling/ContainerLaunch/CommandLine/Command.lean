import ContainerLaunch.Path
import ContainerLaunch.Text.Numeral
/-!
# Commands

The commands that the program knows and how they are read from its arguments.
The value of an option is the argument after the first occurrence of its name,
whatever that argument is; arguments that nobody asks for do not count.
-/

namespace ContainerLaunch

/-- The options of a preparation. -/
structure PrepareOptions where
  config : Path
  policy : Option Path
  capabilities : Option Path
  region : Option Int32
  dryRun : Bool
  deriving DecidableEq, Repr, Inhabited

/-- The options of a task of the host side. -/
structure TaskOptions where
  socket : Int32
  config : Path
  deriving DecidableEq, Repr, Inhabited

inductive Command where
  | prepare (options : PrepareOptions)
  | afterStart (options : TaskOptions)
  | cleanup (options : TaskOptions)
  | version
  | help
  deriving DecidableEq, Repr, Inhabited

/-- Why arguments are not understood. -/
inductive UsageError where
  | unknownCommand (name : String)
  | missingValue (option : String)
  | notDescriptor (option : String)
  | missingConfig (command : String)
  | missingSocket (command : String)
  deriving DecidableEq, Repr, Inhabited

namespace UsageError

def message : UsageError → String
  | .unknownCommand name => s!"unknown command: {name}"
  | .missingValue option => s!"{option} requires a value"
  | .notDescriptor option => s!"{option} requires a file descriptor number"
  | .missingConfig command => s!"{command} requires --engine-config <file>"
  | .missingSocket command => s!"{command} requires --socket-fd <n>"

end UsageError

namespace Command

/-- The value of an option, if the option is there. -/
def value? (option : String) : List String → Except UsageError (Option String)
  | [] => .ok none
  | argument :: rest =>
    if argument = option then
      match rest with
      | value :: _ => .ok (some value)
      | [] => .error (.missingValue option)
    else value? option rest

/-- The value of an option as a path. -/
def path? (option : String) (arguments : List String) : Except UsageError (Option Path) := do
  return (← value? option arguments).map Path.mk

/-- The value of an option as the number of a descriptor. -/
def descriptor? (option : String) (arguments : List String) :
    Except UsageError (Option Int32) := do
  match ← value? option arguments with
  | none => return none
  | some value =>
    match Text.i32? value with
    | some number => return some number
    | none => .error (.notDescriptor option)

/-- A value that has to be there. -/
def needed {α : Type} (otherwise : UsageError) : Option α → Except UsageError α
  | some value => .ok value
  | none => .error otherwise

def readPrepare (arguments : List String) : Except UsageError PrepareOptions := do
  let config ← needed (.missingConfig "prepare") (← path? "--engine-config" arguments)
  let policy ← path? "--policy" arguments
  let capabilities ← path? "--capabilities" arguments
  let region ← descriptor? "--starter-fd" arguments
  return ⟨config, policy, capabilities, region, arguments.contains "--dry-run"⟩

/-- The options of a task of the host side. -/
def readTask (command : String) (arguments : List String) : Except UsageError TaskOptions := do
  let socket ← needed (.missingSocket command) (← descriptor? "--socket-fd" arguments)
  let config ← needed (.missingConfig command) (← path? "--engine-config" arguments)
  return ⟨socket, config⟩

/-- The command that the arguments of the program ask for. -/
def read : List String → Except UsageError Command
  | [] => .ok .help
  | name :: arguments =>
    if name = "prepare" then .prepare <$> readPrepare arguments
    else if name = "post-start-host" then .afterStart <$> readTask name arguments
    else if name = "cleanup-host" then .cleanup <$> readTask name arguments
    else if name ∈ ["version", "--version", "-v"] then .ok .version
    else if name ∈ ["help", "--help", "-h"] then .ok .help
    else .error (.unknownCommand name)

end Command
end ContainerLaunch
