import Repertory.Text.Split

/-!
# Arguments of a command

A command takes options, which have a value, switches, which have none, and a fixed number of
operands, in any order; some commands take the name of a further command, which gets all arguments
behind it. The value of an option is the next argument, or stands behind an equals sign; only there
can it begin with a hyphen. Behind `--` every argument is an operand.

A value is checked only when the next option, switch or operand is met, or at the end. This decides
between a misuse and a request for help where a command line has both.
-/

namespace Repertory
namespace Cli

inductive Refusal where
  | misused
  | help
  | version
  deriving DecidableEq

structure Grammar where
  options : List (String × (String → Bool)) := []
  switches : List String := []
  operands : Nat := 0
  commands : List String := []
  topics : List String → Bool := List.isEmpty

structure Given where
  options : List (String × String) := []
  switches : List String := []
  operands : List String := []
  /-- The last option, while its value is missing or not checked. -/
  pending : Option (String × Option String) := none
  literal : Bool := false
  command : Option (String × List String) := none

namespace Given

def awaitsValue (given : Given) : Bool :=
  match given.pending with
  | some (_, none) => true
  | _ => false

/-- Takes the value of an option. No option is given twice. -/
def record (g : Grammar) (name value : String) (given : Given) : Except Refusal Given :=
  let admitted := (g.options.lookup name).any fun admits => admits value
  if (given.options.lookup name).isSome || !admitted then .error .misused
  else .ok { given with options := given.options ++ [(name, value)] }

def settle (g : Grammar) (given : Given) : Except Refusal Given :=
  match given.pending with
  | none => .ok given
  | some (_, none) => .error .misused
  | some (name, some value) => record g name value { given with pending := none }

def takeOperand (g : Grammar) (arg : String) (given : Given) : Except Refusal Given := do
  let given ← given.settle g
  if given.operands.length < g.operands then
    return { given with operands := given.operands ++ [arg] }
  else throw .misused

/-- Gives up for the sake of help or the version, if everything before was right. -/
def interrupt (g : Grammar) (refusal : Refusal) (given : Given) : Except Refusal Given := do
  let _ ← given.settle g
  throw refusal

def takeLong (g : Grammar) (name : String) (value : Option String) (given : Given) :
    Except Refusal Given := do
  if (g.options.lookup name).isSome then
    let given ← given.settle g
    match value with
    | some value => given.record g name value
    | none => return { given with pending := some (name, none) }
  else if value.isSome then throw .misused
  else if g.switches.contains name then
    let given ← given.settle g
    if given.switches.contains name then throw .misused
    else return { given with switches := given.switches ++ [name] }
  else if name = "help" then given.interrupt g .help
  else if name = "version" then given.interrupt g .version
  else throw .misused

def take (g : Grammar) (arg : String) (given : Given) : Except Refusal Given :=
  if given.literal then given.takeOperand g arg
  else if arg = "--" then .ok { given with literal := true }
  else
    match arg.toList with
    | '-' :: '-' :: word =>
      let (name, value) := Text.splitFirst '=' word
      given.takeLong g (String.ofList name) (value.map String.ofList)
    | '-' :: 'h' :: _ => given.interrupt g .help
    | '-' :: 'V' :: _ => given.interrupt g .version
    | '-' :: _ :: _ => .error .misused
    | _ =>
      match given.pending with
      | some (name, none) => .ok { given with pending := some (name, some arg) }
      | _ => given.takeOperand g arg

end Given

def readArguments (g : Grammar) (given : Given) : List String → Except Refusal Given
  | [] => .ok given
  | arg :: rest =>
    if !given.literal && !given.awaitsValue && g.commands.contains arg then
      .ok { given with command := some (arg, rest) }
    else if !given.literal && !given.awaitsValue && !g.commands.isEmpty && arg = "help" then
      .error (if g.topics rest then .help else .misused)
    else do
      let given ← given.take g arg
      readArguments g given rest

def readAll (g : Grammar) (args : List String) : Except Refusal Given := do
  let given ← (← readArguments g {} args).settle g
  if given.operands.length = g.operands then return given else throw .misused

end Cli
end Repertory
