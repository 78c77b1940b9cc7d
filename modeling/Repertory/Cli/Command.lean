import Repertory.Cli.Arguments
import Repertory.Config.Environment
import Repertory.ListParams

/-!
# The commands of the program

A command line names the file with the rows of a catalog, and asks about one part of the catalog:
`--seed FILE shows list --filter TEXT`.
-/

namespace Repertory
namespace Cli

inductive Part where
  | studios | shows | seasons | episodes | collections | library
  deriving DecidableEq

namespace Part

def word : Part → String
  | studios => "studios"
  | shows => "shows"
  | seasons => "seasons"
  | episodes => "episodes"
  | collections => "collections"
  | library => "library"

def all : List Part := [studios, shows, seasons, episodes, collections, library]

def ofWord (s : String) : Option Part := all.find? fun part => part.word == s

end Part

inductive Request where
  | list (params : ListParams)
  | get (identifier : String) (relations : Option String)
  | search (text : String)
  | count (filter : Option String)

inductive Command where
  | ask (part : Part) (request : Request)
  | episodesOf (identifier : String) (params : ListParams)

structure Invocation where
  seed : String
  config : String
  command : Command

/-! ## Requests -/

def anyValue : String → Bool := fun _ => true

def isLimit (s : String) : Bool := (Number.readUnsigned s).isSome

def listGrammar (operands : Nat) : Grammar where
  options :=
    [ ("filter", anyValue), ("sort", anyValue), ("limit", isLimit), ("after", anyValue),
      ("include", anyValue) ]
  switches := ["reverse"]
  operands := operands

def getGrammar : Grammar := { options := [("include", anyValue)], operands := 1 }
def searchGrammar : Grammar := { operands := 1 }
def countGrammar : Grammar := { options := [("filter", anyValue)] }

def Given.listParams (given : Given) : ListParams where
  filter := given.options.lookup "filter"
  sort := given.options.lookup "sort"
  relations := given.options.lookup "include"
  limit := ((given.options.lookup "limit").bind Number.readUnsigned).map UInt64.toNat
  afterId := given.options.lookup "after"
  backwards := given.switches.contains "reverse"

def Given.operand (given : Given) : Except Refusal String :=
  match given.operands with
  | [arg] => .ok arg
  | _ => .error .misused

def requestNames : List String := ["list", "get", "search", "count"]

def readRequest (name : String) (args : List String) : Except Refusal Request :=
  match name with
  | "list" => do return .list (← readAll (listGrammar 0) args).listParams
  | "get" => do
    let given ← readAll getGrammar args
    return .get (← given.operand) (given.options.lookup "include")
  | "search" => do return .search (← (← readAll searchGrammar args).operand)
  | "count" => do return .count ((← readAll countGrammar args).options.lookup "filter")
  | _ => .error .misused

def requestTopics : List String → Bool
  | [] => true
  | [name] => requestNames.contains name || name = "help"
  | _ => false

def partGrammar : Grammar := { commands := requestNames, topics := requestTopics }

/-! ## Commands -/

def episodesOfName : String := "episodes-of"

def readCommand (name : String) (args : List String) : Except Refusal Command :=
  match Part.ofWord name with
  | some part => do
    match (← readArguments partGrammar {} args).command with
    | some (name, args) => return .ask part (← readRequest name args)
    | none => throw .misused
  | none =>
    if name = episodesOfName then do
      let given ← readAll (listGrammar 1) args
      return .episodesOf (← given.operand) given.listParams
    else .error .misused

def commandTopics : List String → Bool
  | [] => true
  | name :: rest =>
    if (Part.ofWord name).isSome then requestTopics rest
    else (name = episodesOfName || name = "help") && rest.isEmpty

def isPath (s : String) : Bool := !s.isEmpty

def programGrammar : Grammar where
  options := [("seed", isPath), ("config", isPath)]
  commands := Part.all.map Part.word ++ [episodesOfName]
  topics := commandTopics

def seedVariable : String := "RESQ_SEED"

def defaultConfigFile : String := "resq.toml"

/-- Reads a command line. What is wrong behind the name of a command comes before what is wrong in
front of it. -/
def readInvocation (env : Environment.Variables) (args : List String) :
    Except Refusal Invocation := do
  let given ← readArguments programGrammar {} args
  match given.command with
  | none => throw .misused
  | some (name, args) =>
    let command ← readCommand name args
    let given ← given.settle programGrammar
    match (given.options.lookup "seed").or (env.lookup seedVariable) with
    | none => throw .misused
    | some seed =>
      if isPath seed then
        return { seed, config := (given.options.lookup "config").getD defaultConfigFile, command }
      else throw .misused

end Cli
end Repertory
