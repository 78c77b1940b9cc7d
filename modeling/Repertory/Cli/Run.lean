import Repertory.Catalog.Basic
import Repertory.Cli.Command
import Repertory.Cli.Directory
import Repertory.Config.Load
import Repertory.Json.Parser

/-!
# Running a command line

A run reads its configuration, fills a catalog with the rows of a file, and answers the request. It
depends only on what it is given: the arguments, the environment variables, the files and the seeds
of random orders.
-/

namespace Repertory
namespace Cli

open Catalog (State Settings Seed Related)

structure Surroundings where
  env : Environment.Variables
  directory : List String := []
  file : String → Except FileFault String
  seed : UInt64 := 0
  seeds : Nat → UInt64 := fun _ => 0
  terminal : Bool := false

/-- Whether reports have colours. Being told to use them wins over being told not to. -/
def Surroundings.colored (around : Surroundings) : Bool :=
  if (around.env.lookup "CLICOLOR_FORCE").any (· ≠ "0") then true
  else if (around.env.lookup "NO_COLOR").isSome then false
  else around.terminal && (around.env.lookup "CLICOLOR").all (· ≠ "0")

/-- Why a run failed, from the outermost reason to the first cause. -/
structure Failing where
  message : String
  causes : List String := []

def painted (colored : Bool) (code word : String) : String :=
  if colored then "\x1b[" ++ code ++ "m" ++ word ++ "\x1b[0m" else word

def Failing.report (colored : Bool) (f : Failing) : String :=
  painted colored "1;31" "Error:" ++ " " ++ f.message ++ "\n" ++
    String.join (f.causes.map fun cause =>
      "\n" ++ painted colored "33" "Caused by:" ++ " " ++ cause ++ "\n")

inductive Outcome where
  | answered (j : Json)
  | failed (f : Failing)
  | refused (refusal : Refusal)

def Outcome.exitCode : Outcome → Nat
  | answered _ => 0
  | failed _ => 1
  | refused .misused => 2
  | refused .help => 0
  | refused .version => 0

/-! ## Answers -/

def checked {β : Type} (result : Except QueryError β) : Action State Failing β :=
  Action.ofExcept (result.mapError fun e => ⟨e.message, []⟩)

def identified (what text : String) : Action State Failing (Identifier Int64) :=
  Action.ofExcept <|
    (Identifier.read text).mapError fun e => ⟨"Invalid " ++ what ++ ": " ++ text, [e.message]⟩

def reported {β : Type} (action : Action State RepositoryError β) : Action State Failing β :=
  action.mapError fun e => ⟨e.display, []⟩

def answer {α : Type} [Resource α Int64] [JsonCodec α] [Related α] (s : Settings)
    (seeds : Nat → UInt64) (repo : Repository State α Int64) :
    Request → Action State Failing Json
  | .list params => do
    let q ← checked (s.listQuery seeds params)
    return (← reported (repo.list q)).encode
  | .get text relations => do
    let id ← identified "identifier" text
    let relations ← checked (Include.read Related.relations relations)
    return JsonCodec.encode (← reported (repo.getWith id relations))
  | .search text => do
    return .array ((← reported (repo.search text)).map JsonCodec.encode)
  | .count filter => do
    let q : ListQuery State α Int64 ← checked (s.listQuery seeds { filter })
    return .object [("count", .int (← reported (repo.count q.filter)))]

def answerCommand (s : Settings) (seeds : Nat → UInt64) : Command → Action State Failing Json
  | .ask .studios request => answer s seeds s.studios request
  | .ask .shows request => answer s seeds s.shows request
  | .ask .seasons request => answer s seeds s.seasons request
  | .ask .episodes request => answer s seeds s.episodes request
  | .ask .collections request => answer s seeds s.collections request
  | .ask .library request => answer s seeds s.library request
  | .episodesOf text params => do
    let id ← identified "show identifier" text
    let q ← checked (s.listQuery seeds params)
    return (← reported (s.episodesOf id q)).encode

/-! ## Files -/

/-- Where the file with the configuration may be: in the working directory, or else in one of those
above it, the nearest first. -/
def configPaths (directory : List String) (path : String) : List String :=
  if path.toList.head? = some '/' then [path]
  else
    (List.range (directory.length + 1)).map fun n =>
      let above := directory.take (directory.length - n)
      String.join (above.map fun name => "/" ++ name) ++ "/" ++ path

def isFile (found : Except FileFault String) : Bool :=
  match found with
  | .ok _ => true
  | .error fault => !fault.isMissing

/-- Reads the configuration. There need not be a file. -/
def readConfig (around : Surroundings) (path : String) : Except Failing Config :=
  let config :=
    match ((configPaths around.directory path).map around.file).find? isFile with
    | some (.ok text) => Config.load (some text) around.env
    | some (.error _) => none
    | none => Config.load none around.env
  match config with
  | some config => .ok config
  | none =>
    .error ⟨"Failed to load configuration from " ++ path,
      [(Failure.config "a setting is malformed or has the wrong type").message]⟩

def readSeed (around : Surroundings) (path : String) : Except Failing Seed :=
  let fail (failure : Failure) (cause : String) : Except Failing Seed :=
    .error ⟨"Failed to read seed file: " ++ path, [failure.message, cause]⟩
  match around.file path with
  | .error fault => fail (.io fault.message) fault.message
  | .ok text =>
    match (Json.parseDraft text).bind Seed.decode with
    | some seed => .ok seed
    | none =>
      let cause := "the text is not JSON, or has no rows of a catalog"
      fail (.json cause) cause

def answerInvocation (around : Surroundings) (invocation : Invocation) : Except Failing Json := do
  let config ← readConfig around invocation.config
  let seed ← readSeed around invocation.seed
  let s : Settings := { engine := config.engine, seed := around.seed }
  let fill : Action State Failing Unit :=
    (s.load seed).mapError fun e => ⟨"Failed to load seed", [e.display]⟩
  let action := do
    fill
    answerCommand s around.seeds invocation.command
  (action.exec State.empty).1

def run (around : Surroundings) (args : List String) : Outcome :=
  match readInvocation around.env args with
  | .error refusal => .refused refusal
  | .ok invocation =>
    match answerInvocation around invocation with
    | .ok j => .answered j
    | .error f => .failed f

end Cli
end Repertory
