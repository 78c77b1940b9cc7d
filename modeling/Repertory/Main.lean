import Repertory.Cli.Run
import Repertory.Json.Printer

/-!
# The program

Files and environment variables are read here, and the outcome of the run is printed.
-/

namespace Repertory
namespace Cli

def settingNames : List String :=
  let upper := ["RESQ_ENGINE", "RESQ_LOGGING", "RESQ_ENGINE__DEFAULT_PAGE_SIZE",
    "RESQ_ENGINE__MAX_PAGE_SIZE", "RESQ_ENGINE__SEARCH_LIMIT", "RESQ_LOGGING__LEVEL",
    "RESQ_LOGGING__JSON"]
  upper ++ upper.map Text.asciiLower

def colorNames : List String := ["CLICOLOR_FORCE", "NO_COLOR", "CLICOLOR"]

def readVariables : List String → IO Environment.Variables
  | [] => return []
  | name :: rest => do
    let others ← readVariables rest
    match ← IO.getEnv name with
    | some value => return (name, value) :: others
    | none => return others

def readFile (path : String) : IO (Except FileFault String) := do
  try
    return .ok (← IO.FS.readFile path)
  catch
    | .noFileOrDirectory _ _ _ => return .error .absent
    | .inappropriateType _ 20 _ => return .error .notDirectory
    | .inappropriateType _ 21 _ => return .error .isDirectory
    | .invalidArgument _ 36 _ => return .error .tooLong
    | e => return .error (.unreadable (toString e))

def readFiles : List String → IO (List (String × Except FileFault String))
  | [] => return []
  | path :: rest => do
    let found ← readFile path
    return (path, found) :: (← readFiles rest)

def readSurroundings (args : List String) : IO Surroundings := do
  let env ← readVariables (seedVariable :: colorNames ++ settingNames)
  let directory := (← IO.currentDir).components.filter (· ≠ "")
  let paths :=
    match readInvocation env args with
    | .error _ => []
    | .ok invocation => invocation.seed :: configPaths directory invocation.config
  let files ← readFiles paths
  let seed ← IO.rand 0 0xFFFFFFFFFFFFFFFF
  return {
    env, directory
    file := fun path => (files.lookup path).getD (.error .absent)
    seed := seed.toUInt64
    seeds := fun n => (seed + n + 1).toUInt64
    terminal := ← (← IO.getStdout).isTty }

def usage : String :=
  "Usage: resq --seed FILE [--config FILE] PART REQUEST\n" ++
  "       resq --seed FILE [--config FILE] episodes-of SHOW [OPTIONS]\n\n" ++
  "Parts:    studios, shows, seasons, episodes, collections, library\n" ++
  "Requests: list [OPTIONS], get IDENTIFIER [--include NAMES], search QUERY,\n" ++
  "          count [--filter TEXT]\n" ++
  "Options:  --filter TEXT, --sort TEXT, --limit N, --after ID, --reverse, --include NAMES\n"

def printOutcome (around : Surroundings) : Outcome → IO Unit
  | .answered j => IO.println j.sorted.pretty
  | .failed f => IO.eprint (f.report around.colored)
  | .refused .help => IO.print usage
  | .refused .version => IO.println "resq 0.4.0"
  | .refused .misused => IO.eprint usage

end Cli
end Repertory

def main (args : List String) : IO UInt32 := do
  let around ← Repertory.Cli.readSurroundings args
  let outcome := Repertory.Cli.run around args
  Repertory.Cli.printOutcome around outcome
  return outcome.exitCode.toUInt32
