import Repertory.Engine

/-!
# Configuration

The settings of the engine and of the log. A section that is missing, and a setting that is missing
in its section, has its default.
-/

namespace Repertory

structure Logging where
  level : String := "info"
  json : Bool := false
  deriving DecidableEq

namespace Logging

def fieldNames : List String := ["level", "json"]

def decode (j : Json) : Option Logging := do
  let fields ← j.asRecord [] fieldNames
  return {
    level := ← Json.optional "info" Json.asText "level" fields
    json := ← Json.optional false Json.asBool "json" fields }

def encode (l : Logging) : Json :=
  .object [("level", .text l.level), ("json", .bool l.json)]

end Logging

structure Config where
  engine : Engine := {}
  logging : Logging := {}
  deriving DecidableEq

namespace Config

def decode (j : Json) : Option Config := do
  let fields ← j.asRecord [] ["engine", "logging"]
  return {
    engine := ← Json.optional {} Engine.decode "engine" fields
    logging := ← Json.optional {} Logging.decode "logging" fields }

def encode (c : Config) : Json :=
  .object [("engine", c.engine.encode), ("logging", c.logging.encode)]

end Config
end Repertory
