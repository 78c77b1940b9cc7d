import Repertory.Config.Basic
import Repertory.Config.Environment
import Repertory.Toml.Document

/-!
# Loading a configuration

The defaults are below, a file lies over them, and environment variables lie over both. Each layer
changes only the settings that it names. A section may also be given as the array of its settings;
it then hides what the layers below say about that section.
-/

namespace Repertory
namespace Config

def sectionFields : List (String × List String) :=
  [("engine", Engine.fieldNames), ("logging", Logging.fieldNames)]

/-- A section without the items behind its last setting, which nobody asks for. -/
def cutSection (name : String) : Json → Json
  | .array items =>
    match sectionFields.lookup name with
    | some fields => .array (items.take fields.length)
    | none => .array items
  | j => j

def cutSections : Json → Json
  | .object entries => .object (entries.map fun (name, j) => (name, cutSection name j))
  | j => j

/-- The configuration that the text of a file, if there is one, and environment variables give. It
is nothing if the text is malformed or a setting has the wrong type. -/
def load (file : Option String) (env : Environment.Variables) : Option Config := do
  let settings ←
    match file with
    | some text => Toml.read text
    | none => some (.object [])
  decode (cutSections (((encode {}).overlay settings).overlay (Environment.settings env)))

end Config
end Repertory
