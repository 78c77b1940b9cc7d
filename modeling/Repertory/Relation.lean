import Repertory.Repository.Error
import Repertory.Text.Split

/-!
# Relations and what to load with rows

A row may point to another row by its id. A caller can ask for the rows that a page points to; they
are then fetched together, once for each relation. Relations with many rows have a name, so that
asking for them gets a clear answer, but are not loaded.
-/

namespace Repertory

inductive Cardinality where
  | one | many
  deriving DecidableEq

structure RelationInfo where
  name : String
  target : String
  foreignKey : String
  cardinality : Cardinality
  deriving DecidableEq

structure Relation (σ α : Type) where
  info : RelationInfo
  load : Option (List α → Action σ RepositoryError (List α))

namespace Relation

variable {σ α β ι κ : Type}

/-- The different ids, in order. -/
def insertId [Identity κ] (id : κ) : List κ → List κ
  | [] => [id]
  | first :: rest =>
    match compare id first with
    | .lt => id :: first :: rest
    | .eq => first :: rest
    | .gt => first :: insertId id rest

/-- Loads the rows of `store` that the keys of the items point to. Every item gets its row, or
nothing where it has no key or the key leads nowhere. -/
def loadByKey [Identity κ] [Resource β κ] (store : Store σ β κ) (key : α → Option κ)
    (attach : Option β → α → α) (items : List α) : Action σ RepositoryError (List α) := do
  let ids := (items.filterMap key).foldl (fun acc id => insertId id acc) []
  let rows ←
    if ids.isEmpty then pure []
    else
      let filter := Filter.oneOf (Resource.schema (α := β)).id (ids.map Identity.toValue)
      Action.mapError
        (fun e =>
          (RepositoryError.ofStore .include e).withEntity (Resource.kind β)
            (toString ids.length ++ " ids"))
        (store.execute { filter := some filter })
  return items.map fun item =>
    attach ((key item).bind fun id => rows.find? fun row => Resource.id row = id) item

def one [Identity κ] [Resource β κ] (name foreignKey : String) (store : Store σ β κ)
    (key : α → Option κ) (attach : Option β → α → α) : Relation σ α where
  info := ⟨name, Resource.kind β, foreignKey, .one⟩
  load := some (loadByKey store key attach)

def many (name target foreignKey : String) : Relation σ α where
  info := ⟨name, target, foreignKey, .many⟩
  load := none

def find? (relations : List (Relation σ α)) (name : String) : Option (Relation σ α) :=
  relations.find? fun r => r.info.name == Text.lowercase name

end Relation

abbrev Include (σ α : Type) := List (Relation σ α)

namespace Include

variable {σ α ι : Type}

def names (relations : Include σ α) : List String :=
  relations.map fun r => r.info.name

def add (relations : Include σ α) (r : Relation σ α) : Include σ α :=
  if relations.any fun other => other.info.name == r.info.name then relations
  else relations ++ [r]

section

variable [Identity ι] [Resource α ι]

def addNames (known : List (Relation σ α)) :
    Include σ α → List String → Except QueryError (Include σ α)
  | found, [] => .ok found
  | found, name :: rest =>
    match Relation.find? known name with
    | none => .error (.unknownRelation (Resource.kind α) name)
    | some r =>
      if r.load.isNone then .error (.manyValued (Resource.kind α) name)
      else addNames known (add found r) rest

def ofNames (known : List (Relation σ α)) (names : List String) :
    Except QueryError (Include σ α) :=
  addNames known [] names

/-- Reads names between commas; empty ones are skipped. -/
def read (known : List (Relation σ α)) (text : Option String) : Except QueryError (Include σ α) :=
  ofNames known ((Text.listParts (text.getD "")).filter fun name => !name.isEmpty)

end

def apply : Include σ α → List α → Action σ RepositoryError (List α)
  | [], items => return items
  | r :: rest, items => do
    let loaded ←
      match r.load with
      | some load => if items.isEmpty then pure items else load items
      | none => pure items
    apply rest loaded

end Include
end Repertory
