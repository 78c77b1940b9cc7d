import Repertory.Identifier
import Repertory.Page
import Repertory.Relation
import Repertory.Repository.Slug

/-!
# Repositories

A repository reads rows from a store, and writes them if it has rules for writing. Each write is
checked and completed first, then stored, and then the rows that depend on it follow. A repository
without such rules, like a view of several stores, takes no writes.
-/

namespace Repertory

structure Hooks (σ α : Type) where
  /-- Checks a row, and completes it, before it is written. -/
  validate : α → Action σ RepositoryError α
  /-- Runs after a row was removed. -/
  onDelete : α → Action σ RepositoryError Unit
  /-- Runs after a row was changed, with the old row and the new one. -/
  onEdited : α → α → Action σ RepositoryError Unit

def Hooks.plain {σ α ι : Type} [Identity ι] [Resource α ι] : Hooks σ α where
  validate item := do
    Action.ofExcept (validateSlug item)
    return item
  onDelete _ := return ()
  onEdited _ _ := return ()

structure ListQuery (σ α ι : Type) where
  filter : Option (Filter α ι) := none
  sorting : Sorting α := [.default]
  relations : Include σ α := []
  pagination : Pagination ι := { limit := defaultPageSize }

/-- The request with a condition that the caller's filter cannot undo. -/
def ListQuery.constrained {σ α ι : Type} (constraint : Filter α ι) (q : ListQuery σ α ι) :
    ListQuery σ α ι :=
  { q with filter := Filter.all [some constraint, q.filter] }

structure Repository (σ α ι : Type) where
  rows : Action σ RepositoryError (Store σ α ι)
  /-- The store to write to and the rules for it; none for a view. -/
  writes : Option (Store σ α ι × Hooks σ α)
  searchLimit : Nat
  seed : UInt64

namespace Repository

variable {σ α ι : Type}

def ofStore (store : Store σ α ι) (hooks : Hooks σ α) (searchLimit : Nat) (seed : UInt64) :
    Repository σ α ι :=
  { rows := pure store, writes := some (store, hooks), searchLimit, seed }

def ask {β : Type} (operation : Operation) (action : Action σ StoreError β) :
    Action σ RepositoryError β :=
  action.mapError (RepositoryError.ofStore operation)

variable [Identity ι] [Resource α ι]

/-! ## Reading -/

def first (store : Store σ α ι) (operation : Operation) (q : Query α ι) :
    Action σ RepositoryError (Option α) := do
  return (← ask operation (store.execute { q with limit := some 1 })).head?

def lookup (repo : Repository σ α ι) (id : Identifier ι) : Query α ι :=
  match id with
  | .slug s =>
    if s = randomSlug then { order := some (Sorting.compile [.random repo.seed]) }
    else { filter := some id.filter }
  | .id _ => { filter := some id.filter }

/-- The row with an identifier, if there is one. The slug `random` gives any row. -/
def get? (repo : Repository σ α ι) (id : Identifier ι) : Action σ RepositoryError (Option α) := do
  first (← repo.rows) .get (repo.lookup id)

def get (repo : Repository σ α ι) (id : Identifier ι) : Action σ RepositoryError α := do
  match ← repo.get? id with
  | some row => return row
  | none => throw (.notFound (Resource.kind α) id.display)

def getWith (repo : Repository σ α ι) (id : Identifier ι) (relations : Include σ α) :
    Action σ RepositoryError α := do
  let row ← repo.get id
  match ← relations.apply [row] with
  | loaded :: _ => return loaded
  | [] => return row

def list (repo : Repository σ α ι) (q : ListQuery σ α ι) :
    Action σ RepositoryError (Page α ι) := do
  let store ← repo.rows
  let page ← ask .getAll (Page.fetch store q.filter q.sorting q.pagination)
  return { page with items := ← q.relations.apply page.items }

def count (repo : Repository σ α ι) (filter : Option (Filter α ι)) :
    Action σ RepositoryError Nat := do
  let store ← repo.rows
  ask .count (store.count filter)

/-- The filter for a text in the fields that are searched; the slug where none are declared. -/
def searchFilter (text : String) : Filter α ι :=
  let schema := Resource.schema (α := α)
  .contains (if schema.search.isEmpty then [schema.slug] else schema.search) text

/-- The first rows, in the schema's order, that contain a text. -/
def search (repo : Repository σ α ι) (text : String) : Action σ RepositoryError (List α) := do
  let store ← repo.rows
  ask .search (store.execute {
    filter := some (searchFilter text)
    order := some (Sorting.compile [.default])
    limit := some repo.searchLimit })

/-- The rows with these ids, in the order of the ids; ids without a row are skipped. Where rows
share an id the last one counts. -/
def getMany (repo : Repository σ α ι) (ids : List ι) : Action σ RepositoryError (List α) := do
  if ids.isEmpty then
    return []
  let store ← repo.rows
  let filter := Filter.oneOf (Resource.schema (α := α)).id (ids.map Identity.toValue)
  let rows ← ask .get (store.execute { filter := some filter })
  return ids.filterMap fun id => rows.reverse.find? fun row => Resource.id row = id

/-! ## Writing -/

def writable (repo : Repository σ α ι) (operation : Operation) :
    Action σ RepositoryError (Store σ α ι × Hooks σ α) :=
  match repo.writes with
  | some parts => return parts
  | none => throw (.readOnly operation (Resource.kind α))

def findBySlug (store : Store σ α ι) (slug : String) : Action σ RepositoryError (Option α) :=
  first store .get { filter := some (.cmp .eq (Resource.schema (α := α)).slug (.text slug)) }

/-- What a failed write means. A conflict is a duplicate of the row that holds the slug, as far as
that row can be found. -/
def writeError (store : Store σ α ι) (operation : Operation) (slug : String) :
    StoreError → Action σ RepositoryError RepositoryError
  | .conflict _ _ => do
    let duplicate := (RepositoryError.duplicate (Resource.kind α) slug).withOperation operation
    match ← (findBySlug store slug).outcome with
    | .ok (some row) =>
      return duplicate.withExisting (Identity.text (Resource.id row)) (Resource.slug row)
    | _ => return duplicate
  | .notFound id => return (RepositoryError.notFound (Resource.kind α) id).withOperation operation
  | other => return (RepositoryError.ofStore operation other).withEntity (Resource.kind α) slug

def write (store : Store σ α ι) (operation : Operation) (slug : String)
    (action : Action σ StoreError α) : Action σ RepositoryError α := do
  match ← action.outcome with
  | .ok row => return row
  | .error e => throw (← writeError store operation slug e)

def insertChecked (store : Store σ α ι) (hooks : Hooks σ α) (item : α) :
    Action σ RepositoryError α := do
  let item ← hooks.validate item
  write store .create (Resource.slug item) (store.insert item)

def create (repo : Repository σ α ι) (item : α) : Action σ RepositoryError α := do
  let (store, hooks) ← repo.writable .create
  insertChecked store hooks item

/-- Gives the row that has the slug of the item, or else inserts the item. Where another writer
comes first, its row is given. -/
def createIfNotExists (repo : Repository σ α ι) (item : α) : Action σ RepositoryError α := do
  let (store, hooks) ← repo.writable .createIfNotExists
  let slug := Resource.slug item
  match ← findBySlug store slug with
  | some row => return row
  | none =>
    match ← (insertChecked store hooks item).outcome with
    | .ok row => return row
    | .error e =>
      if e.isDuplicate then
        match ← findBySlug store slug with
        | some row => return row
        | none =>
          throw ((RepositoryError.notFound (Resource.kind α) slug).withOperation .createIfNotExists)
      else throw e

def persist (store : Store σ α ι) (hooks : Hooks σ α) (current changes : α) :
    Action σ RepositoryError α := do
  let changes ← hooks.validate (Resource.setId (Resource.id current) changes)
  let updated ← write store .edit (Resource.slug changes) (store.update changes)
  hooks.onEdited current updated
  return updated

/-- Replaces a row. The relations that the changes do not mention are kept, unless `resetOld`. -/
def edit (repo : Repository σ α ι) (id : ι) (changes : α) (resetOld : Bool) :
    Action σ RepositoryError α := do
  let (store, hooks) ← repo.writable .edit
  let current ← (repo.get (.id id)).mapError (RepositoryError.withOperation .edit)
  persist store hooks current (keepRelations current resetOld changes)

def patch (repo : Repository σ α ι) (id : ι) (change : α → α) : Action σ RepositoryError α := do
  let (store, hooks) ← repo.writable .patch
  let current ← (repo.get (.id id)).mapError (RepositoryError.withOperation .patch)
  (persist store hooks current (change current)).mapError (RepositoryError.withOperation .patch)

def remove (store : Store σ α ι) (hooks : Hooks σ α) (row : α) :
    Action σ RepositoryError Unit := do
  let id := Identity.text (Resource.id row)
  let explain : StoreError → RepositoryError
    | .notFound _ => (RepositoryError.notFound (Resource.kind α) id).withOperation .delete
    | other => (RepositoryError.ofStore .delete other).withEntity (Resource.kind α) id
  (store.delete (Resource.id row)).mapError explain
  hooks.onDelete row

def delete (repo : Repository σ α ι) (id : Identifier ι) : Action σ RepositoryError Unit := do
  let (store, hooks) ← repo.writable .delete
  let row ← (repo.get id).mapError (RepositoryError.withOperation .delete)
  remove store hooks row

/-- Removes rows one after the other, and counts them. A row that an earlier removal took along is
not counted. -/
def removeAll (store : Store σ α ι) (hooks : Hooks σ α) : List α → Action σ RepositoryError Nat
  | [] => return 0
  | row :: rest => do
    match ← (remove store hooks row).outcome with
    | .ok () => return (← removeAll store hooks rest) + 1
    | .error e =>
      if e.isNotFound then removeAll store hooks rest else throw (e.withOperation .deleteAll)

def deleteAll (repo : Repository σ α ι) (filter : Filter α ι) : Action σ RepositoryError Nat := do
  let (store, hooks) ← repo.writable .deleteAll
  let rows ← ask .deleteAll (store.execute { filter := some filter })
  removeAll store hooks rows

end Repository
end Repertory
