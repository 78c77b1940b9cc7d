import Repertory.Store.Basic

/-!
# Tables in memory

A table keeps its rows in the order of their ids, and the greatest id that it ever kept, so that no
id is given out twice even after its row is gone. A write that fails leaves the table as it was.
-/

namespace Repertory

/-- Rows in the order of their ids, and the greatest id there ever was. -/
structure Table (α ι : Type) where
  rows : List α
  highWater : Option ι

namespace Table

variable {α ι : Type}

def empty : Table α ι := ⟨[], none⟩

variable [Identity ι] [Resource α ι]

def find? (id : ι) (table : Table α ι) : Option α :=
  table.rows.find? fun row => Resource.id row = id

def slugTaken (item : α) (table : Table α ι) : Bool :=
  table.rows.any fun row =>
    Resource.slug row == Resource.slug item ∧ Resource.id row ≠ Resource.id item

/-- Puts a row in its place by id, where it replaces a row with the same id. -/
def place (item : α) : List α → List α
  | [] => [item]
  | row :: rest =>
    match compare (Resource.id item) (Resource.id row) with
    | .lt => item :: row :: rest
    | .eq => item :: rest
    | .gt => row :: place item rest

def raise (id : ι) : Option ι → ι
  | none => id
  | some high => if compare id high = .gt then id else high

/-- The row as it can be inserted: with a new id, or with its own if that is free. -/
def assign (item : α) (table : Table α ι) : Except StoreError α :=
  if Identity.isUnassigned (Resource.id item) then
    match Identity.allocate table.highWater with
    | some id => .ok (Resource.setId id item)
    | none => .error (.backend (Resource.kind α ++ " id space exhausted"))
  else if (table.find? (Resource.id item)).isSome then
    .error (.conflict "id" (Identity.text (Resource.id item)))
  else .ok item

def checkSlug (item : α) (table : Table α ι) : Except StoreError Unit :=
  if table.slugTaken item then .error (.conflict "slug" (Resource.slug item)) else .ok ()

def insert (item : α) (table : Table α ι) : Except StoreError (α × Table α ι) := do
  let item ← table.assign item
  table.checkSlug item
  return (item,
    { rows := place item table.rows
      highWater := some (raise (Resource.id item) table.highWater) })

def update (item : α) (table : Table α ι) : Except StoreError (α × Table α ι) :=
  match table.find? (Resource.id item) with
  | none => .error (.notFound (Identity.text (Resource.id item)))
  | some _ => do
    table.checkSlug item
    return (item, { table with rows := place item table.rows })

def delete (id : ι) (table : Table α ι) : Except StoreError (Unit × Table α ι) :=
  match table.find? id with
  | none => .error (.notFound (Identity.text id))
  | some _ => .ok ((), { table with rows := table.rows.filter fun row => Resource.id row ≠ id })

def execute (q : Query α ι) (table : Table α ι) : List α :=
  q.run table.rows

def count (filter : Option (Filter α ι)) (table : Table α ι) : Nat :=
  (table.rows.filter (Query.selects filter)).length

def store {σ : Type} (lens : Lens σ (Table α ι)) : Store σ α ι where
  execute q := return (← lens.read).execute q
  count filter := return (← lens.read).count filter
  insert item := lens.change (insert item)
  update item := lens.change (update item)
  delete id := lens.change (delete id)

end Table

namespace Store

variable {σ α ι : Type} [Identity ι] [Resource α ι]

def ofRows (rows : List α) : Store σ α ι where
  execute q := return q.run rows
  count filter := return (rows.filter (Query.selects filter)).length
  insert _ := throw (.unsupported ("insert into " ++ Resource.kind α))
  update _ := throw (.unsupported ("update of " ++ Resource.kind α))
  delete _ := throw (.unsupported ("delete from " ++ Resource.kind α))

end Store
end Repertory
