import Repertory.Action
import Repertory.Order.Basic

/-!
# Stores

A store keeps the rows of one type. It is asked with a filter, an order and a limit, and it reports
a write that would break the uniqueness of an id or a slug as a conflict.
-/

namespace Repertory

inductive StoreError where
  | conflict (field value : String)
  | notFound (id : String)
  | unsupported (what : String)
  | backend (what : String)
  deriving DecidableEq

namespace StoreError

def message : StoreError → String
  | conflict field value => "Unique constraint violated on " ++ field ++ " = " ++ value
  | notFound id => "No row with id " ++ id
  | unsupported what => "Unsupported by this store: " ++ what
  | backend what => "Storage backend error: " ++ what

end StoreError

/-- A question to a store. Without a filter every row is meant, without an order rows come as they
are stored, and without a limit all of them come. -/
structure Query (α ι : Type) where
  filter : Option (Filter α ι) := none
  order : Option (OrderBy α) := none
  limit : Option Nat := none

namespace Query

variable {α ι : Type} [Identity ι] [Resource α ι]

def byId (id : ι) : Query α ι :=
  { filter := some (Filter.idEq id), limit := some 1 }

def selects (filter : Option (Filter α ι)) (row : α) : Bool :=
  match filter with
  | some f => f.isMatch row
  | none => true

def run (q : Query α ι) (rows : List α) : List α :=
  let rows := rows.filter (selects q.filter)
  let rows :=
    match q.order with
    | some order => OrderBy.sort order rows
    | none => rows
  match q.limit with
  | some n => rows.take n
  | none => rows

end Query

structure Store (σ α ι : Type) where
  execute : Query α ι → Action σ StoreError (List α)
  count : Option (Filter α ι) → Action σ StoreError Nat
  /-- Adds a row, under a new id if it has none yet. -/
  insert : α → Action σ StoreError α
  update : α → Action σ StoreError α
  delete : ι → Action σ StoreError Unit

end Repertory
