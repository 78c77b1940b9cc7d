import Repertory.Filter.Basic
import Repertory.Order.Sorting

/-!
# Orders of rows

An order is a list of keys that ends with the id. The id breaks every tie, so different rows never
compare as equal, and the place of a row in the order does not depend on the other rows.

Nulls come last whether a key ascends or descends; an order read backwards (`inverted`) has them
first.
-/

namespace Repertory

inductive OrderTarget (α : Type) where
  | field (field : Field α)
  | random (seed : UInt64)

structure OrderKey (α : Type) where
  target : OrderTarget α
  descending : Bool
  nullsFirst : Bool

/-- The keys of an order, most important first. -/
abbrev OrderBy (α : Type) := List (OrderKey α)

def orderValues (descending nullsFirst : Bool) (a b : Value) : Ordering :=
  let nulls : Ordering := if nullsFirst then .lt else .gt
  match a.isNull, b.isNull with
  | true, true => .eq
  | true, false => nulls
  | false, true => nulls.swap
  | false, false => if descending then (a.order b).swap else a.order b

namespace OrderKey

variable {α ι : Type}

def inverted (key : OrderKey α) : OrderKey α :=
  { key with descending := !key.descending, nullsFirst := !key.nullsFirst }

def order [Identity ι] [Resource α ι] (key : OrderKey α) (a b : α) : Ordering :=
  match key.target with
  | .field field => orderValues key.descending key.nullsFirst (field.get a) (field.get b)
  | .random seed =>
    let o := compare (randomKey seed (Identity.text (Resource.id a)))
      (randomKey seed (Identity.text (Resource.id b)))
    if key.descending then o.swap else o

end OrderKey

namespace OrderBy

variable {α ι : Type}

def inverted (keys : OrderBy α) : OrderBy α :=
  keys.map OrderKey.inverted

variable [Identity ι] [Resource α ι]

def order (keys : OrderBy α) (a b : α) : Ordering :=
  match keys with
  | [] => .eq
  | key :: rest => (key.order a b).then (order rest a b)

/-- Puts a row in its place among rows that stand in falling order, behind none that it equals. -/
def insertFalling (keys : OrderBy α) (row : α) : List α → List α
  | [] => [row]
  | first :: rest =>
    if order keys row first = .lt then first :: insertFalling keys row rest
    else row :: first :: rest

/-- Sorts rows. Rows that compare as equal keep their places relative to each other. -/
def sort (keys : OrderBy α) (rows : List α) : List α :=
  (rows.foldl (fun sorted row => insertFalling keys row sorted) []).reverse

end OrderBy

namespace SortTerm

variable {α ι : Type} [Identity ι] [Resource α ι]

def keys : SortTerm α → OrderBy α
  | default =>
    (Resource.schema (α := α)).defaultSort.map fun (field, descending) =>
      { target := .field field, descending, nullsFirst := false }
  | .by field descending => [{ target := .field field, descending, nullsFirst := false }]
  | random seed => [{ target := .random seed, descending := false, nullsFirst := false }]

end SortTerm

namespace Sorting

variable {α ι : Type} [Identity ι] [Resource α ι]

/-- The order that a sorting asks for. The id that ends it has the direction of the first key. -/
def compile (sorting : Sorting α) : OrderBy α :=
  let keys := sorting.flatMap SortTerm.keys
  let descending := (keys.head?.map OrderKey.descending).getD false
  keys ++
    [{ target := .field (Resource.schema (α := α)).id, descending, nullsFirst := false }]

end Sorting
end Repertory
