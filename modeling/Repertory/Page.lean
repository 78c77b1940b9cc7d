import Repertory.Json.Codec
import Repertory.Order.Keyset
import Repertory.Store.Basic

/-!
# Pages

A page is a run of rows in an order, after a row that the caller has seen. One row more than the
page holds is fetched, to know whether there is another page. A page backwards is a page of the
order read backwards, turned around.
-/

namespace Repertory

structure Pagination (ι : Type) where
  /-- The greatest number of rows; zero asks for an empty page. -/
  limit : Nat
  afterId : Option ι := none
  backwards : Bool := false

def defaultPageSize : Nat := 50

/-- Rows, and the id after which the next page in the same direction starts. -/
structure Page (α ι : Type) where
  items : List α
  nextCursor : Option ι

namespace Page

variable {σ α ι : Type}

def empty : Page α ι := ⟨[], none⟩

/-- The page in rows that are one longer than the page if there is a next one. -/
def ofRows [Identity ι] [Resource α ι] (pagination : Pagination ι) (rows : List α) : Page α ι :=
  let items := rows.take pagination.limit
  { items := if pagination.backwards then items.reverse else items
    nextCursor :=
      if pagination.limit < rows.length then items.getLast?.map Resource.id else none }

variable [Identity ι] [Resource α ι]

def direction (sorting : Sorting α) (pagination : Pagination ι) : OrderBy α :=
  if pagination.backwards then sorting.compile.inverted else sorting.compile

def query (filter : Option (Filter α ι)) (order : OrderBy α) (pagination : Pagination ι) :
    Query α ι :=
  { filter, order := some order, limit := some (pagination.limit + 1) }

/-- Fetches a page. After a row that is no longer there comes an empty page. -/
def fetch (store : Store σ α ι) (filter : Option (Filter α ι)) (sorting : Sorting α)
    (pagination : Pagination ι) : Action σ StoreError (Page α ι) := do
  if pagination.limit = 0 then
    return empty
  let order := direction sorting pagination
  match pagination.afterId with
  | none => return ofRows pagination (← store.execute (query filter order pagination))
  | some after =>
    match ← store.execute (Query.byId after) with
    | [] => return empty
    | reference :: _ =>
      let filter := Filter.all [filter, order.keysetAfter reference]
      return ofRows pagination (← store.execute (query filter order pagination))

/-- Fetches page after page, each from the cursor of the one before, until there is no cursor. The
number bounds the pages. -/
def walk (store : Store σ α ι) (filter : Option (Filter α ι)) (sorting : Sorting α) :
    Nat → Pagination ι → Action σ StoreError (List (List α))
  | 0, _ => return []
  | n + 1, pagination => do
    let page ← fetch store filter sorting pagination
    match page.nextCursor with
    | none => return [page.items]
    | some next =>
      let rest ← walk store filter sorting n { pagination with afterId := some next }
      return page.items :: rest

def encode [JsonCodec α] [JsonCodec ι] (page : Page α ι) : Json :=
  .object [
    ("items", .array (page.items.map JsonCodec.encode)),
    ("nextCursor", .ofOption JsonCodec.encode page.nextCursor)]

end Page

namespace Pagination

variable {ι : Type} [JsonCodec ι]

def decode (j : Json) : Option (Pagination ι) := do
  let fields ← j.asRecord ["limit", "afterId"] ["reverse"]
  return {
    limit := (← Json.required Json.asUnsigned "limit" fields).toNat
    afterId := ← Json.nullable JsonCodec.decode "afterId" fields
    backwards := ← Json.optional false Json.asBool "reverse" fields }

def encode (p : Pagination ι) : Json :=
  .object [
    ("limit", .int p.limit), ("afterId", .ofOption JsonCodec.encode p.afterId),
    ("reverse", .bool p.backwards)]

end Pagination
end Repertory
