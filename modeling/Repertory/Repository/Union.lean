import Repertory.Repository.Basic
import Repertory.Store.Table

/-!
# Views of several stores

A view shows the rows of several stores as rows of one type. Each read takes all rows of the
sources, in the order of the sources, and then works on them as on a store. A view takes no writes.
-/

namespace Repertory

/-- A part of a view: the rows it contributes. -/
abbrev Source (σ υ : Type) := Action σ RepositoryError (List υ)

namespace Source

variable {σ α ι υ κ : Type} [Identity κ] [Resource υ κ]

def ofStore (name : String) (store : Store σ α ι) (filter : Option (Filter α ι))
    (project : α → υ) : Action σ RepositoryError (List υ) :=
  let explain (e : StoreError) : RepositoryError :=
    (RepositoryError.ofStore .getAll e).withEntity (Resource.kind υ) name
  (List.map project) <$> (store.execute { filter }).mapError explain

def rows : List (Source σ υ) → Action σ RepositoryError (List υ)
  | [] => return []
  | source :: rest => do
    let first ← source
    return first ++ (← rows rest)

end Source

namespace Repository

variable {σ υ κ : Type} [Identity κ] [Resource υ κ]

def union (sources : List (Source σ υ)) (searchLimit : Nat) (seed : UInt64) :
    Repository σ υ κ :=
  { rows := do return Store.ofRows (← Source.rows sources)
    writes := none
    searchLimit
    seed }

end Repository
end Repertory
