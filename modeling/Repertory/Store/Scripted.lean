import Repertory.Store.Table

/-!
# Stores that fail on schedule

A table together with the failures that are still to come, for trying out what callers do when a
store refuses a request. A failure waits for a call of its kind; it can let some calls pass, and it
can slip in a row, as another writer would, before it makes a call fail.
-/

namespace Repertory

inductive StoreCall where
  | execute | count | insert | update | delete
  deriving DecidableEq

structure Fault (α : Type) where
  on : StoreCall
  /-- The calls of this kind that still pass. -/
  skip : Nat
  error : StoreError
  /-- A row that another writer inserts just before. -/
  race : Option α

structure Scripted (α ι : Type) where
  table : Table α ι
  faults : List (Fault α)

namespace Scripted

variable {σ α ι : Type}

def splitAtCall (call : StoreCall) :
    List (Fault α) → Option (List (Fault α) × Fault α × List (Fault α))
  | [] => none
  | fault :: rest =>
    if fault.on = call then some ([], fault, rest)
    else
      match splitAtCall call rest with
      | some (before, hit, after) => some (fault :: before, hit, after)
      | none => none

variable [Identity ι] [Resource α ι]

/-- What the first failure for a call does: it lets the call pass or makes it fail. -/
def trip (call : StoreCall) (s : Scripted α ι) : Option StoreError × Scripted α ι :=
  match splitAtCall call s.faults with
  | none => (none, s)
  | some (before, fault, after) =>
    if 0 < fault.skip then
      (none, { s with faults := before ++ { fault with skip := fault.skip - 1 } :: after })
    else
      let table :=
        match fault.race with
        | none => s.table
        | some row =>
          match s.table.insert row with
          | .ok (_, table) => table
          | .error _ => s.table
      (some fault.error, { table, faults := before ++ after })

def guarded {β : Type} (lens : Lens σ (Scripted α ι)) (call : StoreCall)
    (action : Action σ StoreError β) : Action σ StoreError β := do
  let s ← Action.state
  let (error, part) := trip call (lens.get s)
  Action.become (lens.set part s)
  match error with
  | some e => throw e
  | none => action

def tableLens (lens : Lens σ (Scripted α ι)) : Lens σ (Table α ι) where
  get s := (lens.get s).table
  set t s := lens.set { lens.get s with table := t } s
  get_set t s := by simp [lens.get_set]
  set_get s := by simp [lens.set_get]
  set_set t u s := by simp [lens.get_set, lens.set_set]

def store (lens : Lens σ (Scripted α ι)) : Store σ α ι :=
  let table := Table.store (tableLens lens)
  { execute := fun q => guarded lens .execute (table.execute q)
    count := fun filter => guarded lens .count (table.count filter)
    insert := fun item => guarded lens .insert (table.insert item)
    update := fun item => guarded lens .update (table.update item)
    delete := fun id => guarded lens .delete (table.delete id) }

end Scripted
end Repertory
