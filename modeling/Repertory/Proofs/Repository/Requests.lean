import Repertory.Proofs.Store.Table
import Repertory.Repository.Basic

/-!
# Requests that change a table

A write checks a row, stores it, and lets the rows that depend on it follow. What it can do to the
state is said once (`Write.perform_wrote`): nothing, an insertion, or an update, after which the
rows that depend on the row may all have followed or not. A removal takes rows away one after the
other, each with what belongs to it.
-/

namespace Repertory

inductive Write (α ι : Type) where
  | create (item : α)
  | createIfNotExists (item : α)
  | edit (id : ι) (changes : α) (resetOld : Bool)
  | patch (id : ι) (change : α → α)

def Write.Replaces {α ι : Type} : Write α ι → ι → Prop
  | create _, _ => False
  | createIfNotExists _, _ => False
  | edit id _ _, i => id = i
  | patch id _, i => id = i

def Write.Inserts {α ι : Type} : Write α ι → α → Prop
  | create item, x => x = item
  | createIfNotExists item, x => x = item
  | edit .., _ => False
  | patch .., _ => False

theorem Write.Inserts.not_replaces {α ι : Type} {w : Write α ι} {item : α} {id : ι}
    (hitem : w.Inserts item) : ¬w.Replaces id := by
  cases w with
  | create => exact not_false
  | createIfNotExists => exact not_false
  | edit => exact hitem.elim
  | patch => exact hitem.elim

theorem Write.Replaces.unique {α ι : Type} {w : Write α ι} {i j : ι} (hi : w.Replaces i)
    (hj : w.Replaces j) : i = j := by
  cases w with
  | create => exact hi.elim
  | createIfNotExists => exact hi.elim
  | edit => exact Eq.trans (Eq.symm hi) hj
  | patch => exact Eq.trans (Eq.symm hi) hj

/-- What a write makes of a row before the row is checked. -/
def Write.Makes {α ι : Type} [Identity ι] [Resource α ι] : Write α ι → α → α → Prop
  | create _, _, _ => False
  | createIfNotExists _, _, _ => False
  | edit _ changes resetOld, current, x => x = keepRelations current resetOld changes
  | patch _ change, current, x => x = change current

namespace Repository

variable {σ α ι : Type} [Identity ι] [Resource α ι]

/-! ## Reading from a table -/

section

variable (lens : Lens σ (Table α ι))

theorem findBySlug_readOnly (slug : String) : (findBySlug (Table.store lens) slug).ReadOnly :=
  fun _ => rfl

theorem writeError_readOnly (operation : Operation) (slug : String) (e : StoreError) :
    (writeError (Table.store lens) operation slug e).ReadOnly := by
  cases e with
  | conflict field value =>
    refine (findBySlug_readOnly lens slug).outcome.bind fun found => ?_
    split <;> exact Action.readOnly_pure _
  | _ => exact Action.readOnly_pure _

end

variable {lens : Lens σ (Table α ι)} {hooks : Hooks σ α} {w : Write α ι} {s u : σ}
  {r : Except RepositoryError α}

theorem writable_exec {store : Store σ α ι} {searchLimit : Nat} {seed : UInt64}
    {operation : Operation} :
    ((ofStore store hooks searchLimit seed).writable operation).exec s =
      (.ok (store, hooks), s) := rfl

/-- Reading one row gives an answer to the question for it, or fails. -/
theorem get_cases {searchLimit : Nat} {seed : UInt64} {id : Identifier ι}
    (h : ((ofStore (Table.store lens) hooks searchLimit seed).get id).exec s = (r, u)) :
    u = s ∧ ((∃ e, r = .error e) ∨ ∃ row, r = .ok row ∧
      row ∈ Query.run { (ofStore (Table.store lens) hooks searchLimit seed).lookup id with
        limit := some 1 } (lens.get s).rows) := by
  have hexec : ((ofStore (Table.store lens) hooks searchLimit seed).get? id).exec s =
      (.ok (Query.run { (ofStore (Table.store lens) hooks searchLimit seed).lookup id with
        limit := some 1 } (lens.get s).rows).head?, s) := rfl
  rw [get, Action.exec_bind, hexec] at h
  generalize hfound : List.head? _ = found at h
  cases found with
  | none =>
    cases h
    exact ⟨rfl, Or.inl ⟨_, rfl⟩⟩
  | some row =>
    cases h
    exact ⟨rfl, Or.inr ⟨row, rfl, List.mem_of_head? hfound⟩⟩

theorem get_readOnly {searchLimit : Nat} {seed : UInt64} (id : Identifier ι) :
    ((ofStore (Table.store lens) hooks searchLimit seed).get id).ReadOnly :=
  fun _ => (get_cases rfl).1

/-! ## Writing to a table -/

/-- A change of the table, with its failure explained, is made or leaves everything as it was. -/
theorem write_change {operation : Operation} {slug : String}
    {change : Table α ι → Except StoreError (α × Table α ι)}
    (h : (write (Table.store lens) operation slug (lens.change change)).exec s = (r, u)) :
    (∃ row t, change (lens.get s) = .ok (row, t) ∧ r = .ok row ∧ u = lens.set t s) ∨
      (∃ e, r = .error e) ∧ u = s := by
  rw [write, Action.exec_bind, Action.exec_outcome, Lens.exec_change] at h
  cases hchange : change (lens.get s) with
  | ok result =>
    obtain ⟨row, t⟩ := result
    rw [hchange] at h
    cases h
    exact Or.inl ⟨row, t, rfl, rfl, rfl⟩
  | error e =>
    rw [hchange] at h
    simp only [(writeError_readOnly lens operation slug e).exec_bind] at h
    refine Or.inr ?_
    split at h <;> cases h <;> exact ⟨⟨_, rfl⟩, rfl⟩

inductive Wrote (lens : Lens σ (Table α ι)) (hooks : Hooks σ α) (w : Write α ι) (s : σ) :
    Except RepositoryError α → σ → Prop where
  /-- The write failed, or found the row that it was to make sure of. -/
  | nothing {r : Except RepositoryError α} (hr : ∀ id, w.Replaces id → ∃ e, r = .error e) :
      Wrote lens hooks w s r s
  | inserted {item row stored : α} {t : Table α ι}
      (hvalidate : (hooks.validate item).exec s = (.ok row, s))
      (hinsert : (lens.get s).insert row = .ok (stored, t))
      (hitem : w.Inserts item) :
      Wrote lens hooks w s (.ok stored) (lens.set t s)
  | updated {current changes row : α} {t : Table α ι} {u : σ}
      (hw : w.Replaces (Resource.id current))
      (hcurrent : current ∈ (lens.get s).rows)
      (hvalidate : (hooks.validate (Resource.setId (Resource.id current) changes)).exec s =
        (.ok row, s))
      (hupdate : (lens.get s).update row = .ok (row, t))
      (hedited : (hooks.onEdited current row).exec (lens.set t s) = (.ok (), u))
      (hmade : w.Makes current changes) :
      Wrote lens hooks w s (.ok row) u
  /-- The row was stored, but not all rows that depend on it could follow. -/
  | interrupted {current changes row : α} {t : Table α ι} {e e' : RepositoryError} {u : σ}
      (hw : w.Replaces (Resource.id current))
      (hcurrent : current ∈ (lens.get s).rows)
      (hvalidate : (hooks.validate (Resource.setId (Resource.id current) changes)).exec s =
        (.ok row, s))
      (hupdate : (lens.get s).update row = .ok (row, t))
      (hedited : (hooks.onEdited current row).exec (lens.set t s) = (.error e, u))
      (hkind : e'.kind = e.kind) (hmade : w.Makes current changes) :
      Wrote lens hooks w s (.error e') u

theorem Wrote.of_error {e : RepositoryError} : Wrote lens hooks w s (.error e) s :=
  .nothing fun _ _ => ⟨e, rfl⟩

theorem Wrote.of_inserts {item : α} (hitem : w.Inserts item) : Wrote lens hooks w s r s :=
  .nothing fun _ hw => (hitem.not_replaces hw).elim

variable (hvalid : ∀ item, (hooks.validate item).ReadOnly)

include hvalid in
theorem insertChecked_cases {item : α}
    (h : (insertChecked (Table.store lens) hooks item).exec s = (r, u)) :
    (∃ row stored t, (hooks.validate item).exec s = (.ok row, s) ∧
      (lens.get s).insert row = .ok (stored, t) ∧ r = .ok stored ∧ u = lens.set t s) ∨
      (∃ e, r = .error e) ∧ u = s := by
  rw [insertChecked, (hvalid item).exec_bind] at h
  cases hvalidate : ((hooks.validate item).exec s).1 with
  | error e =>
    rw [hvalidate] at h
    cases h
    exact Or.inr ⟨⟨e, rfl⟩, rfl⟩
  | ok row =>
    rw [hvalidate] at h
    have hexec : (hooks.validate item).exec s = (.ok row, s) := by
      rw [(hvalid item).exec_eq, hvalidate]
    rcases write_change h with ⟨stored, t, hinsert, hr, hu⟩ | hfail
    · exact Or.inl ⟨row, stored, t, hexec, hinsert, hr, hu⟩
    · exact Or.inr hfail

include hvalid in
theorem insertChecked_wrote {item : α} (hitem : w.Inserts item)
    (h : (insertChecked (Table.store lens) hooks item).exec s = (r, u)) :
    Wrote lens hooks w s r u := by
  rcases insertChecked_cases hvalid h with
    ⟨row, stored, t, hvalidate, hinsert, rfl, rfl⟩ | ⟨⟨_, rfl⟩, rfl⟩
  · exact .inserted hvalidate hinsert hitem
  · exact .of_error

include hvalid in
theorem createIfNotExists_wrote {item : α} {searchLimit : Nat} {seed : UInt64}
    (hitem : w.Inserts item)
    (h : ((ofStore (Table.store lens) hooks searchLimit seed).createIfNotExists item).exec s =
      (r, u)) : Wrote lens hooks w s r u := by
  rw [createIfNotExists, Action.exec_bind, writable_exec] at h
  dsimp only at h
  rw [(findBySlug_readOnly lens _).exec_bind] at h
  split at h
  · split at h
    · cases h
      exact .of_inserts hitem
    · rw [Action.exec_bind, Action.exec_outcome] at h
      rcases hinsert : (insertChecked (Table.store lens) hooks item).exec s with ⟨e | row, t⟩
      · -- Whatever is looked up after a failed insertion, the state is the old one.
        obtain rfl : t = s := by
          rcases insertChecked_cases hvalid hinsert with ⟨_, _, _, -, -, hr, -⟩ | ⟨-, ht⟩
          · cases hr
          · exact ht
        rw [hinsert] at h
        dsimp only at h
        split at h
        · rw [(findBySlug_readOnly lens _).exec_bind] at h
          split at h
          · split at h <;> cases h <;> exact .of_inserts hitem
          · cases h
            exact .of_inserts hitem
        · cases h
          exact .of_inserts hitem
      · rw [hinsert] at h
        cases h
        exact insertChecked_wrote hvalid hitem hinsert
  · cases h
    exact .of_inserts hitem

include hvalid in
theorem persist_wrote {current changes : α} (hw : w.Replaces (Resource.id current))
    (hcurrent : current ∈ (lens.get s).rows) (hmade : w.Makes current changes)
    (h : (persist (Table.store lens) hooks current changes).exec s = (r, u)) :
    Wrote lens hooks w s r u := by
  rw [persist, (hvalid _).exec_bind] at h
  cases hvalidate :
      ((hooks.validate (Resource.setId (Resource.id current) changes)).exec s).1 with
  | error e =>
    rw [hvalidate] at h
    cases h
    exact .of_error
  | ok row =>
    rw [hvalidate] at h
    have hexec : (hooks.validate (Resource.setId (Resource.id current) changes)).exec s =
        (.ok row, s) := by
      rw [(hvalid _).exec_eq, hvalidate]
    dsimp only at h
    rw [Action.exec_bind] at h
    rcases hwrite : (write (Table.store lens) .edit (Resource.slug row)
      ((Table.store lens).update row)).exec s with ⟨e | stored, t⟩
    · rw [hwrite] at h
      cases h
      rcases write_change hwrite with ⟨_, _, -, hr, -⟩ | ⟨-, rfl⟩
      · cases hr
      · exact .of_error
    · rw [hwrite] at h
      rcases write_change hwrite with ⟨_, t, hupdate, hr, rfl⟩ | ⟨⟨e, hr⟩, -⟩
      · cases hr
        obtain rfl := (Table.update_ok hupdate).1
        dsimp only at h
        rw [Action.exec_bind] at h
        rcases hedited : (hooks.onEdited current stored).exec (lens.set t s) with ⟨e | done, v⟩
        · rw [hedited] at h
          cases h
          exact .interrupted hw hcurrent hexec hupdate hedited rfl hmade
        · rw [hedited] at h
          cases h
          exact .updated hw hcurrent hexec hupdate hedited hmade
      · cases hr

theorem get_bind_wrote {searchLimit : Nat} {seed : UInt64} {id : ι}
    {f : RepositoryError → RepositoryError} {next : α → Action σ RepositoryError α}
    (hnext : ∀ {current r u}, Resource.id current = id → current ∈ (lens.get s).rows →
      (next current).exec s = (r, u) → Wrote lens hooks w s r u)
    (h : (((ofStore (Table.store lens) hooks searchLimit seed).get (.id id)).mapError f >>=
      next).exec s = (r, u)) : Wrote lens hooks w s r u := by
  rw [Action.exec_bind, Action.exec_mapError] at h
  rcases hget : ((ofStore (Table.store lens) hooks searchLimit seed).get (.id id)).exec s
    with ⟨e | current, t⟩
  · obtain ⟨rfl, -⟩ := get_cases hget
    rw [hget] at h
    cases h
    exact .of_error
  · obtain ⟨rfl, ⟨_, hr⟩ | ⟨row, hr, hanswer⟩⟩ := get_cases hget
    · cases hr
    · cases hr
      rw [hget] at h
      obtain ⟨hrow, hselects⟩ := Query.mem_run hanswer
      exact hnext (Filter.isMatch_idEq id current ▸ hselects) hrow h

theorem Wrote.mapError {f : RepositoryError → RepositoryError} (hf : ∀ e, (f e).kind = e.kind)
    (h : Wrote lens hooks w s r u) : Wrote lens hooks w s (r.mapError f) u := by
  cases h with
  | nothing hr =>
    refine .nothing fun id hw => ?_
    obtain ⟨e, rfl⟩ := hr id hw
    exact ⟨f e, rfl⟩
  | inserted hvalidate hinsert hitem => exact .inserted hvalidate hinsert hitem
  | updated hw hcurrent hvalidate hupdate hedited hmade =>
    exact .updated hw hcurrent hvalidate hupdate hedited hmade
  | interrupted hw hcurrent hvalidate hupdate hedited hkind hmade =>
    exact .interrupted hw hcurrent hvalidate hupdate hedited ((hf _).trans hkind) hmade

end Repository

namespace Write

open Repository

variable {σ α ι : Type} [Identity ι] [Resource α ι]

def perform (repo : Repository σ α ι) : Write α ι → Action σ RepositoryError α
  | create item => repo.create item
  | createIfNotExists item => repo.createIfNotExists item
  | edit id changes resetOld => repo.edit id changes resetOld
  | patch id change => repo.patch id change

variable {lens : Lens σ (Table α ι)} {hooks : Hooks σ α} {s u : σ} {r : Except RepositoryError α}
  {searchLimit : Nat} {seed : UInt64}

/-- A write does nothing, inserts a row, or updates one and lets others follow. -/
theorem perform_wrote (hvalid : ∀ item, (hooks.validate item).ReadOnly) (w : Write α ι)
    (h : (w.perform (.ofStore (Table.store lens) hooks searchLimit seed)).exec s = (r, u)) :
    Wrote lens hooks w s r u := by
  cases w with
  | create item =>
    rw [perform, Repository.create, Action.exec_bind, writable_exec] at h
    exact insertChecked_wrote hvalid (w := .create item) rfl h
  | createIfNotExists item =>
    exact createIfNotExists_wrote hvalid (w := .createIfNotExists item) rfl h
  | edit id changes resetOld =>
    rw [perform, Repository.edit, Action.exec_bind, writable_exec] at h
    exact get_bind_wrote
      (fun hid hcurrent => persist_wrote hvalid (w := .edit id changes resetOld) hid.symm hcurrent
        rfl) h
  | patch id change =>
    rw [perform, Repository.patch, Action.exec_bind, writable_exec] at h
    refine get_bind_wrote (fun {current r u} hid hcurrent h => ?_) h
    rcases hpersist : (persist (Table.store lens) hooks current (change current)).exec s
      with ⟨r', v⟩
    rw [Action.exec_mapError, hpersist] at h
    cases h
    have hwrote := persist_wrote hvalid (w := .patch id change) hid.symm hcurrent rfl hpersist
    exact hwrote.mapError fun _ => rfl

/-- A write that is to replace a stored row and succeeds has stored what it makes of that row, and
all that depends on the row has followed. -/
theorem perform_replaces (hvalid : ∀ item, (hooks.validate item).ReadOnly) {w : Write α ι}
    {old row : α} (hids : Table.Ascending (lens.get s).rows) (hold : old ∈ (lens.get s).rows)
    (hw : w.Replaces (Resource.id old))
    (h : (w.perform (.ofStore (Table.store lens) hooks searchLimit seed)).exec s = (.ok row, u)) :
    ∃ changes t, w.Makes old changes ∧
      (hooks.validate (Resource.setId (Resource.id old) changes)).exec s = (.ok row, s) ∧
      (lens.get s).update row = .ok (row, t) ∧
      (hooks.onEdited old row).exec (lens.set t s) = (.ok (), u) := by
  cases perform_wrote hvalid w h with
  | nothing hr =>
    obtain ⟨e, he⟩ := hr _ hw
    cases he
  | inserted _ _ hitem => exact absurd hw hitem.not_replaces
  | @updated current changes _ t _ hw' hcurrent hvalidate hupdate hedited hmade =>
    obtain rfl : current = old := hids.eq_of_id_eq hcurrent hold (hw'.unique hw)
    exact ⟨changes, t, hmade, hvalidate, hupdate, hedited⟩

/-- What holds after everything that the write may do holds after it. -/
theorem perform_of_wrote {P : σ → Prop} (hvalid : ∀ item, (hooks.validate item).ReadOnly)
    {w : Write α ι} (hnothing : P s)
    (hinsert : ∀ {item row stored t}, w.Inserts item →
      (hooks.validate item).exec s = (.ok row, s) →
      (lens.get s).insert row = .ok (stored, t) → P (lens.set t s))
    (hupdate : ∀ {changes row current t}, w.Makes current changes →
      current ∈ (lens.get s).rows →
      (hooks.validate (Resource.setId (Resource.id current) changes)).exec s = (.ok row, s) →
      (lens.get s).update row = .ok (row, t) →
      P ((hooks.onEdited current row).exec (lens.set t s)).2) :
    P ((w.perform (.ofStore (Table.store lens) hooks searchLimit seed)).exec s).2 := by
  rcases hperform : (w.perform (.ofStore (Table.store lens) hooks searchLimit seed)).exec s
    with ⟨r, u⟩
  cases perform_wrote hvalid w hperform with
  | nothing => exact hnothing
  | inserted hvalidate hinserted hitem => exact hinsert hitem hvalidate hinserted
  | updated _ hcurrent hvalidate hupdated hedited hmade
  | interrupted _ hcurrent hvalidate hupdated hedited _ hmade =>
    rw [← congrArg Prod.snd hedited]
    exact hupdate hmade hcurrent hvalidate hupdated

/-- An invariant that an insertion keeps, and an update together with what follows from it, is kept
by every write. -/
theorem perform_keeps {I : σ → Prop} (hvalid : ∀ item, (hooks.validate item).ReadOnly)
    (hinsert : ∀ {s item row stored t}, I s → (hooks.validate item).exec s = (.ok row, s) →
      (lens.get s).insert row = .ok (stored, t) → I (lens.set t s))
    (hupdate : ∀ {s item row current t}, I s → (hooks.validate item).exec s = (.ok row, s) →
      (lens.get s).update row = .ok (row, t) →
      I ((hooks.onEdited current row).exec (lens.set t s)).2)
    (w : Write α ι) :
    (w.perform (.ofStore (Table.store lens) hooks searchLimit seed)).Keeps I := by
  intro s hs
  rcases hperform : (w.perform (.ofStore (Table.store lens) hooks searchLimit seed)).exec s
    with ⟨r, u⟩
  cases perform_wrote hvalid w hperform with
  | nothing => exact hs
  | inserted hvalidate hinserted => exact hinsert hs hvalidate hinserted
  | updated _ _ hvalidate hupdated hedited | interrupted _ _ hvalidate hupdated hedited _ =>
    rw [← congrArg Prod.snd hedited]
    exact hupdate hs hvalidate hupdated

/-- An invariant that only survives an update if all that follows from the update could be done is
kept by every write but those that replace a row and fail. -/
theorem perform_keeps_of_ok {I : σ → Prop} (hvalid : ∀ item, (hooks.validate item).ReadOnly)
    (hinsert : ∀ {s item row stored t}, I s → (hooks.validate item).exec s = (.ok row, s) →
      (lens.get s).insert row = .ok (stored, t) → I (lens.set t s))
    (hupdate : ∀ {s changes row current t u}, I s → current ∈ (lens.get s).rows →
      (hooks.validate (Resource.setId (Resource.id current) changes)).exec s = (.ok row, s) →
      (lens.get s).update row = .ok (row, t) →
      (hooks.onEdited current row).exec (lens.set t s) = (.ok (), u) → I u)
    {w : Write α ι} (hs : I s)
    (hok : ∀ id, w.Replaces id → ∃ row,
      ((w.perform (.ofStore (Table.store lens) hooks searchLimit seed)).exec s).1 = .ok row) :
    I ((w.perform (.ofStore (Table.store lens) hooks searchLimit seed)).exec s).2 := by
  rcases hperform : (w.perform (.ofStore (Table.store lens) hooks searchLimit seed)).exec s
    with ⟨r, u⟩
  rw [hperform] at hok
  cases perform_wrote hvalid w hperform with
  | nothing => exact hs
  | inserted hvalidate hinserted => exact hinsert hs hvalidate hinserted
  | updated _ hcurrent hvalidate hupdated hedited =>
    exact hupdate hs hcurrent hvalidate hupdated hedited
  | interrupted hw =>
    obtain ⟨row, hrow⟩ := hok _ hw
    cases hrow

end Write

inductive Removal (α ι : Type) where
  | delete (id : Identifier ι)
  | deleteAll (filter : Filter α ι)

namespace Removal

open Repository

variable {σ α ι : Type} [Identity ι] [Resource α ι]

def perform (repo : Repository σ α ι) : Removal α ι → Action σ RepositoryError Unit
  | delete id => repo.delete id
  | deleteAll filter => do
    let _ ← repo.deleteAll filter

variable {lens : Lens σ (Table α ι)} {hooks : Hooks σ α} {searchLimit : Nat} {seed : UInt64}
  {I : σ → Prop}
  (hdelete : ∀ {s row t}, I s → (lens.get s).delete (Resource.id row) = .ok ((), t) →
    I ((hooks.onDelete row).exec (lens.set t s)).2)

include hdelete in
theorem remove_keeps (row : α) : (remove (Table.store lens) hooks row).Keeps I := by
  intro s hs
  rw [remove, Action.exec_bind, Action.exec_mapError, Table.store_delete]
  cases hdeleted : (lens.get s).delete (Resource.id row) with
  | error e => exact hs
  | ok result => exact hdelete hs hdeleted

include hdelete in
theorem removeAll_keeps (rows : List α) : (removeAll (Table.store lens) hooks rows).Keeps I := by
  induction rows with
  | nil => exact fun _ hs => hs
  | cons row rest ih =>
    refine ((remove_keeps hdelete row).outcome).bind fun outcome => ?_
    cases outcome with
    | ok => exact ih.bind fun _ => (Action.readOnly_pure _).keeps
    | error e =>
      dsimp only
      split
      · exact ih
      · exact (Action.readOnly_throw _).keeps

include hdelete in
/-- An invariant that a deletion keeps together with what follows from it is kept by every
removal. -/
theorem perform_keeps (r : Removal α ι) :
    (r.perform (.ofStore (Table.store lens) hooks searchLimit seed)).Keeps I := by
  cases r with
  | delete id =>
    intro s hs
    rw [perform, Repository.delete, Action.exec_bind, writable_exec]
    exact ((get_readOnly id).mapError _).keeps.bind (remove_keeps hdelete) s hs
  | deleteAll filter =>
    have hall : ((Repository.ofStore (Table.store lens) hooks searchLimit seed).deleteAll
        filter).Keeps I := by
      intro s hs
      rw [Repository.deleteAll, Action.exec_bind, writable_exec]
      have hask : (ask .deleteAll
          ((Table.store lens).execute { filter := some filter })).ReadOnly := fun _ => rfl
      exact hask.keeps.bind (removeAll_keeps hdelete) s hs
    exact hall.bind fun _ => (Action.readOnly_pure ()).keeps

end Removal
end Repertory
