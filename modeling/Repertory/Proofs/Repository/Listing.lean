import Repertory.Proofs.Page.Walk
import Repertory.Proofs.Repository.Requests

/-!
# Lists of rows

A list from a table is computed from its rows, and depends on the filter only by which of them it is
true of (`Repository.list_congr`). It fails only if rows to be included cannot be loaded, and rows
that lie in tables can be (`Repository.exists_list_exec`).
-/

namespace Repertory

/-! ## Pages with loaded rows -/

namespace Page

variable {α ι : Type}

/-- The page with something done to each of its rows. -/
def mapItems (g : α → α) (page : Page α ι) : Page α ι :=
  { page with items := page.items.map g }

theorem filled_mapItems (g : α → α) (backwards : Bool) (page : Page α ι) :
    (page.mapItems g).filled backwards = (page.filled backwards).map g := by
  cases backwards with
  | false => rfl
  | true => exact List.map_reverse.symm

theorem Tiles.mapItems {limit : Nat} {backwards : Bool} {pages : List (Page α ι)} {rows : List α}
    (h : Tiles limit backwards pages rows) (g : α → α) :
    Tiles limit backwards (pages.map (Page.mapItems g)) (rows.map g) where
  flatMap_filled := by
    rw [← h.flatMap_filled, List.flatMap_map, List.map_flatMap]
    exact congrArg (pages.flatMap ·) (funext (filled_mapItems g backwards))
  full page hpage := by
    rw [← List.map_dropLast] at hpage
    obtain ⟨other, hother, rfl⟩ := List.mem_map.mp hpage
    rw [Page.mapItems, List.length_map, h.full other hother]

variable [Identity ι] [Resource α ι]

theorem mem_ofRows {p : Pagination ι} {rows : List α} {row : α}
    (h : row ∈ (ofRows p rows).items) : row ∈ rows := by
  have htake : row ∈ rows.take p.limit := by
    rw [ofRows] at h
    dsimp only at h
    split at h
    · exact List.mem_reverse.mp h
    · exact h
  exact List.mem_of_mem_take htake

/-- Only rows that the filter is true of come on a page, whatever the cursor is. -/
theorem mem_ofTable {filter : Option (Filter α ι)} {sorting : Sorting α} {p : Pagination ι}
    {table : Table α ι} {row : α} (h : row ∈ (ofTable filter sorting p table).items) :
    row ∈ table.rows ∧ Query.selects filter row = true := by
  rw [ofTable] at h
  split at h
  · exact absurd h List.not_mem_nil
  · dsimp only at h
    split at h
    · exact Query.mem_run (mem_ofRows h)
    · split at h
      · exact absurd h List.not_mem_nil
      · obtain ⟨hrow, hselects⟩ := Query.mem_run (mem_ofRows h)
        dsimp only [query] at hselects
        rw [Filter.selects_all, List.all_cons, Bool.and_eq_true] at hselects
        exact ⟨hrow, hselects.1⟩

end Page

variable {σ α β ι κ : Type} [Identity ι] [Resource α ι] {lens : Lens σ (Table α ι)} {s : σ}

/-! ## Relations -/

/-- Whatever the items are, what they point to can be loaded. -/
def Relation.Loads (r : Relation σ α) (s : σ) : Prop :=
  ∀ load, r.load = some load → ∀ items, ∃ loaded, (load items).exec s = (.ok loaded, s)

theorem Relation.one_loads [Identity κ] [Resource β κ] (name foreignKey : String)
    (lens : Lens σ (Table β κ)) (key : α → Option κ) (attach : Option β → α → α) (s : σ) :
    (Relation.one name foreignKey (Table.store lens) key attach).Loads s := by
  intro load hload items
  cases hload
  rw [loadByKey]
  dsimp only
  split
  · exact ⟨_, rfl⟩
  · exact ⟨_, rfl⟩

theorem Include.exists_apply_exec {relations : Include σ α}
    (h : ∀ r ∈ relations, r.Loads s) (items : List α) :
    ∃ loaded, (relations.apply items).exec s = (.ok loaded, s) := by
  induction relations generalizing items with
  | nil => exact ⟨items, rfl⟩
  | cons r rest ih =>
    rw [List.forall_mem_cons] at h
    obtain ⟨hfirst, hrest⟩ := h
    rw [apply]
    cases hload : r.load with
    | none => exact ih hrest items
    | some load =>
      dsimp only
      by_cases hempty : items.isEmpty = true
      · rw [if_pos hempty]
        exact ih hrest items
      · rw [if_neg hempty]
        obtain ⟨loaded, hexec⟩ := hfirst load hload items
        obtain ⟨all, hall⟩ := ih hrest loaded
        refine ⟨all, ?_⟩
        rw [Action.exec_bind, hexec]
        exact hall

/-! ## Lists -/

namespace Repository

variable {hooks : Hooks σ α} {searchLimit : Nat} {seed : UInt64}

/-- A repository that answers from the rows of a table lists like it. -/
theorem list_exec_of_rows {repo : Repository σ α ι} {store : Store σ α ι} {table : Table α ι}
    (hrows : repo.rows.exec s = (.ok store, s))
    (hexecute : ∀ q, (store.execute q).exec s = (.ok (table.execute q), s))
    (q : ListQuery σ α ι) :
    (repo.list q).exec s =
      let page := Page.ofTable q.filter q.sorting q.pagination table
      (do return { page with items := ← q.relations.apply page.items } :
        Action σ RepositoryError (Page α ι)).exec s := by
  have hask : (ask .getAll (Page.fetch store q.filter q.sorting q.pagination)).exec s =
      (.ok (Page.ofTable q.filter q.sorting q.pagination table), s) := by
    rw [ask, Action.exec_mapError, Page.fetch_exec_of_execute hexecute]
    rfl
  rw [list, Action.exec_bind, hrows]
  dsimp only
  rw [Action.exec_bind, hask]

theorem list_exec (q : ListQuery σ α ι) :
    ((ofStore (Table.store lens) hooks searchLimit seed).list q).exec s =
      let page := Page.ofTable q.filter q.sorting q.pagination (lens.get s)
      (do return { page with items := ← q.relations.apply page.items } :
        Action σ RepositoryError (Page α ι)).exec s :=
  list_exec_of_rows rfl (fun _ => rfl) q

variable (lens) in
/-- If loading does the same to every row, a list holds the page of the table with that done to its
rows. -/
theorem list_exec_of_loads {q : ListQuery σ α ι} {g : α → α}
    (h : ∀ rows, (q.relations.apply rows).exec s = (.ok (rows.map g), s)) :
    ((ofStore (Table.store lens) hooks searchLimit seed).list q).exec s =
      (.ok ((Page.ofTable q.filter q.sorting q.pagination (lens.get s)).mapItems g), s) := by
  rw [list_exec]
  dsimp only
  rw [Action.exec_bind, h]
  rfl

theorem list_congr {q : ListQuery σ α ι} {other : Option (Filter α ι)}
    (h : ∀ row ∈ (lens.get s).rows, Query.selects q.filter row = Query.selects other row) :
    ((ofStore (Table.store lens) hooks searchLimit seed).list q).exec s =
      ((ofStore (Table.store lens) hooks searchLimit seed).list
        { q with filter := other }).exec s := by
  rw [list_exec, list_exec, Page.ofTable_congr h]

theorem exists_list_exec {q : ListQuery σ α ι} (h : ∀ r ∈ q.relations, r.Loads s) :
    ∃ page, ((ofStore (Table.store lens) hooks searchLimit seed).list q).exec s =
      (.ok page, s) := by
  obtain ⟨items, hitems⟩ := Include.exists_apply_exec h
    (Page.ofTable q.filter q.sorting q.pagination (lens.get s)).items
  rw [list_exec]
  dsimp only
  rw [Action.exec_bind, hitems]
  exact ⟨_, rfl⟩

end Repository
end Repertory
