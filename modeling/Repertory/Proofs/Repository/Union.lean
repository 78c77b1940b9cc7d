import Repertory.Proofs.Repository.Listing
import Repertory.Proofs.Repository.Lookup
import Repertory.Repository.Union

/-!
# Views of several stores

A view answers each request from the rows that its sources have then, as a table of these rows
would. Where the ids of the rows are distinct, pages, counts and rows by id do not depend on the
order of the sources: a sort breaks all ties, so it does not see which row came first
(`Page.ofTable_of_perm`). A walk through a view is therefore the walk through a table
(`exists_walk_of_views`).
-/

namespace Repertory

variable {σ α ι : Type} [Identity ι] [Resource α ι] {s : σ}

/-! ## Sources -/

namespace Source

/-- The rows that the source has; none if it cannot be read. -/
def part (source : Source σ α) (s : σ) : List α := (source.exec s).1.toOption.getD []

def Reads (source : Source σ α) (s : σ) : Prop := source.exec s = (.ok (part source s), s)

omit [Identity ι] [Resource α ι] in
theorem rows_exec {sources : List (Source σ α)} (h : ∀ source ∈ sources, Reads source s) :
    (rows sources).exec s = (.ok (sources.flatMap fun source => part source s), s) := by
  induction sources with
  | nil => rfl
  | cons source rest ih =>
    obtain ⟨hsource, hrest⟩ := List.forall_mem_cons.mp h
    rw [rows, Action.exec_bind, hsource]
    dsimp only
    rw [Action.exec_bind, ih hrest]
    rfl

theorem reads_ofStore {β κ : Type} [Identity κ] [Resource β κ] (name : String)
    (lens : Lens σ (Table β κ)) (filter : Option (Filter β κ)) (project : β → α) :
    Reads (ofStore name (Table.store lens) filter project) s := rfl

end Source

/-! ## Rows in another order -/

theorem Query.run_byId_of_perm {rows others : List α} (hids : (rows.map Resource.id).Nodup)
    (hperm : others.Perm rows) (id : ι) : (byId id).run others = (byId id).run rows := by
  by_cases h : ∃ row ∈ rows, Resource.id row = id
  · obtain ⟨row, hrow, rfl⟩ := h
    rw [Table.run_byId hids hrow,
      Table.run_byId ((hperm.map Resource.id).nodup_iff.mpr hids) (hperm.mem_iff.mpr hrow)]
  · have hnone : rows.filter (selects (some (Filter.idEq id))) = [] :=
      List.filter_eq_nil_iff.mpr fun row hrow hmatch =>
        h ⟨row, hrow, (Filter.isMatch_idEq id row).mp hmatch⟩
    have hnone' : others.filter (selects (some (Filter.idEq id))) = [] :=
      (hnone ▸ hperm.filter (selects (some (Filter.idEq id)))).eq_nil
    simp only [run, byId, hnone, hnone']

namespace Page

variable {filter : Option (Filter α ι)} {sorting : Sorting α} {p : Pagination ι}
  {table other : Table α ι}

theorem execute_query_of_perm {order : OrderBy α} (hties : order.BreaksTies)
    (hids : (table.rows.map Resource.id).Nodup) (hrows : ∀ row ∈ table.rows, order.ConformsAt row)
    (hperm : other.rows.Perm table.rows) :
    other.execute (query filter order p) = table.execute (query filter order p) := by
  have hsub : (table.rows.filter (Query.selects filter)).Sublist table.rows := List.filter_sublist
  have hids' := (hsub.map Resource.id).nodup hids
  have hrows' := fun row hrow => hrows row (hsub.subset hrow)
  have hperm' := hperm.filter (Query.selects filter)
  have hsort := OrderBy.sort_eq_of_perm hties
    (fun row hrow => hrows' row (hperm'.mem_iff.mp hrow))
    ((hperm'.map Resource.id).nodup_iff.mpr hids')
    ((OrderBy.sort_perm order _).trans hperm'.symm) (OrderBy.sort_rising hties hrows' hids')
  exact congrArg (List.take (p.limit + 1)) hsort

/-- A page does not depend on the order in which rows with distinct ids are stored. -/
theorem ofTable_of_perm (hids : (table.rows.map Resource.id).Nodup)
    (hrows : ∀ row ∈ table.rows, sorting.compile.ConformsAt row)
    (hperm : other.rows.Perm table.rows) :
    ofTable filter sorting p other = ofTable filter sorting p table := by
  have hquery : ∀ f : Option (Filter α ι), other.execute (query f (direction sorting p) p) =
      table.execute (query f (direction sorting p) p) := fun f =>
    execute_query_of_perm (direction_breaksTies sorting p) hids
      (fun row hrow => direction_conformsAt (hrows row hrow) p) hperm
  have hbyId : ∀ id, other.execute (Query.byId id) = table.execute (Query.byId id) :=
    Query.run_byId_of_perm hids hperm
  simp only [ofTable, hquery, hbyId]

end Page

/-! ## Requests to a view -/

namespace Repository

/-- The repository answers from these rows. -/
def Views (repo : Repository σ α ι) (s : σ) (rows : List α) : Prop :=
  repo.rows.exec s = (.ok (Store.ofRows rows), s)

/-- The pages that come when the first request is `q` and each further one starts at the cursor of
the page before, up to the first page without a cursor. -/
inductive Walk (repo : Repository σ α ι) (s : σ) : ListQuery σ α ι → List (Page α ι) → Prop where
  | last {q : ListQuery σ α ι} {page : Page α ι} (hlist : (repo.list q).exec s = (.ok page, s))
      (hcursor : page.nextCursor = none) : Walk repo s q [page]
  | step {q : ListQuery σ α ι} {page : Page α ι} {next : ι} {pages : List (Page α ι)}
      (hlist : (repo.list q).exec s = (.ok page, s)) (hcursor : page.nextCursor = some next)
      (hrest : Walk repo s
        { q with pagination := { q.pagination with afterId := some next } } pages) :
      Walk repo s q (page :: pages)

variable {repo : Repository σ α ι} {rows others : List α}

theorem union_views {sources : List (Source σ α)} (h : ∀ source ∈ sources, source.Reads s)
    (searchLimit : Nat) (seed : UInt64) :
    (union sources searchLimit seed : Repository σ α ι).Views s
      (sources.flatMap fun source => source.part s) := by
  have hrows := Source.rows_exec h
  rw [Views, union]
  dsimp only
  rw [Action.exec_bind, hrows]
  rfl

theorem Views.list (h : repo.Views s rows) (filter : Option (Filter α ι)) (sorting : Sorting α)
    (p : Pagination ι) :
    (repo.list { filter, sorting, pagination := p }).exec s =
      (.ok (Page.ofTable filter sorting p ⟨rows, none⟩), s) :=
  list_exec_of_rows h (fun _ => rfl) _

/-- On a page that is long enough, all rows are listed. -/
theorem Views.list_all (h : repo.Views s rows) (sorting : Sorting α) {limit : Nat}
    (hlimit : rows.length ≤ limit) (backwards : Bool) :
    ∃ page, (repo.list { sorting, pagination := { limit, backwards } }).exec s = (.ok page, s) ∧
      page.nextCursor = none ∧ page.items.Perm rows := by
  refine ⟨_, h.list none sorting _, ?_⟩
  by_cases hzero : limit = 0
  · rw [hzero, Nat.le_zero] at hlimit
    rw [Page.ofTable, if_pos hzero, List.length_eq_zero_iff.mp hlimit]
    exact ⟨rfl, List.Perm.nil⟩
  · let p : Pagination ι := { limit, backwards }
    have hall : rows.filter (Query.selects (none : Option (Filter α ι))) = rows :=
      List.filter_eq_self.mpr fun _ _ => rfl
    have hperm : ((Page.direction sorting p).sort rows).Perm rows := OrderBy.sort_perm _ rows
    have hpage : Page.ofTable none sorting p ⟨rows, none⟩ =
        Page.ofRows p (((Page.direction sorting p).sort rows).take (limit + 1)) := by
      rw [Page.ofTable, if_neg hzero]
      exact congrArg (fun all => Page.ofRows p (((Page.direction sorting p).sort all).take _)) hall
    rw [hpage, Page.ofRows_of_le (show _ ≤ p.limit from hperm.length_eq ▸ hlimit)]
    refine ⟨rfl, ?_⟩
    cases backwards with
    | false => exact hperm
    | true => exact (List.reverse_perm _).trans hperm

theorem Views.count (h : repo.Views s others) (hperm : others.Perm rows)
    (filter : Option (Filter α ι)) :
    (repo.count filter).exec s = (.ok (rows.filter (Query.selects filter)).length, s) := by
  rw [← (hperm.filter (Query.selects filter)).length_eq, Repository.count, Action.exec_bind, h]
  rfl

theorem Views.get (h : repo.Views s others) (hperm : others.Perm rows)
    (hids : (rows.map Resource.id).Nodup) {row : α} (hrow : row ∈ rows) :
    (repo.get (.id (Resource.id row))).exec s = (.ok row, s) := by
  refine get_exec_of_get? ?_
  have hrun : (Query.byId (Resource.id row)).run others = [row] :=
    (Query.run_byId_of_perm hids hperm _).trans (Table.run_byId hids hrow)
  have hget : (repo.get? (.id (Resource.id row))).exec s =
      (.ok ((Query.byId (Resource.id row)).run others).head?, s) := by
    rw [get?, Action.exec_bind, h]
    rfl
  rw [hget, hrun]
  rfl

variable {filter : Option (Filter α ι)} {sorting : Sorting α} {p : Pagination ι}
  {pages : List (Page α ι)}

/-- A view that gives the pages of a table is walked through like it. -/
theorem walk_of_table {table : Table α ι}
    (hlist : ∀ p, (repo.list { filter, sorting, pagination := p }).exec s =
      (.ok (Page.ofTable filter sorting p table), s))
    (h : Page.Walk (Table.store Lens.whole) filter sorting table p pages) :
    repo.Walk s { filter, sorting, pagination := p } pages := by
  induction h with
  | last hfetch hcursor =>
    cases Page.fetch_exec_table.symm.trans hfetch
    exact .last (hlist _) hcursor
  | step hfetch hcursor _ ih =>
    cases Page.fetch_exec_table.symm.trans hfetch
    exact .step (hlist _) hcursor ih

/-- A walk through rows with distinct ids comes to an end. Its pages hold the rows that the filter
is true of in the order asked for, and every view of the rows gives them, in whatever order it has
the rows. -/
theorem exists_walk_of_views (s : σ) (filter : Option (Filter α ι)) (backwards : Bool) {limit : Nat}
    (hlimit : 0 < limit) (hids : (rows.map Resource.id).Nodup)
    (hrows : ∀ row ∈ rows, sorting.compile.ConformsAt row) :
    let start : Pagination ι := { limit, backwards }
    ∃ pages,
      Page.Tiles limit backwards pages
        ((Page.direction sorting start).sort (rows.filter (Query.selects filter))) ∧
      ∀ {repo : Repository σ α ι} {others : List α}, repo.Views s others → others.Perm rows →
        repo.Walk s { filter, sorting, pagination := start } pages := by
  intro start
  let table : Table α ι := ⟨rows, none⟩
  have hall : Page.arranged Lens.whole filter sorting table start =
      [] ++ (Page.direction sorting start).sort (rows.filter (Query.selects filter)) := rfl
  obtain ⟨pages, hwalk, htiles⟩ :=
    Page.exists_walk_of_nodup (Nat.ne_of_gt hlimit) hids hrows hall rfl
  refine ⟨pages, htiles, fun {repo others} hviews hperm => walk_of_table (fun p => ?_) hwalk⟩
  have hsame : Page.ofTable filter sorting p ⟨others, none⟩ =
      Page.ofTable filter sorting p table := Page.ofTable_of_perm hids hrows hperm
  rw [hviews.list, hsame]

end Repository
end Repertory
