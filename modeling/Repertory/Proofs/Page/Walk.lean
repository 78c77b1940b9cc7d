import Repertory.Page
import Repertory.Proofs.Catalog.Conforms
import Repertory.Proofs.Order.Keyset
import Repertory.Proofs.Store.Table

/-!
# Walks through pages

A caller who asks for page after page, each from the cursor of the one before, comes to an end and
has then seen every row that the filter is true of, once and in order (`exists_walk_after`). The
induction is on the rows that are still to come: they are what the order puts behind the cursor
(`OrderBy.sort_behind`), so each page is the front of them (`fetch_exec`).
-/

namespace Repertory

/-! ## Rows behind a row -/

namespace OrderBy

variable {α ι : Type} [Identity ι] [Resource α ι] {keys : OrderBy α}

theorem filter_behind {before behind : List α} {reference : α}
    (hrows : ∀ row ∈ before ++ reference :: behind, keys.ConformsAt row)
    (h : keys.Rising (before ++ reference :: behind)) :
    (before ++ reference :: behind).filter (fun row => order keys row reference == .gt) =
      behind := by
  obtain ⟨-, hrest, hbefore⟩ := List.pairwise_append.mp h
  have hbehind := (List.pairwise_cons.mp hrest).1
  have href := hrows reference (by simp)
  have hself : order keys reference reference = .eq := (order_orders keys).self href
  have hnone : before.filter (fun row => order keys row reference == .gt) = [] := by
    refine List.filter_eq_nil_iff.mpr fun row hrow => ?_
    rw [hbefore row hrow reference List.mem_cons_self]
    decide
  have hall : behind.filter (fun row => order keys row reference == .gt) = behind := by
    refine List.filter_eq_self.mpr fun row hrow => ?_
    rw [(order_orders keys).swap href (hrows row (by simp [hrow])), hbehind row hrow]
    rfl
  rw [List.filter_append, hnone, List.nil_append, List.filter_cons_of_neg (by simp [hself]), hall]

/-- What the order puts behind a row is the rest of the sorted rows. -/
theorem sort_behind {rows before behind : List α} {reference : α} (hties : keys.BreaksTies)
    (hrows : ∀ row ∈ rows, keys.ConformsAt row) (hids : (rows.map Resource.id).Nodup)
    (h : sort keys rows = before ++ reference :: behind) :
    sort keys (rows.filter fun row => order keys row reference == .gt) = behind := by
  have hrising : keys.Rising (before ++ reference :: behind) := h ▸ sort_rising hties hrows hids
  have hperm : (before ++ reference :: behind).Perm rows := h ▸ sort_perm keys rows
  have hfilter := filter_behind (fun row hrow => hrows row (hperm.mem_iff.mp hrow)) hrising
  have hsub : (rows.filter fun row => order keys row reference == .gt).Sublist rows :=
    List.filter_sublist
  refine sort_eq_of_perm hties (fun row hrow => hrows row (hsub.subset hrow))
    ((hsub.map Resource.id).nodup hids) ?_ ?_
  · rw [← hfilter]
    exact hperm.filter _
  · exact (List.pairwise_cons.mp (List.pairwise_append.mp hrising).2.1).2

end OrderBy

namespace Page

variable {σ α ι : Type}

/-- The rows of a page in the order in which it was filled. -/
def filled (backwards : Bool) (page : Page α ι) : List α :=
  if backwards then page.items.reverse else page.items

theorem length_filled (backwards : Bool) (page : Page α ι) :
    (page.filled backwards).length = page.items.length := by
  cases backwards <;> simp [filled]

/-- The pages hold the rows in order, and all of them but the last are full. -/
structure Tiles (limit : Nat) (backwards : Bool) (pages : List (Page α ι)) (rows : List α) :
    Prop where
  flatMap_filled : pages.flatMap (filled backwards) = rows
  full : ∀ page ∈ pages.dropLast, page.items.length = limit

theorem Tiles.cons {limit : Nat} {backwards : Bool} {page : Page α ι} {pages : List (Page α ι)}
    {rows rest : List α} (hpage : page.filled backwards = rows) (hfull : rows.length = limit)
    (h : Tiles limit backwards pages rest) :
    Tiles limit backwards (page :: pages) (rows ++ rest) where
  flatMap_filled := by rw [List.flatMap_cons, hpage, h.flatMap_filled]
  full other hother := by
    cases pages with
    | nil => exact absurd hother List.not_mem_nil
    | cons next pages =>
      rcases List.mem_cons.mp hother with rfl | hother
      · rw [← length_filled backwards, hpage, hfull]
      · exact h.full other hother

theorem Tiles.length_items {limit : Nat} {backwards : Bool} {pages : List (Page α ι)}
    {rows : List α} (h : Tiles limit backwards pages rows) :
    (pages.flatMap items).length = rows.length := by
  rw [← h.flatMap_filled, List.length_flatMap, List.length_flatMap]
  simp only [length_filled]

theorem Tiles.mem_rows {limit : Nat} {backwards : Bool} {pages : List (Page α ι)} {rows : List α}
    (h : Tiles limit backwards pages rows) {page : Page α ι} (hpage : page ∈ pages) {row : α}
    (hrow : row ∈ page.items) : row ∈ rows := by
  rw [← h.flatMap_filled]
  refine List.mem_flatMap.mpr ⟨page, hpage, ?_⟩
  cases backwards <;> simpa [filled] using hrow

variable [Identity ι] [Resource α ι]

/-- The pages that come when the first request is `p` and each further one starts at the cursor of
the page before, up to the first page without a cursor. -/
inductive Walk (store : Store σ α ι) (filter : Option (Filter α ι)) (sorting : Sorting α) (s : σ) :
    Pagination ι → List (Page α ι) → Prop where
  | last {p : Pagination ι} {page : Page α ι}
      (hfetch : (fetch store filter sorting p).exec s = (.ok page, s))
      (hcursor : page.nextCursor = none) : Walk store filter sorting s p [page]
  | step {p : Pagination ι} {page : Page α ι} {next : ι} {pages : List (Page α ι)}
      (hfetch : (fetch store filter sorting p).exec s = (.ok page, s))
      (hcursor : page.nextCursor = some next)
      (hrest : Walk store filter sorting s { p with afterId := some next } pages) :
      Walk store filter sorting s p (page :: pages)

variable {store : Store σ α ι} {filter : Option (Filter α ι)} {sorting : Sorting α} {s : σ}
  {p : Pagination ι}

theorem Walk.exec_walk {pages : List (Page α ι)} (h : Walk store filter sorting s p pages) {n : Nat}
    (hn : pages.length ≤ n) :
    (walk store filter sorting n p).exec s = (.ok (pages.map items), s) := by
  induction h generalizing n with
  | last hfetch hcursor =>
    obtain ⟨n, rfl⟩ := Nat.exists_eq_succ_of_ne_zero (Nat.ne_of_gt hn)
    simp [walk, hfetch, hcursor]
  | step hfetch hcursor hrest ih =>
    obtain ⟨n, rfl⟩ := Nat.exists_eq_succ_of_ne_zero (Nat.ne_of_gt (Nat.zero_lt_of_lt hn))
    have hwalk := ih (Nat.le_of_succ_le_succ hn)
    simp only [walk, Action.exec_bind, hfetch, hcursor, hwalk]
    rfl

/-! ## The page in front of rows -/

theorem ofRows_of_le {rest : List α} (h : rest.length ≤ p.limit) :
    ofRows p (rest.take (p.limit + 1)) =
      ⟨if p.backwards then rest.reverse else rest, none⟩ := by
  rw [List.take_of_length_le (Nat.le_succ_of_le h), ofRows]
  simp only [List.take_of_length_le h, if_neg (Nat.not_lt_of_le h)]

/-- Any other page is full, and its cursor is the last of its rows. -/
theorem ofRows_of_lt {rest : List α} (h : p.limit < rest.length) :
    ofRows p (rest.take (p.limit + 1)) =
      ⟨if p.backwards then (rest.take p.limit).reverse else rest.take p.limit,
        (rest.take p.limit).getLast?.map Resource.id⟩ := by
  have hlength : p.limit < (rest.take (p.limit + 1)).length := by
    rw [List.length_take]
    omega
  rw [ofRows]
  simp only [List.take_take, Nat.min_eq_left (Nat.le_succ p.limit), if_pos hlength]

theorem direction_breaksTies (sorting : Sorting α) (p : Pagination ι) :
    (direction sorting p).BreaksTies := by
  rw [direction]
  split
  · exact OrderBy.inverted_breaksTies (OrderBy.compile_breaksTies sorting)
  · exact OrderBy.compile_breaksTies sorting

theorem direction_conformsAt {row : α} (h : sorting.compile.ConformsAt row) (p : Pagination ι) :
    (direction sorting p).ConformsAt row := by
  rw [direction]
  split
  · exact OrderBy.conformsAt_inverted.mpr h
  · exact h

/-! ## Pages of a table -/

variable {lens : Lens σ (Table α ι)}

/-- The page that a request to a table gets. -/
def ofTable (filter : Option (Filter α ι)) (sorting : Sorting α) (p : Pagination ι)
    (table : Table α ι) : Page α ι :=
  if p.limit = 0 then empty
  else
    let order := direction sorting p
    match p.afterId with
    | none => ofRows p (table.execute (query filter order p))
    | some after =>
      match table.execute (Query.byId after) with
      | [] => empty
      | reference :: _ =>
        ofRows p (table.execute (query (Filter.all [filter, order.keysetAfter reference]) order p))

/-- A store that answers from the rows of a table pages like it. -/
theorem fetch_exec_of_execute {table : Table α ι}
    (h : ∀ q, (store.execute q).exec s = (.ok (table.execute q), s)) :
    (fetch store filter sorting p).exec s = (.ok (ofTable filter sorting p table), s) := by
  rw [fetch, ofTable]
  by_cases hlimit : p.limit = 0
  · rw [if_pos hlimit, if_pos hlimit]
    rfl
  · rw [if_neg hlimit, if_neg hlimit]
    cases p.afterId with
    | none => simp only [Action.exec_bind, h, Action.exec_pure]
    | some after =>
      simp only [Action.exec_bind, h]
      cases table.execute (Query.byId after) with
      | nil => rfl
      | cons reference rest => simp only [Action.exec_bind, h, Action.exec_pure]

theorem fetch_exec_table :
    (fetch (Table.store lens) filter sorting p).exec s =
      (.ok (ofTable filter sorting p (lens.get s)), s) :=
  fetch_exec_of_execute fun _ => rfl

theorem execute_query_congr {f g : Option (Filter α ι)} {table : Table α ι}
    (h : ∀ row ∈ table.rows, Query.selects f row = Query.selects g row) (order : OrderBy α) :
    table.execute (query f order p) = table.execute (query g order p) :=
  congrArg (fun rows => (order.sort rows).take (p.limit + 1)) (List.filter_congr h)

theorem ofTable_congr {other : Option (Filter α ι)} {table : Table α ι}
    (h : ∀ row ∈ table.rows, Query.selects filter row = Query.selects other row) :
    ofTable filter sorting p table = ofTable other sorting p table := by
  rw [ofTable, ofTable]
  by_cases hlimit : p.limit = 0
  · rw [if_pos hlimit, if_pos hlimit]
  · rw [if_neg hlimit, if_neg hlimit]
    dsimp only
    cases p.afterId with
    | none => rw [execute_query_congr h]
    | some after =>
      dsimp only
      cases table.execute (Query.byId after) with
      | nil => rfl
      | cons reference rest =>
        have hbehind : ∀ row ∈ table.rows,
            Query.selects (Filter.all
                [filter, (direction sorting p).keysetAfter reference]) row =
              Query.selects (Filter.all
                [other, (direction sorting p).keysetAfter reference]) row := by
          intro row hrow
          simp only [Filter.selects_all, List.all_cons, h row hrow]
        dsimp only
        rw [execute_query_congr hbehind]

/-! ## Walks through a table -/

/-- The rows of a state that a filter is true of, in the direction of a request. -/
def arranged (lens : Lens σ (Table α ι)) (filter : Option (Filter α ι)) (sorting : Sorting α)
    (s : σ) (p : Pagination ι) : List α :=
  OrderBy.sort (direction sorting p) ((lens.get s).rows.filter (Query.selects filter))

theorem fetch_exec_none (hlimit : p.limit ≠ 0) (hafter : p.afterId = none) :
    (fetch (Table.store lens) filter sorting p).exec s =
      (.ok (ofRows p ((arranged lens filter sorting s p).take (p.limit + 1))), s) := by
  rw [fetch_exec_table, ofTable, if_neg hlimit, hafter]
  rfl

theorem fetch_exec_some {reference : α} (hlimit : p.limit ≠ 0)
    (hids : ((lens.get s).rows.map Resource.id).Nodup) (href : reference ∈ (lens.get s).rows)
    (hafter : p.afterId = some (Resource.id reference)) :
    (fetch (Table.store lens) filter sorting p).exec s =
      (.ok (ofRows p ((arranged lens
        (Filter.all [filter, (direction sorting p).keysetAfter reference]) sorting s p).take
          (p.limit + 1))), s) := by
  rw [fetch_exec_table, ofTable, if_neg hlimit, hafter]
  dsimp only
  rw [Table.execute, Table.run_byId hids href]
  rfl

/-- After the rows `before`, the page is made of the front of the rows that remain. -/
theorem fetch_exec (hlimit : p.limit ≠ 0) (hids : ((lens.get s).rows.map Resource.id).Nodup)
    (hrows : ∀ row ∈ (lens.get s).rows, sorting.compile.ConformsAt row) {before rest : List α}
    (h : arranged lens filter sorting s p = before ++ rest)
    (hafter : p.afterId = before.getLast?.map Resource.id) :
    (fetch (Table.store lens) filter sorting p).exec s =
      (.ok (ofRows p (rest.take (p.limit + 1))), s) := by
  rcases List.eq_nil_or_concat before with rfl | ⟨front, reference, rfl⟩
  · rw [fetch_exec_none hlimit hafter, h, List.nil_append]
  · have hties := direction_breaksTies sorting p
    have hconforms : ∀ row ∈ (lens.get s).rows, (direction sorting p).ConformsAt row :=
      fun row hrow => direction_conformsAt (hrows row hrow) p
    have hsub : ((lens.get s).rows.filter (Query.selects filter)).Sublist (lens.get s).rows :=
      List.filter_sublist
    have href : reference ∈ (lens.get s).rows := by
      refine hsub.subset ((OrderBy.sort_perm (direction sorting p) _).mem_iff.mp ?_)
      rw [← arranged, h]
      simp
    have hbehind := OrderBy.sort_behind hties
      (fun row hrow => hconforms row (hsub.subset hrow)) ((hsub.map Resource.id).nodup hids)
      (h.trans (by rw [List.concat_eq_append, List.append_assoc, List.singleton_append]))
    have hselects : (lens.get s).rows.filter
          (Query.selects (Filter.all [filter, (direction sorting p).keysetAfter reference])) =
        ((lens.get s).rows.filter (Query.selects filter)).filter
          fun row => OrderBy.order (direction sorting p) row reference == .gt := by
      rw [List.filter_filter]
      refine List.filter_congr fun row hrow => ?_
      rw [OrderBy.selects_keysetAfter hties (hconforms row hrow) (hconforms reference href),
        Bool.and_comm]
    rw [fetch_exec_some hlimit hids href (by simpa using hafter), arranged, hselects, hbehind]

/-- From where the rows `before` end, a walk comes to an end, and its pages hold the rows that
remain. -/
theorem exists_walk_of_nodup (hlimit : p.limit ≠ 0)
    (hids : ((lens.get s).rows.map Resource.id).Nodup)
    (hrows : ∀ row ∈ (lens.get s).rows, sorting.compile.ConformsAt row) {before rest : List α}
    (h : arranged lens filter sorting s p = before ++ rest)
    (hafter : p.afterId = before.getLast?.map Resource.id) :
    ∃ pages, Walk (Table.store lens) filter sorting s p pages ∧
      Tiles p.limit p.backwards pages rest := by
  -- Each page takes a full part of the rest away, so the walk is as long as the rest allows.
  induction hlength : rest.length using Nat.strongRecOn generalizing p before rest with
  | ind n ih =>
  have hfetch := fetch_exec hlimit hids hrows h hafter
  by_cases hlast : rest.length ≤ p.limit
  · rw [ofRows_of_le hlast] at hfetch
    refine ⟨[_], Walk.last hfetch rfl, ?_, fun page hpage => absurd hpage List.not_mem_nil⟩
    cases p.backwards <;> simp [filled]
  · have hmore := Nat.lt_of_not_le hlast
    rw [ofRows_of_lt hmore] at hfetch
    obtain ⟨last, hcursor⟩ : ∃ last, (rest.take p.limit).getLast? = some last := by
      refine Option.ne_none_iff_exists'.mp fun hnone => ?_
      have hlength := congrArg List.length (List.getLast?_eq_none_iff.mp hnone)
      rw [List.length_take_of_le (Nat.le_of_lt hmore)] at hlength
      exact hlimit hlength
    have hshorter : (rest.drop p.limit).length < n := by
      rw [List.length_drop]
      omega
    have hnext : arranged lens filter sorting s { p with afterId := some (Resource.id last) } =
        (before ++ rest.take p.limit) ++ rest.drop p.limit :=
      h.trans (by rw [List.append_assoc, List.take_append_drop])
    have hseen : (before ++ rest.take p.limit).getLast? = some last := by
      rw [List.getLast?_append, hcursor]
      rfl
    obtain ⟨pages, hwalk, htiles⟩ := ih _ hshorter
      (p := { p with afterId := some (Resource.id last) }) hlimit hnext (by rw [hseen]; rfl) rfl
    rw [hcursor] at hfetch
    refine ⟨_, Walk.step hfetch rfl hwalk, ?_⟩
    rw [← List.take_append_drop p.limit rest]
    refine htiles.cons ?_ (List.length_take_of_le (Nat.le_of_lt hmore))
    cases p.backwards <;> simp [filled]

theorem exists_walk (hlimit : p.limit ≠ 0) (hids : Table.Ascending (lens.get s).rows)
    (hrows : ∀ row ∈ (lens.get s).rows, sorting.compile.ConformsAt row) {before rest : List α}
    (h : arranged lens filter sorting s p = before ++ rest)
    (hafter : p.afterId = before.getLast?.map Resource.id) :
    ∃ pages, Walk (Table.store lens) filter sorting s p pages ∧
      Tiles p.limit p.backwards pages rest :=
  exists_walk_of_nodup hlimit hids.nodup hrows h hafter

/-- From the first page on, a walk comes to an end. Its pages hold the rows that the filter is true
of in the order asked for, each row once, and all pages but the last are full. -/
theorem exists_walk_after (calls : List (Table.Call α ι)) (filter : Option (Filter α ι))
    (sorting : Sorting α) (limit : Nat) (backwards : Bool) (hlimit : 0 < limit)
    (hrows : ∀ row ∈ (Table.after calls).rows, sorting.compile.ConformsAt row) :
    let table := Table.after calls
    let start : Pagination ι := { limit, backwards }
    let order := direction sorting start
    let matching := table.rows.filter (Query.selects filter)
    ∃ pages, Walk (Table.store Lens.whole) filter sorting table start pages ∧
      Tiles limit backwards pages (order.sort matching) ∧
      (order.sort matching).Perm matching ∧ order.Rising (order.sort matching) ∧
      (pages.flatMap items).length = table.count filter ∧
      ∀ n, pages.length ≤ n →
        (walk (Table.store Lens.whole) filter sorting n start).exec table =
          (.ok (pages.map items), table) := by
  intro table start order matching
  have hids : Table.Ascending table.rows := Table.after_ascending calls
  have hall : arranged Lens.whole filter sorting table start = [] ++ order.sort matching := rfl
  obtain ⟨pages, hwalk, htiles⟩ := exists_walk (Nat.ne_of_gt hlimit) hids hrows hall rfl
  have hsub : matching.Sublist table.rows := List.filter_sublist
  have hrising : order.Rising (order.sort matching) :=
    OrderBy.sort_rising (direction_breaksTies sorting start)
      (fun row hrow => direction_conformsAt (hrows row (hsub.subset hrow)) start)
      ((hsub.map Resource.id).nodup hids.nodup)
  have hperm := OrderBy.sort_perm order matching
  refine ⟨pages, hwalk, htiles, hperm, hrising, ?_, fun n hn => hwalk.exec_walk hn⟩
  rw [htiles.length_items, hperm.length_eq]
  rfl

open Catalog in
/-- Two to a page and backwards, the collection without an overview comes first, and those that
share one come in the order of their ids. -/
theorem exists_walk_after_collections :
    let calls : List (Table.Call Collection Int64) :=
      [.insert ⟨0, "a", "A", some "x"⟩, .insert ⟨0, "b", "B", none⟩,
        .insert ⟨0, "c", "C", some "x"⟩]
    let sorting : Sorting Collection := [.by Collection.overviewField true]
    0 < 2 ∧ (∀ row ∈ (Table.after calls).rows, sorting.compile.ConformsAt row) ∧
      ∃ pages, Walk (Table.store Lens.whole) none sorting (Table.after calls)
          { limit := 2, backwards := true } pages ∧
        pages.flatMap (filled true) =
          [⟨2, "b", "B", none⟩, ⟨1, "a", "A", some "x"⟩, ⟨3, "c", "C", some "x"⟩] := by
  intro calls sorting
  have hrows : ∀ row ∈ (Table.after calls).rows, sorting.compile.ConformsAt row := by
    refine fun row _ => OrderBy.conformsAt_of_conforms row.conforms fun key hkey field hfield => ?_
    have hkeys : key ∈ [_, _] := hkey
    simp only [List.mem_cons, List.not_mem_nil, or_false] at hkeys
    rcases hkeys with rfl | rfl <;> cases hfield <;> simp [Resource.schema, Collection.schema]
  obtain ⟨pages, hwalk, htiles, -⟩ :=
    exists_walk_after calls none sorting 2 true (by decide) hrows
  exact ⟨by decide, hrows, pages, hwalk, htiles.flatMap_filled.trans (by decide)⟩

end Page
end Repertory
