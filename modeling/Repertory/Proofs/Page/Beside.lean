import Repertory.Proofs.Page.Walk

/-!
# The pages beside a row

A page backwards from a row holds the rows just before it, in the order that was asked for and not
in the order read backwards (`Page.fetch_beside`). The store sorts by the inverted order, which is
the sorted list turned around (`OrderBy.sort_inverted`), so the rows before the reference stand
behind it there; the page is the front of them, turned around once more.
-/

namespace Repertory
namespace Page

variable {σ α ι : Type} [Identity ι] [Resource α ι]

/-- The row that was fetched in excess decides whether there is a cursor, and is on no page. -/
theorem ofRows_take (p : Pagination ι) (rest : List α) :
    ofRows p (rest.take (p.limit + 1)) =
      ⟨if p.backwards then (rest.take p.limit).reverse else rest.take p.limit,
        if p.limit < rest.length then (rest.take p.limit).getLast?.map Resource.id else none⟩ := by
  by_cases h : p.limit < rest.length
  · rw [ofRows_of_lt h, if_pos h]
  · have hle : rest.length ≤ p.limit := Nat.le_of_not_lt h
    rw [ofRows_of_le hle, if_neg h, List.take_of_length_le hle]

variable {lens : Lens σ (Table α ι)} {filter : Option (Filter α ι)} {sorting : Sorting α} {s : σ}
  {limit i : Nat} {row : α}

/-- The rows of a state that a filter is true of, in the order of a sorting. -/
def matching (lens : Lens σ (Table α ι)) (filter : Option (Filter α ι)) (sorting : Sorting α)
    (s : σ) : List α :=
  sorting.compile.sort ((lens.get s).rows.filter (Query.selects filter))

/-- The page of the rows that come after the row at a place. -/
def after (limit i : Nat) (rows : List α) : Page α ι :=
  let items := (rows.drop (i + 1)).take limit
  ⟨items, if i + 1 + limit < rows.length then items.getLast?.map Resource.id else none⟩

/-- The page of the rows that come before the row at a place. -/
def before (limit i : Nat) (rows : List α) : Page α ι :=
  let items := (rows.take i).drop (i - limit)
  ⟨items, if limit < i then items.head?.map Resource.id else none⟩

theorem items_before (limit i : Nat) (rows : List α) :
    (before limit (i + 1 + limit) rows : Page α ι).items = (after limit i rows).items := by
  show (rows.take (i + 1 + limit)).drop (i + 1 + limit - limit) = (rows.drop (i + 1)).take limit
  rw [List.drop_take, Nat.add_sub_cancel, Nat.add_sub_cancel_left]

/-- Forwards, the rows up to the reference have been seen. -/
theorem fetch_after (hlimit : limit ≠ 0) (hids : Table.Ascending (lens.get s).rows)
    (hrows : ∀ row ∈ (lens.get s).rows, sorting.compile.ConformsAt row)
    (hrow : (matching lens filter sorting s)[i]? = some row) :
    (fetch (Table.store lens) filter sorting { limit, afterId := some (Resource.id row) }).exec s =
      (.ok (after limit i (matching lens filter sorting s)), s) := by
  have hsplit : arranged lens filter sorting s { limit, afterId := some (Resource.id row) } =
      (matching lens filter sorting s).take (i + 1) ++
        (matching lens filter sorting s).drop (i + 1) :=
    (List.take_append_drop _ _).symm
  have hseen : ((matching lens filter sorting s).take (i + 1)).getLast? = some row := by
    rw [List.take_add_one, hrow]
    simp
  have hfetch := fetch_exec (p := { limit, afterId := some (Resource.id row) }) hlimit hids.nodup
    hrows hsplit (by rw [hseen]; rfl)
  have hmore : limit < ((matching lens filter sorting s).drop (i + 1)).length ↔
      i + 1 + limit < (matching lens filter sorting s).length := by
    rw [List.length_drop]
    omega
  rw [hfetch, ofRows_take]
  simp only [hmore, after, Bool.false_eq_true, if_false]

/-- Backwards, the reference and the rows behind it have been seen, last row first. -/
theorem fetch_before (hlimit : limit ≠ 0) (hids : Table.Ascending (lens.get s).rows)
    (hrows : ∀ row ∈ (lens.get s).rows, sorting.compile.ConformsAt row)
    (hrow : (matching lens filter sorting s)[i]? = some row) :
    (fetch (Table.store lens) filter sorting
        { limit, afterId := some (Resource.id row), backwards := true }).exec s =
      (.ok (before limit i (matching lens filter sorting s)), s) := by
  have hsub : ((lens.get s).rows.filter (Query.selects filter)).Sublist (lens.get s).rows :=
    List.filter_sublist
  have hsplit : arranged lens filter sorting s
        { limit, afterId := some (Resource.id row), backwards := true } =
      ((matching lens filter sorting s).drop i).reverse ++
        ((matching lens filter sorting s).take i).reverse := by
    rw [← List.reverse_append, List.take_append_drop]
    exact OrderBy.sort_inverted (OrderBy.compile_breaksTies sorting)
      (fun row hrow => hrows row (hsub.subset hrow)) ((hsub.map Resource.id).nodup hids.nodup)
  have hseen : ((matching lens filter sorting s).drop i).reverse.getLast? = some row := by
    rw [List.getLast?_reverse, List.head?_drop, hrow]
  have hfetch := fetch_exec (p := { limit, afterId := some (Resource.id row), backwards := true })
    hlimit hids.nodup hrows hsplit (by rw [hseen]; rfl)
  have hlength : ((matching lens filter sorting s).take i).length = i :=
    List.length_take_of_le (Nat.le_of_lt (List.getElem?_eq_some_iff.mp hrow).1)
  rw [hfetch, ofRows_take]
  simp only [if_true, List.take_reverse, List.reverse_reverse, List.getLast?_reverse,
    List.length_reverse, hlength, before]

/-- After the row at a place comes the page of the rows behind it, and backwards that of the rows
before it, both in the order asked for, with a cursor if the rows go on beyond the page. So from
the row that follows a full page, the page backwards is the same rows again. -/
theorem fetch_beside (calls : List (Table.Call α ι)) (filter : Option (Filter α ι))
    (sorting : Sorting α) (limit : Nat) (hlimit : 0 < limit)
    (hrows : ∀ row ∈ (Table.after calls).rows, sorting.compile.ConformsAt row) :
    let table := Table.after calls
    let rows := sorting.compile.sort (table.rows.filter (Query.selects filter))
    let fetched (row : α) (backwards : Bool) :=
      (fetch (Table.store Lens.whole) filter sorting
        { limit, afterId := some (Resource.id row), backwards }).exec table
    (∀ i row, rows[i]? = some row →
      fetched row false = (.ok (after limit i rows), table) ∧
        fetched row true = (.ok (before limit i rows), table)) ∧
    ∀ i row next, rows[i]? = some row → rows[i + 1 + limit]? = some next →
      ∃ page there, fetched row false = (.ok page, table) ∧ fetched next true = (.ok there, table) ∧
        there.items = page.items ∧ page.items.length = limit := by
  intro table rows fetched
  have hids : Table.Ascending table.rows := Table.after_ascending calls
  have hne : limit ≠ 0 := Nat.ne_of_gt hlimit
  refine ⟨fun i row hrow => ⟨?_, ?_⟩, fun i row next hrow hnext => ?_⟩
  · exact fetch_after hne hids hrows hrow
  · exact fetch_before hne hids hrows hrow
  · refine ⟨after limit i rows, before limit (i + 1 + limit) rows,
      fetch_after hne hids hrows hrow,
      fetch_before hne hids hrows hnext, items_before limit i rows, ?_⟩
    have hlength := (List.getElem?_eq_some_iff.mp hnext).1
    show ((rows.drop (i + 1)).take limit).length = limit
    rw [List.length_take, List.length_drop]
    omega

open Catalog in
/-- Two to a page, the collections between the first and the fourth are the page after the one and
the page before the other. Those without an overview come last. -/
theorem fetch_beside_collections :
    let calls : List (Table.Call Collection Int64) :=
      [.insert ⟨0, "a", "A", some "x"⟩, .insert ⟨0, "b", "B", none⟩,
        .insert ⟨0, "c", "C", some "x"⟩, .insert ⟨0, "d", "D", some "y"⟩,
        .insert ⟨0, "e", "E", none⟩]
    let sorting : Sorting Collection := [.by Collection.overviewField true]
    let fetched (id : Int64) (backwards : Bool) :=
      (fetch (Table.store Lens.whole) none sorting
        { limit := 2, afterId := some id, backwards }).exec (Table.after calls)
    0 < 2 ∧ (∀ row ∈ (Table.after calls).rows, sorting.compile.ConformsAt row) ∧
      fetched 4 false =
        (.ok ⟨[⟨3, "c", "C", some "x"⟩, ⟨1, "a", "A", some "x"⟩], some 1⟩, Table.after calls) ∧
      fetched 5 true =
        (.ok ⟨[⟨3, "c", "C", some "x"⟩, ⟨1, "a", "A", some "x"⟩], some 3⟩, Table.after calls) := by
  intro calls sorting fetched
  have hrows : ∀ row ∈ (Table.after calls).rows, sorting.compile.ConformsAt row :=
    fun row _ => row.conformsAt_byOverview true
  have hsorted : sorting.compile.sort ((Table.after calls).rows.filter (Query.selects none)) =
      [⟨4, "d", "D", some "y"⟩, ⟨3, "c", "C", some "x"⟩, ⟨1, "a", "A", some "x"⟩,
        ⟨5, "e", "E", none⟩, ⟨2, "b", "B", none⟩] := by decide
  have hbeside := (fetch_beside calls none sorting 2 (by decide) hrows).1
  rw [hsorted] at hbeside
  refine ⟨by decide, hrows, ?_, ?_⟩
  · exact (hbeside 0 ⟨4, "d", "D", some "y"⟩ rfl).1
  · exact (hbeside 3 ⟨5, "e", "E", none⟩ rfl).2

end Page
end Repertory
