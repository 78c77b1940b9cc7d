import Repertory.Proofs.Page.Walk

/-!
# Walks through a table that changes

Between two requests rows may come and go. A walk then still returns its rows in order, and none
that stays in the table all the while is left out (`liveWalk_returned`). What ties one page to the
next is the row of the cursor: it is kept, and the next page holds what the order puts behind it,
whatever else the table holds by then.
-/

namespace Repertory
namespace Page

variable {α ι : Type} [Identity ι] [Resource α ι]

/-- Rows come and go, but not the row of the cursor. The list holds the rows that have been stored
up to then; what comes has an id that none of them had. -/
inductive Changes (sorting : Sorting α) (cursor : ι) :
    List α → Table α ι → List α → Table α ι → Prop where
  | none {stored : List α} {t : Table α ι} : Changes sorting cursor stored t stored t
  | insert {stored stored' : List α} {t u v : Table α ι} {item row : α}
      (hinsert : t.insert item = .ok (row, u))
      (hrow : sorting.compile.ConformsAt row)
      (hnew : ∀ other ∈ stored, Resource.id other ≠ Resource.id row)
      (hrest : Changes sorting cursor (row :: stored) u stored' v) :
      Changes sorting cursor stored t stored' v
  | delete {stored stored' : List α} {t u v : Table α ι} {id : ι} (hid : id ≠ cursor)
      (hdelete : t.delete id = .ok ((), u)) (hrest : Changes sorting cursor stored u stored' v) :
      Changes sorting cursor stored t stored' v

/-- The requests of a walk, each with the table that it found and the page that it gave. The table
changes after each of them, and the one that gives no cursor is the last. -/
inductive LiveWalk (filter : Option (Filter α ι)) (sorting : Sorting α) :
    List α → Table α ι → Pagination ι → List (Table α ι × Page α ι) → Prop where
  | last {stored : List α} {t : Table α ι} {p : Pagination ι} {page : Page α ι}
      (hfetch : (fetch (Table.store Lens.whole) filter sorting p).exec t = (.ok page, t))
      (hcursor : page.nextCursor = none) : LiveWalk filter sorting stored t p [(t, page)]
  | step {stored stored' : List α} {t u : Table α ι} {p : Pagination ι} {page : Page α ι}
      {next : ι} {visits : List (Table α ι × Page α ι)}
      (hfetch : (fetch (Table.store Lens.whole) filter sorting p).exec t = (.ok page, t))
      (hcursor : page.nextCursor = some next)
      (hchanges : Changes sorting next stored t stored' u)
      (hrest : LiveWalk filter sorting stored' u { p with afterId := some next } visits) :
      LiveWalk filter sorting stored t p ((t, page) :: visits)

/-! ## Changes between requests -/

/-- The rows of the table are in order, conform, and are among those that have been stored, of which
no two share an id. -/
structure Tracked (sorting : Sorting α) (stored : List α) (t : Table α ι) : Prop where
  ascending : Table.Ascending t.rows
  conforms : ∀ row ∈ t.rows, sorting.compile.ConformsAt row
  mem_stored : ∀ row ∈ t.rows, row ∈ stored
  eq_of_id : ∀ a ∈ stored, ∀ b ∈ stored, Resource.id a = Resource.id b → a = b

variable {filter : Option (Filter α ι)} {sorting : Sorting α} {stored stored' : List α}
  {t u : Table α ι} {p : Pagination ι}

theorem Tracked.insert {item row : α} (h : Tracked sorting stored t)
    (hinsert : t.insert item = .ok (row, u)) (hrow : sorting.compile.ConformsAt row)
    (hnew : ∀ other ∈ stored, Resource.id other ≠ Resource.id row) :
    Tracked sorting (row :: stored) u := by
  obtain ⟨-, -, rfl⟩ := Table.insert_ok hinsert
  have hmem : ∀ other ∈ Table.place row t.rows, other = row ∨ other ∈ t.rows := fun other hother =>
    ((Table.mem_place h.ascending).mp hother).imp_right And.left
  refine ⟨Table.place_ascending row h.ascending, fun other hother => ?_, fun other hother => ?_,
    fun a ha b hb hid => ?_⟩
  · rcases hmem other hother with rfl | hold
    · exact hrow
    · exact h.conforms other hold
  · rcases hmem other hother with rfl | hold
    · exact List.mem_cons_self
    · exact List.mem_cons_of_mem row (h.mem_stored other hold)
  · rcases List.mem_cons.mp ha with ha | ha <;> rcases List.mem_cons.mp hb with hb | hb
    · exact ha.trans hb.symm
    · exact absurd (ha ▸ hid.symm) (hnew b hb)
    · exact absurd (hb ▸ hid) (hnew a ha)
    · exact h.eq_of_id a ha b hb hid

theorem Tracked.delete {id : ι} (h : Tracked sorting stored t)
    (hdelete : t.delete id = .ok ((), u)) : Tracked sorting stored u := by
  obtain rfl := Table.delete_ok hdelete
  exact ⟨h.ascending.filter _, fun row hrow => h.conforms row (List.mem_filter.mp hrow).1,
    fun row hrow => h.mem_stored row (List.mem_filter.mp hrow).1, h.eq_of_id⟩

theorem Changes.tracked {cursor : ι} (h : Changes sorting cursor stored t stored' u)
    (ht : Tracked sorting stored t) :
    Tracked sorting stored' u ∧ (∀ row ∈ stored, row ∈ stored') ∧
      ∀ row ∈ t.rows, Resource.id row = cursor → row ∈ u.rows := by
  induction h with
  | none => exact ⟨ht, fun _ hrow => hrow, fun _ hrow _ => hrow⟩
  | @insert stored stored' t u v item row hinsert hrow hnew _ ih =>
    obtain ⟨hv, hstored, hkept⟩ := ih (ht.insert hinsert hrow hnew)
    refine ⟨hv, fun other hother => hstored other (List.mem_cons_of_mem row hother),
      fun other hother hid => hkept other ?_ hid⟩
    rw [(Table.insert_ok hinsert).2.2]
    exact (Table.mem_place ht.ascending).mpr
      (Or.inr ⟨hother, hnew other (ht.mem_stored other hother)⟩)
  | @delete stored stored' t u v id hid hdelete _ ih =>
    obtain ⟨hv, hstored, hkept⟩ := ih (ht.delete hdelete)
    refine ⟨hv, hstored, fun other hother hcursor => hkept other ?_ hcursor⟩
    rw [Table.delete_ok hdelete]
    exact List.mem_filter.mpr ⟨hother, decide_eq_true fun hsame => hid (hsame.symm.trans hcursor)⟩

/-! ## One page -/

/-- The row stands behind the reference, if there is one. -/
def Behind (order : OrderBy α) (reference : Option α) (row : α) : Prop :=
  ∀ r ∈ reference, order.order r row = .lt

/-- The rows that remain for a request are the matching ones of the table that stand behind the
reference, in order. -/
structure Remain (filter : Option (Filter α ι)) (order : OrderBy α) (t : Table α ι)
    (reference : Option α) (rows : List α) : Prop where
  conforms : ∀ row ∈ t.rows, order.ConformsAt row
  rising : order.Rising rows
  mem_iff : ∀ row, row ∈ rows ↔
    row ∈ t.rows ∧ Query.selects filter row = true ∧ Behind order reference row

/-- A page is made from the rows that remain behind the cursor. -/
theorem exists_fetch (filter : Option (Filter α ι)) (hlimit : p.limit ≠ 0)
    (ht : Tracked sorting stored t) {reference : Option α}
    (hafter : p.afterId = reference.map Resource.id) (href : ∀ r ∈ reference, r ∈ t.rows) :
    ∃ rows, (fetch (Table.store Lens.whole) filter sorting p).exec t =
        (.ok (ofRows p (rows.take (p.limit + 1))), t) ∧
      Remain filter (direction sorting p) t reference rows := by
  have hties := direction_breaksTies sorting p
  have hconforms : ∀ row ∈ t.rows, (direction sorting p).ConformsAt row := fun row hrow =>
    direction_conformsAt (ht.conforms row hrow) p
  have hrising : ∀ f : Option (Filter α ι),
      (direction sorting p).Rising (arranged Lens.whole f sorting t p) := by
    intro f
    have hsub : (t.rows.filter (Query.selects f)).Sublist t.rows := List.filter_sublist
    exact OrderBy.sort_rising hties (fun row hrow => hconforms row (hsub.subset hrow))
      ((hsub.map Resource.id).nodup ht.ascending.nodup)
  have hmem : ∀ (f : Option (Filter α ι)) (row : α), row ∈ arranged Lens.whole f sorting t p ↔
      row ∈ t.rows ∧ Query.selects f row = true := fun f row =>
    (OrderBy.sort_perm _ _).mem_iff.trans List.mem_filter
  cases reference with
  | none =>
    refine ⟨_, fetch_exec_none hlimit hafter, hconforms, hrising _,
      fun row => (hmem _ row).trans ?_⟩
    simp [Behind]
  | some reference =>
    have hreference : reference ∈ t.rows := href reference rfl
    refine ⟨_, fetch_exec_some hlimit ht.ascending.nodup hreference hafter, hconforms, hrising _,
      fun row => (hmem _ row).trans (and_congr_right fun hrow => ?_)⟩
    rw [OrderBy.selects_keysetAfter hties (hconforms row hrow) (hconforms reference hreference),
      Bool.and_eq_true, beq_iff_eq]
    have hswap := (OrderBy.order_orders (direction sorting p)).swap (hconforms row hrow)
      (hconforms reference hreference)
    simp only [Behind, Option.mem_some_iff, forall_eq', hswap, Ordering.swap_eq_lt]

/-- A page with a cursor ends with its row, and otherwise holds all the rows. -/
theorem ofRows_cases (hlimit : p.limit ≠ 0) (rows : List α) :
    ((ofRows p (rows.take (p.limit + 1))).nextCursor = none ∧
      (ofRows p (rows.take (p.limit + 1))).filled p.backwards = rows) ∨
    ∃ front last rest, rows = front ++ last :: rest ∧
      (ofRows p (rows.take (p.limit + 1))).nextCursor = some (Resource.id last) ∧
      (ofRows p (rows.take (p.limit + 1))).filled p.backwards = front ++ [last] := by
  by_cases h : rows.length ≤ p.limit
  · rw [ofRows_of_le h]
    refine Or.inl ⟨rfl, ?_⟩
    cases p.backwards <;> simp [filled]
  · have hmore := Nat.lt_of_not_le h
    rw [ofRows_of_lt hmore]
    rcases List.eq_nil_or_concat (rows.take p.limit) with hnil | ⟨front, last, hconcat⟩
    · have hlength := List.length_take_of_le (Nat.le_of_lt hmore)
      rw [hnil] at hlength
      exact absurd hlength.symm hlimit
    · rw [List.concat_eq_append] at hconcat
      refine Or.inr ⟨front, last, rows.drop p.limit, ?_, ?_, ?_⟩
      · rw [← List.singleton_append, ← List.append_assoc, ← hconcat, List.take_append_drop]
      · simp [hconcat]
      · cases p.backwards <;> simp [filled, hconcat]

/-! ## Walks -/

/-- The rows of all pages, in the order in which they were filled. -/
def returned (backwards : Bool) (visits : List (Table α ι × Page α ι)) : List α :=
  visits.flatMap fun visit => visit.2.filled backwards

/-- What the visits from a cursor on return, given the rows that have been stored up to then. -/
structure Returns (filter : Option (Filter α ι)) (order : OrderBy α) (backwards : Bool)
    (stored : List α) (reference : Option α) (visits : List (Table α ι × Page α ι)) : Prop where
  sound : ∀ visit ∈ visits, ∀ row ∈ visit.2.filled backwards,
    row ∈ visit.1.rows ∧ Query.selects filter row = true
  rising : order.Rising (returned backwards visits)
  conforms : ∀ row ∈ returned backwards visits, order.ConformsAt row
  behind : ∀ row ∈ returned backwards visits, Behind order reference row
  eq_of_id : ∀ a ∈ stored ++ returned backwards visits, ∀ b ∈ stored ++ returned backwards visits,
    Resource.id a = Resource.id b → a = b
  complete : ∀ row, Query.selects filter row = true → Behind order reference row →
    (∀ visit ∈ visits, row ∈ visit.1.rows) → row ∈ returned backwards visits

section

variable {order : OrderBy α} {backwards : Bool} {reference : Option α} {page : Page α ι}
  {visits : List (Table α ι × Page α ι)}

theorem Returns.ids_nodup (h : Returns filter order backwards stored reference visits) :
    ((returned backwards visits).map Resource.id).Nodup := by
  refine List.pairwise_map.mpr (List.Pairwise.imp_of_mem (fun {a b} ha hb hlt hid => ?_) h.rising)
  obtain rfl := h.eq_of_id a (List.mem_append_right stored ha) b
    (List.mem_append_right stored hb) hid
  rw [(OrderBy.order_orders order).self (h.conforms a ha)] at hlt
  cases hlt

/-- A last page returns all the rows that remain. -/
theorem Returns.last {rows : List α} (ht : Tracked sorting stored t)
    (h : Remain filter order t reference rows) (hfilled : page.filled backwards = rows) :
    Returns filter order backwards stored reference [(t, page)] := by
  obtain rfl : returned backwards [(t, page)] = rows := (List.flatMap_singleton ..).trans hfilled
  have hstored : ∀ row ∈ stored ++ returned backwards [(t, page)], row ∈ stored := fun row hrow =>
    (List.mem_append.mp hrow).elim id fun hrow => ht.mem_stored row ((h.mem_iff row).mp hrow).1
  exact {
    sound := by
      intro visit hvisit row hrow
      obtain rfl := List.mem_singleton.mp hvisit
      have hfound := (h.mem_iff row).mp (hfilled ▸ hrow)
      exact ⟨hfound.1, hfound.2.1⟩
    rising := h.rising
    conforms := fun row hrow => h.conforms row ((h.mem_iff row).mp hrow).1
    behind := fun row hrow => ((h.mem_iff row).mp hrow).2.2
    eq_of_id := fun a ha b hb => ht.eq_of_id a (hstored a ha) b (hstored b hb)
    complete := fun row hrow hbehind hstays =>
      (h.mem_iff row).mpr ⟨hstays (t, page) List.mem_cons_self, hrow, hbehind⟩ }

/-- What stands before the cursor stands before all that comes behind it. -/
theorem Returns.order_lt {r last : α}
    (h : Returns filter order backwards stored (some last) visits) (hr : order.ConformsAt r)
    (hlast : order.ConformsAt last) (hlt : order.order r last = .lt) :
    ∀ row ∈ returned backwards visits, order.order r row = .lt := fun row hrow =>
  (OrderBy.order_orders order).trans_lt hr hlast (h.conforms row hrow) hlt
    (h.behind row hrow last rfl)

/-- Any other page returns the rows up to its cursor, and the walk goes on behind that. -/
theorem Returns.step {front rest : List α} {last : α} (ht : Tracked sorting stored t)
    (href : ∀ r ∈ reference, r ∈ t.rows)
    (h : Remain filter order t reference (front ++ last :: rest))
    (hfilled : page.filled backwards = front ++ [last]) (hstored : ∀ row ∈ stored, row ∈ stored')
    (hlater : Returns filter order backwards stored' (some last) visits) :
    Returns filter order backwards stored reference ((t, page) :: visits) := by
  have hreturned : returned backwards ((t, page) :: visits) =
      (front ++ [last]) ++ returned backwards visits := by
    rw [returned, List.flatMap_cons, hfilled]
    rfl
  rw [List.append_cons] at h
  obtain ⟨hpage, -, hrest⟩ := List.pairwise_append.mp h.rising
  have hfound : ∀ row ∈ front ++ [last],
      row ∈ t.rows ∧ Query.selects filter row = true ∧ Behind order reference row :=
    fun row hrow => (h.mem_iff row).mp (List.mem_append_left rest hrow)
  have hlast : last ∈ front ++ [last] := List.mem_append_right front List.mem_cons_self
  have hconforms : ∀ row ∈ front ++ [last], order.ConformsAt row := fun row hrow =>
    h.conforms row (hfound row hrow).1
  exact {
    sound := by
      intro visit hvisit row hrow
      rcases List.mem_cons.mp hvisit with rfl | hvisit
      · have hmatch := hfound row (hfilled ▸ hrow)
        exact ⟨hmatch.1, hmatch.2.1⟩
      · exact hlater.sound visit hvisit row hrow
    rising := by
      rw [hreturned]
      refine List.pairwise_append.mpr ⟨hpage, hlater.rising, fun row hrow => ?_⟩
      rcases List.mem_append.mp hrow with hfront | hcursor
      · exact hlater.order_lt (hconforms row hrow) (hconforms last hlast)
          ((List.pairwise_append.mp hpage).2.2 row hfront last List.mem_cons_self)
      · obtain rfl := List.mem_singleton.mp hcursor
        exact fun other hother => hlater.behind other hother row rfl
    conforms := by
      rw [hreturned]
      exact fun row hrow => (List.mem_append.mp hrow).elim (hconforms row) (hlater.conforms row)
    behind := by
      rw [hreturned]
      exact fun row hrow => (List.mem_append.mp hrow).elim (fun hrow => (hfound row hrow).2.2)
        fun hrow r hr => hlater.order_lt (h.conforms r (href r hr)) (hconforms last hlast)
          ((hfound last hlast).2.2 r hr) row hrow
    eq_of_id := by
      have hsub : ∀ row ∈ stored ++ returned backwards ((t, page) :: visits),
          row ∈ stored' ++ returned backwards visits := by
        intro row hrow
        rw [hreturned, ← List.append_assoc] at hrow
        refine List.mem_append.mpr ((List.mem_append.mp hrow).imp_left fun hrow => ?_)
        exact hstored row ((List.mem_append.mp hrow).elim id fun hrow =>
          ht.mem_stored row (hfound row hrow).1)
      exact fun a ha b hb => hlater.eq_of_id a (hsub a ha) b (hsub b hb)
    complete := by
      intro row hrow hbehind hstays
      have hpresent := (h.mem_iff row).mpr ⟨hstays (t, page) List.mem_cons_self, hrow, hbehind⟩
      rw [hreturned]
      refine List.mem_append.mpr ((List.mem_append.mp hpresent).imp_right fun hleft => ?_)
      refine hlater.complete row hrow (fun r hr => ?_) fun visit hvisit =>
        hstays visit (List.mem_cons_of_mem (t, page) hvisit)
      exact Option.mem_some_iff.mp hr ▸ hrest last hlast row hleft }

end

theorem LiveWalk.returns {visits : List (Table α ι × Page α ι)}
    (h : LiveWalk filter sorting stored t p visits) (hlimit : p.limit ≠ 0)
    (ht : Tracked sorting stored t) {reference : Option α}
    (hafter : p.afterId = reference.map Resource.id) (href : ∀ r ∈ reference, r ∈ t.rows) :
    Returns filter (direction sorting p) p.backwards stored reference visits := by
  induction h generalizing reference with
  | @last stored t p page hfetch hcursor =>
    obtain ⟨rows, hexec, hremain⟩ := exists_fetch filter hlimit ht hafter href
    cases hexec.symm.trans hfetch
    rcases ofRows_cases hlimit rows with ⟨-, hfilled⟩ | ⟨front, last, rest, -, hnext, -⟩
    · exact .last ht hremain hfilled
    · rw [hnext] at hcursor
      cases hcursor
  | @step stored stored' t u p page next visits hfetch hcursor hchanges hrest ih =>
    obtain ⟨rows, hexec, hremain⟩ := exists_fetch filter hlimit ht hafter href
    cases hexec.symm.trans hfetch
    rcases ofRows_cases hlimit rows with ⟨hnone, -⟩ | ⟨front, last, rest, rfl, hnext, hfilled⟩
    · rw [hnone] at hcursor
      cases hcursor
    · obtain rfl : Resource.id last = next := Option.some.inj (hnext.symm.trans hcursor)
      obtain ⟨hu, hstored, hkept⟩ := hchanges.tracked ht
      -- The row of the cursor is still there when the next page is asked for.
      have hlast : last ∈ u.rows := hkept last ((hremain.mem_iff last).mp (by simp)).1 rfl
      exact .step ht href hremain hfilled hstored
        (ih hlimit hu rfl fun r hr => Option.mem_some_iff.mp hr ▸ hlast)

/-- While rows come and go, a walk returns rows that its filter is true of, in strictly rising
order and under different ids, and each such row that is there at every request is returned once. -/
theorem liveWalk_returned (calls : List (Table.Call α ι)) (filter : Option (Filter α ι))
    (sorting : Sorting α) (limit : Nat) (backwards : Bool) (hlimit : 0 < limit)
    (hrows : ∀ row ∈ (Table.after calls).rows, sorting.compile.ConformsAt row)
    (visits : List (Table α ι × Page α ι))
    (hwalk : LiveWalk filter sorting (Table.after calls).rows (Table.after calls)
      { limit, backwards } visits) :
    let rows := returned backwards visits
    (direction sorting ({ limit, backwards } : Pagination ι)).Rising rows ∧
      (rows.map Resource.id).Nodup ∧
      (∀ visit ∈ visits, ∀ row ∈ visit.2.filled backwards,
        row ∈ visit.1.rows ∧ Query.selects filter row = true) ∧
      ∀ row, Query.selects filter row = true → (∀ visit ∈ visits, row ∈ visit.1.rows) →
        rows.filter (fun other => Resource.id other = Resource.id row) = [row] := by
  have hids := Table.after_ascending calls
  have htracked : Tracked sorting (Table.after calls).rows (Table.after calls) :=
    ⟨hids, hrows, fun _ hrow => hrow, fun a ha b hb => hids.eq_of_id_eq ha hb⟩
  have h : Returns filter (direction sorting _) backwards (Table.after calls).rows none visits :=
    hwalk.returns (Nat.ne_of_gt hlimit) htracked rfl (by simp)
  refine ⟨h.rising, h.ids_nodup, h.sound, fun row hrow hstays => ?_⟩
  exact Table.filter_id h.ids_nodup (h.complete row hrow (by simp [Behind]) hstays)

open Catalog in
/-- Two to a page, a collection that comes in behind the cursor is returned, one that comes in
before it is not, and nothing is missed when one of an earlier page goes. -/
theorem liveWalk_returned_collections :
    let a : Collection := ⟨1, "a", "A", some "x"⟩
    let b : Collection := ⟨2, "b", "B", some "x"⟩
    let c : Collection := ⟨3, "c", "C", some "y"⟩
    let d : Collection := ⟨4, "d", "D", some "w"⟩
    let e : Collection := ⟨5, "e", "E", some "z"⟩
    let calls : List (Table.Call Collection Int64) := [.insert a, .insert b, .insert c]
    let sorting : Sorting Collection := [.by Collection.overviewField false]
    let old : Table Collection Int64 := ⟨[a, b, c], some 3⟩
    let new : Table Collection Int64 := ⟨[b, c, d, e], some 5⟩
    let visits := [(old, ⟨[a, b], some 2⟩), (new, ⟨[c, e], none⟩)]
    0 < 2 ∧ (∀ row ∈ (Table.after calls).rows, sorting.compile.ConformsAt row) ∧
      LiveWalk none sorting (Table.after calls).rows (Table.after calls)
        { limit := 2, backwards := false } visits ∧
      (returned false visits).filter (fun other => Resource.id other = Resource.id c) = [c] := by
  intro a b c d e calls sorting old new visits
  have hconforms : ∀ row : Collection, sorting.compile.ConformsAt row := by
    refine fun row => OrderBy.conformsAt_of_conforms row.conforms fun key hkey field hfield => ?_
    have hkeys : key ∈ [_, _] := hkey
    simp only [List.mem_cons, List.not_mem_nil, or_false] at hkeys
    rcases hkeys with rfl | rfl <;> cases hfield <;> simp [Resource.schema, Collection.schema]
  have hd : old.insert { d with id := 0 } = .ok (d, ⟨[a, b, c, d], some 4⟩) := rfl
  have he : (⟨[b, c, d], some 4⟩ : Table Collection Int64).insert { e with id := 0 } =
      .ok (e, new) := rfl
  have hchanges : Changes sorting (2 : Int64) old.rows old [e, d, a, b, c] new :=
    .insert hd (hconforms d) (by decide)
      (.delete (show (1 : Int64) ≠ 2 by decide) rfl (.insert he (hconforms e) (by decide) .none))
  have hfirst : (fetch (Table.store Lens.whole) none sorting { limit := 2 }).exec old =
      (.ok ⟨[a, b], some 2⟩, old) := rfl
  have hlast : (fetch (Table.store Lens.whole) none sorting
      { limit := 2, afterId := some (2 : Int64) }).exec new = (.ok ⟨[c, e], none⟩, new) := rfl
  have hwalk : LiveWalk none sorting (Table.after calls).rows (Table.after calls)
      { limit := 2, backwards := false } visits := .step hfirst rfl hchanges (.last hlast rfl)
  have hrows : ∀ row ∈ (Table.after calls).rows, sorting.compile.ConformsAt row :=
    fun row _ => hconforms row
  obtain ⟨-, -, -, honce⟩ := liveWalk_returned calls none sorting 2 false (by decide) hrows _ hwalk
  exact ⟨by decide, hrows, hwalk, honce c rfl (by simp [visits, old, new])⟩

end Page
end Repertory
