import Repertory.Proofs.Catalog.FailedWrites
import Repertory.Proofs.Repository.Union

/-!
# Ids of library items

The library reads the shows outside of collections, and then the collections. Stores take the
negative ids that callers give to rows, so a show may have the negated id of a collection, and then
two items share an id. That is the only way (`library_ids`). An item leads back to its row as long
as the id of the row is not negative.
-/

namespace Repertory
namespace Catalog

open Repository

def State.loneShows (s : State) : List Show := s.shows.rows.filter fun row => !row.isCollected

def State.libraryItems (s : State) : List LibraryItem :=
  s.loneShows.map LibraryItem.ofShow ++ s.collections.rows.map LibraryItem.ofCollection

theorem librarySources_read (s : State) : ∀ source ∈ librarySources, source.Reads s := by
  simp only [librarySources, List.forall_mem_cons]
  exact ⟨Source.reads_ofStore _ _ _ _, Source.reads_ofStore _ _ _ _, List.forall_mem_nil _⟩

theorem flatMap_librarySources (s : State) :
    librarySources.flatMap (fun source => source.part s) = s.libraryItems := by
  have hshows : s.shows.rows.filter (Query.selects
      (some (.satisfies fun row => !row.isCollected : Filter Show Int64))) = s.loneShows :=
    List.filter_congr fun row _ => by rw [Query.selects_some, Filter.isMatch_satisfies]
  have hcollections : s.collections.rows.filter
      (Query.selects (none : Option (Filter Collection Int64))) = s.collections.rows :=
    List.filter_eq_self.mpr fun _ _ => rfl
  have hparts : librarySources.flatMap (fun source => source.part s) =
      (s.shows.rows.filter (Query.selects
          (some (.satisfies fun row => !row.isCollected)))).map LibraryItem.ofShow ++
        ((s.collections.rows.filter (Query.selects none)).map LibraryItem.ofCollection ++ []) := rfl
  rw [hparts, hshows, hcollections, List.append_nil]
  rfl

theorem Settings.library_rows (settings : Settings) (s : State) :
    settings.library.rows.exec s = (.ok (Store.ofRows s.libraryItems), s) := by
  have hviews : settings.library.Views s _ := union_views (librarySources_read s) _ _
  rw [flatMap_librarySources] at hviews
  exact hviews

/-! ## Negated ids -/

theorem toInt_neg_of_ne_min {id : Int64} (h : id ≠ Int64.minValue) :
    (-id).toInt = -id.toInt := by
  have hmin : id.toInt ≠ -2 ^ 63 := fun heq =>
    h (Int64.toInt_inj.mp (heq.trans Int64.toInt_minValue.symm))
  have hle := Int64.le_toInt id
  have hlt := Int64.toInt_lt id
  rw [Int64.toInt_neg]
  exact Int.bmod_eq_of_le (by omega) (by omega)

theorem LibraryItem.sourceId_eq_iff (item : LibraryItem) {id : Int64}
    (hitem : item.id = id ∨ item.id = -id) :
    item.sourceId = id ↔ 0 ≤ id ∨ id = Int64.minValue := by
  by_cases hmin : id = Int64.minValue
  · -- The least id is its own negation.
    subst hmin
    have hsame : item.id = Int64.minValue := hitem.elim (fun h => h) fun h => h
    rw [sourceId, hsame]
    decide
  have hneg := toInt_neg_of_ne_min hmin
  have hzero : (0 : Int64).toInt = 0 := rfl
  rw [or_iff_left hmin, sourceId, ← Int64.toInt_inj, Int64.le_iff_toInt_le, hzero]
  split
  · rename_i hnegative
    rw [Int64.lt_iff_toInt_lt, hzero] at hnegative
    rcases hitem with hitem | hitem
    · rw [hitem] at hnegative ⊢
      omega
    · rw [hitem, hneg] at hnegative
      rw [hitem, Int64.neg_neg]
      omega
  · rename_i hnegative
    rw [Int64.lt_iff_toInt_lt, hzero] at hnegative
    rcases hitem with hitem | hitem
    · rw [hitem] at hnegative ⊢
      omega
    · rw [hitem, hneg] at hnegative ⊢
      omega

theorem nodup_libraryItems {s : State} (h : Ordered s) :
    (s.libraryItems.map LibraryItem.id).Nodup ↔
      ∀ row ∈ s.loneShows, ∀ c ∈ s.collections.rows, row.id ≠ -c.id := by
  have hids : s.libraryItems.map LibraryItem.id =
      s.loneShows.map Show.id ++ s.collections.rows.map fun c => -c.id := by
    rw [State.libraryItems, List.map_append, List.map_map, List.map_map]
    rfl
  have hshows : (s.loneShows.map Show.id).Nodup :=
    (List.filter_sublist.map Show.id).nodup h.shows.nodup
  have hcollections : (s.collections.rows.map fun c => -c.id).Nodup :=
    List.pairwise_map.mpr (h.collections.imp fun hlt heq =>
      Table.ne_of_compare_lt hlt (Int64.neg_inj.mp heq))
  rw [hids, List.nodup_append]
  simp only [hshows, hcollections, true_and, List.forall_mem_map]

/-- Two items of the library share an id exactly if a show outside of collections has the negated id
of a collection. An item leads back to the id of its row exactly if that is not negative, or the
least of all ids, which is its own negation. -/
theorem library_ids (history : List (Settings × Request)) (settings : Settings) :
    ∃ items, settings.library.rows.exec (after history) =
        (.ok (Store.ofRows items), after history) ∧
      items = (after history).loneShows.map LibraryItem.ofShow ++
        (after history).collections.rows.map LibraryItem.ofCollection ∧
      ((items.map Resource.id).Nodup ↔
        ∀ row ∈ (after history).loneShows, ∀ c ∈ (after history).collections.rows,
          row.id ≠ -c.id) ∧
      (∀ row ∈ (after history).loneShows,
        (LibraryItem.ofShow row).sourceId = row.id ↔ 0 ≤ row.id ∨ row.id = Int64.minValue) ∧
      ∀ c ∈ (after history).collections.rows,
        (LibraryItem.ofCollection c).sourceId = c.id ↔ 0 ≤ c.id ∨ c.id = Int64.minValue :=
  ⟨_, settings.library_rows _, rfl, nodup_libraryItems (after_ordered history),
    fun row _ => (LibraryItem.ofShow row).sourceId_eq_iff (Or.inl rfl),
    fun c _ => (LibraryItem.ofCollection c).sourceId_eq_iff (Or.inr rfl)⟩

def showBeforeCollection : List (Settings × Request) :=
  [ ({}, .shows (.write (.create { Show.bare "a" with id := -1 }))),
    ({}, .collections (.write (.create ⟨1, "b", "b", none⟩))) ]

example : (after showBeforeCollection).libraryItems.map LibraryItem.id = [-1, -1] := by
  decide +kernel

/-- Where no show has a negative id and every collection a positive one, the kind and the source id
of an item lead back to its row. -/
theorem library_of_positive (history : List (Settings × Request))
    (hshows : ∀ row ∈ (after history).loneShows, 0 ≤ row.id)
    (hcollections : ∀ c ∈ (after history).collections.rows, 0 < c.id) :
    ((after history).libraryItems.map LibraryItem.id).Nodup ∧
      ∀ item ∈ (after history).libraryItems,
        (item.kind = .ofShow ∧ ∃ row ∈ (after history).shows.rows,
          row.id = item.sourceId ∧ LibraryItem.ofShow row = item) ∨
        (item.kind = .ofCollection ∧ ∃ c ∈ (after history).collections.rows,
          c.id = item.sourceId ∧ LibraryItem.ofCollection c = item) := by
  have hzero : (0 : Int64).toInt = 0 := rfl
  refine ⟨(nodup_libraryItems (after_ordered history)).mpr fun row hrow c hc heq => ?_,
    fun item hitem => ?_⟩
  · have hmin : c.id ≠ Int64.minValue := fun hmin =>
      absurd (hmin ▸ hcollections c hc) (by decide)
    have hpositive := Int64.lt_iff_toInt_lt.mp (hcollections c hc)
    have hnonneg := Int64.le_iff_toInt_le.mp (hshows row hrow)
    rw [heq, toInt_neg_of_ne_min hmin] at hnonneg
    omega
  · rcases List.mem_append.mp hitem with hitem | hitem
    · obtain ⟨row, hrow, rfl⟩ := List.mem_map.mp hitem
      have hsource := (LibraryItem.sourceId_eq_iff (.ofShow row) (Or.inl rfl)).mpr
        (Or.inl (hshows row hrow))
      exact Or.inl ⟨rfl, row, (List.mem_filter.mp hrow).1, hsource.symm, rfl⟩
    · obtain ⟨c, hc, rfl⟩ := List.mem_map.mp hitem
      have hsource := (LibraryItem.sourceId_eq_iff (.ofCollection c) (Or.inr rfl)).mpr
        (Or.inl (Int64.le_of_lt (hcollections c hc)))
      exact Or.inr ⟨rfl, c, hc, hsource.symm, rfl⟩

end Catalog
end Repertory
