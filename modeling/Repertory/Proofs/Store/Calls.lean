import Mathlib.Data.List.Induction
import Mathlib.Data.List.Nodup
import Repertory.Proofs.Store.Ids

/-!
# What calls do to a table

A call that succeeds changes one row and leaves the others where they stand (`Call.Changes`); a call
that fails has one of a few reasons (`Call.Refused`) and leaves the table as it was. So the rows of
a table keep different ids and different slugs, and no id passes the mark above which new ids are
given out (`Sound`), however many calls there are.
-/

namespace Repertory
namespace Table

variable {α ι : Type} [Identity ι] [Resource α ι]

/-! ## Where a row is placed -/

/-- A row is placed between other rows, or in the place of one that has its id. -/
theorem place_cases (item : α) (rows : List α) :
    (∃ before behind, rows = before ++ behind ∧ place item rows = before ++ item :: behind) ∨
      ∃ before old behind, Resource.id old = Resource.id item ∧
        rows = before ++ old :: behind ∧ place item rows = before ++ item :: behind := by
  induction rows with
  | nil => exact Or.inl ⟨[], [], rfl, rfl⟩
  | cons first rest ih =>
    rw [place]
    cases hcompare : compare (Resource.id item) (Resource.id first) with
    | lt => exact Or.inl ⟨[], first :: rest, rfl, rfl⟩
    | eq =>
      have hid := (Std.LawfulEqOrd.eq_of_compare hcompare).symm
      exact Or.inr ⟨[], first, rest, hid, rfl, rfl⟩
    | gt =>
      rcases ih with ⟨before, behind, hrest, hplace⟩ | ⟨before, old, behind, hid, hrest, hplace⟩
      · refine Or.inl ⟨first :: before, behind, ?_, ?_⟩
        · rw [hrest, List.cons_append]
        · dsimp only
          rw [hplace, List.cons_append]
      · refine Or.inr ⟨first :: before, old, behind, hid, ?_, ?_⟩
        · rw [hrest, List.cons_append]
        · dsimp only
          rw [hplace, List.cons_append]

theorem id_ne_of_ascending {before behind : List α} {row other : α}
    (h : Ascending (before ++ row :: behind)) (hother : other ∈ before ++ behind) :
    Resource.id other ≠ Resource.id row := by
  obtain ⟨-, hbehind, hbefore⟩ := List.pairwise_append.mp h
  rcases List.mem_append.mp hother with hother | hother
  · exact ne_of_compare_lt (hbefore other hother row List.mem_cons_self)
  · exact (ne_of_compare_lt ((List.pairwise_cons.mp hbehind).1 other hother)).symm

theorem find?_eq_some_iff {table : Table α ι} (h : Ascending table.rows) {id : ι} {row : α} :
    table.find? id = some row ↔ row ∈ table.rows ∧ Resource.id row = id := by
  constructor
  · intro hfind
    have hid := List.find?_some hfind
    exact ⟨List.mem_of_find?_eq_some hfind, of_decide_eq_true hid⟩
  · rintro ⟨hrow, rfl⟩
    rw [find?, ← List.head?_filter, filter_id h.nodup hrow]
    rfl

theorem slug_ne_of_slugTaken {table : Table α ι} {item other : α}
    (h : table.slugTaken item = false) (hother : other ∈ table.rows)
    (hid : Resource.id other ≠ Resource.id item) : Resource.slug other ≠ Resource.slug item := by
  intro hslug
  rw [slugTaken_of_mem hother hslug hid] at h
  cases h

theorem exists_of_slugTaken {table : Table α ι} {item : α} (h : table.slugTaken item = true) :
    ∃ other ∈ table.rows, Resource.slug other = Resource.slug item ∧
      Resource.id other ≠ Resource.id item := by
  obtain ⟨other, hother, htaken⟩ := List.any_eq_true.mp h
  refine ⟨other, hother, ?_⟩
  simpa using htaken

/-! ## The two ends of a call -/

/-- A row is taken in as it comes if it has an id, and else under the next one. -/
inductive TakenAs (high : Option ι) (item : α) : α → Prop where
  | own (h : Resource.id item ≠ Identity.unassigned) : TakenAs high item item
  | next {id : ι} (h : Resource.id item = Identity.unassigned)
      (hid : Identity.allocate high = some id) : TakenAs high item (Resource.setId id item)

/-- What a call that succeeds makes of a table. One row comes in, takes the place of the row with
its id, or goes; the rows before and behind it stay. -/
inductive Call.Changes : Call α ι → Table α ι → Table α ι → Prop where
  | insert {item row : α} {before behind : List α} {high : Option ι}
      (hrow : TakenAs high item row) (hids : Ascending (before ++ row :: behind))
      (hslug : ∀ other ∈ before ++ behind, Resource.slug other ≠ Resource.slug row) :
      Changes (.insert item) ⟨before ++ behind, high⟩
        ⟨before ++ row :: behind, some (raise (Resource.id row) high)⟩
  | update {item old : α} {before behind : List α} {high : Option ι}
      (hid : Resource.id old = Resource.id item)
      (hslug : ∀ other ∈ before ++ behind, Resource.slug other ≠ Resource.slug item) :
      Changes (.update item) ⟨before ++ old :: behind, high⟩ ⟨before ++ item :: behind, high⟩
  | delete {id : ι} {old : α} {before behind : List α} {high : Option ι}
      (hid : Resource.id old = id) :
      Changes (.delete id) ⟨before ++ old :: behind, high⟩ ⟨before ++ behind, high⟩

/-- Why a call fails. -/
inductive Call.Refused (table : Table α ι) : Call α ι → StoreError → Prop where
  | idTaken {item other : α} (hitem : Resource.id item ≠ Identity.unassigned)
      (hother : other ∈ table.rows) (hid : Resource.id other = Resource.id item) :
      Refused table (.insert item) (.conflict "id" (Identity.text (Resource.id item)))
  | exhausted {item : α} (hitem : Resource.id item = Identity.unassigned)
      (hnone : Identity.allocate table.highWater = none) :
      Refused table (.insert item) (.backend (Resource.kind α ++ " id space exhausted"))
  | slugTaken {item other : α} (hother : other ∈ table.rows)
      (hslug : Resource.slug other = Resource.slug item) :
      Refused table (.insert item) (.conflict "slug" (Resource.slug item))
  | slugOfOther {item other : α} (hother : other ∈ table.rows)
      (hslug : Resource.slug other = Resource.slug item)
      (hid : Resource.id other ≠ Resource.id item) :
      Refused table (.update item) (.conflict "slug" (Resource.slug item))
  | updateMissing {item : α} (hmissing : ∀ row ∈ table.rows, Resource.id row ≠ Resource.id item) :
      Refused table (.update item) (.notFound (Identity.text (Resource.id item)))
  | deleteMissing {id : ι} (hmissing : ∀ row ∈ table.rows, Resource.id row ≠ id) :
      Refused table (.delete id) (.notFound (Identity.text id))

variable {table changed : Table α ι} {item row : α} {id : ι}

theorem missing_of_find? (h : table.find? id = none) :
    ∀ row ∈ table.rows, Resource.id row ≠ id := fun row hrow hid =>
  List.find?_eq_none.mp h row hrow (decide_eq_true hid)

theorem takenAs_of_assign (h : table.assign item = .ok row) :
    TakenAs table.highWater item row := by
  rw [assign] at h
  split at h
  · rename_i hitem
    split at h
    · rename_i id hallocate
      cases h
      exact .next (of_decide_eq_true hitem) hallocate
    · cases h
  · rename_i hitem
    split at h
    · cases h
    · cases h
      exact .own fun hid => hitem (decide_eq_true hid)

theorem insert_refused {e : StoreError} (h : table.insert item = .error e) :
    (Call.insert item).Refused table e := by
  rw [insert] at h
  cases hassign : table.assign item with
  | error e' =>
    rw [hassign] at h
    cases h
    rw [assign] at hassign
    split at hassign
    · rename_i hitem
      split at hassign
      · cases hassign
      · cases hassign
        exact .exhausted (of_decide_eq_true hitem) ‹_›
    · rename_i hitem
      split at hassign
      · rename_i hfound
        cases hassign
        obtain ⟨other, hfind⟩ := Option.isSome_iff_exists.mp hfound
        have hid := List.find?_some hfind
        exact .idTaken (fun hid => hitem (decide_eq_true hid)) (List.mem_of_find?_eq_some hfind)
          (of_decide_eq_true hid)
      · cases hassign
  | ok row =>
    rw [hassign] at h
    dsimp only [bind, Except.bind, checkSlug] at h
    split at h
    · rename_i e' hcheck
      cases h
      split at hcheck
      · rename_i htaken
        cases hcheck
        obtain ⟨other, hother, hslug, -⟩ := exists_of_slugTaken htaken
        rw [slug_of_assign hassign] at hslug ⊢
        exact .slugTaken hother hslug
      · cases hcheck
    · cases h

theorem update_refused {e : StoreError} (h : table.update item = .error e) :
    (Call.update item).Refused table e := by
  rw [update] at h
  cases hfind : table.find? (Resource.id item) with
  | none =>
    rw [hfind] at h
    cases h
    exact .updateMissing (missing_of_find? hfind)
  | some old =>
    rw [hfind] at h
    dsimp only [bind, Except.bind, checkSlug] at h
    split at h
    · rename_i e' hcheck
      cases h
      split at hcheck
      · rename_i htaken
        cases hcheck
        obtain ⟨other, hother, hslug, hid⟩ := exists_of_slugTaken htaken
        exact .slugOfOther hother hslug hid
      · cases hcheck
    · cases h

theorem delete_refused {e : StoreError} (h : table.delete id = .error e) :
    (Call.delete id).Refused table e := by
  rw [delete] at h
  cases hfind : table.find? id with
  | none =>
    rw [hfind] at h
    cases h
    exact .deleteMissing (missing_of_find? hfind)
  | some old =>
    rw [hfind] at h
    cases h

theorem update_changes (hids : Ascending table.rows) (h : table.update item = .ok (row, changed)) :
    (Call.update item).Changes table changed := by
  obtain ⟨rfl, ⟨old, hfind⟩, hfree, rfl⟩ := update_ok h
  obtain ⟨hold, hid⟩ := (find?_eq_some_iff hids).mp hfind
  have hplaced := place_ascending row hids
  obtain ⟨rows, high⟩ := table
  dsimp only at hids hold hplaced ⊢
  rcases place_cases row rows with
    ⟨before, behind, rfl, hplace⟩ | ⟨before, other, behind, hother, rfl, hplace⟩
  · rw [hplace] at hplaced
    exact absurd hid (id_ne_of_ascending hplaced hold)
  · rw [hplace] at hplaced ⊢
    refine .update hother fun other' hother' => ?_
    refine slug_ne_of_slugTaken hfree ?_ (id_ne_of_ascending hplaced hother')
    exact (List.sublist_cons_self other behind).append_left before |>.subset hother'

theorem delete_changes {done : Unit} (hids : Ascending table.rows)
    (h : table.delete id = .ok (done, changed)) : (Call.delete id).Changes table changed := by
  obtain rfl := delete_ok h
  have hfound : ∃ old, table.find? id = some old := by
    rw [delete] at h
    split at h
    · cases h
    · exact ⟨_, ‹_›⟩
  obtain ⟨old, hfind⟩ := hfound
  obtain ⟨hold, rfl⟩ := (find?_eq_some_iff hids).mp hfind
  obtain ⟨rows, high⟩ := table
  obtain ⟨before, behind, rfl⟩ := List.append_of_mem hold
  have hothers : (before ++ behind).filter (fun row => Resource.id row ≠ Resource.id old) =
      before ++ behind := by
    refine List.filter_eq_self.mpr fun other hother => ?_
    exact decide_eq_true (id_ne_of_ascending hids hother)
  have hrows : (before ++ old :: behind).filter (fun row => Resource.id row ≠ Resource.id old) =
      before ++ behind := by
    rw [List.filter_append, List.filter_cons_of_neg (by simp), ← List.filter_append, hothers]
  dsimp only
  rw [hrows]
  exact .delete rfl

/-! ## Sound tables -/

section

variable {α : Type} [Resource α Int64] {t u : Table α Int64} {item row : α}

/-- The rows of a table stand in the order of their ids, each under an id and a slug of its own, and
no id passes the greatest one that the table remembers. -/
structure Sound (t : Table α Int64) : Prop where
  ascending : Ascending t.rows
  slugs_nodup : (t.rows.map Resource.slug).Nodup
  assigned : ∀ row ∈ t.rows, Resource.id row ≠ 0
  le_highWater : ∀ row ∈ t.rows, ∃ high, t.highWater = some high ∧ Resource.id row ≤ high

namespace Sound

theorem empty : Sound (Table.empty : Table α Int64) where
  ascending := List.Pairwise.nil
  slugs_nodup := List.nodup_nil
  assigned := List.forall_mem_nil _
  le_highWater := List.forall_mem_nil _

theorem eq_of_slug_eq (h : Sound t) {a b : α} (ha : a ∈ t.rows) (hb : b ∈ t.rows)
    (hslug : Resource.slug a = Resource.slug b) : a = b :=
  List.inj_on_of_nodup_map h.slugs_nodup ha hb hslug

/-- The id under which a row is taken in is free, whether it is new or the row's own. -/
theorem id_free (h : Sound t) (hassign : t.assign item = .ok row) :
    ∀ other ∈ t.rows, Resource.id other ≠ Resource.id row := by
  intro other hother
  cases takenAs_of_assign hassign with
  | own hitem =>
    have hnew : ¬ Identity.isUnassigned (Resource.id item) = true := fun hid =>
      hitem (of_decide_eq_true hid)
    rw [assign, if_neg hnew] at hassign
    split at hassign
    · cases hassign
    · rename_i hfree
      have hnone := Option.not_isSome_iff_eq_none.mp hfree
      exact missing_of_find? hnone other hother
  | next hitem hallocate =>
    obtain ⟨high, hhigh, hle⟩ := h.le_highWater other hother
    rw [hhigh] at hallocate
    have hgt := (Identity.allocate_gt hallocate).1
    have hle := Int64.le_iff_toInt_le.mp hle
    rw [Resource.id_setId]
    rintro rfl
    omega

theorem insert_changes (h : Sound t) (hinsert : t.insert item = .ok (row, u)) :
    (Call.insert item).Changes t u := by
  obtain ⟨hassign, hslug, rfl⟩ := insert_ok hinsert
  have hrow := takenAs_of_assign hassign
  have hfree := h.id_free hassign
  have hplaced := place_ascending row h.ascending
  obtain ⟨rows, high⟩ := t
  dsimp only at hfree hplaced hrow ⊢
  rcases place_cases row rows with
    ⟨before, behind, rfl, hplace⟩ | ⟨before, other, behind, hother, rfl, -⟩
  · rw [hplace] at hplaced ⊢
    refine .insert hrow hplaced fun other hother => ?_
    exact slug_ne_of_slugTaken hslug hother (hfree other hother)
  · exact absurd hother (hfree other (by simp))

/-- A row can be updated as long as it keeps its slug. -/
theorem update_of_slug_eq (h : Sound t) (hrow : row ∈ t.rows)
    (hid : Resource.id item = Resource.id row) (hslug : Resource.slug item = Resource.slug row) :
    t.update item = .ok (item, { t with rows := place item t.rows }) := by
  cases hupdate : t.update item with
  | error e =>
    cases update_refused hupdate with
    | slugOfOther hother hslug' hid' =>
      obtain rfl := h.eq_of_slug_eq hother hrow (hslug'.trans hslug)
      exact absurd hid.symm hid'
    | updateMissing hmissing => exact absurd hid.symm (hmissing row hrow)
  | ok result =>
    obtain ⟨updated, u⟩ := result
    obtain ⟨rfl, -, -, rfl⟩ := update_ok hupdate
    rfl

end Sound

theorem high_le_raise (id high : Int64) : high ≤ raise id (some high) := by
  rw [raise]
  split
  · rename_i hgt
    have hlt := Std.OrientedCmp.gt_iff_lt.mp hgt
    exact Std.isLE_compare.mp (by rw [hlt]; rfl)
  · exact Int64.le_refl high

theorem TakenAs.assigned {high : Option Int64} (h : TakenAs high item row) :
    Resource.id row ≠ 0 := by
  cases h with
  | own hitem => exact hitem
  | next hitem hallocate =>
    have hpos := Identity.allocate_pos hallocate
    rw [Resource.id_setId]
    rintro rfl
    exact absurd hpos (by decide)

omit [Resource α Int64] in
theorem mem_middle {before behind : List α} {other : α} :
    other ∈ before ++ row :: behind ↔ other = row ∨ other ∈ before ++ behind :=
  List.perm_middle.mem_iff.trans List.mem_cons

theorem nodup_slugs_middle {before behind : List α}
    (h : ((before ++ behind).map Resource.slug).Nodup)
    (hrow : ∀ other ∈ before ++ behind, Resource.slug other ≠ Resource.slug row) :
    ((before ++ row :: behind).map Resource.slug).Nodup := by
  have hperm : ((before ++ row :: behind).map Resource.slug).Perm
      (Resource.slug row :: (before ++ behind).map Resource.slug) :=
    List.perm_middle.map Resource.slug
  rw [hperm.nodup_iff, List.nodup_cons]
  refine ⟨fun hmem => ?_, h⟩
  obtain ⟨other, hother, hslug⟩ := List.mem_map.mp hmem
  exact hrow other hother hslug

theorem Ascending.of_ids {rows others : List α} (h : Ascending rows)
    (hids : others.map Resource.id = rows.map Resource.id) : Ascending others := by
  have hrows : (rows.map Resource.id).Pairwise fun i j => compare i j = .lt :=
    List.pairwise_map.mpr h
  rw [← hids] at hrows
  exact List.pairwise_map.mp hrows

/-- A call that succeeds leaves a sound table sound. -/
theorem Call.Changes.sound {call : Call α Int64} (h : call.Changes t u) (ht : Sound t) :
    Sound u := by
  cases h with
  | @insert item row before behind high hrow hids hslug =>
    refine ⟨hids, nodup_slugs_middle ht.slugs_nodup hslug, fun other hother => ?_,
      fun other hother => ⟨_, rfl, ?_⟩⟩
    · rcases mem_middle.mp hother with rfl | hold
      · exact hrow.assigned
      · exact ht.assigned other hold
    · rcases mem_middle.mp hother with rfl | hold
      · exact Int64.le_iff_toInt_le.mpr (le_raise (Resource.id other) high)
      · obtain ⟨old, hhigh, hle⟩ := ht.le_highWater other hold
        obtain rfl : high = some old := hhigh
        exact Int64.le_trans hle (high_le_raise (Resource.id row) old)
  | @update item old before behind high hid hslug =>
    have hsub : (before ++ behind).Sublist (before ++ old :: behind) :=
      (List.sublist_cons_self old behind).append_left before
    have hold : old ∈ before ++ old :: behind := mem_middle.mpr (Or.inl rfl)
    refine ⟨ht.ascending.of_ids ?_, nodup_slugs_middle ?_ hslug, fun other hother => ?_,
      fun other hother => ?_⟩
    · simp only [List.map_append, List.map_cons, hid]
    · exact (hsub.map Resource.slug).nodup ht.slugs_nodup
    · rcases mem_middle.mp hother with rfl | hother
      · exact hid ▸ ht.assigned old hold
      · exact ht.assigned other (hsub.subset hother)
    · rcases mem_middle.mp hother with rfl | hother
      · exact hid ▸ ht.le_highWater old hold
      · exact ht.le_highWater other (hsub.subset hother)
  | @delete id old before behind high hid =>
    have hsub : (before ++ behind).Sublist (before ++ old :: behind) :=
      (List.sublist_cons_self old behind).append_left before
    exact {
      ascending := ht.ascending.sublist hsub
      slugs_nodup := (hsub.map Resource.slug).nodup ht.slugs_nodup
      assigned := fun row hrow => ht.assigned row (hsub.subset hrow)
      le_highWater := fun row hrow => ht.le_highWater row (hsub.subset hrow) }

/-! ## Runs of calls -/

/-- A call to a sound table changes one row, or it is refused for a reason and changes nothing. -/
theorem Call.perform_cases (call : Call α Int64) (h : Sound t) :
    (∃ u, (call.perform (store Lens.whole)).exec t = (.ok (), u) ∧ call.Changes t u) ∨
      ∃ e, (call.perform (store Lens.whole)).exec t = (.error e, t) ∧ call.Refused t e := by
  cases call with
  | insert item =>
    cases hinsert : t.insert item with
    | ok result =>
      refine Or.inl ⟨result.2, ?_, h.insert_changes hinsert⟩
      simp [perform, Lens.whole, hinsert, Except.map]
    | error e =>
      refine Or.inr ⟨e, ?_, insert_refused hinsert⟩
      simp [perform, Lens.whole, hinsert, Except.map]
  | update item =>
    cases hupdate : t.update item with
    | ok result =>
      refine Or.inl ⟨result.2, ?_, update_changes h.ascending hupdate⟩
      simp [perform, Lens.whole, hupdate, Except.map]
    | error e =>
      refine Or.inr ⟨e, ?_, update_refused hupdate⟩
      simp [perform, Lens.whole, hupdate, Except.map]
  | delete id =>
    cases hdelete : t.delete id with
    | ok result =>
      refine Or.inl ⟨result.2, ?_, delete_changes h.ascending hdelete⟩
      simp [perform, Lens.whole, hdelete]
    | error e =>
      refine Or.inr ⟨e, ?_, delete_refused hdelete⟩
      simp [perform, Lens.whole, hdelete]

theorem after_append (calls : List (Call α Int64)) (call : Call α Int64) :
    after (calls ++ [call]) = ((call.perform (store Lens.whole)).exec (after calls)).2 := by
  rw [after, List.foldl_append]
  rfl

theorem after_sound (calls : List (Call α Int64)) : Sound (after calls) := by
  induction calls using List.reverseRecOn with
  | nil => exact Sound.empty
  | append_singleton calls call ih =>
    rw [after_append]
    rcases call.perform_cases ih with ⟨u, hexec, hchanges⟩ | ⟨e, hexec, -⟩
    · rw [hexec]
      exact hchanges.sound ih
    · rw [hexec]
      exact ih

/-- After any calls to an empty table, a row is found under its own id and no other, the ids and the
slugs of rows differ, no id is zero, and the table remembers an id that none passes. A further call
adds, replaces or removes the one row that it is about, or is refused and changes nothing. -/
theorem calls_change_one_row (calls : List (Call α Int64)) (call : Call α Int64) :
    let t := after calls
    (∀ id row, t.find? id = some row ↔ row ∈ t.rows ∧ Resource.id row = id) ∧
      (t.rows.map Resource.id).Nodup ∧ (t.rows.map Resource.slug).Nodup ∧
      (∀ row ∈ t.rows, Resource.id row ≠ 0) ∧
      (∀ row ∈ t.rows, ∃ high, t.highWater = some high ∧ Resource.id row ≤ high) ∧
      ((∃ u, (call.perform (store Lens.whole)).exec t = (.ok (), u) ∧ call.Changes t u) ∨
        ∃ e, (call.perform (store Lens.whole)).exec t = (.error e, t) ∧ call.Refused t e) := by
  intro t
  have h : Sound t := after_sound calls
  exact ⟨fun _ _ => find?_eq_some_iff h.ascending, h.ascending.nodup, h.slugs_nodup, h.assigned,
    h.le_highWater, call.perform_cases h⟩

end

end Table
end Repertory
