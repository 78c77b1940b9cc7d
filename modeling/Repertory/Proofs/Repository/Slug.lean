import Repertory.Proofs.Store.Ids
import Repertory.Repository.Slug

/-!
# Admissible slugs

The rules for slugs leave those that lead back to a row: such a text is not taken for a missing
slug, for the word that picks a row at random, or for an id.
-/

namespace Repertory

structure AdmissibleSlug (ι : Type) [Identity ι] (slug : String) : Prop where
  not_blank : Text.isBlankText slug = false
  not_random : slug ≠ randomSlug
  not_id : Identity.read (ι := ι) slug = none

theorem AdmissibleSlug.ne_empty {ι : Type} [Identity ι] {slug : String}
    (h : AdmissibleSlug ι slug) : slug ≠ "" := by
  rintro rfl
  exact absurd h.not_blank (by decide)

theorem validateSlug_ok_iff {α ι : Type} [Identity ι] [Resource α ι] {item : α} :
    validateSlug item = .ok () ↔ AdmissibleSlug ι (Resource.slug item) := by
  rw [validateSlug]
  dsimp only
  constructor
  · intro h
    split at h
    · cases h
    · split at h
      · cases h
      · split at h
        · cases h
        · exact ⟨Bool.eq_false_iff.mpr ‹_›, ‹_›, Option.not_isSome_iff_eq_none.mp ‹_›⟩
  · intro h
    rw [if_neg (Bool.eq_false_iff.mp h.not_blank), if_neg h.not_random,
      if_neg (Option.not_isSome_iff_eq_none.mpr h.not_id)]

/-! ## Slugs of a table -/

def AdmissibleSlugs {α : Type} [Resource α Int64] (rows : List α) : Prop :=
  ∀ row ∈ rows, AdmissibleSlug Int64 (Resource.slug row)

namespace AdmissibleSlugs

variable {α : Type} [Resource α Int64] {table changed : Table α Int64} {item row : α}

theorem place {rows : List α} (h : AdmissibleSlugs rows)
    (hrow : AdmissibleSlug Int64 (Resource.slug row)) :
    AdmissibleSlugs (Table.place row rows) := by
  intro other hother
  rcases Table.mem_or_mem_of_place hother with rfl | hother
  · exact hrow
  · exact h other hother

theorem insert (h : AdmissibleSlugs table.rows) (hitem : AdmissibleSlug Int64 (Resource.slug item))
    (hinsert : table.insert item = .ok (row, changed)) : AdmissibleSlugs changed.rows := by
  obtain ⟨hassign, -, rfl⟩ := Table.insert_ok hinsert
  exact h.place (Table.slug_of_assign hassign ▸ hitem)

theorem update (h : AdmissibleSlugs table.rows) (hitem : AdmissibleSlug Int64 (Resource.slug item))
    (hupdate : table.update item = .ok (row, changed)) : AdmissibleSlugs changed.rows := by
  obtain ⟨-, -, -, rfl⟩ := Table.update_ok hupdate
  exact h.place hitem

theorem without (h : AdmissibleSlugs table.rows) (ids : List Int64) :
    AdmissibleSlugs (table.without ids).rows := fun row hrow => h row (Table.mem_without.mp hrow).1

theorem touch (h : AdmissibleSlugs table.rows) {f : α → α}
    (hf : ∀ row, AdmissibleSlug Int64 (Resource.slug row) →
      AdmissibleSlug Int64 (Resource.slug (f row))) (ids : List Int64) :
    AdmissibleSlugs (table.touch f ids).rows := by
  intro row hrow
  obtain ⟨old, hold, rfl⟩ := List.mem_map.mp hrow
  split
  · exact hf old (h old hold)
  · exact h old hold

theorem find?_empty {rows : List α} (h : AdmissibleSlugs rows) :
    rows.find? (fun row => decide (Resource.slug row = "")) = none :=
  List.find?_eq_none.mpr fun row hrow hempty => (h row hrow).ne_empty (of_decide_eq_true hempty)

end AdmissibleSlugs

/-! ## Continued slugs -/

namespace Number

theorem readDigits_eq_none {c : Char} {s : List Char} (hmem : c ∈ s) (hc : c.isDigit = false) :
    readDigits s = none := by
  have hall : s.all Char.isDigit = false :=
    List.all_eq_false.mpr ⟨c, hmem, Bool.eq_false_iff.mp hc⟩
  rw [readDigits, hall]
  simp

/-- Behind its first character a number has no hyphen. -/
theorem readInt_hyphen {first : Char} {front : List Char} (rest : List Char) :
    readInt (first :: front ++ '-' :: rest) = none := by
  have hdigits : ∀ s, '-' ∈ s → readDigits s = none := fun s hmem =>
    readDigits_eq_none hmem (by decide)
  have hnat : readNat (first :: front ++ '-' :: rest) = none := by
    rw [readNat.eq_def]
    split
    · rename_i heq
      cases heq
      exact hdigits _ (by simp)
    · exact hdigits _ (by simp)
  rw [readInt.eq_def]
  split
  · rename_i heq
    cases heq
    rw [hdigits _ (by simp)]
    rfl
  · rw [hnat]
    rfl

end Number

/-- An admissible slug that is continued with a hyphen is admissible. -/
theorem AdmissibleSlug.continued {slug : String} (h : AdmissibleSlug Int64 slug)
    (rest : List Char) : AdmissibleSlug Int64 (String.ofList (slug.toList ++ '-' :: rest)) where
  not_blank := by
    rw [Text.isBlankText, String.toList_ofList]
    exact List.all_eq_false.mpr ⟨'-', by simp, by decide⟩
  not_random := by
    intro heq
    have hmem : '-' ∈ randomSlug.toList := by
      rw [← heq, String.toList_ofList]
      simp
    exact absurd hmem (by decide)
  not_id := by
    obtain ⟨first, front, hslug⟩ : ∃ first front, slug.toList = first :: front := by
      cases hslug : slug.toList with
      | nil =>
        have hblank := h.not_blank
        rw [Text.isBlankText, hslug] at hblank
        cases hblank
      | cons first front => exact ⟨first, front, rfl⟩
    show Number.readSigned _ = none
    rw [Number.readSigned, String.toList_ofList, hslug, Number.readInt_hyphen]
    rfl

end Repertory
