import Repertory.Catalog.Collection
import Repertory.Proofs.Store.Calls

/-!
# Ids are given out once

A table remembers the greatest id that it ever kept, and nothing less: the mark was the id of a row
at some time (`held_of_highWater`), and no row was ever above it (`le_highWater_of_held`). So a new
id is greater than the ids of all rows there have been, gone or not, and there is none left only
once the greatest of all ids was taken.
-/

namespace Repertory

theorem Number.signed?_eq_none_iff {n : Int} (h : 0 ≤ n) :
    signed? n = none ↔ Int64.maxValue.toInt < n := by
  have hmax : Int64.maxValue.toInt = 2 ^ 63 - 1 := rfl
  rw [signed?]
  split
  · rename_i hrange
    simp only [reduceCtorEq, false_iff]
    omega
  · rename_i hrange
    simp only [true_iff]
    omega

/-- The ids run out behind the greatest one. -/
theorem Identity.allocate_eq_none_iff {last : Option Int64} :
    Identity.allocate last = none ↔ last = some Int64.maxValue := by
  cases last with
  | none =>
    constructor
    · intro h
      cases h
    · intro h
      cases h
  | some high =>
    have hsigned : Identity.allocate (some high) = Number.signed? (max high.toInt 0 + 1) := rfl
    have hlt := Int64.toInt_lt high
    have hmax : Int64.maxValue.toInt = 2 ^ 63 - 1 := rfl
    rw [hsigned, Number.signed?_eq_none_iff (by omega), Option.some_inj, ← Int64.toInt_inj, hmax]
    omega

namespace Table

variable {α : Type} [Resource α Int64]

/-- Some row had the id when some of the calls were made. -/
def Held (calls : List (Call α Int64)) (id : Int64) : Prop :=
  ∃ earlier, earlier <+: calls ∧ ∃ row ∈ (after earlier).rows, Resource.id row = id

theorem held_append_iff {calls : List (Call α Int64)} {call : Call α Int64} {id : Int64} :
    Held (calls ++ [call]) id ↔
      Held calls id ∨ ∃ row ∈ (after (calls ++ [call])).rows, Resource.id row = id := by
  constructor
  · rintro ⟨earlier, hearlier, hrow⟩
    rcases List.prefix_concat_iff.mp hearlier with rfl | hearlier
    · exact Or.inr hrow
    · exact Or.inl ⟨earlier, hearlier, hrow⟩
  · rintro (⟨earlier, hearlier, hrow⟩ | hrow)
    · exact ⟨earlier, hearlier.trans (List.prefix_append calls [call]), hrow⟩
    · exact ⟨_, List.prefix_rfl, hrow⟩

/-! ## The mark -/

/-- A call leaves the mark, or raises it to the id of the row that came in. -/
theorem Call.Changes.highWater {call : Call α Int64} {t u : Table α Int64}
    (h : call.Changes t u) :
    u.highWater = t.highWater ∨
      ∃ row ∈ u.rows, u.highWater = some (raise (Resource.id row) t.highWater) := by
  cases h with
  | insert => exact Or.inr ⟨_, mem_middle.mpr (Or.inl rfl), rfl⟩
  | update => exact Or.inl rfl
  | delete => exact Or.inl rfl

theorem after_append_highWater (calls : List (Call α Int64)) (call : Call α Int64) :
    (after (calls ++ [call])).highWater = (after calls).highWater ∨
      ∃ row ∈ (after (calls ++ [call])).rows, (after (calls ++ [call])).highWater =
        some (raise (Resource.id row) (after calls).highWater) := by
  rw [after_append]
  rcases call.perform_cases (after_sound calls) with ⟨u, hexec, hchanges⟩ | ⟨e, hexec, -⟩
  · rw [hexec]
    exact hchanges.highWater
  · rw [hexec]
    exact Or.inl rfl

/-- The mark was the id of a row. -/
theorem held_of_highWater {calls : List (Call α Int64)} {high : Int64}
    (h : (after calls).highWater = some high) : Held calls high := by
  induction calls using List.reverseRecOn generalizing high with
  | nil => cases h
  | append_singleton calls call ih =>
    rw [held_append_iff]
    rcases after_append_highWater calls call with hsame | ⟨row, hrow, hraised⟩
    · exact Or.inl (ih (hsame ▸ h))
    · rw [hraised] at h
      cases hold : (after calls).highWater with
      | none =>
        rw [hold] at h
        exact Or.inr ⟨row, hrow, Option.some_inj.mp h⟩
      | some old =>
        rw [hold, raise, Option.some_inj] at h
        split at h
        · exact Or.inr ⟨row, hrow, h⟩
        · exact Or.inl (h ▸ ih hold)

/-- No row ever had an id above the mark. -/
theorem le_highWater_of_held {calls : List (Call α Int64)} {id : Int64} (h : Held calls id) :
    ∃ high, (after calls).highWater = some high ∧ id ≤ high := by
  induction calls using List.reverseRecOn with
  | nil =>
    obtain ⟨earlier, hearlier, row, hrow, rfl⟩ := h
    obtain rfl := List.prefix_nil.mp hearlier
    exact after_sound [] |>.le_highWater row hrow
  | append_singleton calls call ih =>
    rcases held_append_iff.mp h with hheld | ⟨row, hrow, rfl⟩
    · obtain ⟨old, hold, hle⟩ := ih hheld
      rcases after_append_highWater calls call with hsame | ⟨row, -, hraised⟩
      · exact ⟨old, hsame.trans hold, hle⟩
      · rw [hold] at hraised
        exact ⟨_, hraised, Int64.le_trans hle (high_le_raise (Resource.id row) old)⟩
    · exact (after_sound (calls ++ [call])).le_highWater row hrow

/-! ## New ids -/

section

variable {t : Table α Int64} {item : α}

theorem insert_exhausted (hitem : Resource.id item = 0)
    (hnone : Identity.allocate t.highWater = none) :
    t.insert item = .error (.backend (Resource.kind α ++ " id space exhausted")) := by
  have hunassigned : Identity.isUnassigned (Resource.id item) = true := decide_eq_true hitem
  rw [insert, assign, if_pos hunassigned, hnone]
  rfl

/-- What comes in without an id gets the next one. -/
theorem allocate_of_insert {row : α} {u : Table α Int64} (hitem : Resource.id item = 0)
    (h : t.insert item = .ok (row, u)) :
    Identity.allocate t.highWater = some (Resource.id row) := by
  cases takenAs_of_assign (insert_ok h).1 with
  | own hassigned => exact absurd hitem hassigned
  | next _ hallocate => rw [Resource.id_setId, hallocate]

end

theorem lt_of_held_of_insert {calls : List (Call α Int64)} {item row : α} {u : Table α Int64}
    {id : Int64} (hitem : Resource.id item = 0) (h : (after calls).insert item = .ok (row, u))
    (hheld : Held calls id) : id < Resource.id row := by
  obtain ⟨high, hhigh, hle⟩ := le_highWater_of_held hheld
  have hallocate := allocate_of_insert hitem h
  rw [hhigh] at hallocate
  have hlt := (Identity.allocate_gt hallocate).1
  have hle := Int64.le_iff_toInt_le.mp hle
  exact Int64.lt_iff_toInt_lt.mpr (by omega)

/-- There is no next id exactly if the greatest of all ids was taken. -/
theorem insert_exhausted_iff {calls : List (Call α Int64)} {item : α}
    (hitem : Resource.id item = 0) :
    (after calls).insert item = .error (.backend (Resource.kind α ++ " id space exhausted")) ↔
      Held calls Int64.maxValue := by
  constructor
  · intro h
    cases insert_refused h with
    | exhausted _ hnone => exact held_of_highWater (Identity.allocate_eq_none_iff.mp hnone)
  · intro hheld
    obtain ⟨high, hhigh, hle⟩ := le_highWater_of_held hheld
    obtain rfl : high = Int64.maxValue := Int64.le_antisymm (Int64.le_maxValue high) hle
    exact insert_exhausted hitem (Identity.allocate_eq_none_iff.mpr hhigh)

/-- A row that comes in without an id gets a positive one that is greater than the id of every row
that the table has ever kept. It is refused for want of ids exactly if some row has had the greatest
of all ids. -/
theorem insert_unassigned (calls : List (Call α Int64)) (item : α) (hitem : Resource.id item = 0) :
    (∀ row u, ((store Lens.whole).insert item).exec (after calls) = (.ok row, u) →
      0 < Resource.id row ∧ ∀ id, Held calls id → id < Resource.id row) ∧
    (((store Lens.whole).insert item).exec (after calls) =
        (.error (.backend (Resource.kind α ++ " id space exhausted")), after calls) ↔
      Held calls Int64.maxValue) := by
  have hexec : ((store Lens.whole).insert item).exec (after calls) =
      match (after calls).insert item with
      | .ok (row, u) => (.ok row, u)
      | .error e => (.error e, after calls) := by
    rw [store_insert, show Lens.whole.get (after calls) = after calls from rfl]
    rcases (after calls).insert item with e | ⟨row, u⟩ <;> rfl
  have hexhausted : (after calls).insert item =
      .error (.backend (Resource.kind α ++ " id space exhausted")) ↔ Held calls Int64.maxValue :=
    insert_exhausted_iff hitem
  rw [hexec]
  cases hinsert : (after calls).insert item with
  | ok result =>
    refine ⟨fun row u h => ?_, ?_⟩
    · cases h
      have hallocate := allocate_of_insert hitem hinsert
      exact ⟨Identity.allocate_pos hallocate, fun id => lt_of_held_of_insert hitem hinsert⟩
    · rw [← hexhausted, hinsert]
      constructor <;> intro h <;> cases h
  | error e =>
    refine ⟨fun row u h => ?_, ?_⟩
    · cases h
    · rw [← hexhausted, hinsert, Prod.mk.injEq, and_iff_left rfl]
      exact ⟨fun h => congrArg _ (Except.error.inj h), fun h => congrArg _ (Except.error.inj h)⟩

open Catalog in
/-- Behind a row with the id 10 that has gone, and one with a negative id, the next id is 11. -/
theorem insert_unassigned_collection :
    let calls : List (Call Collection Int64) :=
      [.insert ⟨10, "a", "A", none⟩, .delete 10, .insert ⟨-5, "b", "B", none⟩]
    let item : Collection := ⟨0, "c", "C", none⟩
    Resource.id item = 0 ∧
      ((store Lens.whole).insert item).exec (after calls) =
        (.ok ⟨11, "c", "C", none⟩, ⟨[⟨-5, "b", "B", none⟩, ⟨11, "c", "C", none⟩], some 11⟩) ∧
      0 < (11 : Int64) ∧ (∀ id, Held calls id → id < 11) ∧ ¬ Held calls Int64.maxValue := by
  intro calls item
  have hexec : ((store Lens.whole).insert item).exec (after calls) =
      (.ok ⟨11, "c", "C", none⟩, ⟨[⟨-5, "b", "B", none⟩, ⟨11, "c", "C", none⟩], some 11⟩) := rfl
  obtain ⟨hnew, hexhausted⟩ := insert_unassigned calls item rfl
  obtain ⟨hpos, hgreater⟩ := hnew _ _ hexec
  refine ⟨rfl, hexec, hpos, hgreater, fun hheld => ?_⟩
  have hfailed := hexhausted.mpr hheld
  rw [hexec] at hfailed
  cases hfailed

end Table
end Repertory
