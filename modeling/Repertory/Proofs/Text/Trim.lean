import Repertory.Text.Blank

/-!
# Trimmed text

A trimmed text is the part of a text between the blanks at its ends (`trimBlank_parts`), and it has
no blank at either end (`bare_trimBlank`). So a text is trimmed to a part of itself that has none,
whatever blanks stand around it (`trimBlank_append`).
-/

namespace Repertory
namespace Text

def Blank (s : List Char) : Prop := ∀ c ∈ s, isBlank c = true

/-- The text neither begins nor ends with a blank. -/
structure Bare (s : List Char) : Prop where
  first : ∀ c ∈ s.head?, isBlank c = false
  last : ∀ c ∈ s.getLast?, isBlank c = false

theorem Blank.reverse {s : List Char} (h : Blank s) : Blank s.reverse := fun c hc =>
  h c (List.mem_reverse.mp hc)

theorem not_mem_of_blank {s : List Char} {c : Char} (hc : isBlank c = false) (h : Blank s) :
    c ∉ s := by
  intro hmem
  rw [h c hmem] at hc
  cases hc

theorem blank_takeWhile (s : List Char) : Blank (s.takeWhile isBlank) :=
  List.all_eq_true.mp List.all_takeWhile

theorem head?_dropBlank (s : List Char) : ∀ c ∈ (dropBlank s).head?, isBlank c = false := by
  intro c hc
  have hnot := List.head?_dropWhile_not isBlank s
  rw [dropBlank, Option.mem_def] at hc
  simpa only [hc] using hnot

theorem dropBlank_of_head? {s : List Char} (h : ∀ c ∈ s.head?, isBlank c = false) :
    dropBlank s = s := by
  cases s with
  | nil => rfl
  | cons c s => exact List.dropWhile_cons_of_neg (Bool.eq_false_iff.mp (h c rfl))

theorem dropBlank_append {front : List Char} (h : Blank front) (s : List Char) :
    dropBlank (front ++ s) = dropBlank s :=
  List.dropWhile_append_of_pos h

theorem exists_dropBlank_eq (s : List Char) :
    ∃ rear, Blank rear ∧ dropBlank s = trimBlank s ++ rear := by
  refine ⟨((dropBlank s).reverse.takeWhile isBlank).reverse, (blank_takeWhile _).reverse, ?_⟩
  have hparts : (dropBlank s).reverse.takeWhile isBlank ++ dropBlank (dropBlank s).reverse =
      (dropBlank s).reverse := List.takeWhile_append_dropWhile
  rw [trimBlank, ← List.reverse_append, hparts, List.reverse_reverse]

/-- A trimmed text is what is left of a text without the blanks that stand around it. -/
theorem trimBlank_parts (s : List Char) :
    ∃ rear, Blank rear ∧ s = s.takeWhile isBlank ++ (trimBlank s ++ rear) := by
  obtain ⟨rear, hrear, hdrop⟩ := exists_dropBlank_eq s
  refine ⟨rear, hrear, ?_⟩
  rw [← hdrop]
  exact List.takeWhile_append_dropWhile.symm

theorem mem_of_mem_trimBlank {s : List Char} {c : Char} (h : c ∈ trimBlank s) : c ∈ s := by
  obtain ⟨rear, -, hs⟩ := trimBlank_parts s
  rw [hs]
  exact List.mem_append_right _ (List.mem_append_left rear h)

theorem trimBlank_of_length {s : List Char} (h : (trimBlank s).length = s.length) :
    trimBlank s = s := by
  obtain ⟨rear, -, hs⟩ := trimBlank_parts s
  have hinfix : trimBlank s <:+: s := ⟨s.takeWhile isBlank, rear, by rw [List.append_assoc, ← hs]⟩
  exact hinfix.eq_of_length h

theorem bare_trimBlank (s : List Char) : Bare (trimBlank s) where
  first c hc := by
    obtain ⟨rear, -, hdrop⟩ := exists_dropBlank_eq s
    refine head?_dropBlank s c ?_
    rw [hdrop, List.head?_append, Option.mem_def.mp hc]
    rfl
  last c hc := by
    rw [trimBlank, List.getLast?_reverse] at hc
    exact head?_dropBlank _ c hc

theorem trimBlank_append {s front rear : List Char} (h : Bare s) (hfront : Blank front)
    (hrear : Blank rear) : trimBlank (front ++ (s ++ rear)) = s := by
  rw [trimBlank, dropBlank_append hfront]
  cases s with
  | nil =>
    have hblank : dropBlank (rear ++ []) = dropBlank [] := dropBlank_append hrear []
    rw [List.append_nil] at hblank
    rw [List.nil_append, hblank]
    rfl
  | cons c s =>
    have hfirst : dropBlank (c :: s ++ rear) = c :: s ++ rear := dropBlank_of_head? h.first
    have hlast : dropBlank (c :: s).reverse = (c :: s).reverse := by
      refine dropBlank_of_head? fun d hd => h.last d ?_
      rwa [List.head?_reverse] at hd
    rw [hfirst, List.reverse_append, dropBlank_append hrear.reverse, hlast, List.reverse_reverse]

theorem trimBlank_of_bare {s : List Char} (h : Bare s) : trimBlank s = s := by
  have htrim := trimBlank_append h (nofun : Blank []) (nofun : Blank [])
  rwa [List.append_nil, List.nil_append] at htrim

theorem trimBlank_blank_append {front : List Char} (h : Blank front) (s : List Char) :
    trimBlank (front ++ s) = trimBlank s := by
  rw [trimBlank, dropBlank_append h, trimBlank]

theorem trimBlank_append_blank {rear : List Char} (h : Blank rear) (s : List Char) :
    trimBlank (s ++ rear) = trimBlank s := by
  obtain ⟨between, hbetween, hs⟩ := trimBlank_parts s
  have hwhole : s ++ rear = s.takeWhile isBlank ++ (trimBlank s ++ (between ++ rear)) := by
    rw [← List.append_assoc (trimBlank s), ← List.append_assoc, ← hs]
  rw [hwhole]
  exact trimBlank_append (bare_trimBlank s) (blank_takeWhile s)
    (List.forall_mem_append.mpr ⟨hbetween, h⟩)

theorem trimBlank_eq_nil_iff {s : List Char} : trimBlank s = [] ↔ Blank s := by
  constructor
  · intro h
    obtain ⟨rear, hrear, hs⟩ := trimBlank_parts s
    rw [h, List.nil_append] at hs
    rw [hs]
    exact List.forall_mem_append.mpr ⟨blank_takeWhile s, hrear⟩
  · intro h
    have htrim := trimBlank_append (s := []) ⟨nofun, nofun⟩ h (nofun : Blank [])
    rwa [List.append_nil, List.append_nil] at htrim

theorem trim_of_bare {s : String} (h : Bare s.toList) : trim s = s := by
  rw [trim, trimBlank_of_bare h, String.ofList_toList]

theorem isEmpty_trim (s : String) : (trim s).isEmpty = isBlankText s := by
  rw [Bool.eq_iff_iff, String.isEmpty_iff, trim, ← String.toList_eq_nil_iff, String.toList_ofList,
    trimBlank_eq_nil_iff, isBlankText, List.all_eq_true]
  exact Iff.rfl

end Text
end Repertory
