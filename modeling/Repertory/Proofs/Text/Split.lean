import Mathlib.Data.List.TakeWhile
import Repertory.Proofs.Text.Trim
import Repertory.Text.Split

/-!
# Lists in text

A text is split at a character into the parts that it was joined from (`splitAt_intercalate`). The
items of a list are the parts without the blanks around them, so it makes no difference whether the
whole list was trimmed before (`listParts_trim`).
-/

namespace Repertory
namespace Text

variable {c : Char} {s front rear : List Char}

theorem splitAt_eq_splitOn (c : Char) (s : List Char) : splitAt c s = s.splitOn c := by
  induction s with
  | nil => rfl
  | cons d s ih =>
    rw [splitAt, ih, List.splitOn_cons_eq_if_modifyHead]
    by_cases hd : d = c
    · simp only [hd, if_true, beq_self_eq_true]
    · simp only [hd, if_false, beq_iff_eq]
      cases hparts : s.splitOn c with
      | nil => exact absurd hparts (List.splitOn_ne_nil c s)
      | cons part parts => rfl

theorem splitAt_ne_nil (c : Char) (s : List Char) : splitAt c s ≠ [] := by
  rw [splitAt_eq_splitOn]
  exact List.splitOn_ne_nil c s

theorem splitAt_of_not_mem (h : c ∉ s) : splitAt c s = [s] := by
  rw [splitAt_eq_splitOn]
  exact List.splitOn_eq_singleton h

theorem splitAt_intercalate {parts : List (List Char)} (h : ∀ part ∈ parts, c ∉ part)
    (hne : parts ≠ []) : splitAt c ([c].intercalate parts) = parts := by
  rw [splitAt_eq_splitOn]
  exact List.splitOn_intercalate c h hne

theorem splitAt_cons_self (c : Char) (s : List Char) : splitAt c (c :: s) = [] :: splitAt c s :=
  if_pos rfl

theorem splitAt_cons_of_ne {d : Char} (h : d ≠ c) (s : List Char) :
    ∃ part parts, splitAt c s = part :: parts ∧ splitAt c (d :: s) = (d :: part) :: parts := by
  obtain ⟨part, parts, hparts⟩ := List.exists_cons_of_ne_nil (splitAt_ne_nil c s)
  refine ⟨part, parts, hparts, ?_⟩
  rw [splitAt, if_neg h, hparts]

theorem not_mem_of_mem_splitAt {part : List Char} (h : part ∈ splitAt c s) : c ∉ part := by
  induction s generalizing part with
  | nil =>
    rw [List.mem_singleton.mp h]
    exact List.not_mem_nil
  | cons d s ih =>
    by_cases hd : d = c
    · subst hd
      rw [splitAt_cons_self] at h
      rcases List.mem_cons.mp h with rfl | h
      · exact List.not_mem_nil
      · exact ih h
    · obtain ⟨first, parts, hparts, hcons⟩ := splitAt_cons_of_ne hd s
      rw [hcons] at h
      rw [hparts] at ih
      rcases List.mem_cons.mp h with rfl | h
      · intro hmem
        rcases List.mem_cons.mp hmem with hc | hmem
        · exact hd hc.symm
        · exact ih List.mem_cons_self hmem
      · exact ih (List.mem_cons_of_mem first h)

/-! ## The first occurrence -/

theorem splitFirst_of_not_mem (h : c ∉ s) : splitFirst c s = (s, none) := by
  have hdrop : s.dropWhile (· != c) = [] := by
    rw [List.dropWhile_eq_nil_iff]
    intro d hd
    rw [bne_iff_ne]
    rintro rfl
    exact h hd
  rw [splitFirst, hdrop]

theorem splitFirst_append (h : c ∉ s) (rest : List Char) :
    splitFirst c (s ++ c :: rest) = (s, some rest) := by
  have hs : ∀ d ∈ s, (d != c) = true := by
    intro d hd
    rw [bne_iff_ne]
    rintro rfl
    exact h hd
  have hc : ¬(c != c) = true := by simp
  have hdrop : (s ++ c :: rest).dropWhile (· != c) = c :: rest :=
    (List.dropWhile_append_of_pos hs).trans (List.dropWhile_cons_of_neg hc)
  have htake : (c :: rest).takeWhile (· != c) = [] := List.takeWhile_cons_of_neg hc
  rw [splitFirst, hdrop, List.takeWhile_append_of_pos hs, htake, List.append_nil]

theorem splitFirst_parts (c : Char) (s : List Char) :
    c ∉ s ∧ splitFirst c s = (s, none) ∨
      ∃ front rest, s = front ++ c :: rest ∧ c ∉ front ∧ splitFirst c s = (front, some rest) := by
  by_cases hc : c ∈ s
  · obtain ⟨front, rest, rfl, hfront⟩ := List.eq_append_cons_of_mem hc
    exact .inr ⟨front, rest, rfl, hfront, splitFirst_append hfront rest⟩
  · exact .inl ⟨hc, splitFirst_of_not_mem hc⟩

/-! ## Blanks around a list -/

/-- Blanks in front of a text are in front of its first part. -/
theorem splitAt_blank_append (hc : isBlank c = false) (hfront : Blank front) (s : List Char) :
    ∃ part parts, splitAt c s = part :: parts ∧
      splitAt c (front ++ s) = (front ++ part) :: parts := by
  induction front with
  | nil =>
    obtain ⟨part, parts, hparts⟩ := List.exists_cons_of_ne_nil (splitAt_ne_nil c s)
    exact ⟨part, parts, hparts, hparts⟩
  | cons d front ih =>
    obtain ⟨hd, hfront⟩ := List.forall_mem_cons.mp hfront
    have hne : d ≠ c := by
      rintro rfl
      rw [hd] at hc
      cases hc
    obtain ⟨part, parts, hparts, hfront⟩ := ih hfront
    obtain ⟨_, _, hfirst, hcons⟩ := splitAt_cons_of_ne hne (front ++ s)
    rw [hfront] at hfirst
    cases hfirst
    exact ⟨part, parts, hparts, hcons⟩

/-- Blanks behind a text are behind its last part. -/
theorem splitAt_append_blank (hc : isBlank c = false) (hrear : Blank rear) (s : List Char) :
    ∃ parts part, splitAt c s = parts ++ [part] ∧
      splitAt c (s ++ rear) = parts ++ [part ++ rear] := by
  induction s with
  | nil => exact ⟨[], [], rfl, splitAt_of_not_mem (not_mem_of_blank hc hrear)⟩
  | cons d s ih =>
    obtain ⟨parts, part, hparts, hwhole⟩ := ih
    by_cases hd : d = c
    · subst hd
      refine ⟨[] :: parts, part, ?_, ?_⟩
      · rw [splitAt_cons_self, hparts, List.cons_append]
      · rw [List.cons_append, splitAt_cons_self, hwhole, List.cons_append]
    · obtain ⟨first, others, hsplit, hcons⟩ := splitAt_cons_of_ne hd s
      obtain ⟨first', others', hsplit', hcons'⟩ := splitAt_cons_of_ne hd (s ++ rear)
      rw [hparts] at hsplit
      rw [hwhole] at hsplit'
      rw [List.cons_append, hcons, hcons']
      cases parts with
      | nil =>
        cases hsplit
        cases hsplit'
        exact ⟨[], d :: part, rfl, rfl⟩
      | cons first parts =>
        cases hsplit
        cases hsplit'
        exact ⟨(d :: first) :: parts, part, rfl, rfl⟩

/-- The items of a trimmed list are those of the list. -/
theorem listParts_trim (s : String) : listParts (trim s) = listParts s := by
  have hcomma : isBlank ',' = false := by decide
  obtain ⟨rear, hrear, hs⟩ := trimBlank_parts s.toList
  obtain ⟨first, others, hparts, hfront⟩ :=
    splitAt_blank_append hcomma (blank_takeWhile s.toList) (trimBlank s.toList ++ rear)
  obtain ⟨parts, last, hbare, hbehind⟩ := splitAt_append_blank hcomma hrear (trimBlank s.toList)
  have hitems : (splitAt ',' s.toList).map (fun part => String.ofList (trimBlank part)) =
      (splitAt ',' (trimBlank s.toList)).map fun part => String.ofList (trimBlank part) :=
    calc (splitAt ',' s.toList).map (fun part => String.ofList (trimBlank part))
      _ = (splitAt ',' (trimBlank s.toList ++ rear)).map
            (fun part => String.ofList (trimBlank part)) := by
          conv => lhs; rw [hs]
          rw [hfront, hparts, List.map_cons, List.map_cons,
            trimBlank_blank_append (blank_takeWhile _)]
      _ = (splitAt ',' (trimBlank s.toList)).map
            (fun part => String.ofList (trimBlank part)) := by
          rw [hbehind, hbare, List.map_append, List.map_append, List.map_singleton,
            List.map_singleton, trimBlank_append_blank hrear]
  rw [listParts, listParts, trim, String.toList_ofList, hitems]

end Text
end Repertory
