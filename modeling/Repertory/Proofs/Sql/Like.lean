import Repertory.Proofs.Text.Case
import Repertory.Sql.Condition

/-!
# Patterns of texts

A database compares a text with a pattern in which two characters are wild. Escaped, a needle
stands for itself whatever its characters are, so the pattern between two wild ends asks whether the
needle occurs in the text (`like_escapeLike_iff`). What a text is like is said by rules (`Like`).
The matcher tries every run for a percent sign, and follows the rules (`likeMatch_iff`).
-/

namespace Repertory
namespace Sql

/-! ## Patterns by rules -/

/-- What texts are like a pattern: a percent sign stands for any run of characters, an underscore
for any one, and a backslash for the character behind it. Anything else stands for itself, and so
does a backslash with nothing behind it. -/
inductive Like : List Char → List Char → Prop where
  | nil : Like [] []
  | run (skipped : List Char) {pattern t : List Char} (h : Like pattern t) :
      Like ('%' :: pattern) (skipped ++ t)
  | one (c : Char) {pattern t : List Char} (h : Like pattern t) : Like ('_' :: pattern) (c :: t)
  | escaped (c : Char) {pattern t : List Char} (h : Like pattern t) :
      Like ('\\' :: c :: pattern) (c :: t)
  | plain {c : Char} {pattern t : List Char} (hrun : c ≠ '%') (hone : c ≠ '_')
      (hescape : c = '\\' → pattern = []) (h : Like pattern t) : Like (c :: pattern) (c :: t)

section

variable {c : Char} {pattern t : List Char}

theorem like_nil_iff : Like [] t ↔ t = [] := by
  constructor
  · intro h
    cases h
    rfl
  · rintro rfl
    exact .nil

theorem like_run_iff :
    Like ('%' :: pattern) t ↔ ∃ skipped rest, skipped ++ rest = t ∧ Like pattern rest := by
  constructor
  · intro h
    cases h with
    | run skipped h => exact ⟨skipped, _, rfl, h⟩
    | plain hrun => exact absurd rfl hrun
  · rintro ⟨skipped, rest, rfl, h⟩
    exact .run skipped h

theorem like_one_iff : Like ('_' :: pattern) t ↔ ∃ c rest, c :: rest = t ∧ Like pattern rest := by
  constructor
  · intro h
    cases h with
    | one c h => exact ⟨c, _, rfl, h⟩
    | plain _ hone => exact absurd rfl hone
  · rintro ⟨c, rest, rfl, h⟩
    exact .one c h

theorem like_escaped_iff :
    Like ('\\' :: c :: pattern) t ↔ ∃ rest, c :: rest = t ∧ Like pattern rest := by
  constructor
  · intro h
    cases h with
    | escaped _ h => exact ⟨_, rfl, h⟩
    | plain _ _ hescape => cases hescape rfl
  · rintro ⟨rest, rfl, h⟩
    exact .escaped c h

theorem like_plain_iff (hrun : c ≠ '%') (hone : c ≠ '_') (hescape : c = '\\' → pattern = []) :
    Like (c :: pattern) t ↔ ∃ rest, c :: rest = t ∧ Like pattern rest := by
  constructor
  · intro h
    cases h with
    | run => exact absurd rfl hrun
    | one => exact absurd rfl hone
    | escaped => cases hescape rfl
    | plain _ _ _ h => exact ⟨_, rfl, h⟩
  · rintro ⟨rest, rfl, h⟩
    exact .plain hrun hone hescape h

end

/-- An escaped character is like nothing but itself. -/
theorem like_escapeLike_cons_iff {c : Char} {needle pattern t : List Char} :
    Like (escapeLike (c :: needle) ++ pattern) t ↔
      ∃ rest, c :: rest = t ∧ Like (escapeLike needle ++ pattern) rest := by
  rw [escapeLike]
  split
  · exact like_escaped_iff
  · rename_i hplain
    rw [not_or, not_or] at hplain
    exact like_plain_iff hplain.2.1 hplain.2.2 fun h => absurd h hplain.1

theorem like_escapeLike_append_iff {needle pattern t : List Char} :
    Like (escapeLike needle ++ pattern) t ↔ ∃ rest, needle ++ rest = t ∧ Like pattern rest := by
  induction needle generalizing t with
  | nil => simp [escapeLike]
  | cons c needle ih =>
    rw [like_escapeLike_cons_iff]
    constructor
    · rintro ⟨_, rfl, hneedle⟩
      obtain ⟨rest, rfl, h⟩ := ih.mp hneedle
      exact ⟨rest, rfl, h⟩
    · rintro ⟨rest, rfl, h⟩
      exact ⟨needle ++ rest, rfl, ih.mpr ⟨rest, rfl, h⟩⟩

/-- Everything is like a percent sign. -/
theorem like_run (t : List Char) : Like ['%'] t :=
  like_run_iff.mpr ⟨t, [], List.append_nil t, .nil⟩

/-- Between two wild ends an escaped needle is like the texts in which it occurs. -/
theorem like_between_iff {needle text : List Char} :
    Like ('%' :: escapeLike needle ++ ['%']) text ↔ needle <:+: text := by
  rw [List.cons_append, like_run_iff]
  constructor
  · rintro ⟨front, _, rfl, h⟩
    obtain ⟨rest, rfl, -⟩ := like_escapeLike_append_iff.mp h
    exact ⟨front, rest, List.append_assoc front needle rest⟩
  · rintro ⟨front, rest, rfl⟩
    refine ⟨front, needle ++ rest, (List.append_assoc front needle rest).symm, ?_⟩
    exact like_escapeLike_append_iff.mpr ⟨rest, rfl, like_run rest⟩

/-! ## Matching -/

def startsWith (c : Char) (next : List Char → Bool) : List Char → Bool
  | [] => false
  | d :: rest => c == d && next rest

def anyRest (next : List Char → Bool) : List Char → Bool
  | [] => next []
  | d :: rest => next (d :: rest) || anyRest next rest

/-- Whether a text is like a pattern: a percent sign stands for any run of characters, an underscore
for any one, and a backslash for the character behind it. -/
def likeMatch : List Char → List Char → Bool
  | [], t => t.isEmpty
  | '\\' :: c :: pattern, t => startsWith c (likeMatch pattern) t
  | '%' :: pattern, t => anyRest (likeMatch pattern) t
  | '_' :: pattern, t => !t.isEmpty && likeMatch pattern t.tail
  | c :: pattern, t => startsWith c (likeMatch pattern) t

theorem startsWith_iff {c : Char} {next : List Char → Bool} {t : List Char} :
    startsWith c next t = true ↔ ∃ rest, c :: rest = t ∧ next rest = true := by
  cases t with
  | nil => simp [startsWith]
  | cons d t =>
    rw [startsWith, Bool.and_eq_true, beq_iff_eq]
    constructor
    · rintro ⟨rfl, h⟩
      exact ⟨t, rfl, h⟩
    · rintro ⟨rest, hcons, h⟩
      cases hcons
      exact ⟨rfl, h⟩

theorem anyRest_iff {next : List Char → Bool} {t : List Char} :
    anyRest next t = true ↔ ∃ skipped rest, skipped ++ rest = t ∧ next rest = true := by
  induction t with
  | nil =>
    rw [anyRest]
    constructor
    · exact fun h => ⟨[], [], rfl, h⟩
    · rintro ⟨skipped, rest, happend, h⟩
      rwa [(List.append_eq_nil_iff.mp happend).2] at h
  | cons d t ih =>
    rw [anyRest, Bool.or_eq_true, ih]
    constructor
    · rintro (h | ⟨skipped, rest, rfl, h⟩)
      · exact ⟨[], d :: t, rfl, h⟩
      · exact ⟨d :: skipped, rest, rfl, h⟩
    · rintro ⟨skipped, rest, happend, h⟩
      cases skipped with
      | nil =>
        cases happend
        exact Or.inl h
      | cons e skipped =>
        cases happend
        exact Or.inr ⟨skipped, rest, rfl, h⟩

/-- The matcher follows the rule of the first character, unless it escapes the next. -/
theorem likeMatch_cons_iff {c : Char} {pattern : List Char}
    (h : ∀ t, likeMatch pattern t = true ↔ Like pattern t) (hescape : c = '\\' → pattern = [])
    (t : List Char) : likeMatch (c :: pattern) t = true ↔ Like (c :: pattern) t := by
  by_cases hrun : c = '%'
  · subst hrun
    rw [likeMatch, anyRest_iff, like_run_iff]
    simp only [h]
  by_cases hone : c = '_'
  · subst hone
    rw [likeMatch, like_one_iff]
    cases t with
    | nil => simp
    | cons d t =>
      constructor
      · exact fun hmatch => ⟨d, t, rfl, (h t).mp hmatch⟩
      · rintro ⟨_, _, hcons, hlike⟩
        cases hcons
        exact (h t).mpr hlike
  · have hplain : likeMatch (c :: pattern) t = startsWith c (likeMatch pattern) t := by
      rw [likeMatch]
      · intro d rest hc hpattern
        rw [hescape hc] at hpattern
        cases hpattern
      · exact hrun
      · exact hone
    rw [hplain, startsWith_iff, like_plain_iff hrun hone hescape]
    simp only [h]

/-- The matcher follows the rules. -/
theorem likeMatch_iff : ∀ pattern t : List Char, likeMatch pattern t = true ↔ Like pattern t
  | [], t => by rw [likeMatch, List.isEmpty_iff, like_nil_iff]
  | [_], t => likeMatch_cons_iff (likeMatch_iff []) (fun _ => rfl) t
  | c :: d :: pattern, t => by
    by_cases hescape : c = '\\'
    · subst hescape
      rw [likeMatch, startsWith_iff, like_escaped_iff]
      simp only [likeMatch_iff pattern]
    · exact likeMatch_cons_iff (likeMatch_iff (d :: pattern)) (fun h => absurd h hescape) t

/-- Between two wild ends the matcher finds a needle wherever it occurs. -/
theorem likeMatch_between (needle text : List Char) :
    likeMatch ('%' :: escapeLike needle ++ ['%']) text = Text.occursIn needle text := by
  rw [Bool.eq_iff_iff, likeMatch_iff, like_between_iff, Text.occursIn_iff]

/-- The pattern of a needle asks whether the needle occurs. -/
theorem likeMatch_likePattern (needle text : String) :
    likeMatch (likePattern needle).toList text.toList =
      Text.contains text (Text.lowercase needle) := by
  rw [likePattern, String.toList_ofList, likeMatch_between, Text.contains]

/-- Between two wild ends an escaped needle is found exactly where it occurs, whatever characters it
is made of. -/
theorem like_escapeLike_iff (needle text : List Char) :
    (Like ('%' :: escapeLike needle ++ ['%']) text ↔ needle <:+: text) ∧
      (likeMatch ('%' :: escapeLike needle ++ ['%']) text = true ↔ needle <:+: text) := by
  refine ⟨like_between_iff, ?_⟩
  rw [likeMatch_iff, like_between_iff]

end Sql
end Repertory
