import Mathlib.Data.List.Basic
import Repertory.Proofs.Catalog.FailedWrites
import Repertory.Proofs.Number.Integer

/-!
# The numbering in a default slug

Behind the slug of the show and a hyphen, a default slug is the text of a numbering: of the place in
a season, or else of the absolute number (`Episode.defaultSlug_eq_some_iff`). Numbers are written
without letters. So the letters of a place are found again, and the text tells what it was written
for (`Numbering.text_injective`). Under the slug of a show two episodes therefore have the same
default slug exactly if they are numbered alike (`Episode.defaultSlug_eq_iff`).
-/

namespace Repertory
namespace Catalog

/-! ## Texts of numberings -/

/-- What an episode can be numbered by. -/
inductive Numbering where
  | place (season episode : Int64)
  | absolute (number : Int64)

namespace Numbering

def text : Numbering → String
  | place season episode => "s" ++ Number.signedText season ++ "e" ++ Number.signedText episode
  | absolute number => Number.signedText number

variable {season episode season' episode' : Int64}

theorem toList_text_place : (place season episode).text.toList =
    's' :: ((Number.signedText season).toList ++ 'e' :: (Number.signedText episode).toList) := by
  simp [text]

/-- The letter between the two numbers is in neither of them. -/
theorem place_of_text_eq (h : (place season episode).text = (place season' episode').text) :
    season = season' ∧ episode = episode' := by
  have hletter : ∀ n, 'e' ∉ (Number.signedText n).toList :=
    Number.not_mem_signedText (by decide) (by decide)
  have hlist := congrArg String.toList h
  rw [toList_text_place, toList_text_place, List.cons_inj_right,
    List.append_cons_inj_of_notMem (hletter _) (hletter _)] at hlist
  obtain ⟨hseason, -, hepisode⟩ := hlist
  exact ⟨Number.signedText_injective (String.toList_inj.mp hseason),
    Number.signedText_injective (String.toList_inj.mp hepisode)⟩

theorem text_place_ne_absolute (number : Int64) :
    (place season episode).text ≠ (absolute number).text := by
  intro h
  have hmem : 's' ∈ (place season episode).text.toList := by
    rw [toList_text_place]
    exact List.mem_cons_self
  rw [h] at hmem
  exact Number.not_mem_signedText (by decide) (by decide) number hmem

theorem text_injective : Function.Injective text := by
  intro m n h
  cases m with
  | place season episode =>
    cases n with
    | place season' episode' =>
      obtain ⟨rfl, rfl⟩ := place_of_text_eq h
      rfl
    | absolute number => exact absurd h (text_place_ne_absolute number)
  | absolute number =>
    cases n with
    | place season episode => exact absurd h.symm (text_place_ne_absolute number)
    | absolute number' => rw [Number.signedText_injective h]

end Numbering

/-! ## Numberings of episodes -/

namespace Episode

/-- The episode has both of the numbers that place it in a season. -/
def HasPlace (e : Episode) : Prop :=
  e.seasonNumber.isSome = true ∧ e.episodeNumber.isSome = true

instance (e : Episode) : Decidable e.HasPlace :=
  inferInstanceAs (Decidable (e.seasonNumber.isSome = true ∧ e.episodeNumber.isSome = true))

/-- Both have a place and it is the same, or neither has one and the absolute number is the same. -/
def NumberedAlike (e f : Episode) : Prop :=
  (e.HasPlace ∧ f.HasPlace ∧ e.seasonNumber = f.seasonNumber ∧
      e.episodeNumber = f.episodeNumber) ∨
    (¬e.HasPlace ∧ ¬f.HasPlace ∧ e.absoluteNumber = f.absoluteNumber)

instance (e f : Episode) : Decidable (e.NumberedAlike f) :=
  inferInstanceAs (Decidable (_ ∨ _))

/-- The numbering of an episode: its place, and the absolute number if it has none. -/
inductive Numbered (e : Episode) : Numbering → Prop where
  | place {season episode : Int64} (hseason : e.seasonNumber = some season)
      (hepisode : e.episodeNumber = some episode) : Numbered e (.place season episode)
  | absolute {number : Int64} (hplace : ¬e.HasPlace) (hnumber : e.absoluteNumber = some number) :
      Numbered e (.absolute number)

variable {e f : Episode} {showSlug slug : String}

theorem hasPlace_of_eq_some {season episode : Int64} (hseason : e.seasonNumber = some season)
    (hepisode : e.episodeNumber = some episode) : e.HasPlace :=
  ⟨Option.isSome_of_eq_some hseason, Option.isSome_of_eq_some hepisode⟩

theorem Numbered.defaultSlug {n : Numbering} (h : e.Numbered n) (showSlug : String) :
    e.defaultSlug showSlug = some (showSlug ++ "-" ++ n.text) := by
  rw [Episode.defaultSlug]
  cases h with
  | place hseason hepisode =>
    rw [hseason, hepisode, Numbering.text, show "-s" = "-" ++ "s" from rfl]
    simp only [String.append_assoc]
  | absolute hplace hnumber =>
    split
    · exact absurd (hasPlace_of_eq_some ‹_› ‹_›) hplace
    · cases hnumber.symm.trans ‹e.absoluteNumber = _›
      rfl
    · cases hnumber.symm.trans ‹e.absoluteNumber = _›

theorem exists_numbered (h : e.defaultSlug showSlug = some slug) : ∃ n, e.Numbered n := by
  rw [Episode.defaultSlug] at h
  split at h
  · rename_i hseason hepisode
    exact ⟨_, .place hseason hepisode⟩
  · rename_i hnumber hnot
    refine ⟨_, .absolute (fun ⟨hseason, hepisode⟩ => ?_) hnumber⟩
    exact hnot _ _ (Option.some_get hseason).symm (Option.some_get hepisode).symm
  · cases h

/-- A default slug is the text of the numbering behind the slug of the show. -/
theorem defaultSlug_eq_some_iff :
    e.defaultSlug showSlug = some slug ↔
      ∃ n, e.Numbered n ∧ slug = showSlug ++ "-" ++ n.text := by
  constructor
  · intro h
    obtain ⟨n, hn⟩ := exists_numbered h
    exact ⟨n, hn, Option.some.inj (h.symm.trans (hn.defaultSlug showSlug))⟩
  · rintro ⟨n, hn, rfl⟩
    exact hn.defaultSlug showSlug

theorem Numbered.eq_iff {m n : Numbering} (hm : e.Numbered m) (hn : f.Numbered n) :
    m = n ↔ e.NumberedAlike f := by
  rw [NumberedAlike]
  cases hm with
  | place hseason hepisode =>
    have he : e.HasPlace := hasPlace_of_eq_some hseason hepisode
    cases hn with
    | place hseason' hepisode' =>
      have hf : f.HasPlace := hasPlace_of_eq_some hseason' hepisode'
      simp [he, hf, hseason, hepisode, hseason', hepisode']
    | absolute hf _ => simp [he, hf]
  | absolute he hnumber =>
    cases hn with
    | place hseason' hepisode' =>
      have hf : f.HasPlace := hasPlace_of_eq_some hseason' hepisode'
      simp [he, hf]
    | absolute hf hnumber' => simp [he, hf, hnumber, hnumber']

/-- Under the slug of a show, the default slugs of two episodes are the same exactly if the episodes
are numbered alike. -/
theorem defaultSlug_eq_iff {other : String} (he : e.defaultSlug showSlug = some slug)
    (hf : f.defaultSlug showSlug = some other) : slug = other ↔ e.NumberedAlike f := by
  obtain ⟨m, hm, rfl⟩ := defaultSlug_eq_some_iff.mp he
  obtain ⟨n, hn, rfl⟩ := defaultSlug_eq_some_iff.mp hf
  rw [String.append_right_inj, Numbering.text_injective.eq_iff]
  exact hm.eq_iff hn

/-- Two places are written in the same digits, and two episodes have half a place each. -/
theorem defaultSlug_eq_iff_sameDigits :
    let e : Episode := { bare "" 1 with seasonNumber := some 1, episodeNumber := some 12 }
    let f : Episode := { bare "" 1 with seasonNumber := some 11, episodeNumber := some 2 }
    let g : Episode := { bare "" 1 with seasonNumber := some 1, absoluteNumber := some (-5) }
    let h : Episode := { bare "" 1 with episodeNumber := some 2, absoluteNumber := some (-5) }
    (e.defaultSlug "a" = some "a-s1e12" ∧ f.defaultSlug "a" = some "a-s11e2" ∧
      "a-s1e12" ≠ "a-s11e2") ∧
    ∃ slug other, g.defaultSlug "a" = some slug ∧ h.defaultSlug "a" = some other ∧
      slug = other := by
  intro e f g h
  have he : e.defaultSlug "a" = some "a-s1e12" := by decide +kernel
  have hf : f.defaultSlug "a" = some "a-s11e2" := by decide +kernel
  have hplaces : ¬e.NumberedAlike f := by decide
  have hhalves : g.NumberedAlike h := by decide
  refine ⟨⟨he, hf, fun hsame => hplaces ((defaultSlug_eq_iff he hf).mp hsame)⟩, ?_⟩
  exact ⟨_, _, rfl, rfl, (defaultSlug_eq_iff rfl rfl).mpr hhalves⟩

end Episode
end Catalog
end Repertory
