import Mathlib.Data.List.Forall2
import Repertory.Proofs.Catalog.EditedRows
import Repertory.Proofs.Catalog.Numbering

/-!
# Slugs that are derived from the slug of a show

Under a new slug of their show, episodes and seasons get new slugs where theirs continue the old one
with a hyphen, as the default slugs do. A slug that only begins with the same letters is another
one, also for a show whose slug continues the old one (`after_rename`).
-/

namespace Repertory
namespace Catalog

open Table

/-! ## Slugs that continue another one -/

/-- What becomes of a slug when its show gets the slug `new` for `old`. -/
inductive Rebased (old new : String) : String → String → Prop where
  | derived (rest : String) : Rebased old new (old ++ "-" ++ rest) (new ++ "-" ++ rest)
  | kept {slug : String} (h : ∀ rest, slug ≠ old ++ "-" ++ rest) : Rebased old new slug slug

theorem toList_continued (slug rest : String) :
    (slug ++ "-" ++ rest).toList = slug.toList ++ '-' :: rest.toList := by
  rw [String.toList_append, String.toList_append, List.append_assoc]
  rfl

theorem rebaseSlug_eq_some_iff {old new slug rebased : String} :
    rebaseSlug old new slug = some rebased ↔
      ∃ rest, slug = old ++ "-" ++ rest ∧ rebased = new ++ "-" ++ rest := by
  rw [rebaseSlug]
  constructor
  · intro h
    split at h
    · rename_i hprefix
      obtain ⟨behind, hbehind⟩ := List.isPrefixOf_iff_prefix.mp hprefix
      rw [← hbehind, List.drop_left] at h
      dsimp only at h
      split at h
      · rename_i hhead
        obtain ⟨rest, rfl⟩ := List.head?_eq_some_iff.mp hhead
        cases h
        refine ⟨String.ofList rest, ?_, ?_⟩
        · rw [String.ext_iff, toList_continued, String.toList_ofList, hbehind]
        · rw [String.ext_iff, toList_continued, String.toList_ofList, String.toList_ofList]
      · cases h
    · cases h
  · rintro ⟨rest, rfl, rfl⟩
    rw [toList_continued, if_pos (List.isPrefixOf_iff_prefix.mpr (List.prefix_append _ _)),
      List.drop_left]
    dsimp only
    rw [List.head?_cons, if_pos rfl, ← toList_continued, String.ofList_toList]

theorem rebased_getD (old new slug : String) :
    Rebased old new slug ((rebaseSlug old new slug).getD slug) := by
  cases hrebased : rebaseSlug old new slug with
  | some rebased =>
    obtain ⟨rest, rfl, rfl⟩ := rebaseSlug_eq_some_iff.mp hrebased
    exact .derived rest
  | none =>
    refine .kept fun rest hslug => ?_
    have hsome : rebaseSlug old new slug = some (new ++ "-" ++ rest) :=
      rebaseSlug_eq_some_iff.mpr ⟨rest, hslug, rfl⟩
    rw [hrebased] at hsome
    cases hsome

/-! ## Default slugs -/

theorem Season.defaultSlug_eq (number : Int64) :
    ∃ rest, ∀ showSlug, defaultSlug showSlug number = showSlug ++ "-" ++ rest := by
  refine ⟨"s" ++ Number.signedText number, fun showSlug => ?_⟩
  rw [defaultSlug, show "-s" = "-" ++ "s" from rfl]
  simp only [String.append_assoc]

/-- A default slug continues the slug of the show, and its rest does not depend on the show. -/
theorem Episode.defaultSlug_eq {e : Episode} {showSlug slug : String}
    (h : e.defaultSlug showSlug = some slug) :
    ∃ rest, slug = showSlug ++ "-" ++ rest ∧
      ∀ other, e.defaultSlug other = some (other ++ "-" ++ rest) := by
  obtain ⟨n, hn, rfl⟩ := defaultSlug_eq_some_iff.mp h
  exact ⟨n.text, rfl, hn.defaultSlug⟩

/-! ## Episodes and seasons -/

/-- What becomes of an episode when a show is changed. -/
inductive Episode.Renamed (old new : Show) : Episode → Episode → Prop where
  | own {e : Episode} {slug : String} (hshow : e.showId = old.id)
      (hslug : Rebased old.slug new.slug e.slug slug)
      (hdefault : e.defaultSlug old.slug = some e.slug → e.defaultSlug new.slug = some slug) :
      Renamed old new e { e with showSlug := new.slug, slug }
  | other {e : Episode} (hshow : e.showId ≠ old.id) : Renamed old new e e

/-- What becomes of a season when a show is changed. -/
inductive Season.Renamed (old new : Show) : Season → Season → Prop where
  | own {season : Season} {slug : String} (hshow : season.showId = old.id)
      (hslug : Rebased old.slug new.slug season.slug slug)
      (hdefault : season.slug = defaultSlug old.slug season.seasonNumber →
        slug = defaultSlug new.slug season.seasonNumber) :
      Renamed old new season { season with slug }
  | other {season : Season} (hshow : season.showId ≠ old.id) : Renamed old new season season

theorem Rebased.of_derived {old new rest slug : String}
    (h : Rebased old new (old ++ "-" ++ rest) slug) : slug = new ++ "-" ++ rest := by
  generalize hcontinued : old ++ "-" ++ rest = continued at h
  cases h with
  | derived other => rw [(String.append_right_inj _).mp hcontinued]
  | kept hnone => exact absurd hcontinued.symm (hnone rest)

theorem Episode.renamed_follow {old new : Show} {e : Episode} (hshow : e.showId = old.id) :
    Renamed old new e (e.follow old.slug new.slug) := by
  have hslug := rebased_getD old.slug new.slug e.slug
  refine .own hshow hslug fun hdefault => ?_
  obtain ⟨rest, hrest, hother⟩ := defaultSlug_eq hdefault
  rw [hrest] at hslug ⊢
  rw [hother, hslug.of_derived]

theorem Season.renamed_follow {old new : Show} {season : Season} (hshow : season.showId = old.id) :
    Renamed old new season (season.follow old.slug new.slug) := by
  have hslug := rebased_getD old.slug new.slug season.slug
  refine .own hshow hslug fun hdefault => ?_
  obtain ⟨rest, hrest⟩ := defaultSlug_eq season.seasonNumber
  rw [hdefault, hrest] at hslug ⊢
  rw [hrest, hslug.of_derived]

theorem forall₂_touch {α : Type} [Resource α Int64] {table : Table α Int64}
    (hids : Ascending table.rows) {f : α → α} {p : α → Bool} {R : α → α → Prop}
    (hchanged : ∀ row, p row = true → R row (f row)) (hsame : ∀ row, ¬p row = true → R row row) :
    List.Forall₂ R table.rows (table.touch f ((table.rows.filter p).map Resource.id)).rows := by
  rw [touch_filter f hids, List.forall₂_map_right_iff, List.forall₂_same]
  intro row _
  split
  · exact hchanged row ‹_›
  · exact hsame row ‹_›

theorem forall₂_followEpisodes {s : State} {old new : Show} (hid : new.id = old.id)
    (hids : Ascending s.episodes.rows) :
    List.Forall₂ (Episode.Renamed old new) s.episodes.rows
      (s.followEpisodes old new).episodes.rows :=
  forall₂_touch hids
    (fun _ hshow => Episode.renamed_follow ((of_decide_eq_true hshow).trans hid))
    fun _ hshow => .other fun hsame => hshow (decide_eq_true (hsame.trans hid.symm))

theorem forall₂_followSeasons {s : State} {old new : Show} (hid : new.id = old.id)
    (hids : Ascending s.seasons.rows) :
    List.Forall₂ (Season.Renamed old new) s.seasons.rows
      (s.followSeasons old new).seasons.rows :=
  forall₂_touch hids
    (fun _ hshow => Season.renamed_follow ((of_decide_eq_true hshow).trans hid))
    fun _ hshow => .other fun hsame => hshow (decide_eq_true (hsame.trans hid.symm))

/-- An edit or a patch that gives a show another slug gives it to the episodes of the show, and
derives their slugs and those of the seasons from it where they were derived from the old one. All
else about them stays, and so do all other episodes and seasons. -/
theorem after_rename (history : List (Settings × Request)) (settings : Settings)
    {w : Write Show Int64} {old new : Show} {u : State} (hold : old ∈ (after history).shows.rows)
    (hw : w.Replaces old.id) (h : (w.perform settings.shows).exec (after history) = (.ok new, u))
    (hslug : old.slug ≠ new.slug) :
    List.Forall₂ (Episode.Renamed old new) (after history).episodes.rows u.episodes.rows ∧
      List.Forall₂ (Season.Renamed old new) (after history).seasons.rows u.seasons.rows := by
  have hs : Keyed (after history) := after_keyed history
  obtain ⟨changes, t, -, rfl, -, hfollowed⟩ := show_replaced hs hold hw h
  cases hfollowed with
  | nothing hsame => exact absurd hsame hslug
  | done =>
    exact ⟨forall₂_followEpisodes (s := { after history with shows := t }) rfl
        hs.episodes.ascending,
      forall₂_followSeasons (s := { after history with shows := t }) rfl hs.seasons.ascending⟩

/-- Two shows, where the slug of the second one continues that of the first. -/
def nestedSlugs : List (Settings × Request) :=
  [ ({}, .shows (.write (.create (.bare "a")))),
    ({}, .shows (.write (.create (.bare "a-b")))),
    ({}, .seasons (.write (.create ⟨0, "", 1, 1, none, none, none⟩))),
    ({}, .episodes (.write (.create { Episode.bare "" 1 with
      seasonNumber := some 1, episodeNumber := some 2 }))),
    ({}, .episodes (.write (.create (.bare "ab" 1)))),
    ({}, .episodes (.write (.create { Episode.bare "" 2 with absoluteNumber := some 1 }))) ]

/-- The slugs of the second show and its episode begin with the old slug, and so does the new one. -/
theorem after_rename_nestedSlugs :
    let s := after nestedSlugs
    let settings : Settings := {}
    let old : Show := { Show.bare "a" with id := 1 }
    let new : Show := { Show.bare "a" with id := 1, slug := "a-c" }
    let w : Write Show Int64 := .patch 1 fun row => { row with slug := "a-c" }
    old ∈ s.shows.rows ∧ w.Replaces old.id ∧ old.slug ≠ new.slug ∧
      s.episodes.rows.map Episode.slug = ["a-s1e2", "ab", "a-b-1"] ∧
      ∃ u, (w.perform settings.shows).exec s = (.ok new, u) ∧
        u.episodes.rows.map Episode.slug = ["a-c-s1e2", "ab", "a-b-1"] ∧
        u.seasons.rows.map Season.slug = ["a-c-s1"] ∧
        List.Forall₂ (Episode.Renamed old new) s.episodes.rows u.episodes.rows ∧
        List.Forall₂ (Season.Renamed old new) s.seasons.rows u.seasons.rows := by
  intro s settings old new w
  have hold : old ∈ s.shows.rows := by decide +kernel
  have hw : w.Replaces old.id := rfl
  have hslug : old.slug ≠ new.slug := by decide
  have hslugs : ((w.perform settings.shows).exec s).2.episodes.rows.map Episode.slug =
      ["a-c-s1e2", "ab", "a-b-1"] := by decide +kernel
  have hslugs' : ((w.perform settings.shows).exec s).2.seasons.rows.map Season.slug =
      ["a-c-s1"] := by decide +kernel
  have hnew : ((w.perform settings.shows).exec s).1 = .ok new := by decide +kernel
  have hperform := Action.exec_of_fst hnew
  obtain ⟨hepisodes, hseasons⟩ := after_rename nestedSlugs settings hold hw hperform hslug
  exact ⟨hold, hw, hslug, by decide +kernel, _, hperform, hslugs, hslugs', hepisodes, hseasons⟩

end Catalog
end Repertory
