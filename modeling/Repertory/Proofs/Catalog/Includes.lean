import Repertory.Proofs.Catalog.FailedWrites
import Repertory.Proofs.Catalog.Keys
import Repertory.Proofs.Repository.Include

/-!
# What is loaded with rows of a catalog

A show can be loaded with its studio, a season with its show, and an episode with its show and its
season. Each row gets the stored row that its own key leads to, whatever was in its place before,
and the rest of the row stays (`after_includes`).
-/

namespace Repertory
namespace Catalog

/-- A show with what has these names. -/
def Show.including (s : State) (names : List String) (row : Show) : Show :=
  { row with
    studioRow :=
      if "studio" ∈ names then row.studioId.bind fun id => s.studios.find? id else row.studioRow }

def Season.including (s : State) (names : List String) (row : Season) : Season :=
  { row with showRow := if "show" ∈ names then s.shows.find? row.showId else row.showRow }

def Episode.including (s : State) (names : List String) (row : Episode) : Episode :=
  { row with
    showRow := if "show" ∈ names then s.shows.find? row.showId else row.showRow
    seasonRow :=
      if "season" ∈ names then row.seasonId.bind fun id => s.seasons.find? id else row.seasonRow }

theorem Show.including_gives (s : State) : Include.Gives Related.relations s (including s) where
  nil _ := rfl
  cons := by
    refine List.forall_mem_cons.mpr ⟨Relation.one_steps fun names row => ?_, ?_⟩
    · show including s names { row with
        studioRow := row.studioId.bind fun id => s.studios.find? id } = _
      by_cases h : "studio" ∈ names <;> simp [including, h]
    · simp only [List.forall_mem_cons, Relation.many_steps, true_and]
      exact List.forall_mem_nil _
  congr h := by
    funext row
    simp only [including, h]

theorem Season.including_gives (s : State) : Include.Gives Related.relations s (including s) where
  nil _ := rfl
  cons := by
    refine List.forall_mem_cons.mpr ⟨Relation.one_steps fun names row => ?_, ?_⟩
    · show including s names { row with showRow := s.shows.find? row.showId } = _
      by_cases h : "show" ∈ names <;> simp [including, h]
    · simp only [List.forall_mem_cons, Relation.many_steps, true_and]
      exact List.forall_mem_nil _
  congr h := by
    funext row
    simp only [including, h]

theorem Episode.including_gives (s : State) : Include.Gives Related.relations s (including s) where
  nil _ := rfl
  cons := by
    refine List.forall_mem_cons.mpr ⟨Relation.one_steps fun names row => ?_,
      List.forall_mem_cons.mpr ⟨Relation.one_steps fun names row => ?_, List.forall_mem_nil _⟩⟩
    · show including s names { row with showRow := s.shows.find? row.showId } = _
      by_cases h : "show" ∈ names <;> simp [including, h]
    · show including s names { row with
        seasonRow := row.seasonId.bind fun id => s.seasons.find? id } = _
      by_cases h : "season" ∈ names <;> simp [including, h]
  congr h := by
    funext row
    simp only [including, h]

/-- After any requests, what a text asks for is loaded with shows, seasons and episodes: each row
gets the stored row with the id that its key names, or none where there is no key or no such row. -/
theorem after_includes (history : List (Settings × Request)) :
    let s := after history
    Include.LoadsBy Related.relations s (Show.including s) ∧
      Include.LoadsBy Related.relations s (Season.including s) ∧
      Include.LoadsBy Related.relations s (Episode.including s) ∧
      (∀ id row, s.studios.find? id = some row ↔ row ∈ s.studios.rows ∧ row.id = id) ∧
      (∀ id row, s.shows.find? id = some row ↔ row ∈ s.shows.rows ∧ row.id = id) ∧
      ∀ id row, s.seasons.find? id = some row ↔ row ∈ s.seasons.rows ∧ row.id = id := by
  intro s
  have hkeyed : Keyed s := after_keyed history
  exact ⟨(Show.including_gives s).loadsBy, (Season.including_gives s).loadsBy,
    (Episode.including_gives s).loadsBy,
    fun _ _ => Table.find?_eq_some_iff hkeyed.studios.ascending,
    fun _ _ => Table.find?_eq_some_iff hkeyed.shows.ascending,
    fun _ _ => Table.find?_eq_some_iff hkeyed.seasons.ascending⟩

/-- Two episodes share a show and a season, of which one holds older rows. One names a season that
is not stored, and one a show that is not and no season at all. Another text with the same names
loads the same. -/
theorem after_includes_episodes :
    let history : List (Settings × Request) :=
      [ ({}, .shows (.write (.create (.bare "a")))),
        ({}, .shows (.write (.create (.bare "b")))),
        ({}, .seasons (.write (.create ⟨0, "s", 1, 1, none, none, none⟩))) ]
    let s := after history
    let parent : Show := { Show.bare "a" with id := 1 }
    let other : Show := { Show.bare "b" with id := 2 }
    let season : Season := ⟨1, "s", 1, 1, none, none, none⟩
    let first : Episode := { Episode.bare "x" 1 with seasonId := some 1 }
    let second : Episode := { Episode.bare "y" 1 with
      seasonId := some 1, showRow := some other, seasonRow := some { season with slug := "t" } }
    let third : Episode := { Episode.bare "z" 2 with seasonId := some 9, seasonRow := some season }
    let fourth : Episode := { Episode.bare "w" 9 with showRow := some parent }
    ∃ relations relations' : Include State Episode,
      Include.read Related.relations (some "Season, SHOW,,show") = .ok relations ∧
        (relations.apply [first, second, third, fourth]).exec s =
          (.ok [ { first with showRow := some parent, seasonRow := some season },
              { second with showRow := some parent, seasonRow := some season },
              { third with showRow := some other, seasonRow := none },
              { fourth with showRow := none } ], s) ∧
        Include.read Related.relations (some "show,season") = .ok relations' ∧
        ∀ rows : List Episode, (relations'.apply rows).exec s = (relations.apply rows).exec s := by
  intro history s parent other season first second third fourth
  obtain ⟨-, -, hloads, -⟩ := after_includes history
  have hnames : Include.requested (some "Season, SHOW,,show") = ["season", "show", "show"] := by
    decide +kernel
  have hnames' : Include.requested (some "show,season") = ["show", "season"] := by decide +kernel
  have hknown : Include.Known (Related.relations (α := Episode))
      (Include.requested (some "Season, SHOW,,show")) := by
    simp only [hnames, Include.Known, List.forall_mem_cons]
    exact ⟨⟨_, rfl, rfl⟩, ⟨_, rfl, rfl⟩, ⟨_, rfl, rfl⟩, List.forall_mem_nil _⟩
  obtain ⟨relations, hread⟩ := Include.exists_read hknown
  have hsame : ∀ name, name ∈ Include.requested (some "Season, SHOW,,show") ↔
      name ∈ Include.requested (some "show,season") := by
    simp [hnames, hnames', or_comm]
  obtain ⟨relations', hread', hagain⟩ := hloads.sameNames _ _ _ hsame hread
  have happly := hloads.apply _ _ hread [first, second, third, fourth]
  have hrows : [first, second, third, fourth].map
      (Episode.including s (Include.requested (some "Season, SHOW,,show"))) =
      [ { first with showRow := some parent, seasonRow := some season },
        { second with showRow := some parent, seasonRow := some season },
        { third with showRow := some other, seasonRow := none },
        { fourth with showRow := none } ] := by decide +kernel
  rw [hrows] at happly
  exact ⟨relations, relations', hread, happly, hread', hagain⟩

end Catalog
end Repertory
