import Repertory.Proofs.Catalog.Includes
import Repertory.Proofs.Catalog.ShowSlugs
import Repertory.Proofs.Order.Compiled

/-!
# The episodes of a show

The condition that an episode belongs to the show is joined to the caller's filter by `and`, and a
conjunction matches only what all of its parts match (`Filter.isMatch_all_iff`). So no filter of a
caller brings an episode of another show onto a page, and a walk through the pages gives the
episodes of the show that the caller asks for, and all of them (`episodesOf_constrained`). What is
loaded with the episodes changes neither which come nor where they stand.
-/

namespace Repertory

namespace Catalog

/-! ## The episodes of a show -/

/-- The episode belongs to the show with the id, or has the slug for that of its show. -/
def Episode.isOf (e : Episode) : Identifier Int64 → Bool
  | .id id => e.showId = id
  | .slug slug => e.showSlug = slug

/-- The pages of the episodes of a show that come when the first request is `q` and each further one
starts at the cursor of the page before, up to the first page without a cursor. -/
inductive Settings.EpisodeWalk (settings : Settings) (s : State) (x : Identifier Int64) :
    ListQuery State Episode Int64 → List (Page Episode Int64) → Prop where
  | last {q : ListQuery State Episode Int64} {page : Page Episode Int64}
      (hpage : (settings.episodesOf x q).exec s = (.ok page, s))
      (hcursor : page.nextCursor = none) : EpisodeWalk settings s x q [page]
  | step {q : ListQuery State Episode Int64} {page : Page Episode Int64} {next : Int64}
      {pages : List (Page Episode Int64)}
      (hpage : (settings.episodesOf x q).exec s = (.ok page, s))
      (hcursor : page.nextCursor = some next)
      (hrest : EpisodeWalk settings s x
        { q with pagination := { q.pagination with afterId := some next } } pages) :
      EpisodeWalk settings s x q (page :: pages)

theorem Episode.schema_closed : (Resource.schema (α := Episode)).Closed where
  id := List.mem_cons_self
  defaultSort := by simp [Resource.schema, schema]

theorem Episode.isMatch_matching (x : Identifier Int64) (e : Episode) :
    (x.matching showIdField showSlugField : Filter Episode Int64).isMatch e = e.isOf x := by
  cases x with
  | id id =>
    rw [Bool.eq_iff_iff, isOf, decide_eq_true_iff]
    exact iff_of_eq (Filter.isMatch_eq_toValue rfl id)
  | slug slug => exact Filter.isMatch_eq_text rfl slug

variable {q : ListQuery State Episode Int64} {s : State}

theorem selects_constrained (x : Identifier Int64) (e : Episode) :
    Query.selects (q.constrained (x.matching Episode.showIdField Episode.showSlugField)).filter e =
      (e.isOf x && Query.selects q.filter e) := by
  rw [ListQuery.constrained, Filter.selects_all, List.all_cons, List.all_cons, List.all_nil,
    Bool.and_true, Query.selects_some, Episode.isMatch_matching]

theorem Episode.loads_of_related (hrelations : ∀ r ∈ q.relations, r ∈ Related.relations)
    (rows : List Episode) :
    (q.relations.apply rows).exec s =
      (.ok (rows.map (Episode.including s q.relations.names)), s) := by
  refine (Episode.including_gives s).apply_exec (fun r hr => ⟨hrelations r hr, ?_⟩) rows
  have hcases : r ∈ [_, _] := hrelations r hr
  simp only [List.mem_cons, List.not_mem_nil, or_false] at hcases
  rcases hcases with rfl | rfl <;> rfl

theorem Settings.episodesOf_exec (settings : Settings) (x : Identifier Int64)
    (hrelations : ∀ r ∈ q.relations, r ∈ Related.relations) :
    (settings.episodesOf x q).exec s =
      (.ok ((Page.ofTable (q.constrained (x.matching Episode.showIdField
          Episode.showSlugField)).filter q.sorting q.pagination s.episodes).mapItems
        (Episode.including s q.relations.names)), s) :=
  Repository.list_exec_of_loads State.episodesLens
    (q := q.constrained (x.matching Episode.showIdField Episode.showSlugField))
    (Episode.loads_of_related hrelations)

/-- Walking through the episodes of a show is walking through the table with both conditions. -/
theorem Settings.episodeWalk_of_table (settings : Settings) {x : Identifier Int64}
    (hrelations : ∀ r ∈ q.relations, r ∈ Related.relations) {p : Pagination Int64}
    {pages : List (Page Episode Int64)}
    (h : Page.Walk episodeStore
      (q.constrained (x.matching Episode.showIdField Episode.showSlugField)).filter q.sorting s p
      pages) :
    settings.EpisodeWalk s x { q with pagination := p }
      (pages.map (Page.mapItems (Episode.including s q.relations.names))) := by
  have hfetched (p : Pagination Int64) (filter : Option (Filter Episode Int64)) :
      (Page.fetch episodeStore filter q.sorting p).exec s =
        (.ok (Page.ofTable filter q.sorting p s.episodes), s) := Page.fetch_exec_table
  induction h with
  | @last p page hfetch hcursor =>
    have hpage := settings.episodesOf_exec (s := s) x (q := { q with pagination := p }) hrelations
    cases (hfetched p _).symm.trans hfetch
    exact .last hpage hcursor
  | @step p page next pages hfetch hcursor _ ih =>
    have hpage := settings.episodesOf_exec (s := s) x (q := { q with pagination := p }) hrelations
    cases (hfetched p _).symm.trans hfetch
    exact .step hpage hcursor ih

/-- The stored episodes of a show that the filter of a query is true of. -/
def State.asked (s : State) (x : Identifier Int64) (q : ListQuery State Episode Int64) :
    List Episode :=
  s.episodes.rows.filter fun e => e.isOf x && Query.selects q.filter e

/-- A list of the episodes of a show is a page, with nothing on it but what was asked for. -/
theorem exists_episodesOf_exec (settings : Settings) (x : Identifier Int64)
    (hrelations : ∀ r ∈ q.relations, r ∈ Related.relations) :
    ∃ page, (settings.episodesOf x q).exec s = (.ok page, s) ∧
      ∀ e ∈ page.items, e.isOf x = true ∧
        ∃ row ∈ s.asked x q, row.including s q.relations.names = e := by
  refine ⟨_, settings.episodesOf_exec x hrelations, fun e he => ?_⟩
  obtain ⟨row, hrow, rfl⟩ := List.mem_map.mp he
  obtain ⟨hstored, hselects⟩ := Page.mem_ofTable hrow
  rw [selects_constrained] at hselects
  -- What is loaded with an episode does not touch what it belongs to.
  have hloaded : (row.including s q.relations.names).isOf x = row.isOf x := by cases x <;> rfl
  refine ⟨hloaded.trans (Bool.and_eq_true_iff.mp hselects).1, row, ?_, rfl⟩
  exact List.mem_filter.mpr ⟨hstored, hselects⟩

theorem episodeWalk_of_limitZero (settings : Settings) (x : Identifier Int64)
    (hrelations : ∀ r ∈ q.relations, r ∈ Related.relations) (hzero : q.pagination.limit = 0) :
    settings.EpisodeWalk s x q [⟨[], none⟩] := by
  have hpage := settings.episodesOf_exec (s := s) x hrelations
  rw [Page.ofTable, if_pos hzero] at hpage
  exact .last hpage rfl

theorem Episode.conformsAt_direction (hsorting : q.sorting.Declared) (e : Episode) :
    (Page.direction q.sorting q.pagination).ConformsAt e :=
  Page.direction_conformsAt
    ((OrderBy.Compiled.compile hsorting).conformsAt Episode.schema_closed e.conforms) q.pagination

theorem asked_rising (x : Identifier Int64) (hordered : Ordered s)
    (hsorting : q.sorting.Declared) :
    let order := Page.direction q.sorting q.pagination
    order.Rising (order.sort (s.asked x q)) := by
  have hsub : (s.asked x q).Sublist s.episodes.rows := List.filter_sublist
  exact OrderBy.sort_rising (Page.direction_breaksTies q.sorting q.pagination)
    (fun e _ => Episode.conformsAt_direction hsorting e)
    ((hsub.map Resource.id).nodup hordered.episodes.nodup)

theorem exists_episodeWalk (settings : Settings) (x : Identifier Int64) (hordered : Ordered s)
    (hrelations : ∀ r ∈ q.relations, r ∈ Related.relations) (hsorting : q.sorting.Declared)
    (hlimit : 0 < q.pagination.limit) (hstart : q.pagination.afterId = none) :
    ∃ pages, settings.EpisodeWalk s x q pages ∧
      Page.Tiles q.pagination.limit q.pagination.backwards pages
        (((Page.direction q.sorting q.pagination).sort (s.asked x q)).map
          (Episode.including s q.relations.names)) := by
  let constrained := q.constrained (x.matching Episode.showIdField Episode.showSlugField)
  have hrows : ∀ row ∈ s.episodes.rows, q.sorting.compile.ConformsAt row := fun row _ =>
    (OrderBy.Compiled.compile hsorting).conformsAt Episode.schema_closed row.conforms
  have hasked : s.episodes.rows.filter (Query.selects constrained.filter) = s.asked x q :=
    List.filter_congr fun e _ => selects_constrained x e
  have hall : Page.arranged State.episodesLens constrained.filter q.sorting s q.pagination =
      [] ++ (Page.direction q.sorting q.pagination).sort (s.asked x q) :=
    congrArg (Page.direction q.sorting q.pagination).sort hasked
  obtain ⟨pages, hwalk, htiles⟩ :=
    Page.exists_walk (Nat.ne_of_gt hlimit) hordered.episodes hrows hall hstart
  exact ⟨_, settings.episodeWalk_of_table hrelations hwalk, htiles.mapItems _⟩

/-- A query that is read from text asks for relations of episodes and sorts by their fields. -/
theorem listQuery_ok {settings : Settings} {seeds : Nat → UInt64} {params : ListParams}
    (h : settings.listQuery seeds params = .ok q) :
    (∀ r ∈ q.relations, r ∈ Related.relations) ∧ q.sorting.Declared := by
  obtain ⟨filter, -, h⟩ := exists_of_bind_ok h
  obtain ⟨sorting, hsorting, h⟩ := exists_of_bind_ok h
  obtain ⟨relations, hrelations, h⟩ := exists_of_bind_ok h
  obtain ⟨afterId, -, h⟩ := exists_of_bind_ok h
  cases h
  exact ⟨fun r hr => ((Include.read_ok hrelations).2.2 r hr).1, Sorting.declared_of_read hsorting⟩

/-- In whatever order optional filters come, their conjunction is there if one of them is, and it
matches what all of them match. So a list of the episodes of a show holds only episodes of the show,
whatever the caller's query is, and unless pages of no rows are asked for, a walk from the first
page on comes to an end and gives all episodes of the show that the caller's filter is true of, in
the order asked for. -/
theorem episodesOf_constrained :
    (∀ {α ι : Type} [Identity ι] [Resource α ι] {filters others : List (Option (Filter α ι))},
      others.Perm filters →
        (Filter.all others = none ↔ ∀ f ∈ filters, f = none) ∧
        ∀ f, Filter.all others = some f → ∀ row : α,
          f.isMatch row = true ↔ ∀ g, some g ∈ filters → g.isMatch row = true) ∧
    ∀ (history : List (Settings × Request)) (settings : Settings) (x : Identifier Int64)
      (q : ListQuery State Episode Int64),
      (∀ seeds params, settings.listQuery seeds params = .ok q →
        (∀ r ∈ q.relations, r ∈ Related.relations) ∧ q.sorting.Declared) ∧
      ((∀ r ∈ q.relations, r ∈ Related.relations) →
        let s := after history
        let order := Page.direction q.sorting q.pagination
        let asked := s.asked x q
        let loaded := Episode.including s q.relations.names
        (∃ page, (settings.episodesOf x q).exec s = (.ok page, s) ∧
          ∀ e ∈ page.items, e.isOf x = true ∧ ∃ row ∈ asked, loaded row = e) ∧
        (q.pagination.limit = 0 → settings.EpisodeWalk s x q [⟨[], none⟩]) ∧
        (q.sorting.Declared → 0 < q.pagination.limit → q.pagination.afterId = none →
          (order.sort asked).Perm asked ∧ order.Rising (order.sort asked) ∧
          ∃ pages, settings.EpisodeWalk s x q pages ∧
            Page.Tiles q.pagination.limit q.pagination.backwards pages
              ((order.sort asked).map loaded))) := by
  refine ⟨fun {α ι} _ _ {filters others} hperm => ⟨?_, fun f hf row => ?_⟩,
    fun history settings x q => ⟨fun _ _ => listQuery_ok, fun hrelations => ?_⟩⟩
  · rw [Filter.all_eq_none_iff]
    exact forall_congr' fun f => imp_congr_left hperm.mem_iff
  · rw [Filter.isMatch_all_iff hf]
    exact forall_congr' fun g => imp_congr_left hperm.mem_iff
  · intro s order asked loaded
    have hordered : Ordered s := after_ordered history
    exact ⟨exists_episodesOf_exec settings x hrelations,
      episodeWalk_of_limitZero settings x hrelations,
      fun hsorting hlimit hstart => ⟨OrderBy.sort_perm order asked,
        asked_rising x hordered hsorting,
        exists_episodeWalk settings x hordered hrelations hsorting hlimit hstart⟩⟩

/-- A show with three episodes beside another show with one. -/
def besideOtherShow : List (Settings × Request) :=
  [ ({}, .shows (.write (.create (.bare "a")))),
    ({}, .shows (.write (.create (.bare "b")))),
    ({}, .episodes (.write (.create (.bare "a-x" 1)))),
    ({}, .episodes (.write (.create (.bare "a-y" 1)))),
    ({}, .episodes (.write (.create (.bare "a-z" 1)))),
    ({}, .episodes (.write (.create (.bare "b-x" 2)))) ]

/-- The caller asks for the other show as well, with the shows loaded, one to a page and
backwards. -/
theorem episodesOf_constrained_otherShow :
    let q : ListQuery State Episode Int64 := {
      filter := some (.or (.cmp .eq Episode.showIdField (.int 2))
        (.not (.cmp .eq Episode.slugField (.text "a-y"))))
      sorting := [.by Episode.slugField true]
      relations := Related.relations
      pagination := { limit := 1, backwards := true } }
    (∀ r ∈ q.relations, r ∈ Related.relations) ∧ q.sorting.Declared ∧ 0 < q.pagination.limit ∧
      ∃ pages, ({} : Settings).EpisodeWalk (after besideOtherShow) (.slug "a") q pages ∧
        (pages.flatMap (Page.filled true)).map (fun e => (e.slug, e.showRow.map Show.slug)) =
          [("a-x", some "a"), ("a-z", some "a")] := by
  intro q
  have hrelations : ∀ r ∈ q.relations, r ∈ Related.relations := fun r hr => hr
  have hsorting : q.sorting.Declared := by
    intro field descending hterm
    cases List.mem_singleton.mp hterm
    simp [Resource.schema, Episode.schema]
  obtain ⟨-, -, hwalk⟩ :=
    (episodesOf_constrained.2 besideOtherShow {} (.slug "a") q).2 hrelations
  obtain ⟨-, -, pages, hpages, htiles⟩ := hwalk hsorting (by decide) rfl
  refine ⟨hrelations, hsorting, by decide, pages, hpages, ?_⟩
  rw [htiles.flatMap_filled]
  decide +kernel

/-- A walk through pages of no rows ends at once, without the episodes of the show. -/
theorem episodesOf_limitZero :
    let q : ListQuery State Episode Int64 := { pagination := { limit := 0 } }
    (∃ e ∈ (after besideOtherShow).episodes.rows,
      e.isOf (.id 1) = true ∧ Query.selects q.filter e = true) ∧
    ∃ pages, ({} : Settings).EpisodeWalk (after besideOtherShow) (.id 1) q pages ∧
      pages.flatMap Page.items = [] := by
  intro q
  exact ⟨by decide +kernel, [⟨[], none⟩],
    episodeWalk_of_limitZero {} (.id 1) (List.forall_mem_nil _) rfl, rfl⟩

end Catalog
end Repertory
