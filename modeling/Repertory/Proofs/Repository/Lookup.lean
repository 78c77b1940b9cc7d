import Repertory.Proofs.Number.Integer
import Repertory.Proofs.Repository.CreateIfNotExists
import Repertory.Proofs.Store.Calls

/-!
# Looking rows up

Under an identifier a reader gets a row that has it as its id or slug, except that the slug
`random` gives any row (`Repository.get_found`). So a row of a table is found under its id and under
its slug (`Repository.addresses_of_mem`). Both are read from text: the text of an id reads as the
id, and an admissible slug, which does not read as an id, as a slug. Neither leads to another row,
since ids and slugs are keys of the table.
-/

namespace Repertory

theorem Identifier.read_text (id : Int64) :
    Identifier.read (Identity.text id) = .ok (.id id) := by
  have hread : Identity.read (Identity.text id) = some id := Number.readSigned_signedText id
  rw [read, hread]

theorem AdmissibleSlug.read {slug : String} (h : AdmissibleSlug Int64 slug) :
    (Identifier.read slug : Except QueryError (Identifier Int64)) = .ok (.slug slug) := by
  rw [Identifier.read, h.not_id, Identifier.bySlug, h.not_blank]
  rfl

section

variable {α ι : Type} [Identity ι] [Resource α ι]

theorem Identifier.isMatch_filter (x : Identifier ι) (row : α) :
    (x.filter : Filter α ι).isMatch row = x.addresses row := by
  cases x with
  | id i =>
    rw [Bool.eq_iff_iff, addresses, decide_eq_true_iff]
    exact iff_of_eq (Filter.isMatch_idEq i row)
  | slug slug => exact (Filter.isMatch_slug slug row).trans (beq_eq_decide _ _).symm

end

/-- Ids and slugs are keys, so an identifier addresses at most one row. -/
theorem Table.Sound.eq_of_addresses {α : Type} [Resource α Int64] {table : Table α Int64}
    (h : Sound table) {x : Identifier Int64} {a b : α} (ha : a ∈ table.rows) (hb : b ∈ table.rows)
    (hxa : x.addresses a = true) (hxb : x.addresses b = true) : a = b := by
  cases x with
  | id i =>
    have hid : Resource.id a = Resource.id b :=
      (of_decide_eq_true hxa).trans (of_decide_eq_true hxb).symm
    exact h.ascending.eq_of_id_eq ha hb hid
  | slug slug =>
    have hslug : Resource.slug a = Resource.slug b :=
      (beq_iff_eq.mp hxa).trans (beq_iff_eq.mp hxb).symm
    exact h.eq_of_slug_eq ha hb hslug

namespace Repository

section

variable {σ α ι : Type} [Identity ι] [Resource α ι] {lens : Lens σ (Table α ι)}
  {hooks : Hooks σ α} {searchLimit : Nat} {seed : UInt64} {s : σ}

theorem get?_exec (id : Identifier ι) :
    ((ofStore (Table.store lens) hooks searchLimit seed).get? id).exec s =
      (.ok (Query.run { (ofStore (Table.store lens) hooks searchLimit seed).lookup id with
        limit := some 1 } (lens.get s).rows).head?, s) := rfl

theorem get_exec_of_get? {repo : Repository σ α ι} {id : Identifier ι} {row : α}
    (h : (repo.get? id).exec s = (.ok (some row), s)) : (repo.get id).exec s = (.ok row, s) := by
  rw [get, Action.exec_bind, h]
  rfl

theorem lookup_of_ne_random {x : Identifier ι} (h : x ≠ .slug randomSlug) :
    (ofStore (Table.store lens) hooks searchLimit seed).lookup x = { filter := some x.filter } := by
  cases x with
  | id i => rfl
  | slug slug => exact if_neg fun hslug => h (congrArg Identifier.slug hslug)

theorem get?_of_ne_random {x : Identifier ι} (h : x ≠ .slug randomSlug) :
    ((ofStore (Table.store lens) hooks searchLimit seed).get? x).exec s =
      (.ok ((lens.get s).rows.find? fun row => x.addresses row), s) := by
  have hselects : (Query.selects (some x.filter) : α → Bool) = fun row => x.addresses row :=
    funext x.isMatch_filter
  rw [get?_exec, lookup_of_ne_random h]
  show (Except.ok (((lens.get s).rows.filter (Query.selects (some x.filter))).take 1).head?, s) = _
  rw [hselects, List.head?_take, if_neg Nat.one_ne_zero, List.head?_filter]

section

variable (lens) (hooks) (searchLimit) (seed) (s)

theorem get?_random :
    (∃ row ∈ (lens.get s).rows,
      ((ofStore (Table.store lens) hooks searchLimit seed).get? (.slug randomSlug)).exec s =
        (.ok (some row), s)) ∨
    (lens.get s).rows = [] ∧
      ((ofStore (Table.store lens) hooks searchLimit seed).get? (.slug randomSlug)).exec s =
        (.ok none, s) := by
  have hlookup : (ofStore (Table.store lens) hooks searchLimit seed).lookup (.slug randomSlug) =
      { order := some (Sorting.compile [.random seed]) } := by
    rw [lookup, if_pos rfl]
    rfl
  rw [get?_exec, hlookup]
  cases hhead : (Query.run ({ order := some (Sorting.compile [.random seed]), limit := some 1 } :
      Query α ι) (lens.get s).rows).head? with
  | some row => exact Or.inl ⟨row, (Query.mem_run (List.mem_of_head? hhead)).1, rfl⟩
  | none =>
    have hnone : (OrderBy.sort (Sorting.compile [.random seed])
        ((lens.get s).rows.filter (Query.selects none))).take 1 = [] :=
      List.head?_eq_none_iff.mp hhead
    have hsorted : OrderBy.sort (Sorting.compile [.random seed])
        ((lens.get s).rows.filter (Query.selects none)) = [] :=
      (List.take_eq_nil_iff.mp hnone).resolve_left Nat.one_ne_zero
    have hnil : (lens.get s).rows.filter (Query.selects none) = [] :=
      List.perm_nil.mp (hsorted ▸ (OrderBy.sort_perm _ _).symm)
    refine Or.inr ⟨List.eq_nil_iff_forall_not_mem.mpr fun row hrow => ?_, rfl⟩
    exact List.filter_eq_nil_iff.mp hnil row hrow rfl

theorem get?_found (x : Identifier ι) :
    (∃ row ∈ (lens.get s).rows, (x ≠ .slug randomSlug → x.addresses row = true) ∧
      ((ofStore (Table.store lens) hooks searchLimit seed).get? x).exec s = (.ok (some row), s)) ∨
    (∀ row ∈ (lens.get s).rows, x ≠ .slug randomSlug ∧ x.addresses row = false) ∧
      ((ofStore (Table.store lens) hooks searchLimit seed).get? x).exec s = (.ok none, s) := by
  by_cases hrandom : x = .slug randomSlug
  · subst hrandom
    rcases get?_random lens hooks searchLimit seed s with ⟨row, hrow, hget⟩ | ⟨hempty, hget⟩
    · exact Or.inl ⟨row, hrow, fun h => absurd rfl h, hget⟩
    · exact Or.inr ⟨hempty ▸ List.forall_mem_nil _, hget⟩
  · rw [get?_of_ne_random hrandom]
    cases hfind : (lens.get s).rows.find? fun row => x.addresses row with
    | some row =>
      have haddressed : x.addresses row = true :=
        List.find?_some (p := fun row => x.addresses row) hfind
      exact Or.inl ⟨row, List.mem_of_find?_eq_some hfind, fun _ => haddressed, rfl⟩
    | none =>
      refine Or.inr ⟨fun row hrow => ⟨hrandom, ?_⟩, rfl⟩
      simpa using List.find?_eq_none.mp hfind row hrow

/-- Under an identifier a reader gets a row that it addresses, under the slug for a random row any
row, and an error only if there is no such row. -/
theorem get_found (x : Identifier ι) :
    (∃ row ∈ (lens.get s).rows, (x ≠ .slug randomSlug → x.addresses row = true) ∧
      ((ofStore (Table.store lens) hooks searchLimit seed).get x).exec s = (.ok row, s)) ∨
    (∀ row ∈ (lens.get s).rows, x ≠ .slug randomSlug ∧ x.addresses row = false) ∧
      ((ofStore (Table.store lens) hooks searchLimit seed).get x).exec s =
        (.error (.notFound (Resource.kind α) x.display), s) := by
  rcases get?_found lens hooks searchLimit seed s x with
    ⟨row, hrow, haddressed, hget⟩ | ⟨hmissing, hget⟩
  · exact Or.inl ⟨row, hrow, haddressed, get_exec_of_get? hget⟩
  · refine Or.inr ⟨hmissing, ?_⟩
    rw [get, Action.exec_bind, hget]
    rfl

end

end

section

variable {σ α : Type} [Resource α Int64]

/-- A row is found under the texts of its id and its slug, and its slug is its own. -/
structure Addresses (repo : Repository σ α Int64) (table : Table α Int64) (s : σ) (row : α) :
    Prop where
  byId : ∃ x, Identifier.read (Identity.text (Resource.id row)) = .ok x ∧
    (repo.get x).exec s = (.ok row, s)
  bySlug : ∃ x, Identifier.read (Resource.slug row) = .ok x ∧ (repo.get x).exec s = (.ok row, s)
  admissible : AdmissibleSlug Int64 (Resource.slug row)
  own : ∀ other ∈ table.rows, Resource.slug other = Resource.slug row → other = row

variable (lens : Lens σ (Table α Int64)) {hooks : Hooks σ α} {searchLimit : Nat} {seed : UInt64}
  {s : σ}

/-- The row that an identifier addresses is the one that a reader gets under it. -/
theorem get_addressed (h : Table.Sound (lens.get s)) {row : α} (hrow : row ∈ (lens.get s).rows)
    {x : Identifier Int64} (hx : x.addresses row = true) (hrandom : x ≠ .slug randomSlug) :
    ((ofStore (Table.store lens) hooks searchLimit seed).get x).exec s = (.ok row, s) := by
  rcases get_found lens hooks searchLimit seed s x with
    ⟨found, hfound, haddressed, hget⟩ | ⟨hmissing, -⟩
  · obtain rfl : found = row := h.eq_of_addresses hfound hrow (haddressed hrandom) hx
    exact hget
  · rw [(hmissing row hrow).2] at hx
    cases hx

theorem addresses_of_mem (h : Table.Sound (lens.get s)) (hslugs : AdmissibleSlugs (lens.get s).rows)
    {row : α} (hrow : row ∈ (lens.get s).rows) :
    (ofStore (Table.store lens) hooks searchLimit seed).Addresses (lens.get s) s row where
  byId := by
    have hx : (Identifier.id (Resource.id row)).addresses row = true := decide_eq_true rfl
    exact ⟨_, Identifier.read_text _, get_addressed lens h hrow hx (by simp)⟩
  bySlug := by
    have hslug : AdmissibleSlug Int64 (Resource.slug row) := hslugs row hrow
    have hx : (Identifier.slug (Resource.slug row)).addresses row = true := beq_self_eq_true _
    refine ⟨_, hslug.read, get_addressed lens h hrow hx fun hrandom => hslug.not_random ?_⟩
    exact Identifier.slug.inj hrandom
  admissible := hslugs row hrow
  own other hother hslug := h.eq_of_slug_eq hother hrow hslug

end

end Repository
end Repertory
