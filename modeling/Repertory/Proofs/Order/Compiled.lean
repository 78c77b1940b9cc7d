import Repertory.Proofs.Action
import Repertory.Proofs.Catalog.Conforms
import Repertory.Proofs.Order.Keyset

/-!
# Orders that sortings compile to

A schema that is built from a declaration sorts by fields of its own, and so does a sorting that
names declared fields. Rows that conform to the schema therefore conform wherever such an order
looks, forwards or backwards, and its keyset filter is the order itself (`keysetAfter_compiled`).
-/

namespace Repertory

/-! ## Schemas built from a declaration -/

/-- The id and the fields that rows are sorted by are among the fields. -/
structure Schema.Closed {α : Type} (schema : Schema α) : Prop where
  id : schema.id ∈ schema.fields
  defaultSort : ∀ term ∈ schema.defaultSort, term.1 ∈ schema.fields

namespace SchemaDecl

variable {α : Type}

theorem mem_of_resolveNames {fields found : List (Field α)} {names : List String}
    (h : resolveNames fields names = .ok found) : ∀ f ∈ found, f ∈ fields := by
  induction names generalizing found with
  | nil =>
    cases h
    exact List.forall_mem_nil _
  | cons name rest ih =>
    rw [resolveNames] at h
    split at h
    · cases h
    · rename_i f hfind
      cases hrest : resolveNames fields rest with
      | error missing =>
        rw [hrest] at h
        cases h
      | ok others =>
        rw [hrest] at h
        cases h
        exact List.forall_mem_cons.mpr ⟨List.mem_of_find?_eq_some hfind, ih hrest⟩

theorem build_closed {decl : SchemaDecl α} {schema : Schema α} (h : decl.build = .ok schema) :
    schema.Closed := by
  obtain ⟨sortFields, hsort, h⟩ := exists_of_bind_ok h
  obtain ⟨search, -, h⟩ := exists_of_bind_ok h
  cases h
  refine ⟨List.mem_cons_self, fun term hterm => ?_⟩
  dsimp only at hterm ⊢
  split at hterm
  · -- Nothing was declared to sort by, so rows are sorted by the slug.
    rw [List.mem_singleton.mp hterm]
    exact List.mem_cons_of_mem _ List.mem_cons_self
  · exact mem_of_resolveNames hsort _ (List.of_mem_zip hterm).1

end SchemaDecl

/-! ## Orders over declared fields -/

variable {α ι : Type} [Identity ι] [Resource α ι]

/-- The fields that the sorting names are fields of the schema. -/
def Sorting.Declared (sorting : Sorting α) : Prop :=
  ∀ field descending, SortTerm.by field descending ∈ sorting →
    field ∈ (Resource.schema (α := α)).fields

theorem SortTerm.mem_fields_of_read {seed : UInt64} {token : String} {field : Field α}
    {descending : Bool} (h : SortTerm.read seed token = .ok (.by field descending)) :
    field ∈ (Resource.schema (α := α)).fields := by
  rw [SortTerm.read] at h
  split at h
  · cases h
  · split at h
    · cases h
    · split at h
      · cases h
      · dsimp only at h
        split at h
        · cases hseed : readSeed token (Text.splitFirst ':' token.toList).2 with
          | error e =>
            rw [hseed] at h
            cases h
          | ok n =>
            rw [hseed] at h
            cases h
        · obtain ⟨_, -, h⟩ := exists_of_bind_ok h
          split at h
          · rename_i found hfound
            cases h
            exact List.mem_of_find?_eq_some hfound
          · cases h

/-- Sortings that are read from text name declared fields only. -/
theorem Sorting.declared_of_read {seeds : Nat → UInt64} {text : Option String}
    {sorting : Sorting α} (h : Sorting.read seeds text = .ok sorting) : sorting.Declared := by
  have hterms : ∀ (n : Nat) (tokens : List String) (sorting : Sorting α),
      Sorting.readTerms seeds n tokens = .ok sorting → sorting.Declared := by
    intro n tokens
    induction tokens generalizing n with
    | nil =>
      intro sorting h
      cases h
      exact fun _ _ hterm => absurd hterm List.not_mem_nil
    | cons token rest ih =>
      intro sorting h
      obtain ⟨term, hterm, h⟩ := exists_of_bind_ok h
      obtain ⟨terms, hterms, h⟩ := exists_of_bind_ok h
      cases h
      intro field descending hmem
      rcases List.mem_cons.mp hmem with rfl | hmem
      · exact SortTerm.mem_fields_of_read hterm
      · exact ih _ _ hterms field descending hmem
  have hdefault : Sorting.Declared ([.default] : Sorting α) := fun _ _ hterm => by
    cases List.mem_singleton.mp hterm
  rw [Sorting.read.eq_def] at h
  split at h
  · cases h
    exact hdefault
  · split at h
    · cases h
      exact hdefault
    · exact hterms _ _ _ h

namespace OrderBy

/-- The orders that such sortings compile to, and these orders read backwards. -/
inductive Compiled : OrderBy α → Prop where
  | compile {sorting : Sorting α} (h : sorting.Declared) : Compiled sorting.compile
  | inverted {keys : OrderBy α} (h : Compiled keys) : Compiled keys.inverted

/-- A key of a compiled order that looks at a field looks at one of the schema. -/
theorem mem_fields_of_compile (hschema : (Resource.schema (α := α)).Closed) {sorting : Sorting α}
    (h : sorting.Declared) {key : OrderKey α} (hkey : key ∈ sorting.compile) {field : Field α}
    (htarget : key.target = .field field) : field ∈ (Resource.schema (α := α)).fields := by
  rcases List.mem_append.mp hkey with hkey | hkey
  · obtain ⟨term, hterm, hkey⟩ := List.mem_flatMap.mp hkey
    cases term with
    | default =>
      obtain ⟨entry, hentry, rfl⟩ := List.mem_map.mp hkey
      cases htarget
      exact hschema.defaultSort entry hentry
    | «by» named descending =>
      obtain rfl := List.mem_singleton.mp hkey
      cases htarget
      exact h field descending hterm
    | random seed =>
      obtain rfl := List.mem_singleton.mp hkey
      cases htarget
  · obtain rfl := List.mem_singleton.mp hkey
    cases htarget
    exact hschema.id

namespace Compiled

variable {keys : OrderBy α}

theorem mem_fields (h : Compiled keys) (hschema : (Resource.schema (α := α)).Closed)
    {key : OrderKey α} (hkey : key ∈ keys) {field : Field α} (htarget : key.target = .field field) :
    field ∈ (Resource.schema (α := α)).fields := by
  induction h generalizing key with
  | compile h => exact mem_fields_of_compile hschema h hkey htarget
  | inverted _ ih =>
    obtain ⟨turned, hturned, rfl⟩ := List.mem_map.mp hkey
    exact ih hturned htarget

theorem conformsAt (h : Compiled keys) (hschema : (Resource.schema (α := α)).Closed) {row : α}
    (hrow : (Resource.schema (α := α)).Conforms row) : keys.ConformsAt row :=
  conformsAt_of_conforms hrow fun _ hkey _ => h.mem_fields hschema hkey

theorem breaksTies (h : Compiled keys) : keys.BreaksTies := by
  induction h with
  | compile h => exact compile_breaksTies _
  | inverted _ ih => exact inverted_breaksTies ih

end Compiled

/-- Behind every row there is a keyset filter, and it matches a row exactly if the order puts the
row behind. -/
theorem keysetAfter_compiled {decl : SchemaDecl α}
    (hschema : decl.build = .ok (Resource.schema (α := α))) {keys : OrderBy α}
    (hkeys : Compiled keys) {row reference : α} (hrow : (Resource.schema (α := α)).Conforms row)
    (href : (Resource.schema (α := α)).Conforms reference) :
    ∃ behind : Filter α ι, keysetAfter keys reference = some behind ∧
      (behind.isMatch row = true ↔ order keys row reference = .gt) := by
  have hclosed := SchemaDecl.build_closed hschema
  have hmatch := keysetAfter_isMatch (ι := ι) (hkeys.conformsAt hclosed hrow)
    (hkeys.conformsAt hclosed href)
  obtain ⟨behind, hbehind⟩ :=
    Option.isSome_iff_exists.mp (keysetAfter_isSome (ι := ι) hkeys.breaksTies reference)
  rw [hbehind, Option.any_some] at hmatch
  exact ⟨behind, hbehind, hmatch⟩

end OrderBy

def Catalog.Show.decl : SchemaDecl Show where
  id := idField
  slug := slugField
  fields := [nameField, statusField, genresField, airDateField, ratingField, studioIdField]
  relations := [studioSlot, collectionsSlot]
  defaultSort := [("name", false)]
  search := ["name", "slug"]

theorem Catalog.Show.build_decl : decl.build = .ok (Resource.schema (α := Show)) := by rfl

namespace OrderBy

open Catalog in
/-- Backwards, a show with a rating comes behind one without, though the rating is the third key and
comes once more later. -/
theorem keysetAfter_compiled_shows :
    let sorting : Sorting Show := [.by Show.genresField true, .default, .by Show.ratingField true,
      .random 7, .by Show.ratingField false]
    let unrated : Show :=
      ⟨1, "a", "A", none, .unknown, ["drama"], none, none, none, none, none⟩
    let rated : Show :=
      ⟨2, "b", "A", none, .unknown, ["drama"], none, some (.ofInt 5), none, none, none⟩
    Show.decl.build = .ok Show.schema ∧ sorting.Declared ∧ Show.schema.Conforms rated ∧
      Show.schema.Conforms unrated ∧
      ∃ behind : Filter Show Int64, keysetAfter sorting.compile.inverted unrated = some behind ∧
        behind.isMatch rated = true := by
  intro sorting unrated rated
  have hsorting : sorting.Declared := by
    intro field descending hterm
    have hterms : SortTerm.by field descending ∈ [_, _, _, _, _] := hterm
    simp only [List.mem_cons, List.not_mem_nil, or_false, SortTerm.by.injEq, reduceCtorEq,
      false_or] at hterms
    rcases hterms with ⟨rfl, -⟩ | ⟨rfl, -⟩ | ⟨rfl, -⟩ <;> simp [Resource.schema, Show.schema]
  obtain ⟨behind, hbehind, hmatch⟩ := keysetAfter_compiled Show.build_decl
    (.inverted (.compile hsorting)) rated.conforms unrated.conforms
  exact ⟨Show.build_decl, hsorting, rated.conforms, unrated.conforms, behind, hbehind,
    hmatch.mpr (by decide)⟩

end OrderBy
end Repertory
