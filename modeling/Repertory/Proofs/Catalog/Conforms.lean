import Repertory.Catalog.LibraryItem
import Repertory.Catalog.State
import Repertory.Proofs.Order.Rows

/-!
# Rows of a catalog conform

The types of a catalog leave their rows no way to break their schemas: each field yields a value of
its kind, and a null only where it is declared to.
-/

namespace Repertory

/-- A row that conforms to its schema conforms wherever an order over declared fields looks. -/
theorem OrderBy.conformsAt_of_conforms {α ι : Type} [Identity ι] [Resource α ι]
    {keys : OrderBy α} {row : α} (hrow : (Resource.schema (α := α)).Conforms row)
    (hkeys : ∀ key ∈ keys, ∀ field, key.target = .field field →
      field ∈ (Resource.schema (α := α)).fields) :
    keys.ConformsAt row := by
  intro key hkey
  rw [OrderKey.ConformsAt]
  cases htarget : key.target with
  | random seed => trivial
  | field field => exact hrow field (hkeys key hkey field htarget)

namespace FieldKind

@[simp]
theorem admits_int (n : Int64) : int.Admits (.int n) := trivial

@[simp]
theorem admits_float (x : Binary64) : float.Admits (.float x) := trivial

@[simp]
theorem admits_date (d : Date) : date.Admits (.date d) := trivial

@[simp]
theorem admits_text (s : String) : text.Admits (.text s) := trivial

@[simp]
theorem admits_choice (words : List String) (s : String) : (choice words).Admits (.text s) :=
  trivial

@[simp]
theorem admits_ofOption {kind : FieldKind} {X : Type} {image : X → Value}
    (h : ∀ x, kind.Admits (image x)) (o : Option X) :
    kind.Admits (.ofOption image o) ∨ Value.ofOption image o = .null := by
  cases o with
  | none => exact Or.inr rfl
  | some x => exact Or.inl (h x)

@[simp]
theorem admits_textList (words : List String) : textList.Admits (.list (words.map .text)) := by
  intro v hv
  obtain ⟨word, -, rfl⟩ := List.mem_map.mp hv
  exact ⟨word, rfl⟩

end FieldKind

namespace Catalog

theorem Studio.conforms (row : Studio) : Studio.schema.Conforms row := by
  simp [Schema.Conforms, schema, idField, slugField, nameField]

theorem Collection.conforms (row : Collection) : Collection.schema.Conforms row := by
  simp [Schema.Conforms, schema, idField, slugField, nameField, overviewField]

theorem Collection.conformsAt_byOverview (descending : Bool) (row : Collection) :
    (Sorting.compile [.by overviewField descending]).ConformsAt row := by
  refine OrderBy.conformsAt_of_conforms row.conforms fun key hkey field hfield => ?_
  have hkeys : key ∈ [_, _] := hkey
  simp only [List.mem_cons, List.not_mem_nil, or_false] at hkeys
  rcases hkeys with rfl | rfl <;> cases hfield <;> simp [Resource.schema, schema]

theorem Show.conforms (row : Show) : Show.schema.Conforms row := by
  simp [Schema.Conforms, schema, idField, slugField, nameField, statusField, genresField,
    airDateField, ratingField, studioIdField]

theorem Season.conforms (row : Season) : Season.schema.Conforms row := by
  simp [Schema.Conforms, schema, idField, slugField, showIdField, seasonNumberField, nameField,
    startDateField]

theorem Episode.conforms (row : Episode) : Episode.schema.Conforms row := by
  simp [Schema.Conforms, schema, idField, slugField, showIdField, showSlugField, seasonIdField,
    seasonNumberField, episodeNumberField, absoluteNumberField, nameField, releaseDateField]

theorem LibraryItem.conforms (row : LibraryItem) : LibraryItem.schema.Conforms row := by
  simp [Schema.Conforms, schema, idField, slugField, nameField, kindField, statusField,
    airDateField]

end Catalog
end Repertory
