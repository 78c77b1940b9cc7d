import Repertory.Proofs.Catalog.FilterText
import Repertory.Proofs.Filter.Writing

/-!
# Texts in catalog filters

The names of all fields of a catalog are words that lead to their fields, so every text can be
written where one of its text fields is compared (`takesEveryText_textFields`).
-/

namespace Repertory

theorem Schema.WellNamed.readable {α : Type} {schema : Schema α} (hschema : schema.WellNamed)
    (hwords : ∀ field ∈ schema.fields, Token.IsWord field.name) :
    ∀ field ∈ schema.fields, schema.Readable field :=
  fun field hfield => ⟨hschema.resolves hfield, hwords field hfield⟩

namespace Catalog

open Repertory.Filter Grammar

theorem Studio.readable : ∀ field ∈ Studio.schema.fields, Studio.schema.Readable field :=
  Studio.schema_wellNamed.readable (by decide)

theorem Show.readable : ∀ field ∈ Show.schema.fields, Show.schema.Readable field :=
  Show.schema_wellNamed.readable (by decide)

theorem Season.readable : ∀ field ∈ Season.schema.fields, Season.schema.Readable field :=
  Season.schema_wellNamed.readable (by decide)

theorem Episode.readable : ∀ field ∈ Episode.schema.fields, Episode.schema.Readable field :=
  Episode.schema_wellNamed.readable (by decide)

theorem Collection.readable :
    ∀ field ∈ Collection.schema.fields, Collection.schema.Readable field :=
  Collection.schema_wellNamed.readable (by decide)

theorem LibraryItem.readable :
    ∀ field ∈ LibraryItem.schema.fields, LibraryItem.schema.Readable field :=
  LibraryItem.schema_wellNamed.readable (by decide)

def TextFieldsTakeEveryText (α : Type) [Resource α Int64] : Prop :=
  ∀ field ∈ (Resource.schema (α := α)).fields, field.kind = .text → TakesEveryText field

/-- A field of texts can be compared with every text, if its name is a word that leads to it. That
is so of all fields of the catalog. -/
theorem takesEveryText_textFields :
    (∀ {α ι : Type} [Identity ι] [Resource α ι] (field : Field α),
      (Resource.schema (α := α)).Readable field → field.kind = .text → TakesEveryText field) ∧
    TextFieldsTakeEveryText Studio ∧ TextFieldsTakeEveryText Show ∧
    TextFieldsTakeEveryText Season ∧ TextFieldsTakeEveryText Episode ∧
    TextFieldsTakeEveryText Collection ∧ TextFieldsTakeEveryText LibraryItem :=
  ⟨fun _ => takesEveryText,
    fun field hfield => takesEveryText (Studio.readable field hfield),
    fun field hfield => takesEveryText (Show.readable field hfield),
    fun field hfield => takesEveryText (Season.readable field hfield),
    fun field hfield => takesEveryText (Episode.readable field hfield),
    fun field hfield => takesEveryText (Collection.readable field hfield),
    fun field hfield => takesEveryText (LibraryItem.readable field hfield)⟩

/-- A text that ends in a backslash. The other items of the list are a word behind a blank and a
null. -/
theorem takesEveryText_textFields_backslash :
    let f : Filter Show Int64 := .cmp .eq Show.nameField (.text "a\"]b\\")
    let g : Filter Show Int64 :=
      .oneOf Show.nameField [.text "x", .text "a\"]b\\", .null]
    Show.nameField ∈ Show.schema.fields ∧ Show.nameField.kind = .text ∧
      Show.schema.Readable Show.nameField ∧
      parse "name eq \"a\\\"]b\\\\\"" = .ok f ∧
      parse "name in [ x,\"a\\\"]b\\\\\",null]" = .ok g := by
  intro f g
  have hfield : Show.nameField ∈ Show.schema.fields := by simp [Show.schema]
  have hreadable := Show.readable _ hfield
  obtain ⟨heq, hlist⟩ :=
    takesEveryText_textFields.1 Show.nameField hreadable rfl '"' (.inl rfl) "a\"]b\\"
  have hword : Writes (Literal .text) " x".toList (.text "x") :=
    (writes_word (w := "x") (by decide) rfl rfl).blank
  have hitems := hlist _ _ _ _ (.cons hword .nil) (.cons writes_null .nil)
  exact ⟨hfield, rfl, hreadable, heq, hitems⟩

end Catalog
end Repertory
