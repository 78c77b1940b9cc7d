import Repertory.Catalog.Show
import Repertory.Proofs.Filter.Match
import Repertory.Proofs.Text.Case

/-!
# Searches

A search puts its needle and the texts of a row into lower case, each by itself, and looks for the
one in the others. It finds a needle wherever it occurs as it is written, unless the needle has a
capital sigma whose form depends on what stands around the needle (`search_finds_iff`).
-/

namespace Repertory
namespace Filter

/-- A search finds its needle in every text of every row in which it occurs, whatever is searched
besides, exactly if the needle keeps its sigmas. -/
theorem search_finds_iff (needle : String) :
    (∀ (α ι : Type) [Identity ι] [Resource α ι] (row : α) (fields : List (Field α)),
      ∀ field ∈ fields, ∀ text, field.get row = .text text → needle.toList <:+: text.toList →
        (contains fields needle : Filter α ι).isMatch row = true) ↔
      Text.keepsSigmas needle = true := by
  rw [← Text.contains_lowercase_iff]
  constructor
  · intro h text hoccurs
    -- The text can be the name of a show, and only names are searched.
    let row : Catalog.Show :=
      ⟨1, "a", text, none, .unknown, [], none, none, none, none, none⟩
    have hmatch := h Catalog.Show Int64 row [Catalog.Show.nameField] Catalog.Show.nameField
      List.mem_cons_self text rfl hoccurs
    obtain ⟨field, hfield, found, hget, hcontains⟩ := isMatch_contains_iff.mp hmatch
    obtain rfl := List.mem_singleton.mp hfield
    cases hget
    exact hcontains
  · intro h α ι _ _ row fields field hfield text hget hoccurs
    exact isMatch_contains_iff.mpr ⟨field, hfield, text, hget, h text hoccurs⟩

open Catalog in
/-- At the end of the needle the sigma ends a word, in the name it does not. -/
example :
    let row : Show := ⟨1, "a", "ΑΣΑ", none, .unknown, [], none, none, none, none, none⟩
    Text.keepsSigmas "ΑΣ" = false ∧
      (contains [Show.nameField] "ΑΣ" : Filter Show Int64).isMatch row = false ∧
      (contains [Show.nameField] "ΣΑ" : Filter Show Int64).isMatch row = true := by
  decide +kernel

end Filter
end Repertory
