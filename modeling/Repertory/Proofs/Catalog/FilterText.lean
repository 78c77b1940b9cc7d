import Repertory.Catalog.Episode
import Repertory.Catalog.LibraryItem
import Repertory.Catalog.Studio
import Repertory.Proofs.Filter.Derived

/-!
# Filter text of the catalog
-/

namespace Repertory
namespace Catalog

theorem Studio.schema_wellNamed : Studio.schema.WellNamed := ⟨by decide, by decide⟩

theorem Show.schema_wellNamed : Show.schema.WellNamed := ⟨by decide, by decide⟩

theorem Season.schema_wellNamed : Season.schema.WellNamed := ⟨by decide, by decide⟩

theorem Episode.schema_wellNamed : Episode.schema.WellNamed := ⟨by decide, by decide⟩

theorem Collection.schema_wellNamed : Collection.schema.WellNamed := ⟨by decide, by decide⟩

theorem LibraryItem.schema_wellNamed : LibraryItem.schema.WellNamed := ⟨by decide, by decide⟩

/-- Filter text on these rows is read exactly if its tokens derive from the grammar, with at most 64
`not`s and parentheses around each part, and as the filter that they derive. -/
def ReadByGrammar (α : Type) [Resource α Int64] : Prop :=
  ∀ (text : String) (f : Filter α Int64),
    Filter.parse text = .ok f ↔
      ∃ tokens, Token.Splits text.toList tokens ∧ Grammar.Disjunction 64 tokens f

theorem filterText_readByGrammar :
    ReadByGrammar Studio ∧ ReadByGrammar Show ∧ ReadByGrammar Season ∧ ReadByGrammar Episode ∧
      ReadByGrammar Collection ∧ ReadByGrammar LibraryItem :=
  ⟨fun _ _ => Filter.parse_eq_ok_iff Studio.schema_wellNamed,
    fun _ _ => Filter.parse_eq_ok_iff Show.schema_wellNamed,
    fun _ _ => Filter.parse_eq_ok_iff Season.schema_wellNamed,
    fun _ _ => Filter.parse_eq_ok_iff Episode.schema_wellNamed,
    fun _ _ => Filter.parse_eq_ok_iff Collection.schema_wellNamed,
    fun _ _ => Filter.parse_eq_ok_iff LibraryItem.schema_wellNamed⟩

end Catalog
end Repertory
