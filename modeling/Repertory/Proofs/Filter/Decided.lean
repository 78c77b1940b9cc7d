import Repertory.Proofs.Catalog.Conforms
import Repertory.Proofs.Filter.Match
import Repertory.Proofs.Filter.Scan
import Repertory.Proofs.Filter.Typed

/-!
# Decided filters

A row for which a filter is undecided matches neither the filter nor its negation. Values of one
kind always compare, so a filter whose literals are of the kinds of its fields is undecided only
where a null takes part: one of a field, or one among the values that a field is looked up in
(`Typed.eval_isSome`). That holds of every filter that was read from a text (`parse_decided`).
-/

namespace Repertory
namespace Truth

theorem isSome_not {a : Truth} (ha : a.isSome) : a.not.isSome := by
  obtain ⟨p, rfl⟩ := Option.isSome_iff_exists.mp ha
  rfl

theorem isSome_and {a b : Truth} (ha : a.isSome) (hb : b.isSome) : (a.and b).isSome := by
  obtain ⟨p, rfl⟩ := Option.isSome_iff_exists.mp ha
  obtain ⟨q, rfl⟩ := Option.isSome_iff_exists.mp hb
  cases p <;> cases q <;> rfl

theorem isSome_or {a b : Truth} (ha : a.isSome) (hb : b.isSome) : (a.or b).isSome := by
  obtain ⟨p, rfl⟩ := Option.isSome_iff_exists.mp ha
  obtain ⟨q, rfl⟩ := Option.isSome_iff_exists.mp hb
  cases p <;> cases q <;> rfl

theorem isSome_any {answers : List Truth} (h : ∀ a ∈ answers, a.isSome) :
    (any answers).isSome := by
  induction answers with
  | nil => rfl
  | cons a rest ih =>
    rw [List.forall_mem_cons] at h
    exact isSome_or h.1 (ih h.2)

end Truth

namespace Filter

section

variable {α ι : Type}

/-- The fields whose values the filter looks at. -/
def fields : Filter α ι → List (Field α)
  | and a b => a.fields ++ b.fields
  | or a b => a.fields ++ b.fields
  | not a => a.fields
  | cmp _ field _ => [field]
  | has field _ => [field]
  | oneOf field _ => [field]
  | contains fields _ => fields
  | random _ _ _ => []
  | satisfies _ => []

/-- The literals of the filter that are looked for in a collection or make up a list. -/
def members : Filter α ι → List Value
  | and a b => a.members ++ b.members
  | or a b => a.members ++ b.members
  | not a => a.members
  | has _ literal => [literal]
  | oneOf _ literals => literals
  | _ => []

end

variable {α ι : Type} [Identity ι] [Resource α ι]

/-- A typed filter is decided of a row if no null takes part in it but those of `eq null` and
`ne null`. -/
theorem Typed.eval_isSome {f : Filter α ι} (hf : f.Typed) {row : α}
    (hrow : ∀ field ∈ (Resource.schema (α := α)).fields, field.kind.AdmitsOrNull (field.get row))
    (hfields : ∀ field ∈ f.fields, field.get row ≠ .null)
    (hmembers : ∀ literal ∈ f.members, literal ≠ .null) : (f.eval row).isSome := by
  have hvalue : ∀ field : Field α, Declared field → field.get row ≠ .null →
      field.kind.Admits (field.get row) := fun field hfield hnull =>
    (hrow field hfield).resolve_right hnull
  induction f with
  | and a b iha ihb =>
    simp only [fields, members, List.forall_mem_append] at hfields hmembers
    exact Truth.isSome_and (iha hf.1 hfields.1 hmembers.1) (ihb hf.2 hfields.2 hmembers.2)
  | or a b iha ihb =>
    simp only [fields, members, List.forall_mem_append] at hfields hmembers
    exact Truth.isSome_or (iha hf.1 hfields.1 hmembers.1) (ihb hf.2 hfields.2 hmembers.2)
  | not a ih => exact Truth.isSome_not (ih hf hfields hmembers)
  | cmp op field literal =>
    obtain ⟨hfield, -, hliteral | ⟨hnull, rfl⟩⟩ := hf
    · have hadmits := hvalue field hfield (hfields field List.mem_cons_self)
      rw [eval, compareTruth_of_ne_null hliteral.ne_null, hadmits.compare hliteral]
      rfl
    · cases op <;> first | rfl | cases hnull
  | has field literal =>
    obtain ⟨hfield, hkind, -⟩ := hf
    have hadmits := hvalue field hfield (hfields field List.mem_cons_self)
    obtain ⟨items, hitems, -⟩ := hadmits.exists_items hkind
    rw [eval, hitems]
    rfl
  | oneOf field literals =>
    obtain ⟨hfield, -, hliterals⟩ := hf
    have hadmits := hvalue field hfield (hfields field List.mem_cons_self)
    refine Truth.isSome_any fun answer hanswer => ?_
    obtain ⟨literal, hliteral, rfl⟩ := List.mem_map.mp hanswer
    have hkind := (hliterals literal hliteral).resolve_right (hmembers literal hliteral)
    rw [hadmits.compare hkind]
    rfl
  | contains fields needle =>
    refine Truth.isSome_any fun answer hanswer => ?_
    obtain ⟨field, hfield, rfl⟩ := List.mem_map.mp hanswer
    obtain ⟨hdeclared, hkind⟩ := hf field hfield
    obtain ⟨s, hs⟩ := (hvalue field hdeclared (hfields field hfield)).exists_text hkind
    rw [hs]
    rfl
  | random | satisfies => exact hf.elim

theorem isMatch_not {f : Filter α ι} {row : α} (h : (f.eval row).isSome) :
    (not f).isMatch row = !f.isMatch row := by
  obtain ⟨b, hb⟩ := Option.isSome_iff_exists.mp h
  rw [isMatch, isMatch, eval, hb]
  cases b <;> rfl

/-- A filter that was read from a text is well typed. A row whose fields are of their declared kinds
matches it or its negation, and not both, unless a field of the filter is null in the row or a null
stands in a list of the filter or is looked for in a collection. -/
theorem parse_decided {text : String} {f : Filter α ι} (h : parse text = .ok f) :
    f.WellTyped ∧ ∀ row : α,
      (∀ field ∈ (Resource.schema (α := α)).fields,
        field.kind.AdmitsOrNull (field.get row)) →
      (∀ field ∈ f.fields, field.get row ≠ .null) → (∀ literal ∈ f.members, literal ≠ .null) →
      (f.eval row).isSome ∧ (not f).isMatch row = !f.isMatch row := by
  refine ⟨parse_wellTyped h, fun row hrow hfields hmembers => ?_⟩
  have hdecided := (parse_typed h).eval_isSome hrow hfields hmembers
  exact ⟨hdecided, isMatch_not hdecided⟩

open Catalog Token in
/-- The word of a choice is read in any case of letters. The show has no rating, which the filter
does not ask for. -/
theorem parse_decided_airing :
    let f : Filter Show Int64 :=
      .or (.has Show.genresField (.text "drama")) (.oneOf Show.statusField [.text "airing"])
    let row : Show := ⟨1, "a", "A", none, .airing, ["comedy"], none, none, none, none, none⟩
    parse "genres has drama or status in [AIRING]" = .ok f ∧
      (∀ field ∈ Show.schema.fields, field.kind.AdmitsOrNull (field.get row)) ∧
      (∀ field ∈ f.fields, field.get row ≠ .null) ∧ (∀ literal ∈ f.members, literal ≠ .null) ∧
      (f.eval row).isSome ∧ (not f).isMatch row = !f.isMatch row := by
  intro f row
  have hstatus : scan "status in [AIRING]".toList =
      .ok [⟨.word "status", "status in [AIRING]".toList⟩, ⟨.word "in", "in [AIRING]".toList⟩,
        ⟨.openList, "[AIRING]".toList⟩, ⟨.word "AIRING", "AIRING]".toList⟩,
        ⟨.closeList, "]".toList⟩] :=
    scan_token rfl rfl <| (scan_blank rfl _).trans <| scan_token rfl rfl <|
      (scan_blank rfl _).trans <| scan_token rfl rfl <| scan_token rfl rfl <|
        scan_token rfl rfl scan_nil
  have hgenres : scan "genres has drama or status in [AIRING]".toList =
      .ok [⟨.word "genres", "genres has drama or status in [AIRING]".toList⟩,
        ⟨.word "has", "has drama or status in [AIRING]".toList⟩,
        ⟨.word "drama", "drama or status in [AIRING]".toList⟩,
        ⟨.word "or", "or status in [AIRING]".toList⟩,
        ⟨.word "status", "status in [AIRING]".toList⟩, ⟨.word "in", "in [AIRING]".toList⟩,
        ⟨.openList, "[AIRING]".toList⟩, ⟨.word "AIRING", "AIRING]".toList⟩,
        ⟨.closeList, "]".toList⟩] :=
    scan_token rfl rfl <| (scan_blank rfl _).trans <| scan_token rfl rfl <|
      (scan_blank rfl _).trans <| scan_token rfl rfl <| (scan_blank rfl _).trans <|
        scan_token rfl rfl <| (scan_blank rfl _).trans hstatus
  have hf : parse "genres has drama or status in [AIRING]" = .ok f := parse_of_scan hgenres rfl
  have hrow : ∀ field ∈ Show.schema.fields, field.kind.AdmitsOrNull (field.get row) :=
    fun field hfield => Field.ConformsAt.admitsOrNull (row.conforms field hfield)
  have hfields : ∀ field ∈ f.fields, field.get row ≠ .null := by decide
  have hmembers : ∀ literal ∈ f.members, literal ≠ .null := by decide
  exact ⟨hf, hrow, hfields, hmembers, (parse_decided hf).2 row hrow hfields hmembers⟩

end Filter
end Repertory
