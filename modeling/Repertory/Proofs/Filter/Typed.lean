import Repertory.Proofs.Action
import Repertory.Proofs.Filter.Scan

/-!
# Typed filters

The reader of filters looks up every field and types every literal, so what it gives is `WellTyped`
whatever the text was (`parse_wellTyped`). The proof follows the grammar: a reader of typed operands
makes a reader of typed chains, and each level of nesting is a reader over the level below.

`Typed` asks for less. It lets a choice be compared with any text and knows searches in text fields,
which no text stands for.
-/

namespace Repertory
namespace FieldKind

theorem isList_element (kind : FieldKind) : kind.element.isList = false := by
  cases kind <;> rfl

def IsText : FieldKind → Prop
  | text | choice _ => True
  | _ => False

/-- The values of a kind of collections are lists of values of the kind of its items. -/
theorem Admits.exists_items {kind : FieldKind} {value : Value} (h : kind.Admits value)
    (hkind : kind.isList = true) :
    ∃ items, value = .list items ∧ ∀ item ∈ items, kind.element.Admits item := by
  cases kind with
  | textList =>
    cases value with
    | list items =>
      refine ⟨items, rfl, fun item hitem => ?_⟩
      obtain ⟨s, rfl⟩ := h item hitem
      trivial
    | _ => exact h.elim
  | intList =>
    cases value with
    | list items =>
      refine ⟨items, rfl, fun item hitem => ?_⟩
      obtain ⟨n, rfl⟩ := h item hitem
      trivial
    | _ => exact h.elim
  | _ => cases hkind

theorem Admits.exists_text {kind : FieldKind} {value : Value} (h : kind.Admits value)
    (hkind : kind.IsText) : ∃ s, value = .text s := by
  cases kind with
  | text | choice words =>
    cases value with
    | text s => exact ⟨s, rfl⟩
    | _ => exact h.elim
  | _ => exact hkind.elim

/-- Whether a literal of the kind can stand for the value. Rows may hold any text in a choice, but
its literals are the declared words. -/
def HasLiteral : FieldKind → Value → Prop
  | choice words, v => ∃ word ∈ words, v = .text word
  | kind, v => kind.Admits v

theorem HasLiteral.admits {kind : FieldKind} {v : Value} (h : kind.HasLiteral v) :
    kind.Admits v := by
  cases kind with
  | choice words =>
    obtain ⟨word, -, rfl⟩ := h
    trivial
  | _ => exact h

/-- What a literal of a kind that is no collection stands for. -/
theorem literal_hasLiteral {kind : FieldKind} {raw : String} {v : Value}
    (hkind : kind.isList = false) (h : kind.literal raw = some v) : kind.HasLiteral v := by
  cases kind with
  | choice words =>
    obtain ⟨word, hword, rfl⟩ := Option.map_eq_some_iff.mp h
    exact ⟨word, List.mem_of_find?_eq_some hword, rfl⟩
  | bool =>
    simp only [literal] at h
    split at h
    · cases h
      trivial
    · split at h <;> cases h
      trivial
  | text =>
    cases h
    trivial
  | textList => cases hkind
  | intList => cases hkind
  | _ =>
    obtain ⟨x, -, rfl⟩ := Option.map_eq_some_iff.mp h
    trivial

end FieldKind

namespace Filter

variable {α ι : Type}

section

variable [Identity ι] [Resource α ι]

def Declared (field : Field α) : Prop := field ∈ (Resource.schema (α := α)).fields

/-- The literals of the filter fit its fields, all of which are declared. Nothing in it has to be
run. -/
def Typed : Filter α ι → Prop
  | and a b => a.Typed ∧ b.Typed
  | or a b => a.Typed ∧ b.Typed
  | not a => a.Typed
  | cmp op field v =>
    Declared field ∧ field.kind.isList = false ∧
      (field.kind.Admits v ∨ op.admitsNull = true ∧ v = .null)
  | has field v =>
    Declared field ∧ field.kind.isList = true ∧ (field.kind.element.Admits v ∨ v = .null)
  | oneOf field vs =>
    Declared field ∧ field.kind.isList = false ∧ ∀ v ∈ vs, field.kind.Admits v ∨ v = .null
  | contains fields _ => ∀ field ∈ fields, Declared field ∧ field.kind.IsText
  | random _ _ _ => False
  | satisfies _ => False

/-- What a text can say: every field is declared, every literal is one of its field's kind, and only
where a null has a meaning may it stand for one. -/
def WellTyped : Filter α ι → Prop
  | and a b => a.WellTyped ∧ b.WellTyped
  | or a b => a.WellTyped ∧ b.WellTyped
  | not a => a.WellTyped
  | cmp op field v =>
    Declared field ∧ field.kind.isList = false ∧
      (field.kind.HasLiteral v ∨ op.admitsNull = true ∧ v = .null)
  | has field v =>
    Declared field ∧ field.kind.isList = true ∧ (field.kind.element.HasLiteral v ∨ v = .null)
  | oneOf field vs =>
    Declared field ∧ field.kind.isList = false ∧ ∀ v ∈ vs, field.kind.HasLiteral v ∨ v = .null
  | contains _ _ => False
  | random _ _ _ => False
  | satisfies _ => False

theorem WellTyped.typed {f : Filter α ι} (h : f.WellTyped) : f.Typed := by
  induction f with
  | and a b iha ihb | or a b iha ihb => exact ⟨iha h.1, ihb h.2⟩
  | not a ih => exact ih h
  | cmp op field v => exact ⟨h.1, h.2.1, h.2.2.imp_left FieldKind.HasLiteral.admits⟩
  | has field v => exact ⟨h.1, h.2.1, h.2.2.imp_left FieldKind.HasLiteral.admits⟩
  | oneOf field vs =>
    exact ⟨h.1, h.2.1, fun v hv => (h.2.2 v hv).imp_left FieldKind.HasLiteral.admits⟩
  | contains | random | satisfies => exact h.elim

end

/-! ## Readers -/

/-- Whatever the reader gives satisfies `P`. -/
def Reader.Gives {β : Type} (reader : Reader β) (P : β → Prop) : Prop :=
  ∀ {lexemes b rest}, reader lexemes = .ok (b, rest) → P b

theorem value_gives {field : Field α} {kind : FieldKind} (hkind : kind.isList = false) :
    (value field kind).Gives fun v => kind.HasLiteral v ∨ v = .null := by
  intro lexemes v rest h
  rw [value.eq_def] at h
  dsimp only at h
  split at h
  · split at h
    · cases h
      exact Or.inr rfl
    · split at h
      · cases h
        exact Or.inl (FieldKind.literal_hasLiteral hkind ‹_›)
      · cases h
  · split at h
    · cases h
      exact Or.inl (FieldKind.literal_hasLiteral hkind ‹_›)
    · cases h
  · cases h

theorem listItems_gives {field : Field α} (hfield : field.kind.isList = false) (n : Nat) :
    (listItems field n).Gives fun vs => ∀ v ∈ vs, field.kind.HasLiteral v ∨ v = .null := by
  induction n with
  | zero =>
    intro lexemes vs rest h
    cases h
  | succ n ih =>
    intro lexemes vs rest h
    rw [listItems] at h
    obtain ⟨⟨first, behind⟩, hfirst, h⟩ := exists_of_bind_ok h
    have htyped := value_gives hfield hfirst
    dsimp only at h
    split at h
    · obtain ⟨⟨others, _⟩, hothers, h⟩ := exists_of_bind_ok h
      cases h
      exact List.forall_mem_cons.mpr ⟨htyped, ih hothers⟩
    · cases h
      exact List.forall_mem_singleton.mpr htyped
    · cases h

theorem list_gives {field : Field α} (hfield : field.kind.isList = false) :
    (list field).Gives fun vs => ∀ v ∈ vs, field.kind.HasLiteral v ∨ v = .null := by
  intro lexemes vs rest h
  rw [list.eq_def] at h
  split at h
  · cases h
    exact List.forall_mem_nil _
  · exact listItems_gives hfield _ h
  · cases h

theorem chainFrom_gives {P : Filter α ι → Prop} {operand : Reader (Filter α ι)}
    {isSeparator : Token → Bool} {join : Filter α ι → Filter α ι → Filter α ι}
    (hoperand : operand.Gives P) (hjoin : ∀ {a b}, P a → P b → P (join a b)) (n : Nat)
    {left : Filter α ι} (hleft : P left) :
    (chainFrom operand isSeparator join n left).Gives P := by
  intro lexemes a rest h
  fun_induction chainFrom operand isSeparator join n left lexemes with
  | case1 | case2 | case4 =>
    cases h
    exact hleft
  | case3 n left l lexemes hseparator ih =>
    obtain ⟨⟨right, behind⟩, hright, h⟩ := exists_of_bind_ok h
    exact ih _ _ (hjoin hleft (hoperand hright)) h

theorem chain_gives {P : Filter α ι → Prop} {operand : Reader (Filter α ι)}
    {isSeparator : Token → Bool} {join : Filter α ι → Filter α ι → Filter α ι}
    (hoperand : operand.Gives P) (hjoin : ∀ {a b}, P a → P b → P (join a b)) :
    (chain operand isSeparator join).Gives P := by
  intro lexemes a rest h
  obtain ⟨⟨first, behind⟩, hfirst, h⟩ := exists_of_bind_ok h
  exact chainFrom_gives hoperand hjoin _ (hoperand hfirst) h

variable [Identity ι] [Resource α ι]

theorem comparison_gives {field : Field α} (hfield : Declared field) :
    (comparison field : Reader (Filter α ι)).Gives WellTyped := by
  intro lexemes f rest h
  obtain ⟨⟨relator, behind⟩, -, h⟩ := exists_of_bind_ok h
  cases relator with
  | cmp op =>
    dsimp only at h
    split at h
    · cases h
    · rename_i hkind
      rw [Bool.not_eq_true] at hkind
      obtain ⟨⟨v, _⟩, hv, h⟩ := exists_of_bind_ok h
      dsimp only at h
      split at h
      · cases h
      · rename_i hnull
        cases h
        refine ⟨hfield, hkind, (value_gives hkind hv).imp_right fun heq => ⟨?_, heq⟩⟩
        subst heq
        simpa [Value.isNull] using hnull
  | has =>
    dsimp only at h
    split at h
    · rename_i hkind
      obtain ⟨⟨v, _⟩, hv, h⟩ := exists_of_bind_ok h
      cases h
      exact ⟨hfield, hkind, value_gives field.kind.isList_element hv⟩
    · cases h
  | oneOf =>
    dsimp only at h
    split at h
    · cases h
    · rename_i hkind
      rw [Bool.not_eq_true] at hkind
      obtain ⟨⟨vs, _⟩, hvs, h⟩ := exists_of_bind_ok h
      cases h
      exact ⟨hfield, hkind, list_gives hkind hvs⟩

theorem primary_gives : (primary : Reader (Filter α ι)).Gives WellTyped := by
  intro lexemes f rest h
  rw [primary.eq_def] at h
  split at h
  · split at h
    · rename_i hfield
      exact comparison_gives (List.mem_of_find?_eq_some hfield) h
    · cases h
  · cases h

theorem expression_gives {operand : Reader (Filter α ι)} (h : operand.Gives WellTyped) :
    (expression operand).Gives WellTyped :=
  chain_gives (chain_gives h And.intro) And.intro

theorem operand_gives (depth : Nat) : (operand depth : Reader (Filter α ι)).Gives WellTyped := by
  induction depth with
  | zero =>
    intro lexemes f rest h
    cases lexemes with
    | nil => cases h
    | cons l lexemes =>
      rw [operand] at h
      split at h
      · cases h
      · split at h
        · cases h
        · exact primary_gives h
  | succ depth ih =>
    intro lexemes f rest h
    cases lexemes with
    | nil => cases h
    | cons l lexemes =>
      rw [operand] at h
      split at h
      · obtain ⟨⟨a, _⟩, ha, h⟩ := exists_of_bind_ok h
        cases h
        show a.WellTyped
        exact ih ha
      · split at h
        · obtain ⟨⟨a, behind⟩, ha, h⟩ := exists_of_bind_ok h
          dsimp only at h
          split at h
          · cases h
            exact expression_gives ih ha
          · cases h
        · exact primary_gives h

theorem ofLexemes_wellTyped {lexemes : List Lexeme} {f : Filter α ι}
    (h : ofLexemes lexemes = .ok f) : f.WellTyped := by
  rw [ofLexemes.eq_def] at h
  split at h
  · cases h
  · obtain ⟨⟨a, rest⟩, ha, h⟩ := exists_of_bind_ok h
    dsimp only at h
    split at h
    · cases h
      exact expression_gives (operand_gives maxDepth) ha
    · cases h

theorem parse_wellTyped {text : String} {f : Filter α ι} (h : parse text = .ok f) :
    f.WellTyped := by
  obtain ⟨lexemes, -, hread⟩ := exists_scan_of_parse h
  exact ofLexemes_wellTyped hread

theorem parse_typed {text : String} {f : Filter α ι} (h : parse text = .ok f) : f.Typed :=
  (parse_wellTyped h).typed

end Filter
end Repertory
