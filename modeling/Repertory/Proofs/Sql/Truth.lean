import Repertory.Proofs.Catalog.Conforms
import Repertory.Proofs.Filter.Match
import Repertory.Proofs.Filter.Scan
import Repertory.Proofs.Filter.Typed
import Repertory.Proofs.Sql.Like
import Repertory.Sql.Statement

/-!
# What a database makes of a filter

A condition has a truth value on the columns of a row, by the rules of a database for nulls. The
condition that a typed filter becomes says what the filter says (`truth_ofFilter`), but for one
leaf: whether a collection has a null is false in memory, and undecided in a database unless the
collection is empty. A database never decides otherwise than the filter does; where it decides less
a negation lets a row match that no query selects.
-/

namespace Repertory
namespace Truth

/-- A relation between answers that the connectives keep. -/
structure Congruence (R : Truth → Truth → Prop) : Prop where
  refl : ∀ a, R a a
  not : ∀ {a b}, R a b → R a.not b.not
  and : ∀ {a b a' b'}, R a b → R a' b' → R (a.and a') (b.and b')
  or : ∀ {a b a' b'}, R a b → R a' b' → R (a.or a') (b.or b')

theorem eq_congruence : Congruence Eq where
  refl _ := rfl
  not h := congrArg Truth.not h
  and h h' := congr (congrArg Truth.and h) h'
  or h h' := congr (congrArg Truth.or h) h'

def Refines (a b : Truth) : Prop := a = none ∨ a = b

theorem refines_congruence : Congruence Refines where
  refl _ := Or.inr rfl
  not {a b} h := by
    rcases h with rfl | rfl
    · exact Or.inl rfl
    · exact Or.inr rfl
  and {a b a' b'} h h' := by
    rcases h with rfl | rfl <;> rcases h' with rfl | rfl
    · exact Or.inl rfl
    · rcases b with _ | _ | _ <;> rcases a' with _ | _ | _ <;> simp [Refines, Truth.and]
    · rcases a with _ | _ | _ <;> rcases b' with _ | _ | _ <;> simp [Refines, Truth.and]
    · exact Or.inr rfl
  or {a b a' b'} h h' := by
    rcases h with rfl | rfl <;> rcases h' with rfl | rfl
    · exact Or.inl rfl
    · rcases b with _ | _ | _ <;> rcases a' with _ | _ | _ <;> simp [Refines, Truth.or]
    · rcases a with _ | _ | _ <;> rcases b' with _ | _ | _ <;> simp [Refines, Truth.or]
    · exact Or.inr rfl

variable {β : Type}

theorem any_map_some (p : β → Bool) (l : List β) :
    any (l.map fun b => some (p b)) = some (l.any p) := by
  induction l with
  | nil => rfl
  | cons b rest ih =>
    rw [List.map_cons, any, ih, List.any_cons]
    cases p b <;> cases rest.any p <;> rfl

theorem any_map_none {l : List β} (h : l ≠ []) : any (l.map fun _ => none) = none := by
  induction l with
  | nil => exact absurd rfl h
  | cons b rest ih =>
    rw [List.map_cons, any]
    cases rest with
    | nil => rfl
    | cons c rest => rw [ih (List.cons_ne_nil c rest)]; rfl

end Truth

namespace Sql

/-! ## Truth in a database -/

def compareTruth (op : CmpOp) (a b : Value) : Truth :=
  if a.isNull || b.isNull then none else some (op.holds (a.order b))

def anyTruth (value : Value) : Value → Truth
  | .list items => Truth.any (items.map fun item => compareTruth .eq value item)
  | _ => none

def likeTruth (pattern : String) : Value → Truth
  | .text s => some (likeMatch pattern.toList (Text.lowercase s).toList)
  | _ => none

/-- The truth of a condition on the columns of a row. What the hashes of a database compare to is
left open. -/
def Condition.truth (db : String → Value) : Condition → Truth
  | .and a b => (a.truth db).and (b.truth db)
  | .or a b => (a.truth db).or (b.truth db)
  | .not a => (a.truth db).not
  | isNull column => some (db column).isNull
  | isNotNull column => some !(db column).isNull
  | compare column op value => compareTruth op (db column) value
  | equalsAny value column => anyTruth value (db column)
  | within column first rest =>
    Truth.any ((first :: rest).map fun value => compareTruth .eq (db column) value)
  | like first rest pattern =>
    Truth.any ((first :: rest).map fun column => likeTruth pattern (db column))
  | never => some false
  | hashed _ _ _ _ => none

/-! ## Leaves -/

variable {kind : FieldKind}

theorem compareTruth_eq {a b : Value} (ha : kind.AdmitsOrNull a) (hb : kind.AdmitsOrNull b)
    (op : CmpOp) : compareTruth op a b = (a.compare b).map op.holds := by
  rcases ha with ha | rfl
  · rcases hb with hb | rfl
    · rw [ha.compare hb, compareTruth, Value.isNull_eq_false_iff.mpr ha.ne_null,
        Value.isNull_eq_false_iff.mpr hb.ne_null]
      rfl
    · rw [Value.compare_null_right, compareTruth, Value.isNull_null, Bool.or_true]
      rfl
  · rw [Value.compare_null_left]
    rfl

theorem truth_ofCmp {db : String → Value} {column : String} {op : CmpOp} {literal : Value}
    (hvalue : kind.AdmitsOrNull (db column))
    (hliteral : kind.Admits literal ∨ op.admitsNull = true ∧ literal = .null) :
    (Condition.ofCmp column op literal).truth db =
      Filter.compareTruth op (db column) literal := by
  rcases hliteral with hliteral | ⟨hnull, rfl⟩
  · have hform : Condition.ofCmp column op literal = .compare column op literal := by
      cases op <;> cases literal <;> first | rfl | exact absurd rfl hliteral.ne_null
    rw [hform, Condition.truth, compareTruth_eq hvalue (Or.inl hliteral),
      Filter.compareTruth_of_ne_null hliteral.ne_null]
  · cases op <;> first | rfl | cases hnull

theorem anyTruth_eq_hasTruth {value literal : Value} (hkind : kind.isList = true)
    (hvalue : kind.AdmitsOrNull value) (hliteral : kind.element.Admits literal) :
    anyTruth literal value = Filter.hasTruth value literal := by
  rcases hvalue with hvalue | rfl
  · obtain ⟨items, rfl, hitems⟩ := hvalue.exists_items hkind
    have hitem : ∀ item ∈ items, compareTruth .eq literal item =
        some (item.compare literal == some .eq) := by
      intro item hitem
      have hadmits := hitems item hitem
      rw [compareTruth_eq (Or.inl hliteral) (Or.inl hadmits), hliteral.compare hadmits,
        hadmits.compare hliteral, (Value.order_orders _).swap hadmits hliteral]
      cases item.order literal <;> rfl
    rw [anyTruth, Filter.hasTruth, List.map_congr_left hitem, Truth.any_map_some]
  · rfl

theorem hasTruth_null (items : List Value) :
    Filter.hasTruth (.list items) .null = some false := by
  simp [Filter.hasTruth]

/-- Whether a collection has a null is false in memory; a database has no answer unless the
collection is empty. -/
theorem anyTruth_null_eq_iff {value : Value} (hkind : kind.isList = true)
    (hvalue : kind.AdmitsOrNull value) :
    anyTruth .null value = Filter.hasTruth value .null ↔ value = .null ∨ value = .list [] := by
  rcases hvalue with hvalue | rfl
  · obtain ⟨items, rfl, -⟩ := hvalue.exists_items hkind
    rw [hasTruth_null]
    cases items with
    | nil => simp [anyTruth, Truth.any]
    | cons item rest =>
      have hnone : anyTruth .null (.list (item :: rest)) = none :=
        Truth.any_map_none (List.cons_ne_nil item rest)
      simp [hnone]
  · simp [anyTruth, Filter.hasTruth]

theorem anyTruth_null_refines (value : Value) :
    Truth.Refines (anyTruth .null value) (Filter.hasTruth value .null) := by
  cases value with
  | list items =>
    rw [hasTruth_null]
    cases items with
    | nil => exact Or.inr rfl
    | cons item rest => exact Or.inl (Truth.any_map_none (List.cons_ne_nil item rest))
  | _ => exact Or.inl rfl

theorem likeTruth_eq {value : Value} (hkind : kind.IsText) (hvalue : kind.AdmitsOrNull value)
    (needle : String) :
    likeTruth (likePattern needle) value = Filter.containsTruth needle value := by
  rcases hvalue with hvalue | rfl
  · obtain ⟨s, rfl⟩ := hvalue.exists_text hkind
    rw [likeTruth, likeMatch_likePattern, Filter.containsTruth]
  · rfl

end Sql

/-! ## Parts of filters -/

namespace Filter

variable {α ι : Type}

/-- A filter is a part of itself, and of what a part of it is joined to. -/
inductive Part : Filter α ι → Filter α ι → Prop where
  | self (f : Filter α ι) : Part f f
  | andLeft {g a b : Filter α ι} (h : Part g a) : Part g (and a b)
  | andRight {g a b : Filter α ι} (h : Part g b) : Part g (and a b)
  | orLeft {g a b : Filter α ι} (h : Part g a) : Part g (or a b)
  | orRight {g a b : Filter α ι} (h : Part g b) : Part g (or a b)
  | not {g a : Filter α ι} (h : Part g a) : Part g (not a)

theorem Part.trans {f g k : Filter α ι} (h : Part k g) (h' : Part g f) : Part k f := by
  induction h' with
  | self => exact h
  | andLeft _ ih => exact .andLeft ih
  | andRight _ ih => exact .andRight ih
  | orLeft _ ih => exact .orLeft ih
  | orRight _ ih => exact .orRight ih
  | not _ ih => exact .not ih

variable [Identity ι] [Resource α ι]

theorem Typed.part {f g : Filter α ι} (hf : f.Typed) (h : Part g f) : g.Typed := by
  induction h with
  | self => exact hf
  | andLeft _ ih | orLeft _ ih => exact ih hf.1
  | andRight _ ih | orRight _ ih => exact ih hf.2
  | not _ ih => exact ih hf

/-- A filter that a caller can write: one that was read, or a search in text fields. -/
inductive Written : Filter α ι → Prop where
  | read {text : String} {f : Filter α ι} (h : parse text = .ok f) : Written f
  | search {fields : List (Field α)} {needle : String}
      (h : ∀ field ∈ fields, Declared field ∧ field.kind.IsText) : Written (contains fields needle)

theorem Written.typed {f : Filter α ι} (h : f.Written) : f.Typed := by
  cases h with
  | read h => exact parse_typed h
  | search h => exact h

end Filter

/-! ## Filters in a database -/

namespace Sql

variable {α ι : Type} [Identity ι] [Resource α ι]

def Stores (db : String → Value) (row : α) : Prop :=
  ∀ field ∈ (Resource.schema (α := α)).fields, db field.column = field.get row

/-- The filter has a condition, and its truth is in relation `R` to what the filter says. -/
def Answers (R : Truth → Truth → Prop) (db : String → Value) (row : α) (f : Filter α ι) : Prop :=
  ∃ condition, Condition.ofFilter .postgres f = .ok condition ∧
    R (condition.truth db) (f.eval row)

variable {R : Truth → Truth → Prop} {db : String → Value} {row : α}

/-- If the answers to `has` are in a relation that the connectives keep, all answers are. -/
theorem answers_of_has {f : Filter α ι} (hR : Truth.Congruence R) (hf : f.Typed)
    (hrow : (Resource.schema (α := α)).Conforms row) (hdb : Stores db row)
    (hhas : ∀ field literal, Filter.Part (.has field literal) f →
      R (anyTruth literal (field.get row)) (Filter.hasTruth (field.get row) literal)) :
    Answers R db row f := by
  have hvalue : ∀ field : Field α, Filter.Declared field →
      field.kind.AdmitsOrNull (field.get row) := fun field hfield =>
    Field.ConformsAt.admitsOrNull (hrow field hfield)
  induction f with
  | and a b iha ihb =>
    obtain ⟨ca, ha, hRa⟩ := iha hf.1 fun field literal h => hhas field literal (.andLeft h)
    obtain ⟨cb, hb, hRb⟩ := ihb hf.2 fun field literal h => hhas field literal (.andRight h)
    exact ⟨.and ca cb, by rw [Condition.ofFilter, ha, hb]; rfl, hR.and hRa hRb⟩
  | or a b iha ihb =>
    obtain ⟨ca, ha, hRa⟩ := iha hf.1 fun field literal h => hhas field literal (.orLeft h)
    obtain ⟨cb, hb, hRb⟩ := ihb hf.2 fun field literal h => hhas field literal (.orRight h)
    exact ⟨.or ca cb, by rw [Condition.ofFilter, ha, hb]; rfl, hR.or hRa hRb⟩
  | not a ih =>
    obtain ⟨ca, ha, hRa⟩ := ih hf fun field literal h => hhas field literal (.not h)
    exact ⟨.not ca, by rw [Condition.ofFilter, ha]; rfl, hR.not hRa⟩
  | cmp op field literal =>
    obtain ⟨hfield, -, hliteral⟩ := hf
    refine ⟨_, rfl, ?_⟩
    rw [truth_ofCmp (hdb field hfield ▸ hvalue field hfield) hliteral, hdb field hfield]
    exact hR.refl _
  | has field literal =>
    refine ⟨_, rfl, ?_⟩
    rw [Condition.truth, hdb field hf.1]
    exact hhas field literal (.self _)
  | oneOf field literals =>
    obtain ⟨hfield, -, hliterals⟩ := hf
    cases literals with
    | nil => exact ⟨.never, rfl, hR.refl _⟩
    | cons first rest =>
      refine ⟨_, rfl, ?_⟩
      have hsame : ∀ literal ∈ first :: rest, compareTruth .eq (db field.column) literal =
          ((field.get row).compare literal).map (· == .eq) := fun literal hliteral => by
        rw [hdb field hfield]
        exact compareTruth_eq (hvalue field hfield) (hliterals literal hliteral) .eq
      rw [Condition.truth, List.map_congr_left hsame]
      exact hR.refl _
  | contains fields needle =>
    cases fields with
    | nil => exact ⟨.never, rfl, hR.refl _⟩
    | cons first rest =>
      refine ⟨_, rfl, ?_⟩
      have hsame : (first :: rest).map
            ((fun column => likeTruth (likePattern needle) (db column)) ∘ Field.column) =
          (first :: rest).map fun field => Filter.containsTruth needle (field.get row) :=
        List.map_congr_left fun field hfield => by
          rw [Function.comp_apply, hdb field (hf field hfield).1]
          exact likeTruth_eq (hf field hfield).2 (hvalue field (hf field hfield).1) needle
      rw [Condition.truth, ← List.map_cons, List.map_map, hsame]
      exact hR.refl _
  | random => exact hf.elim
  | satisfies => exact hf.elim

/-- The leaf on which memory and a database differ: whether a collection that is not empty has a
null. -/
def AsksForNull (row : α) (f : Filter α ι) : Prop :=
  ∃ field, Filter.Part (.has field .null) f ∧ field.get row ≠ .null ∧ field.get row ≠ .list []

/-- All parts of a filter have the answer of a database exactly if none of them asks whether a
collection that is not empty has a null. -/
theorem answers_parts_iff {f : Filter α ι} (hf : f.Typed)
    (hrow : (Resource.schema (α := α)).Conforms row) (hdb : Stores db row) :
    (∀ g, Filter.Part g f → Answers Eq db row g) ↔ ¬AsksForNull row f := by
  have hhas : ∀ field literal, Filter.Part (.has field literal) f → field.kind.isList = true ∧
      field.kind.AdmitsOrNull (field.get row) ∧ db field.column = field.get row := by
    intro field literal hpart
    obtain ⟨hfield, hkind, -⟩ := hf.part hpart
    exact ⟨hkind, Field.ConformsAt.admitsOrNull (hrow field hfield), hdb field hfield⟩
  constructor
  · rintro h ⟨field, hpart, hnull, hempty⟩
    obtain ⟨hkind, hvalue, hcolumn⟩ := hhas field .null hpart
    obtain ⟨condition, hcondition, htruth⟩ := h _ hpart
    cases hcondition
    rw [Condition.truth, hcolumn] at htruth
    rcases (anyTruth_null_eq_iff hkind hvalue).mp htruth with heq | heq
    · exact hnull heq
    · exact hempty heq
  · intro h g hg
    refine answers_of_has Truth.eq_congruence (hf.part hg) hrow hdb fun field literal hpart => ?_
    have hpart' := hpart.trans hg
    obtain ⟨hkind, hvalue, -⟩ := hhas field literal hpart'
    rcases (hf.part hpart').2.2 with hliteral | rfl
    · exact anyTruth_eq_hasTruth hkind hvalue hliteral
    · refine (anyTruth_null_eq_iff hkind hvalue).mpr ?_
      refine Decidable.byContradiction fun hne => ?_
      rw [not_or] at hne
      exact h ⟨field, hpart', hne.1, hne.2⟩

theorem answers_refines {f : Filter α ι} (hf : f.Typed)
    (hrow : (Resource.schema (α := α)).Conforms row) (hdb : Stores db row) :
    Answers Truth.Refines db row f := by
  refine answers_of_has Truth.refines_congruence hf hrow hdb fun field literal hpart => ?_
  obtain ⟨hfield, hkind, hliteral | rfl⟩ := hf.part hpart
  · exact Or.inr (anyTruth_eq_hasTruth hkind (Field.ConformsAt.admitsOrNull (hrow field hfield))
      hliteral)
  · exact anyTruth_null_refines _

/-- What a caller can write has a condition in a database. Its truth is what the filter says or is
left undecided, and it is what the filter says, for all parts of the filter, exactly if no part asks
whether a collection that is not empty has a null. -/
theorem truth_ofFilter {f : Filter α ι} (hf : f.Written)
    (hrow : (Resource.schema (α := α)).Conforms row) (hdb : Stores db row) :
    ∃ condition, Condition.ofFilter .postgres f = .ok condition ∧
      wherePieces .postgres (some f) = .ok (.raw " WHERE " :: condition.pieces .postgres) ∧
      (condition.truth db = none ∨ condition.truth db = f.eval row) ∧
      ((∀ g, Filter.Part g f → Answers Eq db row g) ↔ ¬AsksForNull row f) ∧
      (¬AsksForNull row f → condition.truth db = f.eval row ∧
        (f.isMatch row = true ↔ condition.truth db = some true)) := by
  have hiff := answers_parts_iff hf.typed hrow hdb
  obtain ⟨condition, hcondition, htruth⟩ := answers_refines hf.typed hrow hdb
  refine ⟨condition, hcondition, ?_, htruth, hiff, fun hasks => ?_⟩
  · rw [wherePieces, hcondition]
    rfl
  · obtain ⟨same, hsame, heq⟩ := hiff.mpr hasks f (.self f)
    cases hcondition.symm.trans hsame
    exact ⟨heq, by rw [Filter.isMatch_iff, heq]⟩

open Catalog Token in
/-- A show of one genre has no null among its genres. It matches the negation, but no query for the
negation selects it. -/
theorem truth_not_has_null :
    let f : Filter Show Int64 := .not (.has Show.genresField .null)
    let row : Show := ⟨1, "a", "A", none, .unknown, ["drama"], none, none, none, none, none⟩
    let db : String → Value := fun column =>
      ((Show.schema.fields.find? fun field => field.column = column).map (·.get row)).getD .null
    f.Written ∧ Show.schema.Conforms row ∧ Stores db row ∧ f.eval row = some true ∧
      ∃ condition, Condition.ofFilter .postgres f = .ok condition ∧
        condition.truth db = none := by
  intro f row db
  have hnull : scan "null".toList = .ok [⟨.word "null", "null".toList⟩] :=
    scan_token rfl rfl scan_nil
  have hhas : scan "has null".toList =
      .ok [⟨.word "has", "has null".toList⟩, ⟨.word "null", "null".toList⟩] :=
    scan_token rfl rfl ((scan_blank rfl _).trans hnull)
  have hgenres : scan "genres has null".toList =
      .ok [⟨.word "genres", "genres has null".toList⟩, ⟨.word "has", "has null".toList⟩,
        ⟨.word "null", "null".toList⟩] :=
    scan_token rfl rfl ((scan_blank rfl _).trans hhas)
  have hnot : scan "not genres has null".toList =
      .ok [⟨.word "not", "not genres has null".toList⟩,
        ⟨.word "genres", "genres has null".toList⟩, ⟨.word "has", "has null".toList⟩,
        ⟨.word "null", "null".toList⟩] :=
    scan_token rfl rfl ((scan_blank rfl _).trans hgenres)
  have hf : f.Written := .read (Filter.parse_of_scan hnot rfl)
  have hdb : ∀ field ∈ Show.schema.fields, db field.column = field.get row := by decide
  obtain ⟨condition, hcondition, -⟩ := truth_ofFilter hf row.conforms hdb
  refine ⟨hf, row.conforms, hdb, rfl, condition, hcondition, ?_⟩
  cases hcondition
  rfl

end Sql
end Repertory
