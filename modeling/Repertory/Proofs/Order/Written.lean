import Repertory.Catalog.Show
import Repertory.Order.Basic
import Repertory.Proofs.Filter.Reading
import Repertory.Proofs.Number.Integer
import Repertory.Proofs.Text.Split

/-!
# Sortings read back

A sorting that was read from text is written as text that reads as the same sorting
(`Sorting.read_display`). The keys that a text leads to have names without commas, colons or blanks
in front (`Schema.Sortable`), because these would have ended the key in the text and a name differs
from its key in case only. So the written list splits at the commas between its terms, and each term
splits at the colon between its parts.

An ascending key is written without its direction, and then the name has to stand for itself: a
name that is empty, ends with a blank or is the word for the schema's order reads as something else.
These are the only exceptions, and `SortTerm.Unmistakable` rules them out. A schema can have fields
with such names: `Noted` is one for each name.
-/

namespace Repertory

/-- A key of a sorting can name the field, with a direction behind the name. -/
structure Schema.Sortable {α : Type} (schema : Schema α) (field : Field α) : Prop where
  found : schema.field? field.name = some field
  not_random : Text.sameName field.name "random" = false
  no_comma : ',' ∉ field.name.toList
  no_colon : ':' ∉ field.name.toList
  first : ∀ c ∈ field.name.toList.head?, Text.isBlank c = false

namespace Schema

variable {α : Type} {schema : Schema α} {field : Field α} {key : String}

/-- A field that a key leads to has a name like the key, up to case. -/
theorem sortable_of_field? (h : schema.field? key = some field)
    (hrandom : Text.sameName key "random" = false) (hcomma : ',' ∉ key.toList)
    (hcolon : ':' ∉ key.toList) (hfirst : ∀ c ∈ key.toList.head?, Text.isBlank c = false) :
    schema.Sortable field where
  found := (field?_congr (field?_some h).2).trans h
  not_random := (Text.sameName_congr (field?_some h).2 "random").trans hrandom
  no_comma hmem := hcomma (Text.mem_of_sameName (field?_some h).2 (by decide) hmem)
  no_colon hmem := hcolon (Text.mem_of_sameName (field?_some h).2 (by decide) hmem)
  first c hc := by
    have hheads : field.name.toList.head?.map Char.toLower = key.toList.head?.map Char.toLower := by
      rw [← List.head?_map, ← List.head?_map, Text.map_toLower_of_sameName (field?_some h).2]
    rw [Option.mem_def.mp hc] at hheads
    obtain ⟨d, hd, hlower⟩ := Option.map_eq_some_iff.mp hheads.symm
    rw [← Text.isBlank_toLower, ← hlower, Text.isBlank_toLower]
    exact hfirst d hd

end Schema

namespace SortTerm

open Text

variable {α ι : Type} [Identity ι] [Resource α ι] {seed : UInt64} {token : String}
  {term : SortTerm α} {field : Field α} {descending : Bool}

/-! ## Reading a term -/

theorem read_of_colon {key order : List Char} (hkey : ':' ∉ key)
    (htoken : token.toList = key ++ ':' :: order) :
    read (α := α) seed token =
      if sameName (String.ofList key) "random" then (readSeed token (some order)).map random
      else (readDirection token (some order)).bind fun descending =>
        match (Resource.schema (α := α)).field? (String.ofList key) with
        | some field => .ok (.by field descending)
        | none => .error (.unknownField (Resource.kind α) (String.ofList key)) := by
  have hcolon : ':' ∈ token.toList := htoken ▸ List.mem_append_right key List.mem_cons_self
  have hempty : token.isEmpty = false := by
    rw [Bool.eq_false_iff, ne_eq, String.isEmpty_iff]
    rintro rfl
    exact List.not_mem_nil hcolon
  have hword : ∀ word : String, ':' ∉ word.toList → sameName token word = false := by
    intro word hword
    rw [Bool.eq_false_iff]
    intro hsame
    exact hword (mem_of_sameName hsame (by decide) hcolon)
  have hsplit : splitFirst ':' token.toList = (key, some order) := by
    rw [htoken, splitFirst_append hkey]
  rw [read, hempty, hword "default" (by decide), hword "random" (by decide), hsplit]
  rfl

theorem read_of_no_colon (htoken : ':' ∉ token.toList) (hempty : token ≠ "")
    (hdefault : sameName token "default" = false) (hrandom : sameName token "random" = false) :
    read (α := α) seed token =
      match (Resource.schema (α := α)).field? token with
      | some field => .ok (.by field false)
      | none => .error (.unknownField (Resource.kind α) token) := by
  have hempty : token.isEmpty = false := by
    rw [Bool.eq_false_iff, ne_eq, String.isEmpty_iff]
    exact hempty
  rw [read, hempty, hdefault, hrandom, splitFirst_of_not_mem htoken]
  simp only [String.ofList_toList, hrandom]
  rfl

theorem field?_of_read_colon {key order : List Char} (hkey : ':' ∉ key)
    (htoken : token.toList = key ++ ':' :: order)
    (h : read seed token = .ok (SortTerm.by field descending)) :
    sameName (String.ofList key) "random" = false ∧
      (Resource.schema (α := α)).field? (String.ofList key) = some field := by
  rw [read_of_colon hkey htoken] at h
  by_cases hrandom : sameName (String.ofList key) "random" = true
  · rw [if_pos hrandom] at h
    cases hseed : readSeed token (some order) with
    | error e =>
      rw [hseed] at h
      cases h
    | ok seed =>
      rw [hseed] at h
      cases h
  · rw [if_neg hrandom] at h
    obtain ⟨direction, -, h⟩ := exists_of_bind_ok h
    split at h
    · rename_i hfield
      cases h
      exact ⟨Bool.eq_false_iff.mpr hrandom, hfield⟩
    · cases h

theorem field?_of_read_no_colon (hcolon : ':' ∉ token.toList)
    (h : read seed token = .ok (SortTerm.by field descending)) :
    token ≠ "" ∧ sameName token "default" = false ∧ sameName token "random" = false ∧
      (Resource.schema (α := α)).field? token = some field := by
  by_cases hempty : token.isEmpty = true
  · rw [read, if_pos hempty] at h
    cases h
  by_cases hdefault : sameName token "default" = true
  · rw [read, if_neg hempty, if_pos hdefault] at h
    cases h
  by_cases hrandom : sameName token "random" = true
  · rw [read, if_neg hempty, if_neg hdefault, if_pos hrandom] at h
    cases h
  have hne : token ≠ "" := fun hnil => hempty (String.isEmpty_iff.mpr hnil)
  rw [Bool.not_eq_true] at hdefault hrandom
  rw [read_of_no_colon hcolon hne hdefault hrandom] at h
  split at h
  · rename_i hfield
    cases h
    exact ⟨hne, hdefault, hrandom, hfield⟩
  · cases h

/-- If the term is a key of a field, a text can lead to it. Whatever was read is so. -/
def Sound : SortTerm α → Prop
  | .by field _ => (Resource.schema (α := α)).Sortable field
  | default | random _ => True

theorem sound_of_read (h : read seed token = .ok term) (hbare : Bare token.toList)
    (hcomma : ',' ∉ token.toList) : term.Sound := by
  cases term with
  | default | random seed => exact trivial
  | «by» field descending =>
    rcases splitFirst_parts ':' token.toList with ⟨hcolon, -⟩ | ⟨key, order, htoken, hkey, -⟩
    · obtain ⟨-, -, hrandom, hfield⟩ := field?_of_read_no_colon hcolon h
      exact Schema.sortable_of_field? hfield hrandom hcomma hcolon hbare.first
    · obtain ⟨hrandom, hfield⟩ := field?_of_read_colon hkey htoken h
      have hnone : ',' ∉ key := fun hmem => hcomma (htoken ▸ List.mem_append_left _ hmem)
      have hfirst : ∀ c ∈ key.head?, isBlank c = false := by
        intro c hc
        refine hbare.first c ?_
        rw [htoken, List.head?_append, Option.mem_def.mp hc]
        rfl
      refine Schema.sortable_of_field? hfield hrandom ?_ ?_ ?_ <;> rwa [String.toList_ofList]

/-! ## Reading what a term displays -/

/-- The name is read as itself where it stands alone. -/
structure StandsAlone (name : String) : Prop where
  ne_empty : name ≠ ""
  not_default : sameName name "default" = false
  last : ∀ c ∈ name.toList.getLast?, isBlank c = false

/-- An ascending key is written as the name of its field alone, so the name has to stand alone. -/
def Unmistakable : SortTerm α → Prop
  | .by field false => StandsAlone field.name
  | .by _ true | default | random _ => True

theorem bare_colon {key order : List Char} (hkey : ∀ c ∈ key.head?, isBlank c = false)
    (horder : ∀ c ∈ order, isBlank c = false) : Bare (key ++ ':' :: order) where
  first c hc := by
    cases key with
    | nil =>
      cases hc
      decide
    | cons d key => exact hkey c hc
  last c hc := by
    have hlast : (key ++ ':' :: order).getLast? = (':' :: order).getLast? := by
      rw [List.getLast?_append, List.getLast?_cons]
      rfl
    rw [hlast] at hc
    rcases List.mem_cons.mp (List.mem_of_getLast? hc) with rfl | hc
    · decide
    · exact horder c hc

theorem isBlank_of_mem_natText {n : Nat} {c : Char} (h : c ∈ Number.natText n) :
    isBlank c = false := by
  have hdigit := Number.isDigit_of_mem_natText h
  rw [Char.isDigit, Bool.and_eq_true, decide_eq_true_eq, decide_eq_true_eq] at hdigit
  exact isBlank_of_toNat (.inl ⟨UInt32.le_iff_toNat_le.mp hdigit.1,
    UInt32.le_iff_toNat_le.mp hdigit.2⟩)

theorem toList_display_random (seed : UInt64) :
    (random seed : SortTerm α).display.toList =
      "random".toList ++ ':' :: Number.natText seed.toNat := by
  have htext : (Number.unsignedText seed).toList = Number.natText seed.toNat :=
    String.toList_ofList
  rw [display, String.toList_append, htext]
  rfl

theorem toList_display_desc (field : Field α) :
    (SortTerm.by field true).display.toList = field.name.toList ++ ':' :: "desc".toList := by
  rw [display, if_pos rfl, String.toList_append]
  rfl

theorem comma_not_mem_display (h : term.Sound) : ',' ∉ term.display.toList := by
  cases term with
  | default =>
    show ',' ∉ "default".toList
    decide
  | random seed =>
    rw [toList_display_random, List.mem_append, List.mem_cons]
    rintro (hmem | hmem | hmem)
    · exact absurd hmem (by decide)
    · exact absurd hmem (by decide)
    · exact absurd (Number.isDigit_of_mem_natText hmem) (by decide)
  | «by» field descending =>
    cases descending with
    | false => exact h.no_comma
    | true =>
      rw [toList_display_desc, List.mem_append, List.mem_cons]
      rintro (hmem | hmem | hmem)
      · exact h.no_comma hmem
      · exact absurd hmem (by decide)
      · exact absurd hmem (by decide)

theorem read_display_default :
    read seed (trim (default : SortTerm α).display) = .ok (default : SortTerm α) := by
  have hbare : Bare "default".toList :=
    ⟨fun c hc => by cases hc; decide, fun c hc => by cases hc; decide⟩
  rw [display, trim_of_bare hbare, read, if_neg (by decide), if_pos (sameName_refl _)]

theorem read_display_random (n : UInt64) :
    read seed (trim (random n : SortTerm α).display) = .ok (random n : SortTerm α) := by
  have htext := toList_display_random (α := α) n
  have hbare : Bare (random n : SortTerm α).display.toList := by
    rw [htext]
    exact bare_colon (fun c hc => by cases hc; decide) fun c => isBlank_of_mem_natText
  have hword : sameName (String.ofList "random".toList) "random" = true := by decide
  have hseed : Number.readUnsigned (String.ofList (Number.natText n.toNat)) = some n :=
    Number.readUnsigned_unsignedText n
  rw [trim_of_bare hbare, read_of_colon (by decide) htext, if_pos hword, readSeed,
    Option.bind_some, hseed]
  rfl

theorem read_display_desc {field : Field α} (h : (Resource.schema (α := α)).Sortable field) :
    read seed (trim (SortTerm.by field true).display) = .ok (.by field true) := by
  have htext := toList_display_desc field
  have hbare : Bare (SortTerm.by field true).display.toList := by
    have hdesc : "desc".toList.all (fun c => !isBlank c) = true := by decide
    rw [htext]
    exact bare_colon h.first fun c hc => by simpa using List.all_eq_true.mp hdesc c hc
  have hnot : ¬sameName (String.ofList field.name.toList) "random" = true := by
    rw [String.ofList_toList, h.not_random]
    exact Bool.false_ne_true
  have hdirection : readDirection (SortTerm.by field true).display (some "desc".toList) = .ok true :=
    rfl
  rw [trim_of_bare hbare, read_of_colon h.no_colon htext, if_neg hnot, hdirection,
    String.ofList_toList]
  simp only [Except.bind, h.found]

theorem read_display_asc {field : Field α} (h : (Resource.schema (α := α)).Sortable field) :
    read seed (trim (SortTerm.by field false).display) = .ok (.by field false) ↔
      StandsAlone field.name := by
  have hdisplay : (SortTerm.by field false).display = field.name := rfl
  rw [hdisplay]
  constructor
  · intro hread
    have hcolon : ':' ∉ (trim field.name).toList := by
      rw [trim, String.toList_ofList]
      exact fun hmem => h.no_colon (mem_of_mem_trimBlank hmem)
    obtain ⟨hempty, hdefault, -, hfield⟩ := field?_of_read_no_colon hcolon hread
    -- the name differs from what was read in case only, so nothing was trimmed
    have hlength := congrArg List.length (map_toLower_of_sameName (Schema.field?_some hfield).2)
    rw [List.length_map, List.length_map, trim, String.toList_ofList] at hlength
    have hsame : trimBlank field.name.toList = field.name.toList := trimBlank_of_length hlength.symm
    have htrim : trim field.name = field.name := by rw [trim, hsame, String.ofList_toList]
    rw [htrim] at hempty hdefault
    exact ⟨hempty, hdefault, hsame ▸ (bare_trimBlank field.name.toList).last⟩
  · intro halone
    rw [trim_of_bare ⟨h.first, halone.last⟩,
      read_of_no_colon h.no_colon halone.ne_empty halone.not_default h.not_random]
    simp only [h.found]

/-- A term reads back from its trimmed text unless it is a name that cannot stand alone. -/
theorem read_display_iff (seed : UInt64) (h : term.Sound) :
    read seed (trim term.display) = .ok term ↔ term.Unmistakable := by
  cases term with
  | default => exact iff_of_true read_display_default trivial
  | random n => exact iff_of_true (read_display_random n) trivial
  | «by» field descending =>
    cases descending with
    | false => exact read_display_asc h
    | true => exact iff_of_true (read_display_desc h) trivial

end SortTerm

namespace Sorting

open Text

variable {α ι : Type} [Identity ι] [Resource α ι] {seeds : Nat → UInt64} {n : Nat}
  {sorting : Sorting α}

/-! ## Reading a list of terms -/

/-- It does not matter whether a list is trimmed before its items are. -/
theorem read_some (seeds : Nat → UInt64) (text : String) :
    read (α := α) seeds (some text) =
      if isBlankText text then .ok [.default] else readTerms seeds 0 (listParts text) := by
  have htrimmed : read (α := α) seeds (some text) =
      if (trim text).isEmpty then .ok [.default]
      else readTerms seeds 0 (listParts (trim text)) := rfl
  rw [htrimmed, isEmpty_trim, listParts_trim]

theorem readTerms_cons {token : String} {tokens : List String}
    (h : readTerms seeds n (token :: tokens) = .ok sorting) :
    ∃ term terms, sorting = term :: terms ∧ SortTerm.read (seeds n) token = .ok term ∧
      readTerms seeds (n + 1) tokens = .ok terms := by
  obtain ⟨term, hterm, h⟩ := exists_of_bind_ok h
  obtain ⟨terms, hterms, h⟩ := exists_of_bind_ok h
  cases h
  exact ⟨term, terms, rfl, hterm, hterms⟩

theorem sound_of_readTerms {tokens : List String}
    (htokens : ∀ token ∈ tokens, Bare token.toList ∧ ',' ∉ token.toList)
    (h : readTerms seeds n tokens = .ok sorting) : ∀ term ∈ sorting, term.Sound := by
  induction tokens generalizing n sorting with
  | nil =>
    cases h
    exact List.forall_mem_nil _
  | cons token tokens ih =>
    obtain ⟨⟨hbare, hcomma⟩, htokens⟩ := List.forall_mem_cons.mp htokens
    obtain ⟨term, terms, rfl, hterm, hterms⟩ := readTerms_cons h
    exact List.forall_mem_cons.mpr
      ⟨SortTerm.sound_of_read hterm hbare hcomma, ih htokens hterms⟩

theorem sound_of_read {text : Option String} (h : read seeds text = .ok sorting) :
    sorting ≠ [] ∧ ∀ term ∈ sorting, term.Sound := by
  have hdefault : ([.default] : Sorting α) ≠ [] ∧
      ∀ term ∈ ([.default] : Sorting α), term.Sound :=
    ⟨List.cons_ne_nil _ _, List.forall_mem_singleton.mpr trivial⟩
  cases text with
  | none =>
    cases h
    exact hdefault
  | some text =>
    rw [read_some] at h
    split at h
    · cases h
      exact hdefault
    · refine ⟨?_, sound_of_readTerms (fun token htoken => ?_) h⟩
      · rintro rfl
        obtain ⟨part, parts, hparts⟩ := List.exists_cons_of_ne_nil (splitAt_ne_nil ',' text.toList)
        rw [listParts, hparts] at h
        obtain ⟨_, _, hnil, -⟩ := readTerms_cons h
        cases hnil
      · obtain ⟨part, hpart, rfl⟩ := List.mem_map.mp htoken
        rw [String.toList_ofList]
        exact ⟨bare_trimBlank part,
          fun hmem => not_mem_of_mem_splitAt hpart (mem_of_mem_trimBlank hmem)⟩

/-! ## Reading what a sorting displays -/

theorem readTerms_display (seeds : Nat → UInt64) (n : Nat)
    (hsound : ∀ term ∈ sorting, term.Sound) :
    readTerms seeds n (sorting.map fun term => trim term.display) = .ok sorting ↔
      ∀ term ∈ sorting, term.Unmistakable := by
  induction sorting generalizing n with
  | nil => exact iff_of_true rfl (List.forall_mem_nil _)
  | cons term terms ih =>
    obtain ⟨hterm, hterms⟩ := List.forall_mem_cons.mp hsound
    rw [List.forall_mem_cons, List.map_cons,
      ← SortTerm.read_display_iff (seeds n) hterm, ← ih (n + 1) hterms]
    constructor
    · intro h
      obtain ⟨_, _, heq, hfirst, hrest⟩ := readTerms_cons h
      cases heq
      exact ⟨hfirst, hrest⟩
    · rintro ⟨hfirst, hrest⟩
      rw [readTerms, hfirst, hrest]
      rfl

theorem listParts_display (hsound : ∀ term ∈ sorting, term.Sound) (hne : sorting ≠ []) :
    listParts sorting.display = sorting.map fun term => trim term.display := by
  have hcomma : ∀ part ∈ sorting.map fun term => term.display.toList, ',' ∉ part := by
    intro part hpart
    obtain ⟨term, hterm, rfl⟩ := List.mem_map.mp hpart
    exact SortTerm.comma_not_mem_display (hsound term hterm)
  have hparts : splitAt ',' sorting.display.toList =
      sorting.map fun term => term.display.toList := by
    rw [display, String.toList_intercalate, List.map_map]
    exact splitAt_intercalate hcomma (fun hnil => hne (List.map_eq_nil_iff.mp hnil))
  rw [listParts, hparts, List.map_map]
  rfl

theorem readTerms_blank {text : String} (h : isBlankText text = true) :
    readTerms seeds n (listParts text) ≠ .ok sorting := by
  have hblank : Blank text.toList := List.all_eq_true.mp h
  have hparts : listParts text = [""] := by
    rw [listParts, splitAt_of_not_mem (not_mem_of_blank (by decide) hblank), List.map_singleton,
      trimBlank_eq_nil_iff.mpr hblank]
  intro hread
  rw [hparts] at hread
  obtain ⟨term, -, -, hterm, -⟩ := readTerms_cons hread
  rw [SortTerm.read, if_pos (by decide)] at hterm
  cases hterm

theorem read_display_iff (hsound : ∀ term ∈ sorting, term.Sound) (hne : sorting ≠ []) :
    read seeds (some sorting.display) = .ok sorting ↔ ∀ term ∈ sorting, term.Unmistakable := by
  rw [← readTerms_display seeds 0 hsound, ← listParts_display hsound hne,
    read_some]
  by_cases hblank : isBlankText sorting.display = true
  · rw [if_pos hblank]
    refine iff_of_false (fun heq => ?_) (readTerms_blank hblank)
    -- the text of the one sorting that blanks stand for is not blank itself
    cases heq
    have hdisplay : display ([.default] : Sorting α) = "default" := rfl
    rw [hdisplay] at hblank
    exact absurd hblank (by decide)
  · rw [if_neg hblank]

/-- The name can be written as a key of a sorting: it holds nothing that ends a key. -/
def KeyName (name : String) : Prop :=
  name ≠ "random" ∧ name ≠ "default" ∧ ∀ c ∈ name.toList, c ≠ ',' ∧ c ≠ ':' ∧ isBlank c = false

instance (name : String) : Decidable (KeyName name) :=
  decidable_of_iff (name ≠ "random" ∧ name ≠ "default" ∧
      name.toList.all (fun c => c ≠ ',' && c ≠ ':' && !isBlank c) = true)
    (by simp [KeyName, and_assoc])

/-- The name can be written as a key and means nothing else where it stands alone. -/
def PlainName (name : String) : Prop :=
  KeyName name ∧ name ≠ "" ∧ sameName name "default" = false

instance (name : String) : Decidable (PlainName name) :=
  inferInstanceAs (Decidable (_ ∧ _))

theorem PlainName.standsAlone {name : String} (h : PlainName name) :
    SortTerm.StandsAlone name := by
  obtain ⟨⟨-, -, hchars⟩, hempty, hdefault⟩ := h
  exact ⟨hempty, hdefault, fun c hc => (hchars c (List.mem_of_getLast? hc)).2.2⟩

theorem unmistakable_of_plainName {term : SortTerm α} (hsound : term.Sound)
    (hnames : ∀ field ∈ (Resource.schema (α := α)).fields, PlainName field.name) :
    term.Unmistakable := by
  cases term with
  | default | random seed => exact trivial
  | «by» field descending =>
    cases descending with
    | true => exact trivial
    | false => exact (hnames field (Schema.field?_some hsound.found).1).standsAlone

/-- A sorting that was read from text reads back from its own text exactly if the names that stand
alone in it are read as themselves, whatever seeds there are for new orders. So it does under a
schema of plain names, with the same keys. -/
theorem read_display {text : Option String} (h : read seeds text = .ok sorting)
    (seeds' : Nat → UInt64) :
    (read seeds' (some sorting.display) = .ok sorting ↔ ∀ term ∈ sorting, term.Unmistakable) ∧
      ((∀ field ∈ (Resource.schema (α := α)).fields, PlainName field.name) →
        ∃ again, read seeds' (some sorting.display) = .ok again ∧ again = sorting ∧
          again.compile = sorting.compile) := by
  obtain ⟨hne, hsound⟩ := sound_of_read h
  have hiff : read seeds' (some sorting.display) = .ok sorting ↔
      ∀ term ∈ sorting, term.Unmistakable := read_display_iff hsound hne
  refine ⟨hiff, fun hnames => ⟨sorting, hiff.mpr fun term hterm => ?_, rfl, rfl⟩⟩
  exact unmistakable_of_plainName (hsound term hterm) hnames

open Catalog in
/-- Capitals, blanks, the order of the schema inside a list, a given seed and a new one. -/
theorem read_display_list :
    ∃ sorting again : Sorting Show,
      read (fun _ => 5) (some " NAME:DESC , default,Status,random:+7,RANDOM ") = .ok sorting ∧
        sorting.display = "name:desc,default,status,random:7,random:5" ∧
        read (fun _ => 0) (some sorting.display) = .ok again ∧ again = sorting ∧
        again.compile = sorting.compile := by
  have hread : (read (fun _ => 5) (some " NAME:DESC , default,Status,random:+7,RANDOM ") :
      Except QueryError (Sorting Show)) = .ok [.by Show.nameField true, .default,
        .by Show.statusField false, .random 7, .random 5] := rfl
  obtain ⟨again, hagain⟩ := (read_display hread fun _ => 0).2 (by decide)
  exact ⟨_, again, hread, by decide, hagain⟩

end Sorting

/-! ## Names that do not stand alone -/

/-- A row with a note under the given name. -/
structure Noted (name : String) where
  id : Int64
  slug : String
  note : String

namespace Noted

variable (name : String)

def idField : Field (Noted name) := ⟨"id", "id", .int, false, fun row => .int row.id⟩
def slugField : Field (Noted name) := ⟨"slug", "slug", .text, false, fun row => .text row.slug⟩
def noteField : Field (Noted name) := ⟨name, "note", .text, false, fun row => .text row.note⟩

def declaration : SchemaDecl (Noted name) where
  id := idField name
  slug := slugField name
  fields := [noteField name]

def schema : Schema (Noted name) where
  id := idField name
  slug := slugField name
  fields := [idField name, slugField name, noteField name]
  relations := []
  defaultSort := [(slugField name, false)]
  search := []

instance : Resource (Noted name) Int64 where
  kind := "Noted"
  id := Noted.id
  slug := Noted.slug
  setId i row := { row with id := i }
  schema := schema name

/-- The schema can be declared and its fields have names for keys. Yet the notes can be asked for in
rising order by a text of which another sorting is read once it has been written again. -/
def Mistaken : Prop :=
  (declaration name).build = .ok (schema name) ∧
    (∀ field ∈ (schema name).fields, Sorting.KeyName field.name) ∧
    ∃ sorting again : Sorting (Noted name),
      Sorting.read (fun _ => 0) (some (name ++ ":asc")) = .ok sorting ∧
        Sorting.read (fun _ => 0) (some sorting.display) = .ok again ∧
        again ≠ sorting ∧ again.compile ≠ sorting.compile

variable {name}

/-- The columns that an order sorts by. -/
def columns (keys : OrderBy (Noted name)) : List String :=
  keys.map fun key =>
    match key.target with
    | .field field => field.column
    | .random _ => "id"

theorem mistaken_of_read
    (hnames : ∀ field ∈ (schema name).fields, Sorting.KeyName field.name)
    (hread : Sorting.read (fun _ => 0) (some (name ++ ":asc")) =
      .ok ([.by (noteField name) false] : Sorting (Noted name)))
    (hagain : Sorting.read (fun _ => 0)
        (some (Sorting.display ([.by (noteField name) false] : Sorting (Noted name)))) =
      .ok ([.default] : Sorting (Noted name))) : Mistaken name := by
  -- A schema without an order of its own is sorted by the slug.
  have hcompile : Sorting.compile ([.default] : Sorting (Noted name)) ≠
      Sorting.compile [.by (noteField name) false] := by
    intro h
    have hcolumns : ["slug", "id"] = ["note", "id"] := congrArg columns h
    exact absurd hcolumns (by decide)
  exact ⟨rfl, hnames, _, _, hread, hagain, fun h => hcompile (congrArg Sorting.compile h), hcompile⟩

end Noted

/-- Nothing is written of a rising key without a name, and nothing is read as the schema's order.
The word for that order is read as such in capitals too. -/
theorem Sorting.read_display_mistaken : Noted.Mistaken "" ∧ Noted.Mistaken "Default" :=
  ⟨Noted.mistaken_of_read (by decide) rfl rfl, Noted.mistaken_of_read (by decide) rfl rfl⟩

end Repertory
