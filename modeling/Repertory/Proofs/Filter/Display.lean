import Repertory.Filter.Printer
import Repertory.Proofs.Filter.Printed

/-!
# The written form of a filter

A filter that was read from a text is written so that it reads back (`parse_display`), up to three
things that its written form does not mind. Text stands in it as it is, so there may be no quote and
no backslash in it. Every conjunction and disjunction stands in parentheses, so the form may be
nested more deeply than the text was. Numbers, dates and identifiers are words, which have to read
back on their own.

The proof follows the derivation of the text that was read, and writes a derivation of the written
form beside it: the leaves tell which literals they came from, and a literal is printed as a word or
a quoted text that stands for the same value (`Means.writes_display`).
-/

namespace Repertory
namespace Value

/-- No character of a text has to be escaped. -/
def Plain : Value → Prop
  | text s => ∀ c ∈ s.toList, c ≠ '"' ∧ c ≠ '\\'
  | _ => True

/-- A number with a fraction, a date or an identifier is what its printed form reads as. -/
def ReadsBack : Value → Prop
  | float x => Binary64.read x.text = some x
  | date d => Date.read d.text = some d
  | uuid u => Uuid.read u.text = some u
  | _ => True

instance : DecidablePred Plain
  | text s => List.decidableBAll (fun c => c ≠ '"' ∧ c ≠ '\\') s.toList
  | null | bool _ | int _ | float _ | date _ | uuid _ | list _ => isTrue trivial

instance : DecidablePred ReadsBack
  | float _ | date _ | uuid _ => inferInstanceAs (Decidable (_ = _))
  | null | bool _ | int _ | text _ | list _ => isTrue trivial

end Value

namespace Grammar

open Token Repertory.Filter

variable {α ι β : Type} {kind : FieldKind} {v : Value} {vs : List Value}

/-- A printed word that reads back is a literal. -/
theorem writes_printed {wrap : β → Value} {read : String → Option β}
    (hkind : ∀ raw, kind.literal raw = (read raw).map wrap) {text : String} {b : β}
    (hread : read text = some b) (hempty : read "" = none)
    (hprinted : ∀ c ∈ text.toList, isPrinted c = true) :
    Writes (Literal kind) text.toList (wrap b) := by
  have hne : text.toList ≠ [] := by
    intro hnil
    rw [String.toList_eq_nil_iff.mp hnil, hempty] at hread
    cases hread
  have hword : IsWord text := ⟨hne, fun c hc => isWordChar_of_isPrinted (hprinted c hc)⟩
  have hliteral : kind.literal text = some (wrap b) := by
    rw [hkind, hread]
    rfl
  exact writes_word hword (sameName_null_of_isPrinted hprinted) hliteral

theorem writes_text {s : String} (hs : (Value.text s).Plain)
    (hliteral : kind.literal s = some (.text s)) :
    Writes (Literal kind) (Value.text s).display.toList (.text s) := by
  rw [Value.display, ← enquote_of_plain hs]
  exact ⟨_, splits_enquote (.inl rfl) s, _, rfl, .quoted hliteral⟩

/-- A word of a choice is found under itself, since the first word of that name is. -/
theorem literal_choice {words : List String} {raw word : String}
    (h : words.find? (fun w => Text.sameName w raw) = some word) :
    (FieldKind.choice words).literal word = some (.text word) := by
  have hname := List.find?_some h
  simp only [FieldKind.literal, Text.sameName_congr_right hname, h]
  rfl

theorem writes_of_literal {raw : String} (h : kind.literal raw = some v) (hplain : v.Plain)
    (hreads : v.ReadsBack) : Writes (Literal kind) v.display.toList v := by
  cases kind with
  | int | intList =>
    obtain ⟨n, -, rfl⟩ := Option.map_eq_some_iff.mp h
    exact writes_printed (fun _ => rfl) (Number.readSigned_signedText n) rfl
      (Number.isPrinted_signedText n)
  | float =>
    obtain ⟨x, -, rfl⟩ := Option.map_eq_some_iff.mp h
    exact writes_printed (fun _ => rfl) hreads rfl x.isPrinted_text
  | date =>
    obtain ⟨d, -, rfl⟩ := Option.map_eq_some_iff.mp h
    exact writes_printed (fun _ => rfl) hreads rfl d.isPrinted_text
  | uuid =>
    obtain ⟨u, -, rfl⟩ := Option.map_eq_some_iff.mp h
    exact writes_printed (fun _ => rfl) hreads rfl u.isPrinted_text
  | bool =>
    simp only [FieldKind.literal] at h
    split at h
    · cases h
      exact writes_word (w := "true") (by decide) rfl rfl
    · split at h
      · cases h
        exact writes_word (w := "false") (by decide) rfl rfl
      · cases h
  | choice words =>
    obtain ⟨word, hfind, rfl⟩ := Option.map_eq_some_iff.mp h
    exact writes_text hplain (literal_choice hfind)
  | text | textList =>
    cases h
    exact writes_text hplain rfl

theorem Means.writes_display {t : Token} (h : Means kind t v) (hplain : v.Plain)
    (hreads : v.ReadsBack) : Writes (Literal kind) v.display.toList v := by
  cases h with
  | null => exact writes_null
  | word _ h | quoted h => exact writes_of_literal h hplain hreads

theorem Values.means {ts : List Token} (h : Values kind ts vs) :
    ∀ v ∈ vs, ∃ t, Means kind t v := by
  induction h with
  | one h => exact List.forall_mem_singleton.mpr ⟨_, h⟩
  | more h _ ih => exact List.forall_mem_cons.mpr ⟨⟨_, h⟩, ih⟩

theorem Items.means {ts : List Token} (h : Items kind ts vs) : ∀ v ∈ vs, ∃ t, Means kind t v := by
  cases h with
  | none => exact List.forall_mem_nil _
  | some h => exact h.means

theorem writes_displayItems (h : ∀ v ∈ vs, Writes (Literal kind) v.display.toList v) :
    Writes (Items kind) (Value.displayItems vs).toList vs := by
  have hvalues : ∀ v vs, (∀ w ∈ v :: vs, Writes (Literal kind) w.display.toList w) →
      Writes (Values kind) (Value.displayItems (v :: vs)).toList (v :: vs) := by
    intro v vs h
    induction vs generalizing v with
    | nil => exact (h v List.mem_cons_self).values_one
    | cons w vs ih =>
      obtain ⟨hfirst, hrest⟩ := List.forall_mem_cons.mp h
      have hwrites := hfirst.values_more (ih w hrest).blank
      simpa [Value.displayItems, String.toList_append] using hwrites
  cases vs with
  | nil => exact writes_items_nil
  | cons v vs => exact (hvalues v vs h).items

end Grammar

namespace Filter

open Grammar

variable {α ι : Type}

/-- The greatest number of conjunctions, disjunctions and negations around a part of the filter. -/
def nesting : Filter α ι → Nat
  | and a b => max a.nesting b.nesting + 1
  | or a b => max a.nesting b.nesting + 1
  | not a => a.nesting + 1
  | _ => 0

/-- The values that fields are compared with. -/
def literals : Filter α ι → List Value
  | and a b => a.literals ++ b.literals
  | or a b => a.literals ++ b.literals
  | not a => a.literals
  | cmp _ _ v => [v]
  | has _ v => [v]
  | oneOf _ vs => vs
  | _ => []

variable [Identity ι] [Resource α ι]

/-- What it takes for the filter to be read from its written form, with `n` levels of nesting. -/
structure Reprints (n : Nat) (f : Filter α ι) : Prop where
  fields : f.ReadableFields
  literals : ∀ v ∈ f.literals, v.Plain ∧ v.ReadsBack
  nesting : f.nesting ≤ n

namespace Reprints

variable {n : Nat} {a b : Filter α ι}

theorem not (h : Reprints n (.not a)) : ∃ m, n = m + 1 ∧ Reprints m a := by
  obtain ⟨m, rfl⟩ := Nat.exists_eq_add_of_le' (Nat.le_trans (Nat.le_add_left 1 _) h.nesting)
  exact ⟨m, rfl, h.fields, h.literals, Nat.le_of_succ_le_succ h.nesting⟩

theorem and (h : Reprints n (.and a b)) : ∃ m, n = m + 1 ∧ Reprints m a ∧ Reprints m b := by
  obtain ⟨m, rfl⟩ := Nat.exists_eq_add_of_le' (Nat.le_trans (Nat.le_add_left 1 _) h.nesting)
  obtain ⟨hfieldsLeft, hfieldsRight⟩ := List.forall_mem_append.mp h.fields
  obtain ⟨hliteralsLeft, hliteralsRight⟩ := List.forall_mem_append.mp h.literals
  obtain ⟨hleft, hright⟩ := Nat.max_le.mp (Nat.le_of_succ_le_succ h.nesting)
  exact ⟨m, rfl, ⟨hfieldsLeft, hliteralsLeft, hleft⟩, ⟨hfieldsRight, hliteralsRight, hright⟩⟩

/-- The two connectives have the same parts. -/
theorem or (h : Reprints n (.or a b)) : ∃ m, n = m + 1 ∧ Reprints m a ∧ Reprints m b :=
  and ⟨h.fields, h.literals, h.nesting⟩

end Reprints

end Filter

namespace Grammar

open Repertory.Filter

variable {α ι : Type} [Identity ι] [Resource α ι] {f : Filter α ι} {m : Nat}

theorem Comparison.writes_display {ts : List Token} (h : Comparison ts f) (hf : Reprints m f) :
    Writes Comparison f.display.toList f := by
  have hliterals := hf.literals
  cases h with
  | cmp hname hrelator hkind hvalue hnull =>
    obtain ⟨hplain, hreads⟩ := hliterals _ List.mem_cons_self
    have hwrites := (hvalue.writes_display hplain hreads).cmp (ι := ι)
      (hf.fields _ List.mem_cons_self) hkind hnull
    simpa [Filter.display, String.toList_append] using hwrites
  | has hname hrelator hkind hvalue =>
    obtain ⟨hplain, hreads⟩ := hliterals _ List.mem_cons_self
    have hwrites := (hvalue.writes_display hplain hreads).has (ι := ι)
      (hf.fields _ List.mem_cons_self) hkind
    simpa [Filter.display, String.toList_append] using hwrites
  | oneOf hname hrelator hkind hvalues =>
    have hitems := writes_displayItems fun v hv =>
      have ⟨_, ht⟩ := hvalues.means v hv
      ht.writes_display (hliterals v hv).1 (hliterals v hv).2
    have hwrites := hitems.oneOf (ι := ι) (hf.fields _ List.mem_cons_self) hkind
    simpa [Filter.display, Value.display, String.toList_append] using hwrites

mutual

theorem Disjunction.writes_display {n m : Nat} {ts : List Token} {f : Filter α ι} :
    Disjunction n ts f → Reprints m f → Writes (Operand m) f.display.toList f
  | .conjunction h, hf => h.writes_display hf
  | .or hleft _ hright, hf => by
    obtain ⟨m, rfl, ha, hb⟩ := hf.or
    have hwrites := ((hleft.writes_display ha).or (hright.writes_display hb)).parens
    simpa [Filter.display, String.toList_append] using hwrites

theorem Conjunction.writes_display {n m : Nat} {ts : List Token} {f : Filter α ι} :
    Conjunction n ts f → Reprints m f → Writes (Operand m) f.display.toList f
  | .operand h, hf => h.writes_display hf
  | .and hleft _ hright, hf => by
    obtain ⟨m, rfl, ha, hb⟩ := hf.and
    have hwrites := ((hleft.writes_display ha).and (hright.writes_display hb)).parens
    simpa [Filter.display, String.toList_append] using hwrites

theorem Operand.writes_display {n m : Nat} {ts : List Token} {f : Filter α ι} :
    Operand n ts f → Reprints m f → Writes (Operand m) f.display.toList f
  | .not _ h, hf => by
    obtain ⟨m, rfl, ha⟩ := hf.not
    have hwrites := (h.writes_display ha).not
    simpa [Filter.display, String.toList_append] using hwrites
  | .parens h, hf => h.writes_display hf
  | .comparison h, hf => (h.writes_display hf).operand

end

end Grammar

namespace Filter

open Grammar

variable {α ι : Type} [Identity ι] [Resource α ι]

/-- A filter that was read from a text is read from its written form. -/
theorem parse_display {text : String} {f : Filter α ι} (h : parse text = .ok f)
    (hnesting : f.nesting ≤ 64) (hplain : ∀ v ∈ f.literals, v.Plain)
    (hreads : ∀ v ∈ f.literals, v.ReadsBack) : parse f.display = .ok f := by
  obtain ⟨tokens, -, hderives, hfields⟩ := parse_derives h
  have hf : Reprints maxDepth f :=
    ⟨hfields, fun v hv => ⟨hplain v hv, hreads v hv⟩, hnesting⟩
  exact (hderives.writes_display hf).disjunction.parse hfields.resolved

open Catalog in
/-- The text has fewer parentheses and quotes than the written form, and a zero at the end of a
number. -/
theorem parse_display_airing :
    let f : Filter Show Int64 :=
      .or (.and (.not (.cmp .eq Show.statusField (.text "airing")))
          (.cmp .ge Show.ratingField (.float ⟨false, 0x4021000000000000, by decide⟩)))
        (.oneOf Show.airDateField [.date ⟨2024, 2, 29, by decide⟩, .null])
    parse "(not status eq AIRING and rating ge 8.50) or airDate in [2024-02-29,null]" = .ok f ∧
      f.nesting ≤ 64 ∧ (∀ v ∈ f.literals, v.Plain) ∧ (∀ v ∈ f.literals, v.ReadsBack) ∧
      f.display =
        "((not status eq \"airing\" and rating ge 8.5) or airDate in [2024-02-29, null])" ∧
      parse f.display = .ok f := by
  intro f
  have hstatus : Show.schema.Readable Show.statusField := ⟨⟨rfl, rfl⟩, by decide⟩
  have hrating : Show.schema.Readable Show.ratingField := ⟨⟨rfl, rfl⟩, by decide⟩
  have hairDate : Show.schema.Readable Show.airDateField := ⟨⟨rfl, rfl⟩, by decide⟩
  have hword : Writes (Literal Show.statusField.kind) "AIRING".toList (.text "airing") :=
    writes_word (by decide) rfl rfl
  have hnumber : Writes (Literal Show.ratingField.kind) "8.50".toList
      (.float ⟨false, 0x4021000000000000, by decide⟩) :=
    writes_word (by decide) rfl (by decide +kernel)
  have hdate : Writes (Literal Show.airDateField.kind) "2024-02-29".toList
      (.date ⟨2024, 2, 29, by decide⟩) :=
    writes_word (by decide) rfl (by decide +kernel)
  have hf : parse "(not status eq AIRING and rating ge 8.50) or airDate in [2024-02-29,null]" =
      .ok f := by
    have hnegation : Writes (Operand 63) _ (.not (.cmp .eq _ _) : Filter Show Int64) :=
      (hword.cmp hstatus rfl nofun).operand.not
    have hcomparison : Writes (Operand 63) _ (.cmp .ge _ _ : Filter Show Int64) :=
      (hnumber.cmp hrating rfl nofun).operand
    have hlist := writes_intercalate (.cons hdate (.cons writes_null .nil))
    have hwrites := (hnegation.and hcomparison).parens.or (hlist.oneOf hairDate rfl).operand
    refine Writes.parse (f := f) hwrites ?_
    exact List.forall_mem_cons.mpr ⟨hstatus.toResolves,
      List.forall_mem_cons.mpr ⟨hrating.toResolves,
        List.forall_mem_singleton.mpr hairDate.toResolves⟩⟩
  have hplain : ∀ v ∈ f.literals, v.Plain := by decide
  have hreads : ∀ v ∈ f.literals, v.ReadsBack := by decide +kernel
  exact ⟨hf, by decide, hplain, hreads, by decide +kernel,
    parse_display hf (by decide) hplain hreads⟩

end Filter
end Repertory
