import Repertory.Proofs.Filter.Writing
import Repertory.Proofs.Number.Integer

/-!
# Printed words

Numbers, dates and identifiers are printed in few characters (`Token.isPrinted`), all of which may
stand in a word. There is no `l` among them, so none is printed as a null.
-/

namespace Repertory

namespace Token

/-- The letters are those of hexadecimal digits, of `inf` and of `NaN`. -/
def isPrinted (c : Char) : Bool := c.isDigit || "+-.abcdefinN".toList.contains c

theorem isPrinted_iff {c : Char} :
    isPrinted c = true ↔ c.isDigit = true ∨ c ∈ "+-.abcdefinN".toList := by
  rw [isPrinted, Bool.or_eq_true, List.contains_iff_mem]

theorem isWordChar_of_isPrinted {c : Char} (h : isPrinted c = true) : isWordChar c = true := by
  rcases isPrinted_iff.mp h with h | h
  · rw [Char.isDigit, Bool.and_eq_true, decide_eq_true_eq, decide_eq_true_eq] at h
    exact isWordChar_of_toNat (.inl ⟨UInt32.le_iff_toNat_le.mp h.1, UInt32.le_iff_toNat_le.mp h.2⟩)
  · have hall : "+-.abcdefinN".toList.all isWordChar = true := by decide
    exact List.all_eq_true.mp hall c h

theorem toLower_ne_of_isPrinted {c : Char} (h : isPrinted c = true) : c.toLower ≠ 'l' := by
  rcases isPrinted_iff.mp h with h | h
  · rw [Char.isDigit, Bool.and_eq_true, decide_eq_true_eq, decide_eq_true_eq] at h
    have hto : c.toNat ≤ 57 := UInt32.le_iff_toNat_le.mp h.2
    have hlower : c.toLower = c := by
      delta Char.toLower
      refine dif_neg fun hupper => ?_
      have hfrom : 65 ≤ c.toNat := UInt32.le_iff_toNat_le.mp hupper.1
      omega
    rw [hlower]
    rintro rfl
    exact absurd hto (by decide)
  · have hall : "+-.abcdefinN".toList.all (fun c => c.toLower != 'l') = true := by decide
    exact bne_iff_ne.mp (List.all_eq_true.mp hall c h)

/-- What is printed in these characters is no null. -/
theorem sameName_null_of_isPrinted {w : String} (h : ∀ c ∈ w.toList, isPrinted c = true) :
    Text.sameName w "null" = false := by
  rw [Bool.eq_false_iff]
  intro hnull
  have hlower : w.toList.map Char.toLower = "null".toList.map Char.toLower :=
    String.ofList_injective (Text.sameName_iff.mp hnull)
  have hmem : 'l' ∈ w.toList.map Char.toLower := hlower ▸ by decide
  obtain ⟨c, hc, hcl⟩ := List.mem_map.mp hmem
  exact toLower_ne_of_isPrinted (h c hc) hcl

/-- Text that needs no escapes is quoted as it is. -/
theorem enquote_of_plain {s : String} (h : ∀ c ∈ s.toList, c ≠ '"' ∧ c ≠ '\\') :
    enquote '"' s = "\"" ++ s ++ "\"" := by
  have hescape : s.toList.flatMap (escape '"') = s.toList := by
    conv_rhs => rw [← List.flatMap_singleton' s.toList]
    refine List.flatMap_congr fun c hc => ?_
    exact if_neg (not_or.mpr ⟨(h c hc).2, (h c hc).1⟩)
  rw [enquote, hescape, ← String.toList_inj]
  simp

end Token

namespace Number

open Token

theorem isPrinted_natText {n : Nat} : ∀ c ∈ natText n, isPrinted c = true :=
  fun _ hc => isPrinted_iff.mpr (.inl (isDigit_of_mem_natText hc))

theorem isPrinted_signedText (n : Int64) : ∀ c ∈ (signedText n).toList, isPrinted c = true := by
  intro c hc
  rcases mem_signedText hc with rfl | hdigit
  · rfl
  · exact isPrinted_iff.mpr (.inl hdigit)

theorem isPrinted_padded (width n : Nat) : ∀ c ∈ padded width n, isPrinted c = true := by
  rw [padded]
  refine List.forall_mem_append.mpr ⟨fun c hc => ?_, isPrinted_natText⟩
  rw [List.eq_of_mem_replicate hc]
  rfl

end Number

open Token Number

theorem Date.isPrinted_text (d : Date) : ∀ c ∈ d.text.toList, isPrinted c = true := by
  have hsign : isPrinted (if d.year < 0 then '-' else '+') = true := by
    split
    · rfl
    · rfl
  simp only [text, String.toList_ofList, List.forall_mem_append, List.forall_mem_cons]
  refine ⟨⟨?_, rfl, isPrinted_padded _ _⟩, rfl, isPrinted_padded _ _⟩
  split
  · exact isPrinted_padded _ _
  · exact List.forall_mem_cons.mpr ⟨hsign, isPrinted_padded _ _⟩

theorem Uuid.isPrinted_hexDigits (count n : Nat) :
    ∀ c ∈ hexDigits count n, isPrinted c = true := by
  induction count generalizing n with
  | zero => exact List.forall_mem_nil _
  | succ count ih =>
    have hdigit : ∀ d < 16, isPrinted (Nat.digitChar d) = true := by decide
    rw [hexDigits]
    exact List.forall_mem_append.mpr ⟨ih _, List.forall_mem_singleton.mpr
      (hdigit _ (Nat.mod_lt _ (by decide)))⟩

theorem Uuid.isPrinted_text (u : Uuid) : ∀ c ∈ u.text.toList, isPrinted c = true := by
  have hgroup : ∀ count n, ∀ c ∈ '-' :: hexDigits count n, isPrinted c = true := fun count n =>
    List.forall_mem_cons.mpr ⟨rfl, isPrinted_hexDigits count n⟩
  rw [text, String.toList_ofList]
  simp only [List.forall_mem_append]
  exact ⟨⟨⟨⟨isPrinted_hexDigits _ _, hgroup _ _⟩, hgroup _ _⟩, hgroup _ _⟩, hgroup _ _⟩

theorem Binary64.isPrinted_positional {digits : List Char}
    (h : ∀ c ∈ digits, isPrinted c = true) (point : Int) :
    ∀ c ∈ positional digits point, isPrinted c = true := by
  have hzeros : ∀ n, ∀ c ∈ List.replicate n '0', isPrinted c = true := by
    intro n c hc
    rw [List.eq_of_mem_replicate hc]
    rfl
  rw [positional]
  split
  · simp only [List.forall_mem_cons, List.forall_mem_append]
    exact ⟨rfl, rfl, hzeros _, h⟩
  · split
    · exact List.forall_mem_append.mpr ⟨h, hzeros _⟩
    · simp only [List.forall_mem_cons, List.forall_mem_append]
      exact ⟨fun c hc => h c (List.mem_of_mem_take hc), rfl,
        fun c hc => h c (List.mem_of_mem_drop hc)⟩

theorem Binary64.isPrinted_normal (d : Decimal) : ∀ c ∈ d.normal.1, isPrinted c = true := by
  intro c hc
  rw [Decimal.normal, List.mem_reverse] at hc
  have hmem := (List.dropWhile_suffix _).mem hc
  exact isPrinted_natText c (List.mem_reverse.mp hmem)

theorem Binary64.isPrinted_text (x : Binary64) : ∀ c ∈ x.text.toList, isPrinted c = true := by
  rw [text]
  split
  · exact List.all_eq_true.mp (by decide)
  · rw [String.toList_ofList]
    refine List.forall_mem_append.mpr ⟨?_, ?_⟩
    · split
      · exact List.forall_mem_singleton.mpr rfl
      · exact List.forall_mem_nil _
    · split
      · exact List.all_eq_true.mp (by decide)
      · split
        · exact List.forall_mem_singleton.mpr rfl
        · exact isPrinted_positional (isPrinted_normal _) _

end Repertory
