import Repertory.Number.Integer

/-!
# Integers read back

The text of a number reads as the number (`readSigned_signedText`, `readUnsigned_unsignedText`), so
two numbers have two texts. The digits hold no sign, so a sign in front of them is read as such and
no other is.
-/

namespace Repertory
namespace Number

theorem isDigit_of_mem_natText {n : Nat} {c : Char} (h : c ∈ natText n) : c.isDigit = true :=
  Nat.isDigit_of_mem_toDigits (by decide) (by decide) h

theorem exists_natText (n : Nat) :
    ∃ c rest, natText n = c :: rest ∧ c.isDigit = true := by
  cases htext : natText n with
  | nil => exact absurd htext Nat.toDigits_ne_nil
  | cons c rest => exact ⟨c, rest, rfl, isDigit_of_mem_natText (htext ▸ List.mem_cons_self)⟩

theorem natText_of_lt {n : Nat} (h : n < 10) : natText n = [Nat.digitChar n] :=
  Nat.toDigits_of_lt_base h

theorem natText_of_le {n : Nat} (h : 10 ≤ n) :
    natText n = natText (n / 10) ++ [Nat.digitChar (n % 10)] :=
  Nat.toDigits_of_base_le (by decide) h

/-- No number but zero is written with a leading zero. -/
theorem head?_natText {n : Nat} (h : n ≠ 0) : (natText n).head? ≠ some '0' := by
  induction n using Nat.strongRecOn with
  | ind n ih =>
    by_cases hn : n < 10
    · have hdigit : ∀ d : Fin 10, d.val ≠ 0 → some (Nat.digitChar d.val) ≠ some '0' := by decide
      rw [natText_of_lt hn]
      exact hdigit ⟨n, hn⟩ h
    · obtain ⟨c, rest, htext, -⟩ := exists_natText (n / 10)
      have hhead := ih (n / 10) (by omega) (by omega)
      rw [htext] at hhead
      rw [natText_of_le (by omega), htext]
      exact hhead

theorem exists_intText (n : Int) :
    ∃ c rest, intText n = c :: rest ∧ (c = '-' ∨ c.isDigit = true) := by
  rw [intText]
  by_cases hneg : n < 0
  · rw [if_pos hneg]
    exact ⟨'-', _, rfl, .inl rfl⟩
  · rw [if_neg hneg]
    obtain ⟨c, rest, htext, hc⟩ := exists_natText n.natAbs
    exact ⟨c, rest, htext, .inr hc⟩

theorem mem_signedText {n : Int64} {c : Char} (h : c ∈ (signedText n).toList) :
    c = '-' ∨ c.isDigit = true := by
  rw [signedText, String.toList_ofList, intText] at h
  split at h
  · rcases List.mem_cons.mp h with rfl | hc
    · exact .inl rfl
    · exact .inr (isDigit_of_mem_natText hc)
  · exact .inr (isDigit_of_mem_natText h)

theorem not_mem_signedText {c : Char} (hsign : c ≠ '-') (hdigit : c.isDigit = false) (n : Int64) :
    c ∉ (signedText n).toList := by
  intro hc
  rcases mem_signedText hc with rfl | hc
  · exact hsign rfl
  · rw [hdigit] at hc
    cases hc

theorem readDigits_natText (n : Nat) : readDigits (natText n) = some n := by
  have hall : (natText n).all Char.isDigit = true :=
    List.all_eq_true.mpr fun _ hc => isDigit_of_mem_natText hc
  obtain ⟨c, rest, htext, -⟩ := exists_natText n
  have hempty : (natText n).isEmpty = false := by rw [htext, List.isEmpty_cons]
  have hvalue : Nat.ofDigitChars 10 (natText n) 0 = n := Nat.ofDigitChars_ten_toDigits
  rw [readDigits, hall, hempty, hvalue]
  rfl

theorem readNat_natText (n : Nat) : readNat (natText n) = some n := by
  obtain ⟨c, rest, htext, hc⟩ := exists_natText n
  have hsign : c ≠ '+' := by
    rintro rfl
    exact absurd hc (by decide)
  have hread := readDigits_natText n
  rw [htext] at hread ⊢
  rw [readNat.eq_def]
  split
  · rename_i heq
    exact absurd (List.cons.inj heq).1 hsign
  · exact hread

theorem readInt_natText (n : Nat) : readInt (natText n) = some (n : Int) := by
  obtain ⟨c, rest, htext, hc⟩ := exists_natText n
  have hsign : c ≠ '-' := by
    rintro rfl
    exact absurd hc (by decide)
  have hread := readNat_natText n
  rw [htext] at hread ⊢
  rw [readInt.eq_def]
  split
  · rename_i heq
    exact absurd (List.cons.inj heq).1 hsign
  · rw [hread]
    rfl

theorem readInt_intText (n : Int) : readInt (intText n) = some n := by
  rw [intText]
  split
  · rename_i hneg
    show (readDigits (natText n.natAbs)).map (fun m => -(m : Int)) = some n
    rw [readDigits_natText]
    have hvalue : -(n.natAbs : Int) = n := by omega
    exact congrArg some hvalue
  · rename_i hpos
    have hvalue : (n.natAbs : Int) = n := by omega
    rw [readInt_natText, hvalue]

theorem signed?_toInt (n : Int64) : signed? n.toInt = some n := by
  have hle : -0x8000000000000000 ≤ n.toInt := Int64.le_toInt n
  have hlt : n.toInt < 0x8000000000000000 := Int64.toInt_lt n
  rw [signed?, if_pos ⟨hle, hlt⟩, Int64.ofInt_toInt]

theorem readSigned_signedText (n : Int64) : readSigned (signedText n) = some n := by
  rw [readSigned, signedText, String.toList_ofList, readInt_intText]
  exact signed?_toInt n

theorem signedText_injective : Function.Injective signedText := by
  intro m n h
  have hread : some m = some n := by rw [← readSigned_signedText m, h, readSigned_signedText]
  exact Option.some.inj hread

theorem unsigned?_toNat (n : UInt64) : unsigned? (n.toNat : Int) = some n := by
  have hlt : n.toNat < 2 ^ 64 := n.toNat_lt
  have hbounds : 0 ≤ (n.toNat : Int) ∧ (n.toNat : Int) < 0x10000000000000000 := by omega
  rw [unsigned?, if_pos hbounds, Int.toNat_natCast, UInt64.ofNat_toNat]

theorem readUnsigned_unsignedText (n : UInt64) : readUnsigned (unsignedText n) = some n := by
  rw [readUnsigned, unsignedText, String.toList_ofList, readNat_natText, Option.bind_some,
    unsigned?_toNat]

end Number
end Repertory
