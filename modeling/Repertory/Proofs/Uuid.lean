import Mathlib.Algebra.Group.Nat.Defs
import Repertory.Uuid

/-!
# Unique identifiers read back

The text of an identifier reads as the identifier (`read_text`). Its groups are the digits of one
number, cut apart by hyphens (`groups_append`), and 32 digits show every number of 128 bits
(`hexNumber_hexDigits`).
-/

namespace Repertory
namespace Uuid

/-! ## Hexadecimal digits -/

theorem hexValue_digitChar {d : Nat} (h : d < 16) : hexValue (Nat.digitChar d) = some d := by
  have hall : ∀ d : Fin 16, hexValue (Nat.digitChar d.val) = some d.val := by decide
  exact hall ⟨d, h⟩

theorem length_hexDigits (count n : Nat) : (hexDigits count n).length = count := by
  induction count generalizing n with
  | zero => rfl
  | succ count ih => rw [hexDigits, List.length_append, ih, List.length_singleton]

theorem hexNumber_append (acc : Nat) (s t : List Char) :
    hexNumber acc (s ++ t) = (hexNumber acc s).bind fun n => hexNumber n t := by
  induction s generalizing acc with
  | nil => rfl
  | cons c s ih =>
    rw [List.cons_append, hexNumber, hexNumber]
    cases hexValue c with
    | none => rfl
    | some d => exact ih (16 * acc + d)

/-- As many digits as there are show the lowest part of a number. -/
theorem hexNumber_hexDigits (acc count n : Nat) :
    hexNumber acc (hexDigits count n) = some (16 ^ count * acc + n % 16 ^ count) := by
  induction count generalizing n with
  | zero => rw [hexDigits, hexNumber, Nat.pow_zero, Nat.one_mul, Nat.mod_one, Nat.add_zero]
  | succ count ih =>
    have hlast : hexValue (Nat.digitChar (n % 16)) = some (n % 16) :=
      hexValue_digitChar (Nat.mod_lt n (by decide))
    have hvalue : 16 * (16 ^ count * acc + n / 16 % 16 ^ count) + n % 16 =
        16 ^ (count + 1) * acc + n % 16 ^ (count + 1) := by
      rw [Nat.pow_succ', Nat.mod_mul, Nat.mul_add, ← Nat.mul_assoc]
      omega
    rw [hexDigits, hexNumber_append, ih, Option.bind_some, hexNumber, hlast, Option.bind_some,
      hexNumber, hvalue]

theorem hexDigits_add (count rest n : Nat) :
    hexDigits (count + rest) n = hexDigits count (n / 16 ^ rest) ++ hexDigits rest n := by
  induction rest generalizing n with
  | zero => rw [Nat.add_zero, Nat.pow_zero, Nat.div_one, hexDigits, List.append_nil]
  | succ rest ih =>
    rw [← Nat.add_assoc, hexDigits, ih, hexDigits, Nat.div_div_eq_div_mul, ← Nat.pow_succ',
      List.append_assoc]

/-! ## Groups of digits -/

theorem ofGroups_join {a b c d e : List Char} (ha : a.length = 8) (hb : b.length = 4)
    (hc : c.length = 4) (hd : d.length = 4) (he : e.length = 12) :
    ofGroups (a ++ '-' :: b ++ '-' :: c ++ '-' :: d ++ '-' :: e) =
      ofHex (a ++ b ++ c ++ d ++ e) := by
  unfold ofGroups
  simp [ha, hb, hc, hd, he, List.drop_append, List.replicate, List.drop_eq_nil_of_le]

theorem hexDigits_append (count rest shift n : Nat) :
    hexDigits count (n >>> (shift + 4 * rest)) ++ hexDigits rest (n >>> shift) =
      hexDigits (count + rest) (n >>> shift) := by
  have hshift : n >>> (shift + 4 * rest) = n >>> shift / 16 ^ rest := by
    rw [Nat.shiftRight_add, Nat.shiftRight_eq_div_pow _ (4 * rest), Nat.pow_mul]
  rw [hexDigits_add, hshift]

/-- The groups are the digits of the number, cut behind the 8th, 12th, 16th and 20th. -/
theorem groups_append (n : Nat) :
    hexDigits 8 (n >>> 96) ++ hexDigits 4 (n >>> 80) ++ hexDigits 4 (n >>> 64) ++
      hexDigits 4 (n >>> 48) ++ hexDigits 12 n = hexDigits 32 n := by
  have htwo : hexDigits 8 (n >>> 96) ++ hexDigits 4 (n >>> 80) = hexDigits 12 (n >>> 80) :=
    hexDigits_append 8 4 80 n
  have hthree : hexDigits 12 (n >>> 80) ++ hexDigits 4 (n >>> 64) = hexDigits 16 (n >>> 64) :=
    hexDigits_append 12 4 64 n
  have hfour : hexDigits 16 (n >>> 64) ++ hexDigits 4 (n >>> 48) = hexDigits 20 (n >>> 48) :=
    hexDigits_append 16 4 48 n
  have hall : hexDigits 20 (n >>> 48) ++ hexDigits 12 n = hexDigits 32 n :=
    hexDigits_append 20 12 0 n
  rw [htwo, hthree, hfour, hall]

theorem read_of_length {s : String} (h : s.toList.length = 36) : read s = ofGroups s.toList := by
  have hne : ¬s.toList.length = 32 := by omega
  rw [read]
  exact (if_neg hne).trans (if_pos h)

theorem read_text (u : Uuid) : read u.text = some u := by
  have htext : u.text.toList = hexDigits 8 (u.bits.val >>> 96) ++
      '-' :: hexDigits 4 (u.bits.val >>> 80) ++ '-' :: hexDigits 4 (u.bits.val >>> 64) ++
      '-' :: hexDigits 4 (u.bits.val >>> 48) ++ '-' :: hexDigits 12 u.bits.val :=
    String.toList_ofList
  have hlength : u.text.toList.length = 36 := by
    rw [htext]
    simp [length_hexDigits]
  have hmod : u.bits.val % 16 ^ 32 = u.bits.val := Nat.mod_eq_of_lt u.bits.isLt
  have hvalue : hexNumber 0 (hexDigits 32 u.bits.val) = some u.bits.val := by
    rw [hexNumber_hexDigits, Nat.mul_zero, Nat.zero_add, hmod]
  have hbits : ofNat u.bits.val = u := by
    rw [ofNat]
    exact congrArg mk (Fin.ext hmod)
  rw [read_of_length hlength, htext, ofGroups_join (length_hexDigits ..) (length_hexDigits ..)
    (length_hexDigits ..) (length_hexDigits ..) (length_hexDigits ..), groups_append, ofHex,
    if_pos (length_hexDigits ..), hvalue, Option.map_some, hbits]

end Uuid
end Repertory
