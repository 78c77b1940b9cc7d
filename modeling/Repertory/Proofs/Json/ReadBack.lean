import Mathlib.Data.List.TakeWhile
import Repertory.Json.Parser
import Repertory.Json.Printer
import Repertory.Proofs.Number.Integer
import Repertory.Proofs.Uuid

/-!
# JSON texts and integers read back

A text and an integer of 64 bits are read from what is written of them (`parse_compact_text`,
`parse_compact_int`). In quotes each character stands for itself or behind a backslash
(`escape_cases`), so the reader takes the characters one by one. An integer is written without
leading zeros, all its digits fit, and nothing behind them makes it a floating-point number.
-/

namespace Repertory
namespace Json

/-! ## Text in quotes -/

theorem readHex4_hexDigits {n : Nat} (h : n < 16 ^ 4) (rest : List Char) :
    readHex4 (Uuid.hexDigits 4 n ++ rest) = some (n, rest) := by
  have hlength : (Uuid.hexDigits 4 n).length = 4 := Uuid.length_hexDigits 4 n
  have htake : (Uuid.hexDigits 4 n ++ rest).take 4 = Uuid.hexDigits 4 n := List.take_left' hlength
  have hdrop : (Uuid.hexDigits 4 n ++ rest).drop 4 = rest := List.drop_left' hlength
  have hvalue : Uuid.hexNumber 0 (Uuid.hexDigits 4 n) = some n := by
    rw [Uuid.hexNumber_hexDigits, Nat.mul_zero, Nat.zero_add, Nat.mod_eq_of_lt h]
  rw [readHex4, htake, if_pos hlength, hvalue, hdrop]
  rfl

/-- A control character is written by its number, which is no surrogate. -/
theorem readUnicode_hexDigits {c : Char} (h : c.toNat < 0x20) (rest : List Char) :
    readUnicode (Uuid.hexDigits 4 c.toNat ++ rest) = some (some c, rest) := by
  have hlow : ¬(0xD800 ≤ c.toNat ∧ c.toNat < 0xDC00) := by omega
  have hhigh : ¬(0xDC00 ≤ c.toNat ∧ c.toNat < 0xE000) := by omega
  rw [readUnicode, readHex4_hexDigits (by omega)]
  show (if _ then _ else _) = _
  rw [if_neg hlow, if_neg hhigh, Char.ofNat_toNat]
  rfl

/-- A character is written as itself, or behind a backslash so that it is read there. -/
theorem escape_cases (c : Char) :
    (∃ behind, escape c = '\\' :: behind ∧
      ∀ rest, readEscape (behind ++ rest) = some (some c, rest)) ∨
      escape c = [c] ∧ c ≠ '"' ∧ c ≠ '\\' ∧ ¬c.toNat < 0x20 := by
  by_cases hletter : c ∈ ['"', '\\', '\n', '\r', '\t', '\x08', '\x0c']
  · left
    simp only [List.mem_cons, List.not_mem_nil, or_false] at hletter
    rcases hletter with rfl | rfl | rfl | rfl | rfl | rfl | rfl <;>
      exact ⟨_, rfl, fun rest => rfl⟩
  · simp only [List.mem_cons, List.not_mem_nil, or_false, not_or] at hletter
    obtain ⟨hquote, hbackslash, hn, hr, ht, hb, hf⟩ := hletter
    rw [escape, if_neg hquote, if_neg hbackslash, if_neg hn, if_neg hr, if_neg ht, if_neg hb,
      if_neg hf]
    by_cases hcontrol : c.toNat < 0x20
    · rw [if_pos hcontrol]
      exact .inl ⟨_, rfl, readUnicode_hexDigits hcontrol⟩
    · rw [if_neg hcontrol]
      exact .inr ⟨rfl, hquote, hbackslash, hcontrol⟩

theorem readString_escape (n : Nat) (acc : List Char) (c : Char) (rest : List Char) :
    readString (n + 1) (some acc) (escape c ++ rest) = readString n (some (c :: acc)) rest := by
  rcases escape_cases c with ⟨behind, hescape, hread⟩ | ⟨hescape, hquote, hbackslash, hcontrol⟩
  · rw [hescape, List.cons_append, readString, if_neg (by decide), if_pos rfl, hread]
    rfl
  · rw [hescape, List.singleton_append, readString, if_neg hquote, if_neg hbackslash,
      if_neg hcontrol]
    rfl

theorem readString_escaped {s : List Char} {n : Nat} (h : s.length < n) (acc rest : List Char) :
    readString n (some acc) (s.flatMap escape ++ '"' :: rest) =
      some (some (String.ofList (acc.reverse ++ s)), rest) := by
  induction s generalizing n acc with
  | nil =>
    obtain ⟨n, rfl⟩ := Nat.exists_eq_succ_of_ne_zero (Nat.ne_of_gt h)
    rw [List.flatMap_nil, List.nil_append, readString, if_pos rfl, List.append_nil]
    rfl
  | cons c s ih =>
    obtain ⟨n, rfl⟩ := Nat.exists_eq_succ_of_ne_zero (Nat.ne_of_gt (Nat.zero_lt_of_lt h))
    rw [List.flatMap_cons, List.append_assoc, readString_escape, ih (Nat.lt_of_succ_lt_succ h),
      List.reverse_cons, List.append_assoc, List.singleton_append]

theorem length_le_flatMap_escape (s : List Char) : s.length ≤ (s.flatMap escape).length := by
  induction s with
  | nil => exact Nat.le_refl 0
  | cons c s ih =>
    have hpos : 0 < (escape c).length := by
      rcases escape_cases c with ⟨behind, hescape, -⟩ | ⟨hescape, -⟩ <;> rw [hescape] <;>
        exact Nat.succ_pos _
    rw [List.flatMap_cons, List.length_append, List.length_cons]
    omega

theorem parse_of_readValue {s : String} {j : Json}
    (h : readValue (2 * s.toList.length + 2) s.toList = some (j, [])) (hj : j.settled = some j) :
    parse s = some j := by
  rw [parse, parseDraft, h]
  exact hj

theorem toList_quote (s : String) :
    (quote s).toList = '"' :: (s.toList.flatMap escape ++ ['"']) := by
  have hbody : (String.ofList (s.toList.flatMap escape)).toList = s.toList.flatMap escape :=
    String.toList_ofList
  rw [quote, String.toList_append, String.toList_append, hbody]
  rfl

theorem readValue_quote {n : Nat} {s : String} (h : s.toList.length < n) (rest : List Char) :
    readValue (n + 1) ((quote s).toList ++ rest) = some (text s, rest) := by
  have hstring := readString_escaped h [] rest
  rw [List.reverse_nil, List.nil_append, String.ofList_toList] at hstring
  rw [toList_quote, List.cons_append, List.append_assoc, List.singleton_append, readValue]
  show (readString n (some []) (s.toList.flatMap escape ++ '"' :: rest)).map _ = _
  rw [hstring]
  rfl

theorem parse_compact_text (s : String) : parse (compact (text s)) = some (text s) := by
  rw [compact]
  refine parse_of_readValue ?_ rfl
  have hlength : s.toList.length < 2 * (quote s).toList.length + 1 := by
    have hle := length_le_flatMap_escape s.toList
    rw [toList_quote, List.length_cons, List.length_append]
    omega
  have hread := readValue_quote hlength []
  rwa [List.append_nil] at hread

/-! ## Integers -/

theorem whole_digitChar (value : Nat) {d : Nat} (hd : d < 10) (h : 10 * value + d < UInt64.size) :
    Significand.whole ⟨value, 0, false⟩ (Nat.digitChar d) = ⟨10 * value + d, 0, false⟩ := by
  have hdigit : ∀ d : Fin 10, (Nat.digitChar d.val).toNat - 48 = d.val := by decide
  have hvalue : (Nat.digitChar d).toNat - 48 = d := hdigit ⟨d, hd⟩
  have hfits : (false || decide (UInt64.size ≤ 10 * value + d)) = false := by
    rw [Bool.false_or, decide_eq_false_iff_not]
    exact Nat.not_le_of_lt h
  rw [Significand.whole, hvalue]
  simp only [hfits]
  rfl

theorem foldl_whole_natText {n : Nat} (h : n < UInt64.size) :
    (Number.natText n).foldl Significand.whole ⟨0, 0, false⟩ = ⟨n, 0, false⟩ := by
  induction n using Nat.strongRecOn with
  | ind n ih =>
    by_cases hn : n < 10
    · have hone := whole_digitChar 0 hn (by omega)
      rw [Nat.mul_zero, Nat.zero_add] at hone
      rw [Number.natText_of_lt hn]
      exact hone
    · have hsum : 10 * (n / 10) + n % 10 = n := Nat.div_add_mod n 10
      have hlast := whole_digitChar (n / 10) (Nat.mod_lt n (by decide)) (by omega)
      rw [Number.natText_of_le (by omega), List.foldl_append, ih (n / 10) (by omega) (by omega)]
      rw [hsum] at hlast
      exact hlast

theorem digitsOf_natText (n : Nat) : digitsOf (Number.natText n) = Number.natText n :=
  List.takeWhile_eq_self_iff.mpr fun _ hc => Number.isDigit_of_mem_natText hc

/-- All digits of a number are its whole part: a leading zero is its only digit. -/
theorem wholeOf_natText (n : Nat) :
    (if (Number.natText n).head? = some '0' then ['0'] else Number.natText n) =
      Number.natText n ∧
      ((Number.natText n).isEmpty ||
        (decide ((Number.natText n).head? = some '0') &&
          decide (1 < (Number.natText n).length))) = false := by
  by_cases hn : n = 0
  · subst hn
    exact ⟨rfl, rfl⟩
  · have hhead := Number.head?_natText hn
    obtain ⟨c, rest, htext, -⟩ := Number.exists_natText n
    rw [if_neg hhead, decide_eq_false hhead, Bool.false_and, Bool.or_false, htext]
    exact ⟨rfl, rfl⟩

theorem readNumber_natText (n : Nat) :
    readNumber (Number.natText n) = some (ofParts false (Number.natText n) none none, []) := by
  obtain ⟨hwhole, hdigits⟩ := wholeOf_natText n
  obtain ⟨c, rest, htext, hc⟩ := Number.exists_natText n
  have hminus : c ≠ '-' := by
    rintro rfl
    exact absurd hc (by decide)
  unfold readNumber
  split
  rename_i negative s hsign
  split at hsign
  · rename_i heq
    rw [htext] at heq
    exact absurd (List.cons.inj heq).1 hminus
  · cases hsign
    simp only [digitsOf_natText, hwhole, hdigits, List.drop_length]
    rfl

theorem readNumber_neg (n : Nat) :
    readNumber ('-' :: Number.natText n) =
      some (ofParts true (Number.natText n) none none, []) := by
  obtain ⟨hwhole, hdigits⟩ := wholeOf_natText n
  unfold readNumber
  simp only [digitsOf_natText, hwhole, hdigits, List.drop_length]
  rfl

theorem ofParts_natText {n : Nat} (h : n < UInt64.size) :
    ofParts false (Number.natText n) none none = int n := by
  unfold ofParts
  simp only [foldl_whole_natText h]
  rfl

theorem ofParts_neg {n : Nat} (hpos : n ≠ 0) (h : n ≤ 0x8000000000000000) :
    ofParts true (Number.natText n) none none = int (-n) := by
  have hsmall : n < UInt64.size := Nat.lt_of_le_of_lt h (by decide)
  have hsigned : ¬((n : Int) = 0 ∨ 0x8000000000000000 < (n : Int)) := by omega
  unfold ofParts
  simp only [foldl_whole_natText hsmall, Option.isNone_none, Bool.and_true, Bool.not_false,
    if_true, if_neg hsigned]

/-- An integer of 64 bits, with a sign or without one, stays an integer. -/
theorem readNumber_intText {n : Int} (hmin : -0x8000000000000000 ≤ n)
    (hmax : n < 0x10000000000000000) : readNumber (Number.intText n) = some (int n, []) := by
  by_cases hneg : n < 0
  · have habs : -(n.natAbs : Int) = n := by omega
    rw [Number.intText, if_pos hneg, readNumber_neg, ofParts_neg (by omega) (by omega), habs]
  · have habs : (n.natAbs : Int) = n := by omega
    have hsmall : n.natAbs < UInt64.size := by
      show n.natAbs < 0x10000000000000000
      omega
    rw [Number.intText, if_neg hneg, readNumber_natText, ofParts_natText hsmall, habs]

/-- A value that begins with a sign or a digit is a number. -/
theorem readValue_number {c : Char} (hc : c = '-' ∨ c.isDigit = true) (n : Nat)
    (rest : List Char) : readValue (n + 1) (c :: rest) = readNumber (c :: rest) := by
  have hspace : ¬isSpace c = true := by
    intro hspace
    simp only [isSpace, Bool.or_eq_true, decide_eq_true_eq] at hspace
    rcases hspace with ((rfl | rfl) | rfl) | rfl <;> exact absurd hc (by decide)
  have hskip : skipSpace (c :: rest) = c :: rest := List.dropWhile_cons_of_neg hspace
  rw [readValue, hskip]
  split
  case h_7 => rfl
  all_goals
    rename_i heq
    cases heq
    exact absurd hc (by decide)

theorem parse_compact_int {n : Int} (hmin : -0x8000000000000000 ≤ n)
    (hmax : n < 0x10000000000000000) : parse (compact (int n)) = some (int n) := by
  obtain ⟨c, rest, htext, hc⟩ := Number.exists_intText n
  have hnumber := readNumber_intText hmin hmax
  rw [compact]
  refine parse_of_readValue ?_ rfl
  rw [String.toList_ofList, htext, readValue_number hc, ← htext, hnumber]

end Json
end Repertory
