import Repertory.Proofs.Filter.Scan

/-!
# How tokens are spelled

A text splits into tokens and blanks, each token as long as it can be (`Splits`). The scan finds
such a split, and there is no other (`scan_splits`, `Splits.scan`). That a token read from the front
is the longest one follows from the other direction: the longest one is what the reader takes.
-/

namespace Repertory
namespace Token

/-- Writings of a text up to the quote that ends it. The quote and the backslash stand in it behind
a backslash. -/
inductive Quotes (quote : Char) : List Char → List Char → Prop where
  | close : Quotes quote [quote] []
  | plain {c : Char} {s t : List Char} (hescape : c ≠ '\\') (hquote : c ≠ quote)
      (h : Quotes quote s t) : Quotes quote (c :: s) (c :: t)
  | escaped (c : Char) {s t : List Char} (h : Quotes quote s t) :
      Quotes quote ('\\' :: c :: s) (unescape c :: t)

inductive Spells : List Char → Token → Prop where
  | openParen : Spells ['('] openParen
  | closeParen : Spells [')'] closeParen
  | openList : Spells ['['] openList
  | closeList : Spells [']'] closeList
  | comma : Spells [','] comma
  | eq : Spells ['='] (op .eq)
  | eqEq : Spells ['=', '='] (op .eq)
  | bang : Spells ['!'] bang
  | ne : Spells ['!', '='] (op .ne)
  | lt : Spells ['<'] (op .lt)
  | le : Spells ['<', '='] (op .le)
  | gt : Spells ['>'] (op .gt)
  | ge : Spells ['>', '='] (op .ge)
  | bothAnd : Spells ['&', '&'] bothAnd
  | bothOr : Spells ['|', '|'] bothOr
  | word {s : List Char} (hne : s ≠ []) (hword : ∀ c ∈ s, isWordChar c = true) :
      Spells s (word (String.ofList s))
  | quoted {quote : Char} {s t : List Char} (hquote : quote = '"' ∨ quote = '\'')
      (h : Quotes quote s t) : Spells (quote :: s) (quoted (String.ofList t))

/-- No longer beginning of the text spells a token. -/
def Longest (s rest : List Char) : Prop :=
  ∀ s' t, Spells s' t → s' <+: s ++ rest → s'.length ≤ s.length

/-- The text is made of the tokens, with blanks around them. -/
inductive Splits : List Char → List Token → Prop where
  | nil : Splits [] []
  | blank {c : Char} {s : List Char} {ts : List Token} (h : Text.isBlank c = true)
      (hrest : Splits s ts) : Splits (c :: s) ts
  | token {s rest : List Char} {t : Token} {ts : List Token} (h : Spells s t)
      (hlongest : Longest s rest) (hrest : Splits rest ts) : Splits (s ++ rest) (t :: ts)

/-! ## Reading one token -/

theorem readQuoted_quotes {quote : Char} {s t rest : List Char}
    (h : readQuoted quote s = some (t, rest)) :
    ∃ front, s = front ++ rest ∧ Quotes quote front t := by
  fun_induction readQuoted quote s generalizing t rest with
  | case1 => cases h
  | case2 c s ih =>
    obtain ⟨⟨t, _⟩, hr, he⟩ := Option.map_eq_some_iff.mp h
    cases he
    obtain ⟨front, rfl, hfront⟩ := ih hr
    exact ⟨_, rfl, .escaped c hfront⟩
  | case3 => cases h
  | case4 =>
    cases h
    exact ⟨[quote], rfl, .close⟩
  | case5 c s _ hescape hc ih =>
    obtain ⟨⟨t, _⟩, hr, he⟩ := Option.map_eq_some_iff.mp h
    cases he
    obtain ⟨front, rfl, hfront⟩ := ih hr
    exact ⟨_, rfl, .plain hescape hc hfront⟩

theorem Quotes.read {quote : Char} {s t : List Char} (h : Quotes quote s t)
    (hquote : quote ≠ '\\') (rest : List Char) : readQuoted quote (s ++ rest) = some (t, rest) := by
  induction h with
  | close =>
    rw [List.singleton_append, readQuoted.eq_3 _ _ _ fun _ _ he => absurd he hquote]
    simp [hquote]
  | @plain c s t hescape hc _ ih =>
    rw [List.cons_append, readQuoted.eq_3 _ _ _ fun _ _ he => absurd he hescape, ih]
    simp [hescape, hc]
  | escaped c _ ih =>
    rw [List.cons_append, List.cons_append, readQuoted, ih]
    rfl

theorem readOperator_cases (rest : List Char) (extended plain : Token) :
    (∃ tail, rest = '=' :: tail ∧ readOperator rest extended plain = (extended, tail)) ∨
      (∀ tail, rest ≠ '=' :: tail) ∧ readOperator rest extended plain = (plain, rest) := by
  rcases rest with _ | ⟨c, tail⟩
  · exact Or.inr ⟨nofun, rfl⟩
  · by_cases hc : c = '='
    · subst hc
      exact Or.inl ⟨tail, rfl, rfl⟩
    · refine Or.inr ⟨fun _ he => hc (List.cons.inj he).1, ?_⟩
      simp [readOperator, afterEquals, hc]

/-- The characters that a word may hold are read as a word. -/
theorem read_word {c : Char} (h : isWordChar c = true) (rest : List Char) :
    read c rest =
      .ok (word (String.ofList (c :: rest.takeWhile isWordChar)), rest.dropWhile isWordChar) := by
  unfold read
  split <;> first | rfl | exact absurd h (by decide)

theorem readDoubled_ok {c : Char} {token t : Token} {rest tail : List Char}
    (h : readDoubled c token rest = .ok (t, tail)) : t = token ∧ rest = c :: tail := by
  rcases rest with _ | ⟨d, rest⟩
  · cases h
  · rw [readDoubled] at h
    split at h
    · cases h
      exact ⟨rfl, congrArg (· :: tail) ‹_›⟩
    · cases h

theorem readQuoted_spells {quote : Char} (hquote : quote = '"' ∨ quote = '\'')
    {rest s tail : List Char} (h : readQuoted quote rest = some (s, tail)) :
    ∃ front, quote :: rest = front ++ tail ∧ Spells front (quoted (String.ofList s)) := by
  obtain ⟨front, rfl, hfront⟩ := readQuoted_quotes h
  exact ⟨quote :: front, rfl, .quoted hquote hfront⟩

theorem readOperator_spells {c : Char} {extended plain t : Token} {rest tail : List Char}
    (hextended : Spells [c, '='] extended) (hplain : Spells [c] plain)
    (h : readOperator rest extended plain = (t, tail)) :
    ∃ s, c :: rest = s ++ tail ∧ Spells s t := by
  rcases readOperator_cases rest extended plain with ⟨_, rfl, hread⟩ | ⟨-, hread⟩
  · cases hread.symm.trans h
    exact ⟨_, rfl, hextended⟩
  · cases hread.symm.trans h
    exact ⟨_, rfl, hplain⟩

/-- A token that is read is spelled by the characters it takes. -/
theorem read_spells {c : Char} {rest tail : List Char} {t : Token}
    (hblank : Text.isBlank c = false) (h : read c rest = .ok (t, tail)) :
    ∃ s, c :: rest = s ++ tail ∧ Spells s t := by
  unfold read at h
  split at h
  case h_1 => cases h; exact ⟨_, rfl, .openParen⟩
  case h_2 => cases h; exact ⟨_, rfl, .closeParen⟩
  case h_3 => cases h; exact ⟨_, rfl, .openList⟩
  case h_4 => cases h; exact ⟨_, rfl, .closeList⟩
  case h_5 => cases h; exact ⟨_, rfl, .comma⟩
  case h_6 =>
    split at h
    · cases h
      exact readQuoted_spells (Or.inl rfl) ‹_›
    · cases h
  case h_7 =>
    split at h
    · cases h
      exact readQuoted_spells (Or.inr rfl) ‹_›
    · cases h
  case h_8 => exact readOperator_spells .eqEq .eq (Except.ok.inj h)
  case h_9 => exact readOperator_spells .ne .bang (Except.ok.inj h)
  case h_10 => exact readOperator_spells .le .lt (Except.ok.inj h)
  case h_11 => exact readOperator_spells .ge .gt (Except.ok.inj h)
  case h_12 =>
    obtain ⟨rfl, rfl⟩ := readDoubled_ok h
    exact ⟨['&', '&'], rfl, .bothAnd⟩
  case h_13 =>
    obtain ⟨rfl, rfl⟩ := readDoubled_ok h
    exact ⟨['|', '|'], rfl, .bothOr⟩
  case h_14 =>
    cases h
    refine ⟨c :: rest.takeWhile isWordChar, ?_, .word (List.cons_ne_nil _ _) ?_⟩
    · rw [List.cons_append, List.takeWhile_append_dropWhile]
    · have hword : isWordChar c = true := by
        simp_all [isWordChar, punctuation]
      exact List.forall_mem_cons.mpr ⟨hword, List.all_eq_true.mp List.all_takeWhile⟩

theorem Spells.not_blank {c : Char} {s : List Char} {t : Token} (h : Spells (c :: s) t) :
    Text.isBlank c = false := by
  cases h with
  | word _ hword =>
    have hc := hword c List.mem_cons_self
    rw [isWordChar, Bool.and_eq_true, Bool.not_eq_true'] at hc
    exact hc.1
  | quoted hquote => rcases hquote with rfl | rfl <;> decide
  | _ => decide

theorem Spells.ne_nil {s : List Char} {t : Token} (h : Spells s t) : s ≠ [] := by
  cases h with
  | word hne => exact hne
  | _ => exact List.cons_ne_nil _ _

/-- What would spell a token together with the next character is not longest. -/
theorem Longest.next_ne {s rest : List Char} {c : Char} {t : Token} (h : Longest s rest)
    (hlonger : Spells (s ++ [c]) t) (tail : List Char) : rest ≠ c :: tail := by
  rintro rfl
  have hlength := h _ _ hlonger ⟨tail, by simp⟩
  simp only [List.length_append, List.length_singleton] at hlength
  omega

theorem takeWhile_append_of_head {p : Char → Bool} {s rest : List Char}
    (hs : ∀ c ∈ s, p c = true) (hrest : ∀ c tail, p c = true → rest ≠ c :: tail) :
    (s ++ rest).takeWhile p = s ∧ (s ++ rest).dropWhile p = rest := by
  have hhead : rest.takeWhile p = [] ∧ rest.dropWhile p = rest := by
    cases rest with
    | nil => exact ⟨rfl, rfl⟩
    | cons c tail =>
      have hc : ¬p c = true := fun hc => hrest c tail hc rfl
      exact ⟨List.takeWhile_cons_of_neg hc, List.dropWhile_cons_of_neg hc⟩
  rw [List.takeWhile_append_of_pos hs, List.dropWhile_append_of_pos hs, hhead.1, hhead.2,
    List.append_nil]
  exact ⟨rfl, rfl⟩

/-- The longest spelling at the front of a text is what is read from it. -/
theorem Spells.read {c : Char} {s rest tail : List Char} {t : Token} (h : Spells s t)
    (hlongest : Longest s tail) (htext : c :: rest = s ++ tail) : read c rest = .ok (t, tail) := by
  have hplain : ∀ {extended plain : Token}, (∀ r, tail ≠ '=' :: r) →
      readOperator tail extended plain = (plain, tail) := by
    intro extended plain hnext
    rcases readOperator_cases tail extended plain with ⟨r, he, -⟩ | ⟨-, hread⟩
    · exact absurd he (hnext r)
    · exact hread
  cases h with
  | word hne hword =>
    obtain ⟨d, s, rfl⟩ := List.exists_cons_of_ne_nil hne
    rw [List.cons_append, List.cons.injEq] at htext
    obtain ⟨rfl, rfl⟩ := htext
    obtain ⟨hc, hs⟩ := List.forall_mem_cons.mp hword
    have hnext : ∀ d r, isWordChar d = true → tail ≠ d :: r := by
      intro d r hd
      refine hlongest.next_ne (t := .word _) (.word (by simp) fun e he => ?_) r
      rcases List.mem_append.mp he with he | he
      · exact hword e he
      · exact List.mem_singleton.mp he ▸ hd
    obtain ⟨htake, hdrop⟩ := takeWhile_append_of_head hs hnext
    rw [read_word hc, htake, hdrop]
  | quoted hquote h =>
    rw [List.cons_append, List.cons.injEq] at htext
    obtain ⟨rfl, rfl⟩ := htext
    rcases hquote with rfl | rfl
    · simp only [Token.read, h.read (by decide) tail]
    · simp only [Token.read, h.read (by decide) tail]
  | eq =>
    obtain ⟨rfl, rfl⟩ := List.cons.inj htext
    exact congrArg Except.ok (hplain (hlongest.next_ne .eqEq))
  | bang =>
    obtain ⟨rfl, rfl⟩ := List.cons.inj htext
    exact congrArg Except.ok (hplain (hlongest.next_ne .ne))
  | lt =>
    obtain ⟨rfl, rfl⟩ := List.cons.inj htext
    exact congrArg Except.ok (hplain (hlongest.next_ne .le))
  | gt =>
    obtain ⟨rfl, rfl⟩ := List.cons.inj htext
    exact congrArg Except.ok (hplain (hlongest.next_ne .ge))
  | _ =>
    obtain ⟨rfl, rfl⟩ := List.cons.inj htext
    rfl

theorem Spells.exists_longest {s text : List Char} {t : Token} (h : Spells s t)
    (hs : s <+: text) : ∃ s' rest t', text = s' ++ rest ∧ Spells s' t' ∧ Longest s' rest := by
  -- Spellings at the front of the text are no longer than the text, so one of them is longest.
  induction hn : text.length - s.length using Nat.strongRecOn generalizing s t with
  | ind n ih =>
  obtain ⟨rest, rfl⟩ := hs
  by_cases hlongest : Longest s rest
  · exact ⟨s, rest, t, rfl, h, hlongest⟩
  · simp only [Longest, Classical.not_forall, Nat.not_le] at hlongest
    obtain ⟨s', t', h', hs', hlonger⟩ := hlongest
    have hlength := hs'.length_le
    exact ih _ (by omega) h' hs' rfl

/-- What is read is the longest token at the front of a text. -/
theorem read_longest {c : Char} {rest tail : List Char} {t : Token}
    (hblank : Text.isBlank c = false) (h : read c rest = .ok (t, tail)) :
    ∃ s, c :: rest = s ++ tail ∧ Spells s t ∧ Longest s tail := by
  obtain ⟨s, htext, hs⟩ := read_spells hblank h
  obtain ⟨s', rest', t', htext', hs', hlongest⟩ := hs.exists_longest ⟨tail, htext.symm⟩
  cases h.symm.trans (hs'.read hlongest htext')
  exact ⟨s', htext', hs', hlongest⟩

/-! ## Scanning a text -/

theorem scan_splits {s : List Char} {lexemes : List Lexeme} (h : scan s = .ok lexemes) :
    Splits s (lexemes.map Lexeme.token) := by
  fun_induction scan s generalizing lexemes with
  | case1 =>
    cases h
    exact .nil
  | case2 c rest hblank ih => exact .blank hblank (ih h)
  | case3 => cases h
  | case4 => cases h
  | case5 c rest hblank t tail hread lexemes' hscan ih =>
    cases h
    obtain ⟨s, htext, hs, hlongest⟩ := read_longest (Bool.eq_false_iff.mpr hblank) hread
    rw [htext]
    exact .token hs hlongest (ih hscan)

theorem Splits.scan {s : List Char} {ts : List Token} (h : Splits s ts) :
    ∃ lexemes, scan s = .ok lexemes ∧ lexemes.map Lexeme.token = ts := by
  induction h with
  | nil => exact ⟨[], scan_nil, rfl⟩
  | blank hblank _ ih =>
    rw [scan_blank hblank]
    exact ih
  | @token s rest t ts hs hlongest _ ih =>
    obtain ⟨lexemes, hscan, hmap⟩ := ih
    obtain ⟨c, s', rfl⟩ := List.exists_cons_of_ne_nil hs.ne_nil
    have hread := hs.read hlongest rfl
    exact ⟨_, scan_token hs.not_blank hread hscan, congrArg (t :: ·) hmap⟩

end Token
end Repertory
