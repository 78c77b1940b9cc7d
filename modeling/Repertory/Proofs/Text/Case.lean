import Repertory.Text.Case

/-!
# Lower case in a context

Only one letter has a lower-case form that depends on what stands around it: a capital sigma at the
end of a word. A text that is part of another one therefore keeps its lower-case form there unless
it has a capital sigma that looks beyond an end of the text (`keepsSigmas`), and these are exactly
the texts that are found wherever they occur (`contains_lowercase_iff`).
-/

namespace Repertory
namespace Text

theorem occursIn_iff {needle text : List Char} :
    occursIn needle text = true ↔ needle <:+: text := by
  induction text with
  | nil => rw [occursIn, List.isEmpty_iff, List.infix_nil]
  | cons c rest ih =>
    rw [occursIn, Bool.or_eq_true, ih, List.isPrefixOf_iff_prefix, List.infix_cons_iff]

theorem contains_iff {text needle : String} :
    contains text needle = true ↔ needle.toList <:+: text.toList :=
  occursIn_iff

/-! ## Sigmas -/

/-- Whether a letter between these texts, the one before it nearest character first, ends a word. -/
def endsWord (before after : List Char) : Bool := startsCased before && !startsCased after

/-- Whether one of the characters has a say, so that no text behind them has one. -/
def decides (s : List Char) : Bool := s.any fun c => !isCaseIgnorable c

/-- Whether a capital sigma between these texts has the same form whatever stands around them: it is
followed by a letter, or something else than a letter stands before it, or both sides decide. -/
def settles (before after : List Char) : Bool :=
  startsCased after || decides before && (decides after || !startsCased before)

def keepsSigmasFrom : List Char → List Char → Bool
  | _, [] => true
  | before, c :: after =>
    (c != 'Σ' || settles before after) && keepsSigmasFrom (c :: before) after

/-- Whether every capital sigma of the text has the same form in all texts that contain it. -/
def keepsSigmas (s : String) : Bool := keepsSigmasFrom [] s.toList

section

variable {s : List Char}

theorem startsCased_cons (c : Char) (s : List Char) :
    startsCased (c :: s) = if isCaseIgnorable c then startsCased s else isCased c := by
  rw [startsCased, List.dropWhile_cons]
  by_cases hc : isCaseIgnorable c = true
  · rw [if_pos hc, if_pos hc]
    rfl
  · rw [if_neg hc, if_neg hc]

theorem startsCased_append (h : decides s = true) (t : List Char) :
    startsCased (s ++ t) = startsCased s := by
  induction s with
  | nil => cases h
  | cons c s ih =>
    rw [List.cons_append, startsCased_cons, startsCased_cons]
    by_cases hc : isCaseIgnorable c = true
    · have hs : decides s = true := by simpa [decides, hc] using h
      rw [if_pos hc, if_pos hc, ih hs]
    · rw [if_neg hc, if_neg hc]

theorem startsCased_append_of_not (h : decides s = false) (t : List Char) :
    startsCased (s ++ t) = startsCased t := by
  induction s with
  | nil => rfl
  | cons c s ih =>
    obtain ⟨hc, hs⟩ : isCaseIgnorable c = true ∧ decides s = false := by
      simpa [decides] using h
    rw [List.cons_append, startsCased_cons, if_pos hc, ih hs]

theorem decides_of_startsCased (h : startsCased s = true) : decides s = true := by
  refine Decidable.byContradiction fun hs => ?_
  rw [Bool.not_eq_true] at hs
  have hnil := startsCased_append_of_not hs []
  rw [List.append_nil, h] at hnil
  cases hnil

/-- A cased letter behind a text lets it start with one, if anything does. -/
theorem startsCased_append_of_startsCased (h : startsCased s = true) (t : List Char) :
    startsCased (s ++ t) = true :=
  (startsCased_append (decides_of_startsCased h) t).trans h

end

theorem startsCased_a : startsCased ['a'] = true := by decide +kernel

variable {before after : List Char}

/-- What stands around does not change whether a settled sigma ends a word. -/
theorem endsWord_of_settles (h : settles before after = true) (left right : List Char) :
    endsWord (before ++ left) (after ++ right) = endsWord before after := by
  rw [settles, Bool.or_eq_true, Bool.and_eq_true, Bool.or_eq_true, Bool.not_eq_true'] at h
  rcases h with hafter | ⟨hbefore, hafter | hcased⟩
  · rw [endsWord, endsWord, startsCased_append_of_startsCased hafter, hafter]
    simp
  · rw [endsWord, endsWord, startsCased_append hbefore, startsCased_append hafter]
  · rw [endsWord, endsWord, startsCased_append hbefore, hcased]
    rfl

/-- A sigma that is not settled changes its form behind a letter, or in front of one. -/
theorem endsWord_of_not_settles (h : settles before after = false) :
    endsWord before after = false ∧ endsWord (before ++ ['a']) after = true ∨
      endsWord before after = true ∧ endsWord before (after ++ ['a']) = false := by
  rw [settles, Bool.or_eq_false_iff, Bool.and_eq_false_iff, Bool.or_eq_false_iff,
    Bool.not_eq_false'] at h
  obtain ⟨hafter, hbefore | ⟨hopen, hcased⟩⟩ := h
  · left
    have hnone : startsCased before = false := by
      rw [← Bool.not_eq_true]
      intro hcased
      rw [decides_of_startsCased hcased] at hbefore
      cases hbefore
    rw [endsWord, endsWord, hnone, startsCased_append_of_not hbefore, startsCased_a, hafter]
    exact ⟨rfl, rfl⟩
  · right
    rw [endsWord, endsWord, hcased, hafter, startsCased_append_of_not hopen, startsCased_a]
    exact ⟨rfl, rfl⟩

/-- Behind a letter no fewer sigmas end words. -/
theorem endsWord_behind (h : endsWord before after = true) :
    endsWord (before ++ ['a']) after = true := by
  rw [endsWord, Bool.and_eq_true] at h ⊢
  exact ⟨startsCased_append_of_startsCased h.1 _, h.2⟩

theorem endsWord_inFront (h : endsWord before (after ++ ['a']) = true) :
    endsWord before after = true := by
  rw [endsWord, Bool.and_eq_true, Bool.not_eq_true'] at h ⊢
  refine ⟨h.1, Bool.not_eq_true _ ▸ fun hafter => ?_⟩
  rw [startsCased_append_of_startsCased hafter] at h
  cases h.2

/-! ## Lower case -/

/-- Lower-cases a text that stands between two others, the one before it nearest character first. -/
def lowercaseWithin (behind : List Char) : List Char → List Char → List Char
  | _, [] => []
  | before, c :: after =>
    lowercaseAt before c (after ++ behind) ++ lowercaseWithin behind (c :: before) after

theorem lowercaseFrom_eq (before s : List Char) :
    lowercaseFrom before s = lowercaseWithin [] before s := by
  induction s generalizing before with
  | nil => rfl
  | cons c s ih => rw [lowercaseFrom, lowercaseWithin, ih, List.append_nil]

theorem lowercaseWithin_append (behind before s t : List Char) :
    lowercaseWithin behind before (s ++ t) =
      lowercaseWithin (t ++ behind) before s ++
        lowercaseWithin behind (s.reverse ++ before) t := by
  induction s generalizing before with
  | nil => rfl
  | cons c s ih =>
    rw [List.cons_append, lowercaseWithin, ih, lowercaseWithin, List.append_assoc,
      List.append_assoc, List.reverse_cons, List.append_assoc s.reverse, List.singleton_append]

theorem lowercaseAt_sigma (before after : List Char) :
    lowercaseAt before 'Σ' after = if endsWord before after then ['ς'] else ['σ'] := rfl

/-- Only a capital sigma looks at what stands around it. -/
theorem lowercaseAt_of_ne {c : Char} (h : c ≠ 'Σ') (before after before' after' : List Char) :
    lowercaseAt before c after = lowercaseAt before' c after' := by
  rw [lowercaseAt, lowercaseAt, if_neg h, if_neg h]

/-- A text that keeps its sigmas has the same lower-case form between all texts. -/
theorem lowercaseWithin_of_keepsSigmas {before s : List Char}
    (h : keepsSigmasFrom before s = true) (left right : List Char) :
    lowercaseWithin right (before ++ left) s = lowercaseWithin [] before s := by
  induction s generalizing before with
  | nil => rfl
  | cons c s ih =>
    rw [keepsSigmasFrom, Bool.and_eq_true, Bool.or_eq_true, bne_iff_ne] at h
    obtain ⟨hc, hs⟩ := h
    have hsame : lowercaseAt (before ++ left) c (s ++ right) = lowercaseAt before c (s ++ []) := by
      by_cases hsigma : c = 'Σ'
      · subst hsigma
        have hsettles : settles before s = true := hc.resolve_left fun hne => hne rfl
        rw [lowercaseAt_sigma, lowercaseAt_sigma, endsWord_of_settles hsettles, List.append_nil]
      · exact lowercaseAt_of_ne hsigma _ _ _ _
    rw [lowercaseWithin, lowercaseWithin, hsame, ← ih hs, List.cons_append]

/-! ## Lost occurrences -/

theorem exists_of_keepsSigmas_false {before s : List Char} (h : keepsSigmasFrom before s = false) :
    ∃ front rest, s = front ++ 'Σ' :: rest ∧ settles (front.reverse ++ before) rest = false := by
  induction s generalizing before with
  | nil => cases h
  | cons c s ih =>
    rw [keepsSigmasFrom, Bool.and_eq_false_iff, Bool.or_eq_false_iff, bne_eq_false_iff_eq] at h
    rcases h with ⟨rfl, hsettles⟩ | hs
    · exact ⟨[], s, rfl, hsettles⟩
    · obtain ⟨front, rest, rfl, hsettles⟩ := ih hs
      refine ⟨c :: front, rest, rfl, ?_⟩
      rwa [List.reverse_cons, List.append_assoc]

/-- Between `left'` and `right'` no capital sigma has more of the letter `x` in its lower-case form
than between `left` and `right`, whatever stands nearer to it. -/
def NoMore (x : Char) (left right left' right' : List Char) : Prop :=
  ∀ before after, (lowercaseAt (before ++ left') 'Σ' (after ++ right')).count x ≤
    (lowercaseAt (before ++ left) 'Σ' (after ++ right)).count x

section

variable {x : Char} {left right left' right' : List Char}

theorem NoMore.count_le (h : NoMore x left right left' right') (before behind s : List Char) :
    (lowercaseWithin (behind ++ right') (before ++ left') s).count x ≤
      (lowercaseWithin (behind ++ right) (before ++ left) s).count x := by
  induction s generalizing before with
  | nil => exact Nat.le_refl _
  | cons c s ih =>
    have hc : (lowercaseAt (before ++ left') c (s ++ (behind ++ right'))).count x ≤
        (lowercaseAt (before ++ left) c (s ++ (behind ++ right))).count x := by
      by_cases hsigma : c = 'Σ'
      · subst hsigma
        rw [← List.append_assoc, ← List.append_assoc]
        exact h before (s ++ behind)
      · exact Nat.le_of_eq (congrArg _ (lowercaseAt_of_ne hsigma _ _ _ _))
    rw [lowercaseWithin, lowercaseWithin, List.count_append, List.count_append]
    exact Nat.add_le_add hc (ih (c :: before))

/-- If a capital sigma of a text has less of a letter between other texts and none has more, the
lower-case form of the text does not occur in what it is between them. -/
theorem NoMore.count_lt (h : NoMore x left right left' right') {front rest : List Char}
    (hsigma : (lowercaseAt (front.reverse ++ left') 'Σ' (rest ++ right')).count x <
      (lowercaseAt (front.reverse ++ left) 'Σ' (rest ++ right)).count x) :
    (lowercaseWithin right' left' (front ++ 'Σ' :: rest)).count x <
      (lowercaseWithin right left (front ++ 'Σ' :: rest)).count x := by
  have hfront := h.count_le [] ('Σ' :: rest) front
  have hrest := h.count_le ('Σ' :: front.reverse) [] rest
  simp only [List.nil_append, List.cons_append] at hfront hrest
  rw [lowercaseWithin_append, lowercaseWithin_append, lowercaseWithin, lowercaseWithin,
    List.count_append, List.count_append, List.count_append, List.count_append, List.cons_append,
    List.cons_append]
  omega

end

/-- Behind a letter no sigma gets the form that it has inside a word. -/
theorem noMore_behind : NoMore 'σ' [] [] ['a'] [] := by
  intro before after
  rw [List.append_nil, List.append_nil, lowercaseAt_sigma, lowercaseAt_sigma]
  by_cases hends : endsWord before after = true
  · exact Nat.le_of_eq (by rw [endsWord_behind hends, hends])
  · rw [if_neg hends]
    split <;> decide

/-- In front of a letter no sigma gets the form that it has at the end of a word. -/
theorem noMore_inFront : NoMore 'ς' [] [] [] ['a'] := by
  intro before after
  rw [List.append_nil, List.append_nil, lowercaseAt_sigma, lowercaseAt_sigma]
  by_cases hends : endsWord before (after ++ ['a']) = true
  · exact Nat.le_of_eq (by rw [endsWord_inFront hends, hends])
  · rw [if_neg hends]
    split <;> decide

theorem not_infix_of_count_lt {needle text : List Char} {x : Char}
    (h : text.count x < needle.count x) : ¬needle <:+: text :=
  fun hoccurs => absurd (hoccurs.sublist.count_le x) (Nat.not_le.mpr h)

/-- A text that does not keep its sigmas is missed in one that has a letter more. -/
theorem exists_lost {needle : List Char} (h : keepsSigmasFrom [] needle = false) :
    ∃ text, needle <:+: text ∧
      ¬lowercaseWithin [] [] needle <:+: lowercaseWithin [] [] text := by
  obtain ⟨front, rest, rfl, hsettles⟩ := exists_of_keepsSigmas_false h
  rw [List.append_nil] at hsettles
  rcases endsWord_of_not_settles hsettles with ⟨hends, hbehind⟩ | ⟨hends, hinFront⟩
  · have hlt : (lowercaseWithin [] ['a'] (front ++ 'Σ' :: rest)).count 'σ' <
        (lowercaseWithin [] [] (front ++ 'Σ' :: rest)).count 'σ' := by
      apply noMore_behind.count_lt
      rw [List.append_nil, List.append_nil, lowercaseAt_sigma, lowercaseAt_sigma, hends, hbehind]
      decide
    have hletter : lowercaseWithin [] [] ('a' :: (front ++ 'Σ' :: rest)) =
        'a' :: lowercaseWithin [] ['a'] (front ++ 'Σ' :: rest) := rfl
    refine ⟨'a' :: (front ++ 'Σ' :: rest), List.infix_cons List.infix_rfl, ?_⟩
    rw [hletter]
    apply not_infix_of_count_lt
    rwa [List.count_cons_of_ne (show 'a' ≠ 'σ' by decide)]
  · have hlt : (lowercaseWithin ['a'] [] (front ++ 'Σ' :: rest)).count 'ς' <
        (lowercaseWithin [] [] (front ++ 'Σ' :: rest)).count 'ς' := by
      apply noMore_inFront.count_lt
      rw [List.append_nil, List.append_nil, lowercaseAt_sigma, lowercaseAt_sigma, hends, hinFront]
      decide
    have hletter : lowercaseWithin [] [] (front ++ 'Σ' :: rest ++ ['a']) =
        lowercaseWithin ['a'] [] (front ++ 'Σ' :: rest) ++ ['a'] :=
      lowercaseWithin_append [] [] (front ++ 'Σ' :: rest) ['a']
    refine ⟨front ++ 'Σ' :: rest ++ ['a'], List.infix_append [] _ _, ?_⟩
    rw [hletter]
    apply not_infix_of_count_lt
    rwa [List.count_append, show ['a'].count 'ς' = 0 by decide]

/-- A text that keeps its sigmas is found wherever it occurs, and no other text is. -/
theorem contains_lowercase_iff {needle : String} :
    (∀ text : String, needle.toList <:+: text.toList →
      contains (lowercase text) (lowercase needle) = true) ↔ keepsSigmas needle = true := by
  constructor
  · intro h
    refine Decidable.byContradiction fun hkeeps => ?_
    rw [Bool.not_eq_true] at hkeeps
    obtain ⟨text, hoccurs, hlost⟩ := exists_lost hkeeps
    have hfound := h (String.ofList text) (by rwa [String.toList_ofList])
    rw [contains_iff, lowercase, lowercase, String.toList_ofList, String.toList_ofList,
      String.toList_ofList, lowercaseFrom_eq, lowercaseFrom_eq] at hfound
    exact hlost hfound
  · rintro h text ⟨left, right, htext⟩
    have hneedle : lowercaseWithin right (left.reverse ++ []) needle.toList =
        lowercaseWithin [] [] needle.toList := by
      rw [List.append_nil]
      exact lowercaseWithin_of_keepsSigmas h left.reverse right
    rw [contains_iff, lowercase, lowercase, String.toList_ofList, String.toList_ofList,
      lowercaseFrom_eq, lowercaseFrom_eq, ← htext, lowercaseWithin_append, lowercaseWithin_append,
      List.append_nil, hneedle]
    exact List.infix_append _ _ _

end Text
end Repertory
