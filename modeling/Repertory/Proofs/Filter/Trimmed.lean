import Repertory.Proofs.Filter.Position
import Repertory.Proofs.Filter.Writing
import Repertory.Proofs.Text.Trim

/-!
# Filter text without the blanks around it

A filter that may be missing is read from its text without the blanks around it. The tokens are the
same, so the same filter is read (`parse_trim`). A fault is reported where it is in the trimmed
text: its position counts from the first character that is no blank, the end is that of the trimmed
text, and a rest that is quoted ends there.
-/

namespace Repertory

open Text

/-! ## Scanning in front of blanks -/

/-- The token in a text that goes on with `rear`. -/
def Lexeme.before (rear : List Char) (l : Lexeme) : Lexeme := ⟨l.token, l.text ++ rear⟩

/-- The fault in a text that goes on with `rear`. -/
def FaultAt.before (rear : List Char) (f : FaultAt) : FaultAt := ⟨f.fault, f.rest ++ rear⟩

namespace Token

variable {s rear : List Char}

theorem scan_blank_append {front : List Char} (h : Blank front) (s : List Char) :
    scan (front ++ s) = scan s := by
  induction front with
  | nil => rfl
  | cons c front ih =>
    obtain ⟨hc, hfront⟩ := List.forall_mem_cons.mp h
    rw [List.cons_append, scan_blank hc, ih hfront]

theorem parted_of_blank (h : Blank rear) : Parted rear := by
  intro c hc
  have hblank := h c (List.mem_of_mem_head? hc)
  refine ⟨by simp only [isWordChar, hblank, Bool.not_true, Bool.false_and], ?_⟩
  rintro rfl
  exact absurd hblank (by decide)

theorem Quotes.getLast? {quote : Char} {s t : List Char} (h : Quotes quote s t) :
    s.getLast? = some quote := by
  induction h with
  | close => rfl
  | plain _ _ _ ih => rw [List.getLast?_cons, ih, Option.getD_some]
  | escaped _ _ ih => rw [List.getLast?_cons, List.getLast?_cons, ih, Option.getD_some,
      Option.getD_some]

/-- Blanks do not close a quoted text. -/
theorem readQuoted_append_none {quote : Char} (hquote : quote = '"' ∨ quote = '\'')
    (h : readQuoted quote s = none) (hrear : Blank rear) : readQuoted quote (s ++ rear) = none := by
  have hescape : quote ≠ '\\' := by
    rintro rfl
    exact absurd hquote (by decide)
  have hblank : isBlank quote = false := by rcases hquote with rfl | rfl <;> decide
  rw [Option.eq_none_iff_forall_ne_some]
  rintro ⟨t, tail⟩ hread
  obtain ⟨front, hfront, hquotes⟩ := readQuoted_quotes hread
  rcases List.append_eq_append_iff.mp hfront with ⟨inner, rfl, rfl⟩ | ⟨behind, rfl, -⟩
  · have hlast := hquotes.getLast?
    cases hinner : inner.getLast? with
    | none =>
      rw [List.getLast?_eq_none_iff.mp hinner, List.append_nil] at hquotes
      have hwhole := hquotes.read hescape []
      rw [List.append_nil, h] at hwhole
      cases hwhole
    | some c =>
      rw [List.getLast?_append, hinner] at hlast
      cases hlast
      have hmem := List.mem_append_left tail (List.mem_of_getLast? hinner)
      exact absurd hmem (not_mem_of_blank hblank hrear)
  · rw [hquotes.read hescape] at h
    cases h

theorem readDoubled_append_error {c : Char} {token : Token} {fault : SyntaxFault}
    (hc : isBlank c = false) (h : readDoubled c token s = .error fault) (hrear : Blank rear) :
    readDoubled c token (s ++ rear) = .error fault := by
  cases s with
  | nil =>
    cases rear with
    | nil => exact h
    | cons d rear =>
      have hd : d ≠ c := by
        rintro rfl
        exact not_mem_of_blank hc hrear List.mem_cons_self
      cases h
      exact if_neg hd
  | cons d s =>
    simp only [List.cons_append, readDoubled] at h ⊢
    split at h
    · cases h
    · rename_i hd
      cases h
      exact if_neg hd

theorem read_append_error {c : Char} {fault : SyntaxFault} (h : read c s = .error fault)
    (hrear : Blank rear) : read c (s ++ rear) = .error fault := by
  unfold read at h ⊢
  split at h
  case h_6 | h_7 =>
    split at h
    · cases h
    · rename_i hread
      cases h
      rw [readQuoted_append_none (by decide) hread hrear]
  case h_12 | h_13 => exact readDoubled_append_error (by decide) h hrear
  all_goals cases h

/-- Blanks behind a text change nothing but what stands behind each place in it. -/
theorem scan_append_blank (hrear : Blank rear) (s : List Char) :
    scan (s ++ rear) = match scan s with
      | .ok lexemes => .ok (lexemes.map (Lexeme.before rear))
      | .error fault => .error (fault.before rear) := by
  fun_induction scan s with
  | case1 =>
    have hblank := scan_blank_append hrear []
    rwa [List.append_nil, scan_nil] at hblank
  | case2 c rest hblank ih => rw [List.cons_append, scan_blank hblank, ih]
  | case3 c rest hblank fault hread =>
    exact scan_unreadable (Bool.eq_false_iff.mpr hblank) (read_append_error hread hrear)
  | case4 c rest hblank t tail hread fault hscan ih =>
    rw [hscan] at ih
    exact scan_token_fault (Bool.eq_false_iff.mpr hblank)
      (read_append hread (parted_of_blank hrear)) ih
  | case5 c rest hblank t tail hread lexemes hscan ih =>
    rw [hscan] at ih
    exact scan_token (Bool.eq_false_iff.mpr hblank)
      (read_append hread (parted_of_blank hrear)) ih

end Token

/-! ## Reading a trimmed text -/

def SyntaxFault.trimmed : SyntaxFault → SyntaxFault
  | .trailing rest => .trailing (trim rest)
  | fault => fault

/-- An error in a text as it reads for the trimmed text. Its position counts from the first
character that is not blank, and is not behind the last one. -/
def QueryError.trimmed (text : String) : QueryError → QueryError
  | .malformed fault position =>
    .malformed fault.trimmed
      (min (position - byteLength (text.toList.takeWhile isBlank))
        (byteLength (trimBlank text.toList)))
  | error => error

theorem SyntaxFault.IsLocal.trimmed {fault : SyntaxFault} (h : fault.IsLocal) :
    fault.trimmed = fault := by
  cases fault with
  | trailing => cases h
  | _ => rfl

theorem QueryError.trimmed_of_ne {error : QueryError}
    (h : ∀ fault position, error ≠ .malformed fault position) (text : String) :
    error.trimmed text = error := by
  cases error with
  | malformed fault position => exact absurd rfl (h fault position)
  | _ => rfl

theorem Token.Unreadable.trimmed {fault : SyntaxFault} {s : List Char}
    (h : Token.Unreadable fault s) : fault.trimmed = fault := by
  cases h <;> rfl

namespace Filter

section

variable {text : String} {rear : List Char}
  (htext : text.toList = text.toList.takeWhile isBlank ++ (trimBlank text.toList ++ rear))

include htext in
theorem trimmed_locate_append {fault : SyntaxFault} (hfault : fault ≠ .empty) (rest : List Char) :
    (ParseFault.locate text.toList (.syntaxAt ⟨fault, rest ++ rear⟩)).trimmed text =
      .malformed fault.trimmed (byteLength (trimBlank text.toList) - byteLength rest) := by
  have hlength := congrArg byteLength htext
  rw [byteLength_append, byteLength_append] at hlength
  rw [locate_of_ne_empty hfault, QueryError.trimmed, byteLength_append]
  congr 1
  omega

include htext in
theorem trimmed_locate_end {fault : SyntaxFault} (hfault : fault ≠ .empty) :
    (ParseFault.locate text.toList (.syntaxAt ⟨fault, []⟩)).trimmed text =
      .malformed fault.trimmed (byteLength (trimBlank text.toList)) := by
  have hlength := congrArg byteLength htext
  rw [byteLength_append, byteLength_append] at hlength
  rw [locate_of_ne_empty hfault, QueryError.trimmed, byteLength]
  congr 1
  omega

theorem sameTokens_before (rear : List Char) (lexemes : List Lexeme) :
    SameTokens lexemes (lexemes.map (Lexeme.before rear)) := by
  induction lexemes with
  | nil => exact .nil
  | cons l lexemes ih => exact .cons l.token l.text (l.text ++ rear) ih

/-- What is left of a trimmed text behind a token is trimmed again, without blanks behind it. -/
theorem trim_lexeme {s : List Char} {lexemes : List Lexeme} (hs : Bare s)
    (hscan : Token.scan s = .ok lexemes) {l : Lexeme} (hl : l ∈ lexemes) (hrear : Blank rear) :
    trim (String.ofList (l.text ++ rear)) = String.ofList l.text := by
  obtain ⟨hplace, front, rest, t, htext, hfront, -⟩ := Token.scan_lexeme hscan l hl
  obtain ⟨c, front, rfl⟩ := List.exists_cons_of_ne_nil hfront.ne_nil
  have hbare : Bare l.text := by
    constructor
    · intro d hd
      rw [htext] at hd
      cases hd
      exact hfront.not_blank
    · intro d hd
      obtain ⟨before, rfl⟩ := hplace.exists_eq_append
      refine hs.last d ?_
      rw [List.getLast?_append, Option.mem_def.mp hd]
      rfl
  have htrim := trimBlank_append hbare (nofun : Blank []) hrear
  rw [trim, String.toList_ofList]
  exact congrArg String.ofList htrim

end

variable {α ι : Type} [Identity ι] [Resource α ι]

theorem ofLexemes_before {text : String} {rear : List Char} {lexemes : List Lexeme}
    (htext : text.toList = text.toList.takeWhile isBlank ++ (trimBlank text.toList ++ rear))
    (hrear : Blank rear) (hscan : Token.scan (trimBlank text.toList) = .ok lexemes) :
    (ofLexemes lexemes : Except ParseFault (Filter α ι)).mapError
        (ParseFault.locate (trimBlank text.toList)) =
      ((ofLexemes (lexemes.map (Lexeme.before rear))).mapError
        (ParseFault.locate text.toList)).mapError (QueryError.trimmed text) := by
  have halike := ofLexemes_alike (α := α) (ι := ι) (sameTokens_before rear lexemes)
  generalize ofLexemes (α := α) lexemes = r at halike ⊢
  generalize ofLexemes (α := α) (lexemes.map (Lexeme.before rear)) = s at halike ⊢
  cases halike with
  | ok f => rfl
  | query error herror => exact congrArg Except.error (error.trimmed_of_ne herror text).symm
  | empty =>
    refine congrArg Except.error (congrArg (QueryError.malformed .empty) ?_)
    rw [Nat.zero_sub, Nat.zero_min]
  | syntaxAt fault n hfault =>
    refine congrArg Except.error ?_
    rw [← List.map_drop]
    cases lexemes.drop n with
    | nil =>
      rw [locate_of_ne_empty hfault.ne_empty, List.map_nil, here,
        trimmed_locate_end htext hfault.ne_empty, hfault.trimmed]
      rfl
    | cons l rest =>
      rw [locate_of_ne_empty hfault.ne_empty, List.map_cons, here, here, Lexeme.before,
        trimmed_locate_append htext hfault.ne_empty, hfault.trimmed]
  | @trailing n l m hl hm =>
    rw [← List.map_drop, List.head?_map, hl] at hm
    cases hm
    have hmem : l ∈ lexemes := List.mem_of_mem_drop (List.mem_of_mem_head? hl)
    have htrim := trim_lexeme (bare_trimBlank text.toList) hscan hmem hrear
    have hne : ∀ rest, SyntaxFault.trailing rest ≠ .empty := by
      intro rest heq
      cases heq
    refine congrArg Except.error ?_
    rw [locate_of_ne_empty (hne _), Lexeme.before, trimmed_locate_append htext (hne _),
      SyntaxFault.trimmed, htrim]

/-- A trimmed text is read as the text is, and its errors are those of the text. -/
theorem parse_trim (text : String) :
    (parse (trim text) : Except QueryError (Filter α ι)) =
      (parse text).mapError (QueryError.trimmed text) := by
  obtain ⟨rear, hrear, htext⟩ := trimBlank_parts text.toList
  have hscan : Token.scan text.toList = Token.scan (trimBlank text.toList ++ rear) := by
    conv_lhs => rw [htext]
    exact Token.scan_blank_append (blank_takeWhile _) _
  rw [parse, parse, trim, String.toList_ofList]
  simp only [hscan, Token.scan_append_blank hrear]
  cases hcore : Token.scan (trimBlank text.toList) with
  | error fault =>
    have hfault := (Token.scan_fault hcore).2
    refine congrArg Except.error ?_
    rw [locate_of_ne_empty hfault.ne_empty, FaultAt.before,
      trimmed_locate_append htext hfault.ne_empty, hfault.trimmed]
  | ok lexemes => exact ofLexemes_before htext hrear hcore

variable (α) in
/-- A filter that may be missing is read as any filter is, unless there is none or only blanks. Its
errors are those of the text without the blanks around it. -/
theorem parse?_eq :
    parse? none = (.ok none : Except QueryError (Option (Filter α ι))) ∧
      ∀ text, (parse? (some text) : Except QueryError (Option (Filter α ι))) =
        if isBlankText text then .ok none
        else ((parse text).mapError (QueryError.trimmed text)).map some := by
  refine ⟨rfl, fun text => ?_⟩
  rw [parse?]
  simp only [Option.map_some, isEmpty_trim, parse_trim]

-- the operator is at byte 7 of the text and at byte 5 of the trimmed one
open Catalog in
example : (parse? (some "  name ~ 1") : Except QueryError (Option (Filter Show Int64))) =
    .error (.malformed (.unknownOperator "~") 5) := by
  have hscan : Token.scan (trim "  name ~ 1").toList =
      .ok [⟨.word "name", "name ~ 1".toList⟩, ⟨.word "~", "~ 1".toList⟩,
        ⟨.word "1", "1".toList⟩] := by cbv
  rw [parse?, Option.map_some]
  simp only [parse, hscan]
  rfl

end Filter
end Repertory
