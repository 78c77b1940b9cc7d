import Repertory.Catalog.Show
import Repertory.Proofs.Filter.Spelling
import Repertory.Proofs.Filter.Tokenwise

/-!
# Where faults are reported

A fault in a filter text has a position in bytes. It is the place of a token, or of what looks like
one, or the end of the text (`parse_reported`), so the text can be cut there and what is behind it
can be quoted. A text without tokens is at fault at its beginning.

Scanning goes from the beginning of the text by whole tokens and blanks (`Token.Reaches`), so what
it leaves is always a rest of the text, and the bytes before it are those of whole characters. The
readers only pick one of these places, since they look at tokens and not at the text.
-/

namespace Repertory

theorem SyntaxFault.IsLocal.ne_empty {fault : SyntaxFault} (h : fault.IsLocal) :
    fault ≠ .empty := by
  rintro rfl
  exact h

namespace Text

/-- The text from a byte on. There is none from within a character or from beyond the end. -/
def from? (text : String) (position : Nat) : Option String :=
  (text.pos? ⟨position⟩).map fun p => (text.sliceFrom p).copy

theorem pos?_eq_some_iff {text : String} {position : Nat} {p : text.Pos} :
    text.pos? ⟨position⟩ = some p ↔ p.offset.byteIdx = position := by
  simp only [String.pos?, String.Slice.pos?, Option.map_eq_some_iff,
    Option.dite_none_right_eq_some, Option.some.injEq]
  constructor
  · rintro ⟨q, ⟨-, rfl⟩, rfl⟩
    rfl
  · rintro rfl
    have hvalid := String.Pos.Raw.isValidForSlice_eq_true_iff.mpr p.toSlice.isValidForSlice
    exact ⟨p.toSlice, ⟨hvalid, rfl⟩, rfl⟩

variable {text rest : String} {position : Nat}

/-- There is a rest from where the text can be taken apart, and it is the second part. -/
theorem from?_eq_some_iff :
    from? text position = some rest ↔
      ∃ before, text = before ++ rest ∧ before.utf8ByteSize = position := by
  simp only [from?, Option.map_eq_some_iff, pos?_eq_some_iff]
  constructor
  · rintro ⟨p, rfl, rfl⟩
    have hsplits := p.splits
    have hoffset := congrArg String.Pos.Raw.byteIdx hsplits.offset_eq_rawEndPos
    exact ⟨_, hsplits.eq_append, hoffset.symm⟩
  · rintro ⟨before, htext, rfl⟩
    have hsplits := String.Pos.splits_ofEqAppend htext
    have hoffset := congrArg String.Pos.Raw.byteIdx hsplits.offset_eq_rawEndPos
    exact ⟨_, hoffset, hsplits.copy_sliceFrom_eq⟩

theorem isValid_of_from? (h : from? text position = some rest) :
    (String.Pos.Raw.mk position).IsValid text := by
  obtain ⟨p, hp, -⟩ := Option.map_eq_some_iff.mp h
  obtain rfl := pos?_eq_some_iff.mp hp
  exact p.isValid

end Text

theorem byteLength_append (s t : List Char) : byteLength (s ++ t) = byteLength s + byteLength t := by
  induction s with
  | nil => simp only [List.nil_append, byteLength, Nat.zero_add]
  | cons c s ih => simp only [List.cons_append, byteLength, ih, Nat.add_assoc]

theorem byteLength_eq (s : List Char) : byteLength s = (String.ofList s).utf8ByteSize := by
  induction s with
  | nil => rfl
  | cons c s ih => simp [byteLength, ih, String.ofList_cons]

/-- The position of a rest leads back to the rest. -/
theorem from?_position {text : String} {before rest : List Char}
    (h : text.toList = before ++ rest) :
    Text.from? text (byteLength text.toList - byteLength rest) = some (String.ofList rest) := by
  refine Text.from?_eq_some_iff.mpr ⟨String.ofList before, ?_, ?_⟩
  · rw [← String.ofList_append, ← h, String.ofList_toList]
  · rw [← byteLength_eq, h, byteLength_append, Nat.add_sub_cancel]

namespace Token

/-- From the beginning of a text, whole tokens and blanks lead to a rest of it. -/
inductive Reaches : List Char → List Char → Prop where
  | here (s : List Char) : Reaches s s
  | blank {c : Char} {s rest : List Char} (h : Text.isBlank c = true) (hrest : Reaches s rest) :
      Reaches (c :: s) rest
  | token {s tail rest : List Char} {t : Token} (h : Spells s t) (hlongest : Longest s tail)
      (hrest : Reaches tail rest) : Reaches (s ++ tail) rest

/-- A token stands at the front of the text. -/
def Begins (s : List Char) : Prop :=
  ∃ front rest t, s = front ++ rest ∧ Spells front t ∧ Longest front rest

/-- What stands at the front of the text looks like a token, but is none. -/
inductive Unreadable : SyntaxFault → List Char → Prop where
  | openString {quote : Char} {s : List Char} (hquote : quote = '"' ∨ quote = '\'')
      (h : ∀ front t tail, Quotes quote front t → s ≠ front ++ tail) :
      Unreadable .openString (quote :: s)
  | lone {c : Char} {s : List Char} (hc : c = '&' ∨ c = '|') (h : ∀ tail, s ≠ c :: tail) :
      Unreadable (.lone c) (c :: s)

theorem Reaches.exists_eq_append {s rest : List Char} (h : Reaches s rest) :
    ∃ before, s = before ++ rest := by
  induction h with
  | here s => exact ⟨[], rfl⟩
  | @blank c _ _ _ _ ih =>
    obtain ⟨before, rfl⟩ := ih
    exact ⟨c :: before, rfl⟩
  | @token s _ _ _ _ _ _ ih =>
    obtain ⟨before, rfl⟩ := ih
    exact ⟨s ++ before, (List.append_assoc ..).symm⟩

theorem Unreadable.ne_empty {fault : SyntaxFault} {s : List Char} (h : Unreadable fault s) :
    fault ≠ .empty := by
  rintro rfl
  cases h

theorem unreadable_of_readQuoted {quote : Char} {s : List Char}
    (hquote : quote = '"' ∨ quote = '\'') (h : readQuoted quote s = none) :
    Unreadable .openString (quote :: s) := by
  refine .openString hquote fun front t tail hfront hs => ?_
  have hescape : quote ≠ '\\' := by
    rintro rfl
    exact absurd hquote (by decide)
  rw [hs, hfront.read hescape] at h
  cases h

theorem unreadable_of_readDoubled {c : Char} {token : Token} {s : List Char} {fault : SyntaxFault}
    (hc : c = '&' ∨ c = '|') (h : readDoubled c token s = .error fault) :
    Unreadable fault (c :: s) := by
  have hnext : fault = .lone c ∧ ∀ tail, s ≠ c :: tail := by
    cases s with
    | nil =>
      cases h
      exact ⟨rfl, nofun⟩
    | cons d s =>
      simp only [readDoubled] at h
      split at h
      · cases h
      · rename_i hd
        cases h
        exact ⟨rfl, fun tail hs => hd (List.cons.inj hs).1⟩
  rw [hnext.1]
  exact .lone hc hnext.2

theorem unreadable_of_read {c : Char} {s : List Char} {fault : SyntaxFault}
    (h : read c s = .error fault) : Unreadable fault (c :: s) := by
  unfold read at h
  split at h
  case h_6 | h_7 =>
    split at h
    · cases h
    · cases h
      exact unreadable_of_readQuoted (by decide) ‹_›
  case h_12 | h_13 => exact unreadable_of_readDoubled (by decide) h
  all_goals cases h

theorem scan_lexeme {s : List Char} {lexemes : List Lexeme} (h : scan s = .ok lexemes) :
    ∀ l ∈ lexemes, Reaches s l.text ∧ Begins l.text := by
  fun_induction scan s generalizing lexemes with
  | case1 =>
    cases h
    exact List.forall_mem_nil _
  | case2 c rest hblank ih =>
    intro l hl
    exact ⟨.blank hblank (ih h l hl).1, (ih h l hl).2⟩
  | case3 => cases h
  | case4 => cases h
  | case5 c rest hblank t tail hread lexemes' hscan ih =>
    cases h
    obtain ⟨front, htext, hfront, hlongest⟩ := read_longest (Bool.eq_false_iff.mpr hblank) hread
    refine List.forall_mem_cons.mpr ⟨⟨.here _, front, tail, t, htext, hfront, hlongest⟩, ?_⟩
    intro l hl
    rw [htext]
    exact ⟨.token hfront hlongest (ih hscan l hl).1, (ih hscan l hl).2⟩

theorem scan_fault {s : List Char} {fault : FaultAt} (h : scan s = .error fault) :
    Reaches s fault.rest ∧ Unreadable fault.fault fault.rest := by
  fun_induction scan s generalizing fault with
  | case1 => cases h
  | case2 c rest hblank ih => exact ⟨.blank hblank (ih h).1, (ih h).2⟩
  | case3 c rest hblank fault' hread =>
    cases h
    exact ⟨.here _, unreadable_of_read hread⟩
  | case4 c rest hblank t tail hread fault' hscan ih =>
    cases h
    obtain ⟨front, htext, hfront, hlongest⟩ := read_longest (Bool.eq_false_iff.mpr hblank) hread
    rw [htext]
    exact ⟨.token hfront hlongest (ih hscan).1, (ih hscan).2⟩
  | case5 => cases h

end Token

namespace Filter

/-- Where a fault in a text is reported. -/
inductive Reported (text : String) : SyntaxFault → Nat → Prop where
  | empty (htokens : Token.Splits text.toList []) : Reported text .empty 0
  | unreadable {fault : SyntaxFault} {position : Nat} {rest : String}
      (hrest : Text.from? text position = some rest)
      (hplace : Token.Reaches text.toList rest.toList)
      (hfault : Token.Unreadable fault rest.toList) : Reported text fault position
  | atToken {fault : SyntaxFault} {position : Nat} {rest : String}
      (hrest : Text.from? text position = some rest)
      (hplace : Token.Reaches text.toList rest.toList) (htoken : Token.Begins rest.toList)
      (hfault : fault.IsLocal ∨ fault = .trailing rest) : Reported text fault position
  | atEnd {fault : SyntaxFault} (hfault : fault.IsLocal) : Reported text fault text.utf8ByteSize

theorem locate_of_ne_empty {fault : SyntaxFault} (h : fault ≠ .empty) (text rest : List Char) :
    ParseFault.locate text (.syntaxAt ⟨fault, rest⟩) =
      .malformed fault (byteLength text - byteLength rest) := by
  unfold ParseFault.locate
  split
  · rename_i heq
    cases heq
  · rename_i heq
    cases heq
    exact absurd rfl h
  · rename_i heq
    cases heq
    rfl

section

variable {text : String} {fault : SyntaxFault} {position : Nat}

theorem Reported.isValid (h : Reported text fault position) :
    (String.Pos.Raw.mk position).IsValid text := by
  cases h with
  | empty => exact String.Pos.Raw.isValid_zero
  | unreadable hrest => exact Text.isValid_of_from? hrest
  | atToken hrest => exact Text.isValid_of_from? hrest
  | atEnd => exact String.Pos.Raw.isValid_rawEndPos

end

/-- A lexeme of a text stands where its text begins. -/
theorem from?_lexeme {text : String} {lexemes : List Lexeme}
    (hscan : Token.scan text.toList = .ok lexemes) {l : Lexeme} (hl : l ∈ lexemes) :
    Text.from? text (byteLength text.toList - byteLength l.text) =
      some (String.ofList l.text) := by
  obtain ⟨before, htext⟩ := (Token.scan_lexeme hscan l hl).1.exists_eq_append
  exact from?_position htext

theorem reported_lexeme {text : String} {lexemes : List Lexeme}
    (hscan : Token.scan text.toList = .ok lexemes) {l : Lexeme} (hl : l ∈ lexemes)
    {fault : SyntaxFault} (hfault : fault.IsLocal ∨ fault = .trailing (String.ofList l.text)) :
    Reported text fault (byteLength text.toList - byteLength l.text) := by
  obtain ⟨hplace, htoken⟩ := Token.scan_lexeme hscan l hl
  rw [← String.toList_ofList (l := l.text)] at hplace htoken
  exact .atToken (from?_lexeme hscan hl) hplace htoken hfault

theorem reported_here {text : String} {lexemes : List Lexeme}
    (hscan : Token.scan text.toList = .ok lexemes) {fault : SyntaxFault} (hfault : fault.IsLocal)
    (n : Nat) :
    Reported text fault (byteLength text.toList - byteLength (here (lexemes.drop n))) := by
  cases hrest : lexemes.drop n with
  | nil =>
    have hend : byteLength text.toList - byteLength (here []) = text.utf8ByteSize := by
      rw [here, byteLength_eq, String.ofList_toList, byteLength, Nat.sub_zero]
    rw [hend]
    exact .atEnd hfault
  | cons l rest =>
    have hl : l ∈ lexemes := List.mem_of_mem_drop (hrest ▸ List.mem_cons_self)
    exact reported_lexeme hscan hl (.inl hfault)

theorem reported_of_scan {text : String} {fault : FaultAt}
    (h : Token.scan text.toList = .error fault) :
    Reported text fault.fault (byteLength text.toList - byteLength fault.rest) := by
  obtain ⟨hplace, hfault⟩ := Token.scan_fault h
  obtain ⟨before, htext⟩ := hplace.exists_eq_append
  rw [← String.toList_ofList (l := fault.rest)] at hplace hfault
  exact .unreadable (from?_position htext) hplace hfault

section

variable {α ι : Type} [Identity ι] [Resource α ι]

theorem reported_of_ofLexemes {text : String} {lexemes : List Lexeme} {parseFault : ParseFault}
    (hscan : Token.scan text.toList = .ok lexemes)
    (h : (ofLexemes lexemes : Except ParseFault (Filter α ι)) = .error parseFault)
    {fault : SyntaxFault} {position : Nat}
    (hlocate : ParseFault.locate text.toList parseFault = .malformed fault position) :
    Reported text fault position := by
  obtain ⟨_, halike⟩ : ∃ s, AlikeWhole lexemes lexemes (ofLexemes lexemes) s :=
    ⟨_, ofLexemes_alike (α := α) (ι := ι) (.refl lexemes)⟩
  rw [h] at halike
  generalize hr : (Except.error parseFault : Except ParseFault (Filter α ι)) = r at halike
  cases halike with
  | ok => cases hr
  | query error herror =>
    cases hr
    exact absurd hlocate (herror fault position)
  | empty hlexemes =>
    cases hr
    cases hlocate
    have hsplits := Token.scan_splits hscan
    rw [hlexemes] at hsplits
    exact .empty hsplits
  | syntaxAt fault' n hfault =>
    cases hr
    rw [locate_of_ne_empty hfault.ne_empty] at hlocate
    cases hlocate
    exact reported_here hscan hfault n
  | @trailing n l _ hl =>
    cases hr
    have hne : SyntaxFault.trailing (String.ofList l.text) ≠ .empty := nofun
    rw [locate_of_ne_empty hne] at hlocate
    cases hlocate
    exact reported_lexeme hscan (List.mem_of_mem_drop (List.mem_of_mem_head? hl)) (.inr rfl)

theorem reported_of_parse {text : String} {fault : SyntaxFault} {position : Nat}
    (h : (parse text : Except QueryError (Filter α ι)) = .error (.malformed fault position)) :
    Reported text fault position := by
  rw [parse.eq_def] at h
  dsimp only at h
  split at h
  · rename_i scanFault hscan
    have hfault := (Token.scan_fault hscan).2.ne_empty
    have hlocate := locate_of_ne_empty hfault text.toList scanFault.rest
    cases hlocate.symm.trans (Except.error.inj h)
    exact reported_of_scan hscan
  · rename_i lexemes hscan
    cases hread : (ofLexemes lexemes : Except ParseFault (Filter α ι)) with
    | error parseFault =>
      rw [hread] at h
      exact reported_of_ofLexemes hscan hread (Except.error.inj h)
    | ok f =>
      rw [hread] at h
      cases h

variable (α) in
/-- A position that is reported is one where the text can be cut, and the fault is there. From every
token the rest of the text can be taken. -/
theorem parse_reported (text : String) :
    (∀ fault position,
      (parse text : Except QueryError (Filter α ι)) = .error (.malformed fault position) →
        position ≤ text.utf8ByteSize ∧ (String.Pos.Raw.mk position).IsValid text ∧
          Reported text fault position) ∧
    ∀ lexemes, Token.scan text.toList = .ok lexemes → ∀ l ∈ lexemes,
      Text.from? text (byteLength text.toList - byteLength l.text) =
        some (String.ofList l.text) := by
  refine ⟨fun fault position h => ?_, fun lexemes hscan l hl => from?_lexeme hscan hl⟩
  have hreported := reported_of_parse h
  have hvalid := hreported.isValid
  exact ⟨hvalid.le_utf8ByteSize, hvalid, hreported⟩

open Catalog in
/-- The letter in quotes takes two bytes, so the last word is at byte 13 and at character 12. -/
theorem parse_reported_trailing :
    (parse "name eq \"é\" x" : Except QueryError (Filter Show Int64)) =
        .error (.malformed (.trailing "x") 13) ∧
      Reported "name eq \"é\" x" (.trailing "x") 13 ∧
      Text.from? "name eq \"é\" x" 13 = some "x" := by
  have hscan : Token.scan "name eq \"é\" x".toList =
      .ok [⟨.word "name", "name eq \"é\" x".toList⟩, ⟨.word "eq", "eq \"é\" x".toList⟩,
        ⟨.quoted "é", "\"é\" x".toList⟩, ⟨.word "x", "x".toList⟩] := by cbv
  have h : (parse "name eq \"é\" x" : Except QueryError (Filter Show Int64)) =
      .error (.malformed (.trailing "x") 13) := by
    rw [parse, hscan]
    rfl
  obtain ⟨-, -, hreported⟩ := (parse_reported Show "name eq \"é\" x").1 _ _ h
  refine ⟨h, hreported, ?_⟩
  cases hreported with
  | unreadable _ _ hfault => cases hfault
  | atToken hrest _ _ hfault =>
    rcases hfault with hlocal | heq
    · cases hlocal
    · cases heq
      exact hrest

end

end Filter
end Repertory
