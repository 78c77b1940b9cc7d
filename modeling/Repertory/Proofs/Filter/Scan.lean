import Repertory.Filter.Parser

/-!
# Scanning token by token
-/

namespace Repertory
namespace Token

theorem scan_nil : scan [] = .ok [] := by rw [scan.eq_def]

theorem scan_blank {c : Char} (h : Text.isBlank c = true) (rest : List Char) :
    scan (c :: rest) = scan rest := by
  rw [scan.eq_def]
  exact if_pos h

theorem scan_token {c : Char} {rest tail : List Char} {token : Token} {lexemes : List Lexeme}
    (h : Text.isBlank c = false) (hread : read c rest = .ok (token, tail))
    (htail : scan tail = .ok lexemes) :
    scan (c :: rest) = .ok (⟨token, c :: rest⟩ :: lexemes) := by
  rw [scan.eq_def]
  simp only [h, Bool.false_eq_true, if_false]
  split
  · rename_i herror
    cases hread.symm.trans herror
  · rename_i hok
    cases hread.symm.trans hok
    rw [htail]

theorem scan_unreadable {c : Char} {rest : List Char} {fault : SyntaxFault}
    (h : Text.isBlank c = false) (hread : read c rest = .error fault) :
    scan (c :: rest) = .error ⟨fault, c :: rest⟩ := by
  rw [scan.eq_def]
  simp only [h, Bool.false_eq_true, if_false]
  split
  · rename_i herror
    cases hread.symm.trans herror
    rfl
  · rename_i hok
    cases hread.symm.trans hok

theorem scan_token_fault {c : Char} {rest tail : List Char} {token : Token} {fault : FaultAt}
    (h : Text.isBlank c = false) (hread : read c rest = .ok (token, tail))
    (htail : scan tail = .error fault) : scan (c :: rest) = .error fault := by
  rw [scan.eq_def]
  simp only [h, Bool.false_eq_true, if_false]
  split
  · rename_i herror
    cases hread.symm.trans herror
  · rename_i hok
    cases hread.symm.trans hok
    rw [htail]

end Token

theorem Filter.parse_of_scan {α ι : Type} [Identity ι] [Resource α ι] {text : String}
    {lexemes : List Lexeme} {f : Filter α ι} (h : Token.scan text.toList = .ok lexemes)
    (hf : ofLexemes lexemes = .ok f) : parse text = .ok f := by
  simp only [parse, h, hf]
  rfl

theorem Filter.exists_scan_of_parse {α ι : Type} [Identity ι] [Resource α ι] {text : String}
    {f : Filter α ι} (h : parse text = .ok f) :
    ∃ lexemes, Token.scan text.toList = .ok lexemes ∧ ofLexemes lexemes = .ok f := by
  rw [parse.eq_def] at h
  dsimp only at h
  split at h
  · cases h
  · rename_i lexemes hscan
    cases hread : (ofLexemes lexemes : Except ParseFault (Filter α ι)) with
    | error fault =>
      rw [hread] at h
      cases h
    | ok a =>
      rw [hread] at h
      cases h
      exact ⟨lexemes, hscan, hread⟩

end Repertory
