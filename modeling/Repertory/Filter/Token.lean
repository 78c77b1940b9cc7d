import Repertory.Filter.Basic
import Repertory.Text.Blank

/-!
# Tokens of filter text

A filter text is a sequence of tokens with blanks between them. Every token is kept together with
the text from its first character on (`Lexeme`), so the place of a fault is a rest of the whole
text, and its position is the number of bytes before that rest.
-/

namespace Repertory

inductive Token where
  | openParen
  | closeParen
  | openList
  | closeList
  | comma
  | bang
  | bothAnd
  | bothOr
  | op (op : CmpOp)
  | word (s : String)
  | quoted (s : String)
  deriving DecidableEq

structure Lexeme where
  token : Token
  text : List Char

structure FaultAt where
  fault : SyntaxFault
  rest : List Char

def byteLength : List Char → Nat
  | [] => 0
  | c :: rest => c.utf8Size + byteLength rest

namespace Token

/-- Characters that end a word and are tokens, or parts of tokens, of their own. -/
def punctuation : List Char :=
  ['(', ')', '[', ']', ',', '"', '\'', '=', '!', '<', '>', '&', '|']

def isWordChar (c : Char) : Bool :=
  !Text.isBlank c && !punctuation.contains c

def unescape (c : Char) : Char :=
  if c = 'n' then '\n' else if c = 't' then '\t' else c

def readQuoted (quote : Char) : List Char → Option (List Char × List Char)
  | [] => none
  | '\\' :: c :: rest => (readQuoted quote rest).map fun (s, r) => (unescape c :: s, r)
  | c :: rest =>
    if c = '\\' then none
    else if c = quote then some ([], rest)
    else (readQuoted quote rest).map fun (s, r) => (c :: s, r)

def afterEquals : List Char → Option (List Char)
  | '=' :: rest => some rest
  | _ => none

def readOperator (rest : List Char) (extended plain : Token) : Token × List Char :=
  match afterEquals rest with
  | some rest => (extended, rest)
  | none => (plain, rest)

def readDoubled (c : Char) (token : Token) : List Char → Except SyntaxFault (Token × List Char)
  | d :: rest => if d = c then .ok (token, rest) else .error (.lone c)
  | [] => .error (.lone c)

def read (c : Char) (rest : List Char) : Except SyntaxFault (Token × List Char) :=
  match c with
  | '(' => .ok (openParen, rest)
  | ')' => .ok (closeParen, rest)
  | '[' => .ok (openList, rest)
  | ']' => .ok (closeList, rest)
  | ',' => .ok (comma, rest)
  | '"' | '\'' =>
    match readQuoted c rest with
    | some (s, rest) => .ok (quoted (String.ofList s), rest)
    | none => .error .openString
  | '=' => .ok (readOperator rest (op .eq) (op .eq))
  | '!' => .ok (readOperator rest (op .ne) bang)
  | '<' => .ok (readOperator rest (op .le) (op .lt))
  | '>' => .ok (readOperator rest (op .ge) (op .gt))
  | '&' => readDoubled c bothAnd rest
  | '|' => readDoubled c bothOr rest
  | _ =>
    .ok (word (String.ofList (c :: rest.takeWhile isWordChar)), rest.dropWhile isWordChar)

/-! ## Every token takes a character -/

theorem readQuoted_length {quote : Char} {s t r : List Char}
    (h : readQuoted quote s = some (t, r)) : r.length < s.length := by
  fun_induction readQuoted quote s generalizing t r with
  | case1 => simp at h
  | case2 c rest ih =>
    obtain ⟨⟨t', r'⟩, hr, he⟩ := Option.map_eq_some_iff.1 h
    have := ih hr
    simp only [Prod.mk.injEq] at he
    simp only [List.length_cons, ← he.2]
    omega
  | case3 => simp at h
  | case4 =>
    simp only [Option.some.injEq, Prod.mk.injEq] at h
    simp [← h.2]
  | case5 _ rest _ _ _ ih =>
    obtain ⟨⟨t', r'⟩, hr, he⟩ := Option.map_eq_some_iff.1 h
    have := ih hr
    simp only [Prod.mk.injEq] at he
    simp only [List.length_cons, ← he.2]
    omega

theorem readOperator_length {rest : List Char} {extended plain : Token} :
    (readOperator rest extended plain).2.length ≤ rest.length := by
  unfold readOperator
  split
  · next r h =>
    cases rest with
    | nil => simp [afterEquals] at h
    | cons c cs =>
      by_cases hc : c = '='
      · subst hc
        simp only [afterEquals, Option.some.injEq] at h
        simp [← h]
      · simp [afterEquals, hc] at h
  · exact Nat.le_refl _

theorem readDoubled_length {c : Char} {token t : Token} {s r : List Char}
    (h : readDoubled c token s = .ok (t, r)) : r.length ≤ s.length := by
  cases s with
  | nil => simp [readDoubled] at h
  | cons d rest =>
    simp only [readDoubled] at h
    split at h
    · simp only [Except.ok.injEq, Prod.mk.injEq] at h
      simp [← h.2]
    · simp at h

theorem dropWhile_length (p : Char → Bool) (s : List Char) :
    (s.dropWhile p).length ≤ s.length := by
  induction s with
  | nil => simp
  | cons c rest ih =>
    rw [List.dropWhile_cons]
    split
    · exact Nat.le_succ_of_le ih
    · exact Nat.le_refl _

theorem read_length {c : Char} {rest : List Char} {t : Token} {r : List Char}
    (h : read c rest = .ok (t, r)) : r.length ≤ rest.length := by
  unfold read at h
  split at h
  case h_6 | h_7 =>
    split at h
    · next hq =>
      simp only [Except.ok.injEq, Prod.mk.injEq] at h
      have := readQuoted_length hq
      rw [← h.2]
      omega
    · simp at h
  case h_12 | h_13 => exact readDoubled_length h
  case h_8 | h_9 | h_10 | h_11 =>
    simp only [Except.ok.injEq] at h
    have := congrArg Prod.snd h
    simp only at this
    rw [← this]
    exact readOperator_length
  case h_14 =>
    simp only [Except.ok.injEq, Prod.mk.injEq] at h
    rw [← h.2]
    exact dropWhile_length _ _
  all_goals
    simp only [Except.ok.injEq, Prod.mk.injEq] at h
    exact Nat.le_of_eq (congrArg List.length h.2.symm)

def scan : List Char → Except FaultAt (List Lexeme)
  | [] => .ok []
  | c :: rest =>
    if Text.isBlank c then scan rest
    else
      match _h : read c rest with
      | .error fault => .error ⟨fault, c :: rest⟩
      | .ok (token, tail) =>
        match scan tail with
        | .error fault => .error fault
        | .ok lexemes => .ok (⟨token, c :: rest⟩ :: lexemes)
termination_by s => s.length
decreasing_by
  · simp
  · have := read_length _h
    simp only [List.length_cons]
    omega

end Token
end Repertory
