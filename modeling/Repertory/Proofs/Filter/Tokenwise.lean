import Repertory.Filter.Parser

/-!
# Readers look at tokens only

What is read depends on the tokens and not on where they stand in a text (`expression_tokenwise`).
Two lists of the same tokens give the same result, and a fault lies in front of the same token of
both, or at the end of both. With one list this says that every fault lies at a token or at the
end; with two lists it carries a result over from one text to another that has the same tokens.
-/

namespace Repertory

/-- The fault is about a place in the text. The other faults are about the text as a whole or name
a part of it. -/
def SyntaxFault.IsLocal : SyntaxFault → Prop
  | .empty | .trailing _ => False
  | _ => True

namespace Filter

inductive SameTokens : List Lexeme → List Lexeme → Prop where
  | nil : SameTokens [] []
  | cons (t : Token) (x y : List Char) {ls ms : List Lexeme} (h : SameTokens ls ms) :
      SameTokens (⟨t, x⟩ :: ls) (⟨t, y⟩ :: ms)

namespace SameTokens

theorem refl (ls : List Lexeme) : SameTokens ls ls := by
  induction ls with
  | nil => exact .nil
  | cons l ls ih => exact .cons l.token l.text l.text ih

variable {ls ms : List Lexeme}

theorem length_eq (h : SameTokens ls ms) : ls.length = ms.length := by
  induction h with
  | nil => rfl
  | cons _ _ _ _ ih => rw [List.length_cons, List.length_cons, ih]

theorem drop (h : SameTokens ls ms) (n : Nat) : SameTokens (ls.drop n) (ms.drop n) := by
  induction h generalizing n with
  | nil => simpa only [List.drop_nil] using nil
  | cons t x y h ih =>
    cases n with
    | zero => exact .cons t x y h
    | succ n => exact ih n

end SameTokens

/-- The results of one reader on two lists: both leave out the same number of tokens, or they have
the same fault behind the same number of tokens. -/
inductive Alike {β : Type} (ls ms : List Lexeme) :
    Except ParseFault (β × List Lexeme) → Except ParseFault (β × List Lexeme) → Prop where
  | ok (b : β) (n : Nat) : Alike ls ms (.ok (b, ls.drop n)) (.ok (b, ms.drop n))
  | query (error : QueryError)
      (herror : ∀ fault position, error ≠ .malformed fault position := by nofun) :
      Alike ls ms (.error (.query error)) (.error (.query error))
  | syntaxAt (fault : SyntaxFault) (n : Nat) (hfault : fault.IsLocal := by trivial) :
      Alike ls ms (faultAt fault (ls.drop n)) (faultAt fault (ms.drop n))

namespace Alike

variable {β γ : Type} {ls ms : List Lexeme} {r s : Except ParseFault (β × List Lexeme)}

theorem of_drop {n : Nat} (h : Alike (ls.drop n) (ms.drop n) r s) : Alike ls ms r s := by
  cases h with
  | ok b k =>
    rw [List.drop_drop, List.drop_drop]
    exact .ok b _
  | query error herror => exact .query error herror
  | syntaxAt fault k hfault =>
    rw [List.drop_drop, List.drop_drop]
    exact .syntaxAt fault _ hfault

theorem of_tail {l m : Lexeme} (h : Alike ls ms r s) : Alike (l :: ls) (m :: ms) r s := by
  have hdrop : Alike ((l :: ls).drop 1) ((m :: ms).drop 1) r s := h
  exact hdrop.of_drop

variable {next next' : β × List Lexeme → Except ParseFault (γ × List Lexeme)}

theorem bind_drop (h : Alike ls ms r s)
    (hnext : ∀ b n, Alike ls ms (next (b, ls.drop n)) (next' (b, ms.drop n))) :
    Alike ls ms (r >>= next) (s >>= next') := by
  cases h with
  | ok b n => exact hnext b n
  | query error herror => exact .query error herror
  | syntaxAt fault n hfault => exact .syntaxAt fault n hfault

/-- What is read next is read from what the first reader left. -/
theorem bind (h : Alike ls ms r s) (hsame : SameTokens ls ms)
    (hnext : ∀ b {ls' ms'}, SameTokens ls' ms' → Alike ls' ms' (next (b, ls')) (next' (b, ms'))) :
    Alike ls ms (r >>= next) (s >>= next') :=
  h.bind_drop fun b n => (hnext b (hsame.drop n)).of_drop

end Alike

/-- The reader does not look at where the tokens stand. -/
def Reader.Tokenwise {β : Type} (reader : Reader β) : Prop :=
  ∀ {ls ms}, SameTokens ls ms → Alike ls ms (reader ls) (reader ms)

variable {α ι : Type}

theorem value_tokenwise (field : Field α) (kind : FieldKind) : (value field kind).Tokenwise := by
  intro ls ms h
  cases h with
  | nil => exact .syntaxAt _ 0
  | cons t x y h =>
    cases t with
    | word w =>
      simp only [value]
      split
      · exact .ok _ 1
      · split
        · exact .ok _ 1
        · exact .query _
    | quoted s =>
      simp only [value]
      split
      · exact .ok _ 1
      · exact .query _
    | _ => exact .syntaxAt _ 0

theorem listItems_tokenwise (field : Field α) (n : Nat) : (listItems field n).Tokenwise := by
  induction n with
  | zero =>
    intro ls ms h
    exact .syntaxAt _ 0
  | succ n ih =>
    intro ls ms h
    rw [listItems, listItems]
    refine (value_tokenwise field field.kind h).bind h fun v ls ms h => ?_
    cases h with
    | nil => exact .syntaxAt _ 0
    | cons t x y h =>
      cases t with
      | comma => exact ((ih h).bind h fun vs ls ms _ => .ok (v :: vs) 0).of_tail
      | closeList => exact .ok [v] 1
      | _ => exact .syntaxAt _ 0

theorem list_tokenwise (field : Field α) : (list field).Tokenwise := by
  intro ls ms h
  cases h with
  | nil => exact .syntaxAt _ 0
  | cons t x y h =>
    cases t with
    | openList =>
      have hitems := fun n => (listItems_tokenwise field n h).of_tail
        (l := ⟨.openList, x⟩) (m := ⟨.openList, y⟩)
      cases h with
      | nil => exact hitems 1
      | @cons t x' y' ls ms h =>
        have hlength : ms.length = ls.length := h.length_eq.symm
        cases t with
        | closeList => exact .ok [] 2
        | _ => simpa only [list, List.length_cons, hlength] using hitems (ls.length + 1 + 1)
    | _ => exact .syntaxAt _ 0

theorem relator_tokenwise (field : Field α) : (relator field).Tokenwise := by
  intro ls ms h
  cases h with
  | nil => exact .syntaxAt _ 0
  | cons t x y h =>
    cases t with
    | op op => exact .ok _ 1
    | word w =>
      simp only [relator]
      split
      · exact .ok _ 1
      · exact .syntaxAt _ 0
    | _ => exact .syntaxAt _ 0

theorem comparison_tokenwise (field : Field α) :
    (comparison field : Reader (Filter α ι)).Tokenwise := by
  intro ls ms h
  -- A relator that does not suit the field is reported where it stands, after it was read.
  refine (relator_tokenwise field h).bind_drop fun r n => ?_
  have hrest := h.drop n
  cases r with
  | cmp op =>
    dsimp only
    split
    · exact .syntaxAt _ 0
    · refine Alike.of_drop ((value_tokenwise field field.kind hrest).bind hrest fun v ls ms _ => ?_)
      dsimp only
      split
      · exact .query _
      · exact .ok _ 0
  | has =>
    dsimp only
    split
    · refine Alike.of_drop ((value_tokenwise field _ hrest).bind hrest fun v ls ms _ => ?_)
      exact .ok _ 0
    · exact .syntaxAt _ 0
  | oneOf =>
    dsimp only
    split
    · exact .syntaxAt _ 0
    · refine Alike.of_drop ((list_tokenwise field hrest).bind hrest fun vs ls ms _ => ?_)
      exact .ok _ 0

section

variable {operand : Reader (Filter α ι)} {isSeparator : Token → Bool}
  {join : Filter α ι → Filter α ι → Filter α ι}

theorem chainFrom_tokenwise (hoperand : operand.Tokenwise) (n : Nat) (left : Filter α ι) :
    (chainFrom operand isSeparator join n left).Tokenwise := by
  induction n generalizing left with
  | zero =>
    intro ls ms h
    exact .ok left 0
  | succ n ih =>
    intro ls ms h
    cases h with
    | nil => exact .ok left 0
    | cons t x y h =>
      rw [chainFrom, chainFrom]
      split
      · exact ((hoperand h).bind h fun right ls ms h => ih _ h).of_tail
      · exact .ok left 0

theorem chain_tokenwise (hoperand : operand.Tokenwise) :
    (chain operand isSeparator join).Tokenwise := by
  intro ls ms h
  refine (hoperand h).bind h fun first ls ms h => ?_
  simp only [h.length_eq]
  exact chainFrom_tokenwise hoperand _ _ h

theorem expression_tokenwise (hoperand : operand.Tokenwise) : (expression operand).Tokenwise :=
  chain_tokenwise (chain_tokenwise hoperand)

end

variable [Identity ι] [Resource α ι]

theorem primary_tokenwise : (primary : Reader (Filter α ι)).Tokenwise := by
  intro ls ms h
  cases h with
  | nil => exact .syntaxAt _ 0
  | cons t x y h =>
    cases t with
    | word name =>
      simp only [primary]
      split
      · exact (comparison_tokenwise _ h).of_tail
      · exact .query _
    | _ => exact .syntaxAt _ 0

theorem operand_tokenwise (depth : Nat) : (operand depth : Reader (Filter α ι)).Tokenwise := by
  induction depth with
  | zero =>
    intro ls ms h
    cases h with
    | nil => exact .syntaxAt _ 0
    | cons t x y h =>
      rw [operand, operand]
      split
      · exact .syntaxAt _ 0
      · split
        · exact .syntaxAt _ 0
        · exact primary_tokenwise (.cons t x y h)
  | succ depth ih =>
    intro ls ms h
    cases h with
    | nil => exact .syntaxAt _ 0
    | cons t x y h =>
      rw [operand, operand]
      split
      · refine ((ih h).bind h fun a ls ms _ => ?_).of_tail
        exact .ok _ 0
      · split
        · refine ((expression_tokenwise ih h).bind h fun a ls ms h => ?_).of_tail
          cases h with
          | nil => exact .syntaxAt _ 0
          | cons t x y h =>
            cases t with
            | closeParen => exact .ok a 1
            | _ => exact .syntaxAt _ 0
        · exact primary_tokenwise (.cons t x y h)

/-- The results of reading two whole lists. In front of tokens that are left over, the fault quotes
the text that the list has there. -/
inductive AlikeWhole (ls ms : List Lexeme) :
    Except ParseFault (Filter α ι) → Except ParseFault (Filter α ι) → Prop where
  | ok (f : Filter α ι) : AlikeWhole ls ms (.ok f) (.ok f)
  | query (error : QueryError) (herror : ∀ fault position, error ≠ .malformed fault position) :
      AlikeWhole ls ms (.error (.query error)) (.error (.query error))
  | empty (hls : ls = []) (hms : ms = []) :
      AlikeWhole ls ms (faultAt .empty []) (faultAt .empty [])
  | syntaxAt (fault : SyntaxFault) (n : Nat) (hfault : fault.IsLocal) :
      AlikeWhole ls ms (faultAt fault (ls.drop n)) (faultAt fault (ms.drop n))
  | trailing (n : Nat) {l m : Lexeme} (hl : (ls.drop n).head? = some l)
      (hm : (ms.drop n).head? = some m) :
      AlikeWhole ls ms (.error (.syntaxAt ⟨.trailing (String.ofList l.text), l.text⟩))
        (.error (.syntaxAt ⟨.trailing (String.ofList m.text), m.text⟩))

theorem ofLexemes_alike {ls ms : List Lexeme} (h : SameTokens ls ms) :
    AlikeWhole ls ms (ofLexemes ls : Except ParseFault (Filter α ι)) (ofLexemes ms) := by
  have hread := expression_tokenwise (operand_tokenwise (α := α) (ι := ι) maxDepth) h
  by_cases hls : ls = []
  · subst hls
    cases h
    exact .empty rfl rfl
  · have hms : ms ≠ [] := by
      rintro rfl
      cases h
      exact hls rfl
    rw [ofLexemes.eq_2 _ hls, ofLexemes.eq_2 _ hms]
    generalize expression (operand (α := α) maxDepth) ls = r at hread ⊢
    generalize expression (operand (α := α) maxDepth) ms = s at hread ⊢
    cases hread with
    | query error herror => exact .query error herror
    | syntaxAt fault n hfault => exact .syntaxAt fault n hfault
    | ok f n =>
      have hrest := h.drop n
      simp only [bind, Except.bind]
      generalize hls' : ls.drop n = ls' at hrest ⊢
      generalize hms' : ms.drop n = ms' at hrest ⊢
      cases hrest with
      | nil => exact .ok f
      | cons t x y _ => exact .trailing n (congrArg List.head? hls') (congrArg List.head? hms')

end Filter
end Repertory
