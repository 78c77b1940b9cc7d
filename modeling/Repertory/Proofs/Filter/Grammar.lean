import Repertory.Proofs.Action
import Repertory.Proofs.Filter.Spelling

/-!
# The grammar of filter text

A filter text is read exactly if its tokens derive from the grammar, and the filter that is read is
the one that is derived (`parse_eq_ok_iff`). The grammar is stated without the reader: a rule for
each kind of phrase, over the tokens that make up the phrase. A number bounds the `not`s and
parentheses around each part.

Names of fields are looked up by the first match, and a `not` is tried before a name, so the grammar
describes the reader of a schema whose names leave no choice (`Schema.WellNamed`).
-/

namespace Repertory

/-- The names of the fields differ by more than the case of letters, and none of them is read as a
`not`. -/
structure Schema.WellNamed {α : Type} (schema : Schema α) : Prop where
  distinct : schema.fields.Pairwise fun f g => Text.sameName f.name g.name = false
  not_negation : ∀ f ∈ schema.fields, Text.sameName f.name "not" = false

namespace Grammar

variable {α ι : Type}

inductive Keyword (name : String) (symbol : Token) : Token → Prop where
  | symbol : Keyword name symbol symbol
  | word {w : String} (h : Text.sameName w name = true) : Keyword name symbol (.word w)

inductive Relates : Token → Filter.Relator → Prop where
  | symbol (op : CmpOp) : Relates (.op op) (.cmp op)
  | word {w : String} (op : CmpOp) (h : Text.sameName w op.keyword = true) :
      Relates (.word w) (.cmp op)
  | has {w : String} (h : Text.sameName w "has" = true) : Relates (.word w) .has
  | oneOf {w : String} (h : Text.sameName w "in" = true) : Relates (.word w) .oneOf

/-- The values that a token can stand for where a kind is wanted. Only a bare word is a null. -/
inductive Means (kind : FieldKind) : Token → Value → Prop where
  | null {w : String} (h : Text.sameName w "null" = true) : Means kind (.word w) .null
  | word {w : String} {v : Value} (hnull : Text.sameName w "null" = false)
      (h : kind.literal w = some v) : Means kind (.word w) v
  | quoted {s : String} {v : Value} (h : kind.literal s = some v) : Means kind (.quoted s) v

inductive Values (kind : FieldKind) : List Token → List Value → Prop where
  | one {t : Token} {v : Value} (h : Means kind t v) : Values kind [t] [v]
  | more {t : Token} {v : Value} {ts : List Token} {vs : List Value} (h : Means kind t v)
      (hrest : Values kind ts vs) : Values kind (t :: .comma :: ts) (v :: vs)

inductive Items (kind : FieldKind) : List Token → List Value → Prop where
  | none : Items kind [] []
  | some {ts : List Token} {vs : List Value} (h : Values kind ts vs) : Items kind ts vs

section

variable [Identity ι] [Resource α ι]

inductive Names : Token → Field α → Prop where
  | word {w : String} {field : Field α} (hfield : field ∈ (Resource.schema (α := α)).fields)
      (h : Text.sameName field.name w = true) : Names (.word w) field

inductive Comparison : List Token → Filter α ι → Prop where
  | cmp {name relator literal : Token} {field : Field α} {op : CmpOp} {v : Value}
      (hname : Names name field) (hrelator : Relates relator (.cmp op))
      (hkind : field.kind.isList = false) (hvalue : Means field.kind literal v)
      (hnull : v = .null → op.admitsNull = true) :
      Comparison [name, relator, literal] (.cmp op field v)
  | has {name relator literal : Token} {field : Field α} {v : Value}
      (hname : Names name field) (hrelator : Relates relator .has)
      (hkind : field.kind.isList = true) (hvalue : Means field.kind.element literal v) :
      Comparison [name, relator, literal] (.has field v)
  | oneOf {name relator : Token} {ts : List Token} {field : Field α} {vs : List Value}
      (hname : Names name field) (hrelator : Relates relator .oneOf)
      (hkind : field.kind.isList = false) (hvalues : Items field.kind ts vs) :
      Comparison (name :: relator :: .openList :: (ts ++ [.closeList])) (.oneOf field vs)

mutual

/-- Conjunctions joined by `or`, from the left. -/
inductive Disjunction : Nat → List Token → Filter α ι → Prop where
  | conjunction {n : Nat} {ts : List Token} {a : Filter α ι} (h : Conjunction n ts a) :
      Disjunction n ts a
  | or {n : Nat} {ts us : List Token} {t : Token} {a b : Filter α ι} (hleft : Disjunction n ts a)
      (ht : Keyword "or" .bothOr t) (hright : Conjunction n us b) :
      Disjunction n (ts ++ t :: us) (.or a b)

/-- Operands joined by `and`, from the left. -/
inductive Conjunction : Nat → List Token → Filter α ι → Prop where
  | operand {n : Nat} {ts : List Token} {a : Filter α ι} (h : Operand n ts a) : Conjunction n ts a
  | and {n : Nat} {ts us : List Token} {t : Token} {a b : Filter α ι} (hleft : Conjunction n ts a)
      (ht : Keyword "and" .bothAnd t) (hright : Operand n us b) :
      Conjunction n (ts ++ t :: us) (.and a b)

/-- A comparison, or a phrase one level deeper behind a `not` or in parentheses. -/
inductive Operand : Nat → List Token → Filter α ι → Prop where
  | not {n : Nat} {t : Token} {ts : List Token} {a : Filter α ι} (ht : Keyword "not" .bang t)
      (h : Operand n ts a) : Operand (n + 1) (t :: ts) (.not a)
  | parens {n : Nat} {ts : List Token} {a : Filter α ι} (h : Disjunction n ts a) :
      Operand (n + 1) (.openParen :: (ts ++ [.closeParen])) a
  | comparison {n : Nat} {ts : List Token} {a : Filter α ι} (h : Comparison ts a) : Operand n ts a

end

end

end Grammar
end Repertory
