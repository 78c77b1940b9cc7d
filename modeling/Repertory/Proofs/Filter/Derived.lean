import Repertory.Proofs.Filter.Reading

/-!
# Reading what the grammar derives

A phrase is read in front of any rest. Only a chain looks at the rest, whose first token must not go
on with it (`Ends`): what an `or` chain reads up to is the state that its separators and operands
are added to (`ReadsTo`), so the chains of a derivation, which grow to the right, are followed from
their first operand on.
-/

namespace Repertory
namespace Filter

open Grammar Token

variable {α ι : Type}


/-- The next token, if there is one, does not go on with a chain. -/
def Ends (isSeparator : Token → Bool) (rest : List Lexeme) : Prop :=
  ∀ l ∈ rest.head?, isSeparator l.token = false

theorem ends_cons {isSeparator : Token → Bool} {l : Lexeme} (h : isSeparator l.token = false)
    (rest : List Lexeme) : Ends isSeparator (l :: rest) := by
  intro l' hl'
  cases hl'
  exact h

theorem Ends.chainFrom {isSeparator : Token → Bool} {rest : List Lexeme}
    (h : Ends isSeparator rest) (operand : Reader (Filter α ι))
    (join : Filter α ι → Filter α ι → Filter α ι) (n : Nat) (left : Filter α ι) :
    chainFrom operand isSeparator join n left rest = .ok (left, rest) := by
  cases n with
  | zero => rw [Filter.chainFrom]
  | succ n =>
    cases rest with
    | nil => rw [Filter.chainFrom]; exact Nat.succ_ne_zero n
    | cons l rest =>
      rw [Filter.chainFrom, h l rfl]
      rfl

/-- The chain has been read up to the rest, with `left` for what was read. -/
def ReadsTo (operand : Reader (Filter α ι)) (isSeparator : Token → Bool)
    (join : Filter α ι → Filter α ι → Filter α ι) (lexemes : List Lexeme) (left : Filter α ι)
    (rest : List Lexeme) : Prop :=
  ∃ n, rest.length ≤ n ∧
    chain operand isSeparator join lexemes = chainFrom operand isSeparator join n left rest

section

variable {operand : Reader (Filter α ι)} {isSeparator : Token → Bool}
  {join : Filter α ι → Filter α ι → Filter α ι} {left right : Filter α ι}
  {lexemes behind rest : List Lexeme}

theorem readsTo_first (h : operand lexemes = .ok (left, rest)) :
    ReadsTo operand isSeparator join lexemes left rest := by
  refine ⟨rest.length, Nat.le_refl _, ?_⟩
  rw [chain, h]
  rfl

theorem ReadsTo.next {l : Lexeme}
    (h : ReadsTo operand isSeparator join lexemes left (l :: behind))
    (hseparator : isSeparator l.token = true) (hright : operand behind = .ok (right, rest))
    (hlength : rest.length ≤ behind.length) :
    ReadsTo operand isSeparator join lexemes (join left right) rest := by
  obtain ⟨n, hn, hchain⟩ := h
  obtain ⟨n, rfl⟩ := Nat.exists_eq_add_of_le' (Nat.le_trans (Nat.le_add_left 1 _) hn)
  refine ⟨n, Nat.le_trans hlength (Nat.le_of_succ_le_succ hn), ?_⟩
  rw [hchain, Filter.chainFrom, hseparator, hright]
  rfl

theorem ReadsTo.chain (h : ReadsTo operand isSeparator join lexemes left rest)
    (hend : Ends isSeparator rest) :
    chain operand isSeparator join lexemes = .ok (left, rest) := by
  obtain ⟨n, -, hchain⟩ := h
  rw [hchain, hend.chainFrom]

end

end Filter

namespace Grammar

open Repertory.Filter

variable {α ι : Type} {front : List Lexeme} {ts : List Token}

theorem Means.read {kind : FieldKind} {l : Lexeme} {v : Value} (h : Means kind l.token v)
    (field : Field α) (rest : List Lexeme) : value field kind (l :: rest) = .ok (v, rest) := by
  obtain ⟨t, text⟩ := l
  cases h with
  | null h => simp [value, h]
  | word hnull h => simp [value, hnull, h]
  | quoted h => simp [value, h]

theorem Values.read {field : Field α} {vs : List Value} (h : Values field.kind ts vs)
    (hfront : front.map Lexeme.token = ts) {close : Lexeme} (hclose : close.token = .closeList)
    {n : Nat} (hn : front.length < n) (rest : List Lexeme) :
    listItems field n (front ++ close :: rest) = .ok (vs, rest) := by
  obtain ⟨_, text⟩ := close
  cases hclose
  induction h generalizing n front with
  | one hv =>
    obtain ⟨l, rfl, rfl⟩ := List.map_eq_singleton_iff.mp hfront
    obtain ⟨n, rfl⟩ := Nat.exists_eq_add_of_le' (Nat.one_le_of_lt hn)
    rw [listItems, List.singleton_append, hv.read]
    rfl
  | more hv _ ih =>
    obtain ⟨l, behind, rfl, rfl, hbehind⟩ := List.map_eq_cons_iff.mp hfront
    obtain ⟨⟨_, _⟩, items, rfl, hcomma, hitems⟩ := List.map_eq_cons_iff.mp hbehind
    cases hcomma
    obtain ⟨n, rfl⟩ := Nat.exists_eq_add_of_le' (Nat.one_le_of_lt hn)
    simp only [List.length_cons] at hn
    have hread := ih (n := n) hitems (by omega)
    rw [listItems, List.cons_append, hv.read]
    simp only [List.cons_append, bind, Except.bind, hread]
    rfl

/-- The first token is a value, so it is not the end of a list. -/
theorem Values.append_ne {kind : FieldKind} {vs : List Value} (h : Values kind ts vs)
    (us tail : List Token) : ts ++ us ≠ .closeList :: tail := by
  intro heq
  cases h with
  | one h | more h =>
    obtain ⟨rfl, -⟩ := List.cons.inj heq
    cases h

theorem Items.read {field : Field α} {vs : List Value} (h : Items field.kind ts vs)
    {start close : Lexeme} (hstart : start.token = .openList)
    (hfront : front.map Lexeme.token = ts) (hclose : close.token = .closeList)
    (rest : List Lexeme) :
    list field (start :: (front ++ close :: rest)) = .ok (vs, rest) := by
  obtain ⟨_, _⟩ := start
  cases hstart
  cases h with
  | none =>
    rw [List.map_eq_nil_iff.mp hfront]
    obtain ⟨_, _⟩ := close
    cases hclose
    rfl
  | some h =>
    have hitems := h.read (n := (front ++ close :: rest).length + 1) hfront hclose
      (by simp only [List.length_append]; omega) rest
    rw [list.eq_2, hitems]
    intro text tail htail
    have htokens := congrArg (List.map Lexeme.token) htail
    rw [List.map_append, hfront] at htokens
    exact h.append_ne _ _ htokens

theorem Relates.read {l : Lexeme} {r : Relator} (h : Relates l.token r) (field : Field α)
    (rest : List Lexeme) : relator field (l :: rest) = .ok (r, rest) := by
  obtain ⟨t, text⟩ := l
  have hword : ∀ {w}, Relator.ofWord w = some r → t = .word w →
      relator field (⟨t, text⟩ :: rest) = .ok (r, rest) := by
    rintro w hw rfl
    simp [relator, hw]
  cases h with
  | symbol op => rfl
  | word op h =>
    refine hword ?_ rfl
    have hread := CmpOp.read_of_sameName h
    rw [Relator.ofWord.eq_def, Text.sameName_iff.mp h, hread]
    cases op <;> rfl
  | has h => exact hword (by rw [Relator.ofWord, Text.sameName_iff.mp h]; rfl) rfl
  | oneOf h => exact hword (by rw [Relator.ofWord, Text.sameName_iff.mp h]; rfl) rfl

variable [Identity ι] [Resource α ι]

theorem Names.read {l : Lexeme} {field : Field α} (h : Names l.token field)
    (hfield : (Resource.schema (α := α)).Resolves field) (rest : List Lexeme) :
    (primary : Reader (Filter α ι)) (l :: rest) = comparison field rest := by
  obtain ⟨t, text⟩ := l
  cases h with
  | word _ hname =>
    rw [primary]
    simp only [hfield.field?_eq hname]

theorem Names.begins {t : Token} {field : Field α} (h : Names t field)
    (hfield : (Resource.schema (α := α)).Resolves field) :
    isNot t = false ∧ t ≠ .openParen := by
  cases h with
  | word _ hword =>
    have hnot := hfield.not_negation
    rw [Text.sameName_congr hword] at hnot
    exact ⟨hnot, nofun⟩

theorem Comparison.read {f : Filter α ι} (h : Comparison ts f) (hfields : f.ResolvedFields)
    (hfront : front.map Lexeme.token = ts) (rest : List Lexeme) :
    (primary : Reader (Filter α ι)) (front ++ rest) = .ok (f, rest) := by
  cases h with
  | @cmp _ _ _ _ op v hname hrelator hkind hvalue hnull =>
    have hadmits : (v.isNull && !op.admitsNull) = false := by
      cases v with
      | null => simp [hnull rfl]
      | _ => rfl
    obtain ⟨n, _, rfl, rfl, hbehind⟩ := List.map_eq_cons_iff.mp hfront
    obtain ⟨r, _, rfl, rfl, hliteral⟩ := List.map_eq_cons_iff.mp hbehind
    obtain ⟨l, rfl, rfl⟩ := List.map_eq_singleton_iff.mp hliteral
    rw [List.cons_append, hname.read (hfields _ List.mem_cons_self), comparison,
      List.cons_append, hrelator.read]
    simp only [bind, Except.bind, hkind, List.singleton_append, hvalue.read, hadmits]
    rfl
  | has hname hrelator hkind hvalue =>
    obtain ⟨n, _, rfl, rfl, hbehind⟩ := List.map_eq_cons_iff.mp hfront
    obtain ⟨r, _, rfl, rfl, hliteral⟩ := List.map_eq_cons_iff.mp hbehind
    obtain ⟨l, rfl, rfl⟩ := List.map_eq_singleton_iff.mp hliteral
    rw [List.cons_append, hname.read (hfields _ List.mem_cons_self), comparison,
      List.cons_append, hrelator.read]
    simp only [bind, Except.bind, hkind, List.singleton_append, hvalue.read]
    rfl
  | oneOf hname hrelator hkind hvalues =>
    obtain ⟨n, _, rfl, rfl, hbehind⟩ := List.map_eq_cons_iff.mp hfront
    obtain ⟨r, _, rfl, rfl, hliteral⟩ := List.map_eq_cons_iff.mp hbehind
    obtain ⟨start, _, rfl, hstart, hlist⟩ := List.map_eq_cons_iff.mp hliteral
    obtain ⟨items, _, rfl, hitems, hend⟩ := List.map_eq_append_iff.mp hlist
    obtain ⟨close, rfl, hclose⟩ := List.map_eq_singleton_iff.mp hend
    rw [List.cons_append, hname.read (hfields _ List.mem_cons_self), comparison,
      List.cons_append, hrelator.read]
    have hread := hvalues.read hstart hitems hclose rest
    simp only [bind, Except.bind, hkind, List.cons_append, List.append_assoc,
      List.nil_append, hread]
    rfl

/-- A comparison begins with the name of a field, which is not read as a `not`. -/
theorem Comparison.operand {f : Filter α ι} (h : Comparison ts f) (hfields : f.ResolvedFields)
    (hfront : front.map Lexeme.token = ts) (n : Nat) (rest : List Lexeme) :
    (Filter.operand n : Reader (Filter α ι)) (front ++ rest) = .ok (f, rest) := by
  have hname : ∃ l tail, front = l :: tail ∧ isNot l.token = false ∧ l.token ≠ .openParen := by
    cases h with
    | cmp hname | has hname | oneOf hname =>
      obtain ⟨l, tail, rfl, rfl, -⟩ := List.map_eq_cons_iff.mp hfront
      exact ⟨l, tail, rfl, hname.begins (hfields _ List.mem_cons_self)⟩
  have hread := h.read hfields hfront rest
  obtain ⟨l, tail, rfl, htoken⟩ := hname
  cases n <;> simpa [Filter.operand, htoken] using hread

theorem Keyword.isAnd_eq_false {t : Token} (h : Keyword "or" .bothOr t) : isAnd t = false := by
  cases h with
  | symbol => rfl
  | word h =>
    have hother : Text.sameName "or" "and" = false := by decide
    rwa [← Text.sameName_congr h] at hother

theorem Comparison.declared {f : Filter α ι} (h : Comparison ts f) :
    ∀ field ∈ f.fields, Declared field := by
  cases h with
  | cmp hname | has hname | oneOf hname =>
    cases hname with
    | word hfield => exact List.forall_mem_singleton.mpr hfield

mutual

theorem Disjunction.declared {n : Nat} {ts : List Token} {f : Filter α ι} :
    Disjunction n ts f → ∀ field ∈ f.fields, Declared field
  | .conjunction h => h.declared
  | .or hleft _ hright => List.forall_mem_append.mpr ⟨hleft.declared, hright.declared⟩

theorem Conjunction.declared {n : Nat} {ts : List Token} {f : Filter α ι} :
    Conjunction n ts f → ∀ field ∈ f.fields, Declared field
  | .operand h => h.declared
  | .and hleft _ hright => List.forall_mem_append.mpr ⟨hleft.declared, hright.declared⟩

theorem Operand.declared {n : Nat} {ts : List Token} {f : Filter α ι} :
    Operand n ts f → ∀ field ∈ f.fields, Declared field
  | .not _ h => h.declared
  | .parens h => h.declared
  | .comparison h => h.declared

end

mutual

theorem Disjunction.readsTo {n : Nat} {ts : List Token} {f : Filter α ι} :
    Disjunction n ts f → f.ResolvedFields → ∀ {front rest : List Lexeme},
      front.map Lexeme.token = ts → Ends isAnd rest →
      ReadsTo (chain (Filter.operand n) isAnd Filter.and) isOr Filter.or (front ++ rest) f rest
  | .conjunction h, hfields, _, _, hfront, hend =>
    readsTo_first ((h.readsTo hfields hfront).chain hend)
  | .or hleft ht hright, hfields, _, rest, hfront, hend => by
    obtain ⟨hfieldsLeft, hfieldsRight⟩ := List.forall_mem_append.mp hfields
    obtain ⟨left, _, rfl, hts, hbehind⟩ := List.map_eq_append_iff.mp hfront
    obtain ⟨l, right, rfl, rfl, hus⟩ := List.map_eq_cons_iff.mp hbehind
    have hand : Ends isAnd (l :: (right ++ rest)) := ends_cons ht.isAnd_eq_false _
    have hread := hleft.readsTo hfieldsLeft hts hand
    rw [List.append_assoc, List.cons_append]
    exact hread.next (isOr_iff.mpr ht) ((hright.readsTo hfieldsRight hus).chain hend) (by simp)

theorem Conjunction.readsTo {n : Nat} {ts : List Token} {f : Filter α ι} :
    Conjunction n ts f → f.ResolvedFields → ∀ {front rest : List Lexeme},
      front.map Lexeme.token = ts →
      ReadsTo (Filter.operand n) isAnd Filter.and (front ++ rest) f rest
  | .operand h, hfields, _, _, hfront => readsTo_first (h.read hfields hfront)
  | .and hleft ht hright, hfields, _, rest, hfront => by
    obtain ⟨hfieldsLeft, hfieldsRight⟩ := List.forall_mem_append.mp hfields
    obtain ⟨left, _, rfl, hts, hbehind⟩ := List.map_eq_append_iff.mp hfront
    obtain ⟨l, right, rfl, rfl, hus⟩ := List.map_eq_cons_iff.mp hbehind
    rw [List.append_assoc, List.cons_append]
    exact (hleft.readsTo hfieldsLeft hts).next (isAnd_iff.mpr ht) (hright.read hfieldsRight hus)
      (by simp)

theorem Operand.read {n : Nat} {ts : List Token} {f : Filter α ι} :
    Operand n ts f → f.ResolvedFields → ∀ {front rest : List Lexeme},
      front.map Lexeme.token = ts → Filter.operand n (front ++ rest) = .ok (f, rest)
  | .not ht h, hfields, _, rest, hfront => by
    obtain ⟨l, behind, rfl, rfl, hts⟩ := List.map_eq_cons_iff.mp hfront
    rw [List.cons_append, Filter.operand, isNot_iff.mpr ht, h.read hfields hts]
    rfl
  | .parens h, hfields, _, rest, hfront => by
    obtain ⟨l, _, rfl, hopen, hbehind⟩ := List.map_eq_cons_iff.mp hfront
    obtain ⟨inner, _, rfl, hts, hend⟩ := List.map_eq_append_iff.mp hbehind
    obtain ⟨⟨_, text⟩, rfl, hclose⟩ := List.map_eq_singleton_iff.mp hend
    cases hclose
    have hread := (h.readsTo hfields hts (ends_cons rfl rest)).chain
      (ends_cons (l := ⟨.closeParen, text⟩) rfl rest)
    have hnot : isNot l.token = false := by rw [hopen]; rfl
    rw [List.cons_append, List.append_assoc, List.singleton_append, Filter.operand, hnot, hopen,
      expression, hread]
    rfl
  | .comparison h, hfields, _, _, hfront => h.operand hfields hfront _ _

end

end Grammar

namespace Filter

open Grammar

variable {α ι : Type} [Identity ι] [Resource α ι]

theorem ofLexemes_of_disjunction {lexemes : List Lexeme} {f : Filter α ι}
    (h : Disjunction maxDepth (lexemes.map Lexeme.token) f) (hfields : f.ResolvedFields) :
    ofLexemes lexemes = .ok f := by
  have hnil : ∀ isSeparator, Ends isSeparator [] := fun _ l hl => by cases hl
  have hread := (h.readsTo hfields rfl (hnil isAnd)).chain (hnil isOr)
  rw [List.append_nil] at hread
  cases lexemes with
  | nil => cases hread
  | cons l lexemes =>
    rw [ofLexemes.eq_2 _ (List.cons_ne_nil l lexemes), expression, hread]
    rfl

theorem parse_of_disjunction {text : String} {tokens : List Token} {f : Filter α ι}
    (hsplits : Token.Splits text.toList tokens) (htokens : Disjunction maxDepth tokens f)
    (hfields : f.ResolvedFields) : parse text = .ok f := by
  obtain ⟨lexemes, hscan, rfl⟩ := hsplits.scan
  exact parse_of_scan hscan (ofLexemes_of_disjunction htokens hfields)

theorem parse_derives {text : String} {f : Filter α ι} (h : parse text = .ok f) :
    ∃ tokens, Token.Splits text.toList tokens ∧ Readably (Disjunction maxDepth) tokens f := by
  obtain ⟨lexemes, hscan, hread⟩ := exists_scan_of_parse h
  exact ⟨_, Token.scan_splits hscan, ofLexemes_derives (Token.spelled_of_scan hscan) hread⟩

/-- A text is read exactly if it splits into tokens that derive from the grammar, and as the filter
that they derive. -/
theorem parse_eq_ok_iff (hschema : (Resource.schema (α := α)).WellNamed) {text : String}
    {f : Filter α ι} :
    parse text = .ok f ↔
      ∃ tokens, Token.Splits text.toList tokens ∧ Disjunction maxDepth tokens f := by
  constructor
  · intro h
    obtain ⟨tokens, hsplits, htokens, -⟩ := parse_derives h
    exact ⟨tokens, hsplits, htokens⟩
  · rintro ⟨tokens, hsplits, htokens⟩
    exact parse_of_disjunction hsplits htokens fun field hfield =>
      hschema.resolves (htokens.declared field hfield)

end Filter
end Repertory
