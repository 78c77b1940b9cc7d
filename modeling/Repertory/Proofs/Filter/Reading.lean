import Repertory.Proofs.Filter.Decided
import Repertory.Proofs.Filter.Grammar

/-!
# What is read derives from the grammar

A reader takes tokens from the front of those that are left, and the tokens it takes derive its
result (`Reader.Derives`). This passes from the operands to the chains, and from each level of
nesting to the next.

The grammar says which fields a name may stand for, and the reader takes the first of them. So the
fields of what was read are those that their own names lead to (`Schema.Readable`), also in a schema
that has several fields of one name.
-/

namespace Repertory

/-! ## Words without regard to case -/

namespace Text

theorem sameName_iff {a b : String} : sameName a b = true ↔ asciiLower a = asciiLower b :=
  beq_iff_eq

theorem sameName_comm (a b : String) : sameName a b = sameName b a := by
  rw [Bool.eq_iff_iff, sameName_iff, sameName_iff, eq_comm]

theorem sameName_congr {a b : String} (h : sameName a b = true) (c : String) :
    sameName a c = sameName b c := by
  rw [sameName, sameName, sameName_iff.mp h]

theorem sameName_congr_right {a b : String} (h : sameName a b = true) (c : String) :
    sameName c a = sameName c b := by
  rw [sameName_comm, sameName_congr h, sameName_comm]

/-- Only capitals have a small form of their own, and it is a small letter. -/
theorem toLower_cases (c : Char) :
    c.toLower = c ∨ (65 ≤ c.toNat ∧ c.toNat ≤ 90) ∧ c.toLower.toNat = c.toNat + 32 := by
  delta Char.toLower
  split
  · rename_i hupper
    have hfrom : 65 ≤ c.toNat := UInt32.le_iff_toNat_le.mp hupper.1
    have hto : c.toNat ≤ 90 := UInt32.le_iff_toNat_le.mp hupper.2
    have hstep : ('a'.val - 'A'.val).toNat = 32 := by decide
    have hlt : c.toNat + 32 < 2 ^ 32 := by omega
    have hval : (c.val + ('a'.val - 'A'.val)).toNat = c.toNat + 32 := by
      rw [UInt32.toNat_add, hstep]
      exact Nat.mod_eq_of_lt hlt
    exact .inr ⟨⟨hfrom, hto⟩, hval⟩
  · exact .inl rfl

/-- A character before the small letters is the small form of itself only. -/
theorem eq_of_toLower_eq {c d : Char} (h : c.toLower = d) (hd : d.toNat < 97) : c = d := by
  rcases toLower_cases c with hsame | ⟨hupper, hlower⟩
  · exact hsame.symm.trans h
  · rw [h] at hlower
    omega

theorem sameName_refl (a : String) : sameName a a = true := sameName_iff.mpr rfl

theorem map_toLower_of_sameName {a b : String} (h : sameName a b = true) :
    a.toList.map Char.toLower = b.toList.map Char.toLower :=
  String.ofList_injective (sameName_iff.mp h)

/-- A character before the capitals has no case, so texts that differ in case share it. -/
theorem mem_of_sameName {a b : String} (h : sameName a b = true) {d : Char} (hd : d.toNat < 65)
    (hmem : d ∈ a.toList) : d ∈ b.toList := by
  have hlower : d.toLower = d := by
    rcases toLower_cases d with hsame | ⟨hupper, -⟩
    · exact hsame
    · omega
  have hd' : d ∈ b.toList.map Char.toLower := by
    rw [← map_toLower_of_sameName h, ← hlower]
    exact List.mem_map_of_mem hmem
  obtain ⟨c, hc, hcd⟩ := List.mem_map.mp hd'
  exact eq_of_toLower_eq hcd (by omega) ▸ hc

/-- Digits and letters are no blanks. -/
theorem isBlank_of_toNat {c : Char}
    (h : 48 ≤ c.toNat ∧ c.toNat ≤ 57 ∨ 65 ≤ c.toNat ∧ c.toNat ≤ 90 ∨
      97 ≤ c.toNat ∧ c.toNat ≤ 122) : isBlank c = false := by
  simp only [isBlank, Bool.or_eq_false_iff, Bool.and_eq_false_iff, decide_eq_false_iff_not,
    beq_eq_false_iff_ne]
  omega

theorem isBlank_toLower (c : Char) : isBlank c.toLower = isBlank c := by
  rcases toLower_cases c with hsame | ⟨hupper, hlower⟩
  · rw [hsame]
  · rw [isBlank_of_toNat (c := c) (by omega), isBlank_of_toNat (by omega)]

theorem asciiLower_ne {w s : String} {d : Char} (hd : d.toNat < 97) (hs : d ∈ s.toList)
    (hw : d ∉ w.toList) : asciiLower w ≠ s := by
  rintro rfl
  rw [asciiLower, String.toList_ofList] at hs
  obtain ⟨c, hc, hlower⟩ := List.mem_map.mp hs
  exact hw (eq_of_toLower_eq hlower hd ▸ hc)

end Text

theorem CmpOp.sameName_of_read {w : String} {op : CmpOp}
    (hw : ∀ c ∈ w.toList, Token.isWordChar c = true) (h : read w = some op) :
    Text.sameName w op.keyword = true := by
  have hsymbol : ∀ {s : String} (d : Char), d.toNat < 97 → Token.isWordChar d = false →
      d ∈ s.toList → Text.asciiLower w ≠ s := fun d hd hword hs =>
    Text.asciiLower_ne hd hs fun hmem => by rw [hw d hmem] at hword; cases hword
  rw [Text.sameName_iff]
  rw [read] at h
  split at h
  case h_2 | h_3 => exact absurd ‹_› (hsymbol '=' (by decide) (by decide) (by decide))
  case h_5 => exact absurd ‹_› (hsymbol '!' (by decide) (by decide) (by decide))
  case h_7 | h_9 => exact absurd ‹_› (hsymbol '>' (by decide) (by decide) (by decide))
  case h_11 | h_13 => exact absurd ‹_› (hsymbol '<' (by decide) (by decide) (by decide))
  case h_14 => cases h
  all_goals
    cases h
    rename_i hlower
    exact hlower

theorem CmpOp.read_of_sameName {w : String} {op : CmpOp} (h : Text.sameName w op.keyword = true) :
    read w = some op := by
  rw [read, Text.sameName_iff.mp h]
  cases op <;> decide

namespace Schema

variable {α : Type} {schema : Schema α} {name : String} {field : Field α}

theorem field?_some (h : schema.field? name = some field) :
    field ∈ schema.fields ∧ Text.sameName field.name name = true := by
  rw [field?, findField] at h
  have hname := List.find?_some h
  exact ⟨List.mem_of_find?_eq_some h, hname⟩

/-- A field is found under its name if no other field has that name. -/
theorem WellNamed.field?_eq (hschema : schema.WellNamed) (hfield : field ∈ schema.fields)
    (hname : Text.sameName field.name name = true) : schema.field? name = some field := by
  have hdistinct := hschema.distinct
  rw [field?, findField]
  generalize schema.fields = fields at hfield hdistinct
  induction fields with
  | nil => cases hfield
  | cons first fields ih =>
    obtain ⟨hfirst, hdistinct⟩ := List.pairwise_cons.mp hdistinct
    rcases List.mem_cons.mp hfield with rfl | hfield
    · exact List.find?_cons_of_pos hname
    · have hother : Text.sameName first.name name = false := by
        rw [Text.sameName_comm, ← Text.sameName_congr hname, Text.sameName_comm,
          hfirst field hfield]
      rw [List.find?_cons, hother]
      exact ih hfield hdistinct

theorem field?_congr {a b : String} (h : Text.sameName a b = true) :
    schema.field? a = schema.field? b := by
  simp only [field?, findField, Text.sameName_congr_right h]

/-- The field is the first of its name, and the name is not read as a `not`. -/
structure Resolves (schema : Schema α) (field : Field α) : Prop where
  found : schema.field? field.name = some field
  not_negation : Text.sameName field.name "not" = false

theorem WellNamed.resolves (hschema : schema.WellNamed) (hfield : field ∈ schema.fields) :
    schema.Resolves field :=
  ⟨hschema.field?_eq hfield (Text.sameName_refl _), hschema.not_negation field hfield⟩

theorem Resolves.field?_eq (h : schema.Resolves field)
    (hname : Text.sameName field.name name = true) : schema.field? name = some field :=
  (field?_congr hname).symm.trans h.found

theorem Resolves.mem (h : schema.Resolves field) : field ∈ schema.fields :=
  (field?_some h.found).1

end Schema

namespace Token

def IsWord (w : String) : Prop := w.toList ≠ [] ∧ ∀ c ∈ w.toList, isWordChar c = true

instance (w : String) : Decidable (IsWord w) :=
  decidable_of_iff (w.toList ≠ [] ∧ w.toList.all isWordChar = true)
    (and_congr_right' List.all_eq_true)

theorem isWordChar_of_toNat {c : Char}
    (h : 48 ≤ c.toNat ∧ c.toNat ≤ 57 ∨ 65 ≤ c.toNat ∧ c.toNat ≤ 90 ∨
      97 ≤ c.toNat ∧ c.toNat ≤ 122) : isWordChar c = true := by
  have hblank : Text.isBlank c = false := Text.isBlank_of_toNat h
  have hpunctuation : c ∉ punctuation := by
    intro hmem
    have houtside : punctuation.all (fun p => !decide (48 ≤ p.toNat ∧ p.toNat ≤ 57 ∨
        65 ≤ p.toNat ∧ p.toNat ≤ 90 ∨ 97 ≤ p.toNat ∧ p.toNat ≤ 122)) = true := by decide
    have hc := List.all_eq_true.mp houtside c hmem
    rw [decide_eq_true h] at hc
    cases hc
  simp [isWordChar, hblank, hpunctuation]

/-- The case of a letter does not matter for whether it may stand in a word. -/
theorem isWordChar_toLower (c : Char) : isWordChar c.toLower = isWordChar c := by
  rcases Text.toLower_cases c with hsame | ⟨hupper, hlower⟩
  · rw [hsame]
  · rw [isWordChar_of_toNat (c := c) (by omega), isWordChar_of_toNat (by omega)]

theorem IsWord.of_sameName {a b : String} (hb : IsWord b) (h : Text.sameName a b = true) :
    IsWord a := by
  have hlower := Text.map_toLower_of_sameName h
  constructor
  · intro hnil
    rw [hnil] at hlower
    exact hb.1 (List.map_eq_nil_iff.mp hlower.symm)
  · intro c hc
    have hmem : c.toLower ∈ b.toList.map Char.toLower := hlower ▸ List.mem_map_of_mem hc
    obtain ⟨d, hd, hcd⟩ := List.mem_map.mp hmem
    rw [← isWordChar_toLower, ← hcd, isWordChar_toLower]
    exact hb.2 d hd

/-- The tokens stand for texts, so the words among them hold only characters of a word. -/
def Spelled (lexemes : List Lexeme) : Prop := ∀ l ∈ lexemes, ∃ s, Spells s l.token

theorem Spelled.of_append {front rest : List Lexeme} (h : Spelled (front ++ rest)) :
    Spelled rest := fun l hl => h l (List.mem_append_right front hl)

theorem Spelled.tail {l : Lexeme} {rest : List Lexeme} (h : Spelled (l :: rest)) :
    Spelled rest := fun l' hl' => h l' (List.mem_cons_of_mem l hl')

theorem Spells.isWord {s : List Char} {w : String} (h : Spells s (.word w)) : IsWord w := by
  cases h with
  | word hne hword =>
    rw [IsWord, String.toList_ofList]
    exact ⟨hne, hword⟩

theorem Splits.spells {s : List Char} {ts : List Token} (h : Splits s ts) :
    ∀ t ∈ ts, ∃ s, Spells s t := by
  induction h with
  | nil => exact List.forall_mem_nil _
  | blank _ _ ih => exact ih
  | token hs _ _ ih => exact List.forall_mem_cons.mpr ⟨⟨_, hs⟩, ih⟩

theorem spelled_of_scan {s : List Char} {lexemes : List Lexeme} (h : scan s = .ok lexemes) :
    Spelled lexemes := fun l hl =>
  (scan_splits h).spells l.token (List.mem_map_of_mem hl)

end Token

/-- A text can name the field. -/
structure Schema.Readable {α : Type} (schema : Schema α) (field : Field α) : Prop
    extends Resolves schema field where
  isWord : Token.IsWord field.name

namespace Filter

open Grammar Token

variable {α ι : Type}

theorem relates_of_ofWord {w : String} {r : Relator}
    (hw : ∀ c ∈ w.toList, Token.isWordChar c = true) (h : Relator.ofWord w = some r) :
    Relates (.word w) r := by
  rw [Relator.ofWord] at h
  split at h
  · cases h
    exact .has (Text.sameName_iff.mpr ‹_›)
  · cases h
    exact .oneOf (Text.sameName_iff.mpr ‹_›)
  · obtain ⟨op, hop, rfl⟩ := Option.map_eq_some_iff.mp h
    exact .word op (CmpOp.sameName_of_read hw hop)

theorem isKeyword_iff {name : String} {symbol t : Token} (hsymbol : ∀ w, symbol ≠ .word w) :
    isKeyword name symbol t = true ↔ Keyword name symbol t := by
  constructor
  · intro h
    rw [isKeyword.eq_def] at h
    split at h
    · exact .word h
    · cases (beq_iff_eq.mp h : t = symbol)
      exact .symbol
  · intro h
    cases h with
    | word h => exact h
    | symbol =>
      rw [isKeyword.eq_def]
      split
      · exact absurd rfl (hsymbol _)
      · exact beq_self_eq_true symbol

theorem isOr_iff {t : Token} : isOr t = true ↔ Keyword "or" .bothOr t := isKeyword_iff nofun

theorem isAnd_iff {t : Token} : isAnd t = true ↔ Keyword "and" .bothAnd t := isKeyword_iff nofun

theorem isNot_iff {t : Token} : isNot t = true ↔ Keyword "not" .bang t := isKeyword_iff nofun

/-! ## What is read derives from the grammar -/

/-- What the reader takes derives its result. -/
def Reader.Derives {β : Type} (reader : Reader β) (G : List Token → β → Prop) : Prop :=
  ∀ {lexemes b rest}, Spelled lexemes → reader lexemes = .ok (b, rest) →
    ∃ front, lexemes = front ++ rest ∧ G (front.map Lexeme.token) b

theorem value_derives (field : Field α) (kind : FieldKind) :
    (value field kind).Derives fun ts v => ∃ t, ts = [t] ∧ Means kind t v := by
  intro lexemes v rest _ h
  rw [value.eq_def] at h
  dsimp only at h
  split at h
  · rename_i w text _ _
    refine ⟨[⟨.word w, text⟩], ?_⟩
    split at h
    · cases h
      exact ⟨rfl, _, rfl, .null ‹_›⟩
    · rename_i hnull
      split at h
      · cases h
        exact ⟨rfl, _, rfl, .word (Bool.eq_false_iff.mpr hnull) ‹_›⟩
      · cases h
  · rename_i s text _ _
    split at h
    · cases h
      exact ⟨[⟨.quoted s, text⟩], rfl, _, rfl, .quoted ‹_›⟩
    · cases h
  · cases h

theorem listItems_derives (field : Field α) (n : Nat) :
    (listItems field n).Derives fun ts vs => ∃ us, ts = us ++ [.closeList] ∧
      Values field.kind us vs := by
  induction n with
  | zero =>
    intro lexemes vs rest _ h
    cases h
  | succ n ih =>
    intro lexemes vs rest hspelled h
    rw [listItems] at h
    obtain ⟨⟨v, behind⟩, hfirst, hbehind⟩ := exists_of_bind_ok h
    obtain ⟨front, rfl, t, ht, hv⟩ := value_derives field field.kind hspelled hfirst
    dsimp only at hbehind
    split at hbehind
    · rename_i text _
      obtain ⟨⟨others, _⟩, hothers, hpure⟩ := exists_of_bind_ok hbehind
      cases hpure
      obtain ⟨items, rfl, us, hus, hvs⟩ :=
        ih hspelled.of_append.tail hothers
      refine ⟨front ++ ⟨.comma, text⟩ :: items, by simp, t :: .comma :: us, ?_, .more hv hvs⟩
      simp [ht, hus]
    · rename_i text _
      cases hbehind
      refine ⟨front ++ [⟨.closeList, text⟩], by simp, [t], ?_, .one hv⟩
      simp [ht]
    · cases hbehind

theorem list_derives (field : Field α) :
    (list field).Derives fun ts vs => ∃ us, ts = .openList :: (us ++ [.closeList]) ∧
      Items field.kind us vs := by
  intro lexemes vs rest hspelled h
  rw [list.eq_def] at h
  split at h
  · rename_i text₁ text₂ _
    cases h
    exact ⟨[⟨.openList, text₁⟩, ⟨.closeList, text₂⟩], rfl, [], rfl, .none⟩
  · rename_i text behind _
    obtain ⟨front, rfl, us, hus, hvs⟩ :=
      listItems_derives field _ hspelled.tail h
    exact ⟨⟨.openList, text⟩ :: front, rfl, us, congrArg (Token.openList :: ·) hus, .some hvs⟩
  · cases h

theorem relator_derives (field : Field α) :
    (relator field).Derives fun ts r => ∃ t, ts = [t] ∧ Relates t r := by
  intro lexemes r rest hspelled h
  rw [relator.eq_def] at h
  split at h
  · rename_i op text _
    cases h
    exact ⟨[⟨.op op, text⟩], rfl, _, rfl, .symbol op⟩
  · rename_i w text _
    obtain ⟨s, hs⟩ := hspelled _ List.mem_cons_self
    split at h
    · cases h
      exact ⟨[⟨.word w, text⟩], rfl, _, rfl, relates_of_ofWord hs.isWord.2 ‹_›⟩
    · cases h
  · cases h

/-- Tokens that derive `left` are continued by what is read of a chain. -/
theorem chainFrom_derives {G K : List Token → Filter α ι → Prop} {operand : Reader (Filter α ι)}
    {isSeparator : Token → Bool} {join : Filter α ι → Filter α ι → Filter α ι}
    (hoperand : operand.Derives G)
    (hjoin : ∀ {ts us t a b}, K ts a → isSeparator t = true → G us b →
      K (ts ++ t :: us) (join a b))
    {n : Nat} {left a : Filter α ι} {ts : List Token} {lexemes rest : List Lexeme}
    (hspelled : Spelled lexemes) (hleft : K ts left)
    (h : chainFrom operand isSeparator join n left lexemes = .ok (a, rest)) :
    ∃ front, lexemes = front ++ rest ∧ K (ts ++ front.map Lexeme.token) a := by
  fun_induction chainFrom operand isSeparator join n left lexemes generalizing ts with
  | case1 | case2 | case4 =>
    cases h
    exact ⟨[], rfl, by simpa using hleft⟩
  | case3 n left l lexemes hseparator ih =>
    obtain ⟨⟨right, behind⟩, hright, h⟩ := exists_of_bind_ok h
    have hlexemes : Spelled lexemes := hspelled.tail
    obtain ⟨us, hus, hG⟩ := hoperand hlexemes hright
    rw [hus] at hlexemes
    obtain ⟨vs, hvs, hK⟩ := ih _ _ hlexemes.of_append (hjoin hleft hseparator hG) h
    refine ⟨l :: us ++ vs, ?_, ?_⟩
    · rw [hus, hvs, List.cons_append, List.cons_append, List.append_assoc]
    · simpa using hK

theorem chain_derives {G K : List Token → Filter α ι → Prop} {operand : Reader (Filter α ι)}
    {isSeparator : Token → Bool} {join : Filter α ι → Filter α ι → Filter α ι}
    (hoperand : operand.Derives G) (hfirst : ∀ {ts a}, G ts a → K ts a)
    (hjoin : ∀ {ts us t a b}, K ts a → isSeparator t = true → G us b →
      K (ts ++ t :: us) (join a b)) :
    (chain operand isSeparator join).Derives K := by
  intro lexemes a rest hspelled h
  obtain ⟨⟨first, behind⟩, hread, hchain⟩ := exists_of_bind_ok h
  obtain ⟨us, rfl, hG⟩ := hoperand hspelled hread
  obtain ⟨vs, rfl, hK⟩ := chainFrom_derives hoperand hjoin hspelled.of_append (hfirst hG) hchain
  exact ⟨us ++ vs, (List.append_assoc ..).symm, by rwa [List.map_append]⟩

variable [Identity ι] [Resource α ι]

/-- The fields of the filter are those that their own names lead to. -/
def ResolvedFields (f : Filter α ι) : Prop :=
  ∀ field ∈ f.fields, (Resource.schema (α := α)).Resolves field

def ReadableFields (f : Filter α ι) : Prop :=
  ∀ field ∈ f.fields, (Resource.schema (α := α)).Readable field

theorem ReadableFields.resolved {f : Filter α ι} (h : ReadableFields f) : f.ResolvedFields :=
  fun field hfield => (h field hfield).toResolves

theorem ReadableFields.join {a b : Filter α ι} (ha : ReadableFields a) (hb : ReadableFields b) :
    ReadableFields (.and a b) ∧ ReadableFields (.or a b) :=
  ⟨List.forall_mem_append.mpr ⟨ha, hb⟩, List.forall_mem_append.mpr ⟨ha, hb⟩⟩

/-- The tokens stand for the filter, whose fields are readable. -/
def Readably (G : List Token → Filter α ι → Prop) (ts : List Token) (f : Filter α ι) : Prop :=
  G ts f ∧ ReadableFields f

theorem readable_of_read {w : String} {field : Field α} (hspelled : ∃ s, Spells s (.word w))
    (hnot : isNot (.word w) = false)
    (hfield : (Resource.schema (α := α)).field? w = some field) :
    (Resource.schema (α := α)).Readable field := by
  have hname : Text.sameName field.name w = true := (Schema.field?_some hfield).2
  obtain ⟨s, hs⟩ := hspelled
  refine ⟨⟨(Schema.field?_congr hname).trans hfield, ?_⟩, hs.isWord.of_sameName hname⟩
  rw [Text.sameName_congr hname]
  exact hnot

theorem comparison_derives {name : Token} {field : Field α} (hname : Names name field)
    (hfield : (Resource.schema (α := α)).Readable field) :
    (comparison field : Reader (Filter α ι)).Derives fun ts =>
      Readably Comparison (name :: ts) := by
  intro lexemes f rest hspelled h
  obtain ⟨⟨r, behind⟩, hread, hbehind⟩ := exists_of_bind_ok h
  obtain ⟨front, rfl, t, ht, hrelator⟩ := relator_derives field hspelled hread
  have hspelled := hspelled.of_append
  cases r with
  | cmp op =>
    dsimp only at hbehind
    split at hbehind
    · cases hbehind
    · rename_i hkind
      obtain ⟨⟨v, tail⟩, hv, hnull⟩ := exists_of_bind_ok hbehind
      obtain ⟨literal, rfl, l, hl, hmeans⟩ := value_derives field field.kind hspelled hv
      dsimp only at hnull
      split at hnull
      · cases hnull
      · rename_i hadmits
        cases hnull
        refine ⟨front ++ literal, (List.append_assoc ..).symm, ?_,
          List.forall_mem_singleton.mpr hfield⟩
        rw [List.map_append, ht, hl]
        refine .cmp hname hrelator (Bool.eq_false_iff.mpr hkind) hmeans ?_
        rintro rfl
        simpa [Value.isNull] using hadmits
  | has =>
    dsimp only at hbehind
    split at hbehind
    · rename_i hkind
      obtain ⟨⟨v, tail⟩, hv, hpure⟩ := exists_of_bind_ok hbehind
      obtain ⟨literal, rfl, l, hl, hmeans⟩ := value_derives field field.kind.element hspelled hv
      cases hpure
      refine ⟨front ++ literal, (List.append_assoc ..).symm, ?_,
        List.forall_mem_singleton.mpr hfield⟩
      rw [List.map_append, ht, hl]
      exact .has hname hrelator hkind hmeans
    · cases hbehind
  | oneOf =>
    dsimp only at hbehind
    split at hbehind
    · cases hbehind
    · rename_i hkind
      obtain ⟨⟨vs, tail⟩, hvs, hpure⟩ := exists_of_bind_ok hbehind
      obtain ⟨items, rfl, us, hus, hvalues⟩ := list_derives field hspelled hvs
      cases hpure
      refine ⟨front ++ items, (List.append_assoc ..).symm, ?_,
        List.forall_mem_singleton.mpr hfield⟩
      rw [List.map_append, ht, hus]
      exact .oneOf hname hrelator (Bool.eq_false_iff.mpr hkind) hvalues

theorem primary_derives {l : Lexeme} {lexemes rest : List Lexeme} {f : Filter α ι}
    (hspelled : Spelled (l :: lexemes)) (hnot : isNot l.token = false)
    (h : primary (l :: lexemes) = .ok (f, rest)) :
    ∃ front, l :: lexemes = front ++ rest ∧
      Readably Comparison (front.map Lexeme.token) f := by
  rw [primary.eq_def] at h
  split at h
  · rename_i name text behind heq
    obtain ⟨rfl, rfl⟩ := List.cons.inj heq
    split at h
    · rename_i field hfield
      have hname : Names (.word name) field :=
        .word (Schema.field?_some hfield).1 (Schema.field?_some hfield).2
      have hreadable : (Resource.schema (α := α)).Readable field :=
        readable_of_read (hspelled _ List.mem_cons_self) hnot hfield
      obtain ⟨front, rfl, hf⟩ :=
        comparison_derives hname hreadable hspelled.tail h
      exact ⟨⟨.word name, text⟩ :: front, rfl, hf⟩
    · cases h
  · cases h

theorem expression_derives {n : Nat} {operand : Reader (Filter α ι)}
    (h : operand.Derives (Readably (Operand n))) :
    (expression operand).Derives (Readably (Disjunction n)) :=
  chain_derives
    (chain_derives (K := Readably (Conjunction n)) h
      (fun ⟨hfirst, hfields⟩ => ⟨.operand hfirst, hfields⟩)
      fun hleft ht hright => ⟨.and hleft.1 (isAnd_iff.mp ht) hright.1, (hleft.2.join hright.2).1⟩)
    (fun ⟨hfirst, hfields⟩ => ⟨.conjunction hfirst, hfields⟩)
    fun hleft ht hright => ⟨.or hleft.1 (isOr_iff.mp ht) hright.1, (hleft.2.join hright.2).2⟩

theorem operand_derives (depth : Nat) :
    (operand depth : Reader (Filter α ι)).Derives (Readably (Operand depth)) := by
  have hprimary : ∀ {n l lexemes a rest}, Spelled (l :: lexemes) → ¬isNot l.token = true →
      (primary : Reader (Filter α ι)) (l :: lexemes) = .ok (a, rest) →
      ∃ front, l :: lexemes = front ++ rest ∧
        Readably (Operand n) (front.map Lexeme.token) a := by
    intro n l lexemes a rest hspelled hnot h
    obtain ⟨front, hfront, hcomparison, hfields⟩ :=
      primary_derives hspelled (Bool.eq_false_iff.mpr hnot) h
    exact ⟨front, hfront, .comparison hcomparison, hfields⟩
  induction depth with
  | zero =>
    intro lexemes a rest hspelled h
    cases lexemes with
    | nil => cases h
    | cons l lexemes =>
      rw [operand] at h
      split at h
      · cases h
      · rename_i hnot
        split at h
        · cases h
        · exact hprimary hspelled hnot h
  | succ depth ih =>
    intro lexemes a rest hspelled h
    cases lexemes with
    | nil => cases h
    | cons l lexemes =>
      have hlexemes : Spelled lexemes := hspelled.tail
      rw [operand] at h
      split at h
      · rename_i hnot
        obtain ⟨⟨b, tail⟩, hb, hpure⟩ := exists_of_bind_ok h
        obtain ⟨front, rfl, hfront, hfields⟩ := ih hlexemes hb
        cases hpure
        exact ⟨l :: front, rfl, .not (isNot_iff.mp hnot) hfront, hfields⟩
      · rename_i hnot
        split at h
        · rename_i hopen
          obtain ⟨⟨b, behind⟩, hb, hclose⟩ := exists_of_bind_ok h
          obtain ⟨front, rfl, hfront, hfields⟩ := expression_derives ih hlexemes hb
          dsimp only at hclose
          split at hclose
          · rename_i text _
            cases hclose
            refine ⟨l :: (front ++ [⟨.closeParen, text⟩]), by simp, ?_, hfields⟩
            rw [List.map_cons, List.map_append, hopen]
            exact .parens hfront
          · cases hclose
        · exact hprimary hspelled hnot h

theorem ofLexemes_derives {lexemes : List Lexeme} {f : Filter α ι} (hspelled : Spelled lexemes)
    (h : ofLexemes lexemes = .ok f) :
    Readably (Disjunction maxDepth) (lexemes.map Lexeme.token) f := by
  rw [ofLexemes.eq_def] at h
  split at h
  · cases h
  · obtain ⟨⟨a, rest⟩, ha, hend⟩ := exists_of_bind_ok h
    obtain ⟨front, rfl, hfront, hfields⟩ :=
      expression_derives (operand_derives maxDepth) hspelled ha
    dsimp only at hend
    split at hend
    · cases hend
      rw [List.append_nil]
      exact ⟨hfront, hfields⟩
    · cases hend

end Filter
end Repertory
