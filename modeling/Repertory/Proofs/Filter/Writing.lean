import Mathlib.Data.List.Forall2
import Repertory.Proofs.Filter.Derived

/-!
# Writing filter text

Two texts that split into tokens also do so one behind the other, if the second begins with a
character that no token of the first can take (`Splits.append`). So a text is written piece by
piece: what each piece stands for (`Writes`) is put together as the grammar puts it together.

Any text can be a literal. In quotes, with a backslash before every backslash and before every quote
of the kind that encloses it (`Token.enquote`), it is read as it was (`takesEveryText`).
-/

namespace Repertory
namespace Token

/-! ## Texts behind one another -/

/-- The text does not go on with a token that stands before it. -/
def Parted (rest : List Char) : Prop :=
  ∀ c ∈ rest.head?, isWordChar c = false ∧ c ≠ '='

theorem parted_cons {c : Char} (h : isWordChar c = false ∧ c ≠ '=') (rest : List Char) :
    Parted (c :: rest) := by
  intro d hd
  cases hd
  exact h

theorem readOperator_append {s tail rest : List Char} {extended plain t : Token}
    (h : readOperator s extended plain = (t, tail)) (hrest : Parted rest) :
    readOperator (s ++ rest) extended plain = (t, tail ++ rest) := by
  rcases readOperator_cases s extended plain with ⟨r, rfl, hread⟩ | ⟨hnext, hread⟩
  · cases hread.symm.trans h
    rfl
  · cases hread.symm.trans h
    rcases readOperator_cases (s ++ rest) extended plain with ⟨r, heq, -⟩ | ⟨-, hread⟩
    · cases s with
      | nil =>
        rw [List.nil_append] at heq
        exact absurd rfl (hrest '=' (heq ▸ rfl)).2
      | cons c s =>
        obtain ⟨rfl, -⟩ := List.cons.inj heq
        exact absurd rfl (hnext s)
    · exact hread

theorem takeWhile_append_of_head?_eq_false {p : Char → Bool} {rest : List Char}
    (hrest : ∀ c ∈ rest.head?, p c = false) (s : List Char) :
    (s ++ rest).takeWhile p = s.takeWhile p ∧ (s ++ rest).dropWhile p = s.dropWhile p ++ rest := by
  induction s with
  | nil =>
    cases rest with
    | nil => exact ⟨rfl, rfl⟩
    | cons c rest => simp [hrest c rfl]
  | cons c s ih =>
    by_cases hc : p c = true
    · simp [hc, ih]
    · simp [hc]

/-- A token that was read at the front of a text is read in front of more text as well. -/
theorem read_append {c : Char} {s tail rest : List Char} {t : Token}
    (h : read c s = .ok (t, tail)) (hrest : Parted rest) :
    read c (s ++ rest) = .ok (t, tail ++ rest) := by
  unfold read at h ⊢
  split at h
  case h_6 | h_7 =>
    split at h
    · rename_i hquoted
      cases h
      obtain ⟨front, rfl, hfront⟩ := readQuoted_quotes hquoted
      rw [List.append_assoc, hfront.read (by decide)]
    · cases h
  case h_8 | h_9 | h_10 | h_11 =>
    exact congrArg Except.ok (readOperator_append (Except.ok.inj h) hrest)
  case h_12 | h_13 =>
    obtain ⟨rfl, rfl⟩ := readDoubled_ok h
    rfl
  case h_14 =>
    cases h
    obtain ⟨htake, hdrop⟩ :=
      takeWhile_append_of_head?_eq_false (p := isWordChar) (fun d hd => (hrest d hd).1) s
    rw [htake, hdrop]
  all_goals
    cases h
    rfl

theorem Splits.of_read {c : Char} {s tail : List Char} {t : Token} {ts : List Token}
    (hblank : Text.isBlank c = false) (hread : read c s = .ok (t, tail)) (h : Splits tail ts) :
    Splits (c :: s) (t :: ts) := by
  obtain ⟨front, htext, hfront, hlongest⟩ := read_longest hblank hread
  rw [htext]
  exact .token hfront hlongest h

theorem Splits.append {s rest : List Char} {ts us : List Token} (h : Splits s ts)
    (hrest : Splits rest us) (hparted : Parted rest) : Splits (s ++ rest) (ts ++ us) := by
  induction h with
  | nil => exact hrest
  | blank hblank _ ih => exact .blank hblank ih
  | @token s tail t ts hs hlongest _ ih =>
    obtain ⟨c, s, rfl⟩ := List.exists_cons_of_ne_nil hs.ne_nil
    have hread : read c (s ++ tail) = .ok (t, tail) := hs.read hlongest rfl
    rw [List.append_assoc, List.cons_append]
    refine .of_read hs.not_blank ?_ ih
    rw [← List.append_assoc]
    exact read_append hread hparted

theorem Spells.splits {s : List Char} {t : Token} (h : Spells s t) : Splits s [t] := by
  have hlongest : Longest s [] := by
    intro s' t' _ hs'
    rw [List.append_nil] at hs'
    exact hs'.length_le
  have hsplits := Splits.token h hlongest .nil
  rwa [List.append_nil] at hsplits

theorem IsWord.splits {w : String} (h : IsWord w) : Splits w.toList [word w] := by
  have hspells := Spells.word h.1 h.2
  rw [String.ofList_toList] at hspells
  exact hspells.splits

theorem IsWord.splits_append {w : String} (hw : IsWord w) {s : List Char} {ts : List Token}
    (h : Splits s ts) : Splits (w.toList ++ ' ' :: s) (word w :: ts) :=
  hw.splits.append (.blank rfl h) (parted_cons (by decide) s)

/-! ## Quoting -/

def escape (quote c : Char) : List Char :=
  if c = '\\' ∨ c = quote then ['\\', c] else [c]

def enquote (quote : Char) (s : String) : String :=
  String.ofList (quote :: (s.toList.flatMap (escape quote) ++ [quote]))

theorem quotes_escape {quote : Char} (hquote : quote = '"' ∨ quote = '\'') (s : List Char) :
    Quotes quote (s.flatMap (escape quote) ++ [quote]) s := by
  induction s with
  | nil => exact .close
  | cons c s ih =>
    rw [List.flatMap_cons, List.append_assoc, escape]
    split
    · rename_i hc
      -- A backslash changes only an `n` and a `t`.
      have hself : unescape c = c := by
        rcases hc with rfl | rfl
        · decide
        · rcases hquote with rfl | rfl <;> decide
      have hescaped := ih.escaped c
      rwa [hself] at hescaped
    · rename_i hc
      rw [not_or] at hc
      exact ih.plain hc.1 hc.2

theorem splits_enquote {quote : Char} (hquote : quote = '"' ∨ quote = '\'') (s : String) :
    Splits (enquote quote s).toList [quoted s] := by
  have hspells := Spells.quoted hquote (quotes_escape hquote s.toList)
  rw [String.ofList_toList] at hspells
  rw [enquote, String.toList_ofList]
  exact hspells.splits

end Token

namespace Grammar

open Token Repertory.Filter

variable {α ι β γ : Type}

/-! ## Literals and lists -/

/-- The text splits into tokens that stand for `b`. -/
def Writes (G : List Token → β → Prop) (s : List Char) (b : β) : Prop :=
  ∃ ts, Splits s ts ∧ G ts b

/-- A single token that stands for a value. -/
def Literal (kind : FieldKind) (ts : List Token) (v : Value) : Prop :=
  ∃ t, ts = [t] ∧ Means kind t v

section

variable {kind : FieldKind} {s rest : List Char} {v : Value} {vs : List Value}

section

variable {G : List Token → β → Prop} {H : List Token → γ → Prop} {b : β} {c : γ}

theorem Writes.imp (h : Writes G s b) (himp : ∀ {ts}, G ts b → H ts c) : Writes H s c := by
  obtain ⟨ts, hs, hG⟩ := h
  exact ⟨ts, hs, himp hG⟩

theorem Writes.blank (h : Writes G s b) : Writes G (' ' :: s) b := by
  obtain ⟨ts, hs, hG⟩ := h
  exact ⟨ts, .blank rfl hs, hG⟩

end

theorem Writes.values_one (h : Writes (Literal kind) s v) : Writes (Values kind) s [v] :=
  h.imp fun ⟨_, hts, ht⟩ => hts ▸ .one ht

theorem Writes.values_more (h : Writes (Literal kind) s v) (hrest : Writes (Values kind) rest vs) :
    Writes (Values kind) (s ++ ',' :: rest) (v :: vs) := by
  obtain ⟨_, hs, t, rfl, ht⟩ := h
  obtain ⟨ts, hts, hvs⟩ := hrest
  have hcomma : Splits (',' :: rest) (comma :: ts) := .of_read rfl rfl hts
  exact ⟨t :: comma :: ts, hs.append hcomma (parted_cons (by decide) rest), .more ht hvs⟩

theorem writes_items_nil : Writes (Items kind) [] [] := ⟨[], .nil, .none⟩

theorem Writes.items (h : Writes (Values kind) s vs) : Writes (Items kind) s vs := h.imp .some

theorem writes_null : Writes (Literal kind) "null".toList .null :=
  have hnull : IsWord "null" := by decide
  ⟨_, hnull.splits, _, rfl, .null rfl⟩

theorem writes_word {w : String} (hw : IsWord w) (hnull : Text.sameName w "null" = false)
    (hliteral : kind.literal w = some v) : Writes (Literal kind) w.toList v :=
  ⟨_, hw.splits, _, rfl, .word hnull hliteral⟩

theorem writes_enquote {quote : Char} (hquote : quote = '"' ∨ quote = '\'') (text : String) :
    Writes (Literal .text) (enquote quote text).toList (.text text) :=
  ⟨_, splits_enquote hquote text, _, rfl, .quoted rfl⟩

theorem Writes.values_intercalate {first : String} {texts : List String}
    (hfirst : Writes (Literal kind) first.toList v)
    (h : List.Forall₂ (fun text v => Writes (Literal kind) text.toList v) texts vs) :
    Writes (Values kind) (",".intercalate (first :: texts)).toList (v :: vs) := by
  rw [String.toList_intercalate]
  induction h generalizing first v with
  | nil => simpa using hfirst.values_one
  | cons hnext _ ih =>
    rw [List.map_cons, List.map_cons, List.intercalate_cons_cons, List.append_assoc]
    exact hfirst.values_more (ih hnext)

/-- Literals with commas between them are the items of a list. -/
theorem writes_intercalate {texts : List String}
    (h : List.Forall₂ (fun text v => Writes (Literal kind) text.toList v) texts vs) :
    Writes (Items kind) (",".intercalate texts).toList vs := by
  cases h with
  | nil => exact writes_items_nil
  | cons hfirst hrest => exact (hfirst.values_intercalate hrest).items

end

/-! ## Comparisons -/

section

variable [Identity ι] [Resource α ι] {field : Field α} {s : List Char} {v : Value}

theorem names_of_readable (hfield : (Resource.schema (α := α)).Readable field) :
    Names (.word field.name) field :=
  .word hfield.mem (Text.sameName_refl _)

theorem splits_name (hfield : (Resource.schema (α := α)).Readable field) {relator : String}
    (hrelator : IsWord relator) {ts : List Token} (h : Splits s ts) :
    Splits ((field.name ++ " " ++ relator ++ " ").toList ++ s)
      (word field.name :: word relator :: ts) := by
  have hname : Splits (field.name.toList ++ ' ' :: (relator.toList ++ ' ' :: s))
      (word field.name :: word relator :: ts) :=
    hfield.isWord.splits_append (hrelator.splits_append h)
  simpa [String.toList_append] using hname

theorem Writes.cmp (h : Writes (Literal field.kind) s v)
    (hfield : (Resource.schema (α := α)).Readable field) (hkind : field.kind.isList = false)
    {op : CmpOp} (hnull : v = .null → op.admitsNull = true) :
    Writes Comparison ((field.name ++ " " ++ op.keyword ++ " ").toList ++ s)
      (.cmp op field v : Filter α ι) := by
  obtain ⟨_, hs, t, rfl, ht⟩ := h
  have hrelator : IsWord op.keyword := by cases op <;> decide
  exact ⟨_, splits_name hfield hrelator hs,
    .cmp (names_of_readable hfield) (.word op (Text.sameName_refl _)) hkind ht hnull⟩

theorem Writes.has (h : Writes (Literal field.kind.element) s v)
    (hfield : (Resource.schema (α := α)).Readable field) (hkind : field.kind.isList = true) :
    Writes Comparison ((field.name ++ " has ").toList ++ s) (.has field v : Filter α ι) := by
  obtain ⟨_, hs, t, rfl, ht⟩ := h
  have hrelator : IsWord "has" := by decide
  have hsplits := splits_name hfield hrelator hs
  exact ⟨_, by simpa [String.toList_append] using hsplits,
    .has (names_of_readable hfield) (.has rfl) hkind ht⟩

theorem Writes.oneOf {vs : List Value} (h : Writes (Items field.kind) s vs)
    (hfield : (Resource.schema (α := α)).Readable field) (hkind : field.kind.isList = false) :
    Writes Comparison ((field.name ++ " in [").toList ++ (s ++ [']']))
      (.oneOf field vs : Filter α ι) := by
  obtain ⟨ts, hs, hvs⟩ := h
  have hlist : Splits ('[' :: (s ++ [']'])) (openList :: (ts ++ [closeList])) :=
    .of_read rfl rfl (hs.append Spells.closeList.splits (parted_cons (by decide) _))
  have hrelator : IsWord "in" := by decide
  have hsplits := splits_name hfield hrelator hlist
  exact ⟨_, by simpa [String.toList_append] using hsplits,
    .oneOf (names_of_readable hfield) (.oneOf rfl) hkind hvs⟩

/-! ## Connectives -/

variable {s' : List Char} {a b : Filter α ι} {n : Nat}

theorem splits_joined {ts us : List Token} (h : Splits s ts) {w : String} (hw : IsWord w)
    (hbehind : Splits s' us) : Splits (s ++ ' ' :: (w.toList ++ ' ' :: s')) (ts ++ word w :: us) :=
  h.append (.blank rfl (hw.splits_append hbehind)) (parted_cons (by decide) _)

theorem Writes.operand (h : Writes Comparison s a) : Writes (Operand n) s a := h.imp .comparison

theorem Writes.disjunction (h : Writes (Operand n) s a) : Writes (Disjunction n) s a :=
  h.imp fun hts => .conjunction (.operand hts)

theorem Writes.and (ha : Writes (Operand n) s a) (hb : Writes (Operand n) s' b) :
    Writes (Disjunction n) (s ++ " and ".toList ++ s') (.and a b) := by
  obtain ⟨ts, hs, hts⟩ := ha
  obtain ⟨us, hs', hus⟩ := hb
  have hsplits := splits_joined hs (w := "and") (by decide) hs'
  exact ⟨_, by simpa using hsplits, .conjunction (.and (.operand hts) (.word rfl) hus)⟩

theorem Writes.or (ha : Writes (Operand n) s a) (hb : Writes (Operand n) s' b) :
    Writes (Disjunction n) (s ++ " or ".toList ++ s') (.or a b) := by
  obtain ⟨ts, hs, hts⟩ := ha
  obtain ⟨us, hs', hus⟩ := hb
  have hsplits := splits_joined hs (w := "or") (by decide) hs'
  exact ⟨_, by simpa using hsplits,
    .or (.conjunction (.operand hts)) (.word rfl) (.operand hus)⟩

theorem Writes.parens (h : Writes (Disjunction n) s a) :
    Writes (Operand (n + 1)) ('(' :: (s ++ [')'])) a := by
  obtain ⟨ts, hs, hts⟩ := h
  have hclose : Splits (s ++ [')']) (ts ++ [closeParen]) :=
    hs.append Spells.closeParen.splits (parted_cons (by decide) _)
  exact ⟨_, .of_read rfl rfl hclose, .parens hts⟩

theorem Writes.not (h : Writes (Operand n) s a) :
    Writes (Operand (n + 1)) ("not ".toList ++ s) (.not a) := by
  obtain ⟨ts, hs, hts⟩ := h
  have hnot : IsWord "not" := by decide
  have hsplits := hnot.splits_append hs
  exact ⟨_, by simpa using hsplits, .not (.word rfl) hts⟩

theorem Writes.parse {text : String} {f : Filter α ι}
    (h : Writes (Disjunction maxDepth) text.toList f) (hfields : f.ResolvedFields) :
    Filter.parse text = .ok f := by
  obtain ⟨ts, hs, hts⟩ := h
  exact parse_of_disjunction hs hts hfields

end

end Grammar

/-! ## Any text as a literal -/

namespace Filter

open Grammar Token

variable {α ι : Type} [Identity ι] [Resource α ι]

/-- Whatever the text is, in quotes of either kind it is the literal of a comparison with the field,
and an item of a list among any other items. -/
def TakesEveryText (field : Field α) : Prop :=
  ∀ quote : Char, quote = '"' ∨ quote = '\'' → ∀ s : String,
    parse (field.name ++ " eq " ++ enquote quote s) = .ok (.cmp .eq field (.text s)) ∧
      ∀ (before behind : List String) (vs ws : List Value),
        List.Forall₂ (fun text v => Writes (Literal .text) text.toList v) before vs →
        List.Forall₂ (fun text v => Writes (Literal .text) text.toList v) behind ws →
        parse (field.name ++ " in [" ++ ",".intercalate (before ++ enquote quote s :: behind) ++
            "]") = .ok (.oneOf field (vs ++ .text s :: ws))

theorem takesEveryText {field : Field α} (hfield : (Resource.schema (α := α)).Readable field)
    (hkind : field.kind = .text) : TakesEveryText field := by
  intro quote hquote s
  have hfields : ∀ f : Filter α ι, f.fields = [field] → f.ResolvedFields := by
    intro f hf
    rw [ResolvedFields, hf]
    exact List.forall_mem_singleton.mpr hfield.toResolves
  have hliteral : Writes (Literal .text) (enquote quote s).toList (.text s) :=
    writes_enquote hquote s
  have hscalar : field.kind.isList = false := by rw [hkind]; rfl
  constructor
  · rw [← hkind] at hliteral
    have hcmp : Writes Comparison _ (.cmp .eq field (.text s) : Filter α ι) :=
      hliteral.cmp hfield hscalar nofun
    refine Writes.parse (Writes.operand ?_).disjunction (hfields _ rfl)
    simpa [String.toList_append, CmpOp.keyword] using hcmp
  · intro before behind vs ws hbefore hbehind
    have hitems := writes_intercalate (List.rel_append hbefore (.cons hliteral hbehind))
    rw [← hkind] at hitems
    have hlist : Writes Comparison _ (.oneOf field (vs ++ .text s :: ws) : Filter α ι) :=
      hitems.oneOf hfield hscalar
    refine Writes.parse (Writes.operand ?_).disjunction (hfields _ rfl)
    simpa [String.toList_append] using hlist

end Filter
end Repertory
