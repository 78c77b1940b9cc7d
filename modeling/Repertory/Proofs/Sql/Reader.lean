import Repertory.Proofs.Sql.Symbol

/-!
# Reading statements of SQL

The grammar, loosest binding first, as SQL has it: a comparison binds tighter than `not`, `not`
tighter than `and`, and `and` tighter than `or`.

    disjunction = conjunction, { "or", conjunction } ;
    conjunction = negation, { "and", negation } ;
    negation    = "not", negation | "(", disjunction, ")" | predicate ;
    predicate   = operand, operator, ( operand | "any", "(", operand, ")" )
                | operand, "is", [ "not" ], "null"
                | operand, "in", "(", operand, { ",", operand }, ")"
                | operand, "like", operand, [ "escape", text ] ;
    operand     = primary, { "||", primary } ;

Readers take symbols from the front. They recurse on a budget for what stands in parentheses or
behind a `not`, for which the number of symbols is enough.
-/

namespace Repertory
namespace Sql

inductive Operand where
  | column (name : String)
  | value (v : Value)
  | number (n : Nat)
  | lower (a : Operand)
  | md5 (a : Operand)
  /-- The operand as a text. -/
  | castText (a : Operand)
  | concat (a b : Operand)
  deriving DecidableEq

inductive Predicate where
  | and (a b : Predicate)
  | or (a b : Predicate)
  | not (a : Predicate)
  | compare (a : Operand) (op : CmpOp) (b : Operand)
  /-- The operand compares so with an element of the collection `b`. -/
  | compareAny (a : Operand) (op : CmpOp) (b : Operand)
  | isNull (a : Operand)
  | isNotNull (a : Operand)
  | within (a : Operand) (items : List Operand)
  | like (a pattern : Operand) (escape : Option String)

/-- What rows are sorted by; where nulls go may be said. -/
structure SortKey where
  operand : Operand
  descending : Bool
  nullsFirst : Option Bool

inductive SortItem where
  | key (k : SortKey)
  /-- Whether the operand is null. -/
  | nullRank (operand : Operand) (descending : Bool)

structure Reading where
  /-- Whether rows are counted and not selected. -/
  counts : Bool
  table : String
  condition : Option Predicate
  order : List SortKey
  limit : Option Nat

abbrev Reader (β : Type) := List Symbol → Option (β × List Symbol)

/-! ## Chains -/

section

variable {β : Type}

/-- Goes on with what was read for as long as a separator follows. The number bounds the
separators. -/
def chainFrom (item : Reader β) (isSeparator : Symbol → Bool) (join : β → β → β) :
    Nat → β → Reader β
  | 0, left, symbols => some (left, symbols)
  | _ + 1, left, [] => some (left, [])
  | n + 1, left, symbol :: rest =>
    if isSeparator symbol then do
      let (right, rest) ← item rest
      chainFrom item isSeparator join n (join left right) rest
    else some (left, symbol :: rest)

def chain (item : Reader β) (isSeparator : Symbol → Bool) (join : β → β → β) : Reader β :=
  fun symbols => do
    let (left, rest) ← item symbols
    chainFrom item isSeparator join rest.length left rest

end

def closing {β : Type} (item : Reader β) : Reader β := fun symbols => do
  match ← item symbols with
  | (b, .closeParen :: rest) => some (b, rest)
  | _ => none

/-! ## Operands -/

def isConcat : Symbol → Bool
  | .concat => true
  | _ => false

def isComma : Symbol → Bool
  | .comma => true
  | _ => false

def isKey (word : Keyword) : Symbol → Bool
  | .key w => w = word
  | _ => false

def primary (inner : Reader Operand) : Reader Operand
  | .name s :: rest => some (.column s, rest)
  | .value v :: rest => some (.value v, rest)
  | .number n :: rest => some (.number n, rest)
  | .key .LOWER :: .openParen :: rest => (closing inner rest).map fun r => (.lower r.1, r.2)
  | .key .MD5 :: .openParen :: rest => (closing inner rest).map fun r => (.md5 r.1, r.2)
  | .key .CAST :: .openParen :: rest => do
    match ← inner rest with
    | (a, .key .AS :: .key .TEXT :: .closeParen :: rest) => some (.castText a, rest)
    | _ => none
  | _ => none

def operand : Nat → Reader Operand
  | 0 => fun _ => none
  | n + 1 => chain (primary (operand n)) isConcat .concat

def operands (n : Nat) : Reader (List Operand) :=
  chain (fun symbols => (operand n symbols).map fun r => ([r.1], r.2)) isComma (· ++ ·)

/-! ## Conditions -/

/-- The character that makes a pattern character stand for itself where none is named. -/
def Dialect.likeEscape : Dialect → Option String
  | .mysql => some "\\"
  | .postgres => some "\\"
  | .sqlite => none
  | .generic => none

/-- What is said of the operand in front. -/
def remark (dialect : Dialect) (n : Nat) (a : Operand) : Reader Predicate
  | .op op :: .key .ANY :: .openParen :: rest =>
    (closing (operand n) rest).map fun r => (.compareAny a op r.1, r.2)
  | .op op :: rest => (operand n rest).map fun r => (.compare a op r.1, r.2)
  | .key .IS :: .key .NULL :: rest => some (.isNull a, rest)
  | .key .IS :: .key .NOT :: .key .NULL :: rest => some (.isNotNull a, rest)
  | .key .IN :: .openParen :: rest =>
    (closing (operands n) rest).map fun r => (.within a r.1, r.2)
  | .key .LIKE :: rest => do
    match ← operand n rest with
    | (b, .key .ESCAPE :: .text s :: rest) => some (.like a b (some s), rest)
    | (b, rest) => some (.like a b dialect.likeEscape, rest)
  | _ => none

def predicate (dialect : Dialect) (n : Nat) : Reader Predicate := fun symbols => do
  let (a, rest) ← operand n symbols
  remark dialect n a rest

def conjunction (part : Reader Predicate) : Reader Predicate :=
  chain part (isKey .AND) .and

def disjunction (part : Reader Predicate) : Reader Predicate :=
  chain (conjunction part) (isKey .OR) .or

def negation (dialect : Dialect) : Nat → Reader Predicate
  | 0 => fun _ => none
  | n + 1 => fun symbols =>
    match symbols with
    | .key .NOT :: rest => (negation dialect n rest).map fun r => (.not r.1, r.2)
    | .openParen :: rest => closing (disjunction (negation dialect n)) rest
    | symbols => predicate dialect n symbols

def condition (dialect : Dialect) (n : Nat) : Reader Predicate :=
  disjunction (negation dialect n)

/-! ## Statements -/

def direction : Reader Bool
  | .key .ASC :: rest => some (false, rest)
  | .key .DESC :: rest => some (true, rest)
  | rest => some (false, rest)

def nulls : Reader (Option Bool)
  | .key .NULLS :: .key .FIRST :: rest => some (some true, rest)
  | .key .NULLS :: .key .LAST :: rest => some (some false, rest)
  | rest => some (none, rest)

def sortItem (n : Nat) : Reader SortItem := fun symbols => do
  match ← operand n symbols with
  | (a, .key .IS :: .key .NULL :: rest) => do
    let (descending, rest) ← direction rest
    return (.nullRank a descending, rest)
  | (a, rest) => do
    let (descending, rest) ← direction rest
    let (nullsFirst, rest) ← nulls rest
    return (.key ⟨a, descending, nullsFirst⟩, rest)

/-- The keys that items stand for. To sort by whether an operand is null, falling or not, and then
by the operand itself is to sort by the operand with nulls first or last. -/
def SortKey.ofItems : List SortItem → Option (List SortKey)
  | [] => some []
  | .key k :: rest => (ofItems rest).map (k :: ·)
  | .nullRank a nullsFirst :: .key ⟨b, descending, none⟩ :: rest =>
    if a = b then (ofItems rest).map (⟨a, descending, some nullsFirst⟩ :: ·) else none
  | .nullRank _ _ :: _ => none

def sortKeys (n : Nat) : Reader (List SortKey) := fun symbols => do
  let items :=
    chain (fun symbols => (sortItem n symbols).map fun r => ([r.1], r.2)) isComma (· ++ ·)
  let (read, rest) ← items symbols
  return (← SortKey.ofItems read, rest)

def whereClause (dialect : Dialect) (n : Nat) : Reader (Option Predicate)
  | .key .WHERE :: rest => (condition dialect n rest).map fun r => (some r.1, r.2)
  | rest => some (none, rest)

def orderClause (n : Nat) : Reader (List SortKey)
  | .key .ORDER :: .key .BY :: rest => sortKeys n rest
  | rest => some ([], rest)

def limitClause : Reader (Option Nat)
  | .key .LIMIT :: .number n :: rest => some (some n, rest)
  | rest => some (none, rest)

def selection : Reader Bool
  | .key .SELECT :: .star :: rest => some (false, rest)
  | .key .SELECT :: .key .COUNT :: .openParen :: .star :: .closeParen :: rest => some (true, rest)
  | _ => none

def source : Reader String
  | .key .FROM :: .name table :: rest => some (table, rest)
  | _ => none

/-- The whole of a statement. -/
def reading (dialect : Dialect) (symbols : List Symbol) : Option Reading := do
  let n := symbols.length
  let (counts, rest) ← selection symbols
  let (table, rest) ← source rest
  let (condition, rest) ← whereClause dialect n rest
  let (order, rest) ← orderClause n rest
  let (limit, rest) ← limitClause rest
  if rest.isEmpty then some ⟨counts, table, condition, order, limit⟩ else none

/-! ## What follows -/

/-- The next symbol, if there is one, does not go on with what was read. -/
def Stops (goesOn : Symbol → Bool) (rest : List Symbol) : Prop :=
  ∀ symbol ∈ rest.head?, goesOn symbol = false

theorem stops_cons {goesOn : Symbol → Bool} {symbol : Symbol} (h : goesOn symbol = false)
    (rest : List Symbol) : Stops goesOn (symbol :: rest) := by
  intro next hnext
  cases hnext
  exact h

theorem Stops.mono {goesOn goesOn' : Symbol → Bool} {rest : List Symbol} (h : Stops goesOn rest)
    (hless : ∀ symbol, goesOn symbol = false → goesOn' symbol = false) : Stops goesOn' rest :=
  fun symbol hsymbol => hless symbol (h symbol hsymbol)

section

variable {goesOn goesOn' : Symbol → Bool} {rest : List Symbol}

theorem Stops.left (h : Stops (fun symbol => goesOn symbol || goesOn' symbol) rest) :
    Stops goesOn rest :=
  h.mono fun _ hsymbol => (Bool.or_eq_false_iff.mp hsymbol).1

theorem Stops.right (h : Stops (fun symbol => goesOn symbol || goesOn' symbol) rest) :
    Stops goesOn' rest :=
  h.mono fun _ hsymbol => (Bool.or_eq_false_iff.mp hsymbol).2

end

/-- The reader takes these symbols, whatever follows that does not go on with them. -/
def Reads {β : Type} (item : Reader β) (goesOn : Symbol → Bool) (front : List Symbol) (b : β) :
    Prop :=
  ∀ rest, Stops goesOn rest → item (front ++ rest) = some (b, rest)

section

variable {β : Type} {item : Reader β} {goesOn isSeparator : Symbol → Bool} (join : β → β → β)
  {separator : Symbol} {front : List Symbol} {b : β}

theorem chainFrom_stops {rest : List Symbol} (h : Stops isSeparator rest) (n : Nat) (left : β) :
    chainFrom item isSeparator join n left rest = some (left, rest) := by
  cases n with
  | zero => rfl
  | succ n =>
    cases rest with
    | nil => rfl
    | cons symbol rest =>
      have hsymbol : isSeparator symbol = false := h symbol rfl
      rw [chainFrom, hsymbol]
      rfl

/-- The symbols of parts, each behind a separator. -/
def behind (separator : Symbol) (parts : List (List Symbol × β)) : List Symbol :=
  parts.flatMap fun part => separator :: part.1

theorem chainFrom_reads (hseparator : isSeparator separator = true)
    (hgoesOn : goesOn separator = false) {parts : List (List Symbol × β)}
    (h : ∀ part ∈ parts, Reads item goesOn part.1 part.2) {rest : List Symbol}
    (hrest : Stops (fun symbol => goesOn symbol || isSeparator symbol) rest) {n : Nat}
    (hn : parts.length ≤ n) (left : β) :
    chainFrom item isSeparator join n left (behind separator parts ++ rest) =
      some (parts.foldl (fun left part => join left part.2) left, rest) := by
  induction parts generalizing n left with
  | nil => exact chainFrom_stops join hrest.right n left
  | cons part parts ih =>
    obtain ⟨n, rfl⟩ := Nat.exists_eq_add_of_le' (Nat.le_trans (Nat.le_add_left 1 _) hn)
    have hstops : Stops goesOn (behind separator parts ++ rest) := by
      cases parts with
      | nil => exact hrest.left
      | cons next parts => exact stops_cons hgoesOn _
    have hpart := h part List.mem_cons_self (behind separator parts ++ rest) hstops
    have hmore := ih (fun other hother => h other (List.mem_cons_of_mem part hother))
      (Nat.le_of_succ_le_succ hn) (join left part.2)
    rw [behind, List.flatMap_cons, List.cons_append, List.cons_append, chainFrom, hseparator,
      List.append_assoc]
    show (do
      let (right, rest) ← item (part.1 ++ (behind separator parts ++ rest))
      chainFrom item isSeparator join n (join left right) rest) = _
    rw [hpart]
    exact hmore

/-- A chain reads its parts one after the other and joins them to the left. -/
theorem chain_reads (hseparator : isSeparator separator = true)
    (hgoesOn : goesOn separator = false) (hfirst : Reads item goesOn front b)
    {parts : List (List Symbol × β)} (h : ∀ part ∈ parts, Reads item goesOn part.1 part.2) :
    Reads (chain item isSeparator join) (fun symbol => goesOn symbol || isSeparator symbol)
      (front ++ behind separator parts)
      (parts.foldl (fun left part => join left part.2) b) := by
  intro rest hrest
  have hstops : Stops goesOn (behind separator parts ++ rest) := by
    cases parts with
    | nil => exact hrest.left
    | cons next parts => exact stops_cons hgoesOn _
  have hlength : parts.length ≤ (behind separator parts ++ rest).length := by
    rw [List.length_append, behind, List.length_flatMap]
    have hsum : parts.length ≤ (parts.map fun part => (separator :: part.1).length).sum := by
      clear h hstops
      induction parts with
      | nil => exact Nat.le_refl 0
      | cons part parts ih =>
        simp only [List.map_cons, List.sum_cons, List.length_cons] at ih ⊢
        omega
    omega
  rw [chain, List.append_assoc, hfirst _ hstops]
  exact chainFrom_reads join hseparator hgoesOn h hrest hlength b

theorem chain_pair (hseparator : isSeparator separator = true) (hgoesOn : goesOn separator = false)
    {behind : List Symbol} {c : β} (hb : Reads item goesOn front b)
    (hc : Reads item goesOn behind c) :
    Reads (chain item isSeparator join) (fun symbol => goesOn symbol || isSeparator symbol)
      (front ++ separator :: behind) (join b c) := by
  have hparts : ∀ part ∈ [(behind, c)], Reads item goesOn part.1 part.2 := by
    intro part hpart
    obtain rfl := List.mem_singleton.mp hpart
    exact hc
  have hchain := chain_reads join hseparator hgoesOn hb hparts
  rwa [Sql.behind, List.flatMap_singleton] at hchain

/-- A chain of one. -/
theorem chain_single (hfirst : Reads item goesOn front b) :
    Reads (chain item isSeparator join) (fun symbol => goesOn symbol || isSeparator symbol) front
      b := by
  intro rest hrest
  rw [chain, hfirst rest hrest.left]
  exact chainFrom_stops join hrest.right _ b

theorem closing_reads (h : Reads item goesOn front b) (hclose : goesOn .closeParen = false)
    (rest : List Symbol) :
    closing item (front ++ .closeParen :: rest) = some (b, rest) := by
  rw [closing, h _ (stops_cons hclose rest)]
  rfl

end

end Sql
end Repertory
