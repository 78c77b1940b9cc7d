import Repertory.Catalog.Show
import Repertory.Proofs.Action
import Repertory.Proofs.Sql.Phrases

/-!
# Statements read back

What a query asks for is what its statement says (`statements_readBack`). The pieces of a statement
meet where a symbol ends (`Joined`), so its text is read as the symbols of the pieces, one behind
the other. What a filter says does not depend on the dialect (`Predicate.ofFilter`); neither does an
order, though some dialects spell where nulls go as a key of its own (`SortKey.ofItems`).

Each clause is read up to the word that opens the next (`Clause`).
-/

namespace Repertory
namespace Sql

/-! ## Pieces that meet -/

section

variable {dialect : Dialect}

theorem follows_cons {piece : Piece} (h : piece.breaks = true) (rest : List Piece) :
    Follows (piece :: rest) := by
  intro next hnext
  cases hnext
  exact h

theorem follows_nil : Follows [] := nofun

theorem joined_single {piece : Piece} (h : piece.isWhole dialect = true) :
    Joined dialect [piece] :=
  .ended h follows_nil .nil

theorem joined_separated {separator : String} (hopens : (Piece.raw separator).opens dialect = true)
    (hbreaks : (Piece.raw separator).breaks = true) {parts : List (List Piece)}
    (h : ∀ part ∈ parts, Joined dialect part) : Joined dialect (separated separator parts) := by
  induction parts with
  | nil => exact .nil
  | cons part parts ih =>
    have hpart := h part List.mem_cons_self
    have hrest := ih fun other hother => h other (List.mem_cons_of_mem part hother)
    cases parts with
    | nil => exact hpart
    | cons next parts => exact hpart.append (follows_cons hbreaks _) (.opening hopens hrest)

theorem hashedId_joined (dialect : Dialect) (idColumn seed : String) :
    Joined dialect (hashedId idColumn seed) :=
  .opening rfl (.ended rfl (follows_cons rfl _) (.opening rfl (.ended rfl (follows_cons rfl _)
    (joined_single rfl))))

theorem likeTerm_joined (dialect : Dialect) (pattern column : String) :
    Joined dialect (likeTerm dialect pattern column) := by
  have hescape : ∀ rest, Follows rest → Joined dialect rest →
      Joined dialect
        ([.raw "lower(", .name column, .raw ") like ", .value (.text pattern)] ++ rest) :=
    fun rest hfollows hrest =>
      .opening rfl (.ended rfl (follows_cons rfl _) (.opening rfl (.ended rfl hfollows hrest)))
  rw [likeTerm]
  split
  · exact hescape [] follows_nil .nil
  · exact hescape _ (follows_cons rfl _) (joined_single rfl)

theorem joined_around {first last : String} {middle : List Piece}
    (hfirst : (Piece.raw first).opens dialect = true)
    (hlast : (Piece.raw last).isWhole dialect = true) (hbreaks : (Piece.raw last).breaks = true)
    (h : Joined dialect middle) : Joined dialect (.raw first :: (middle ++ [.raw last])) :=
  .opening hfirst (h.append (follows_cons hbreaks []) (joined_single hlast))

theorem Joined.between {word : String} (hopens : (Piece.raw word).opens dialect = true)
    (hbreaks : (Piece.raw word).breaks = true) {front rest : List Piece}
    (hfront : Joined dialect front) (hrest : Joined dialect rest) :
    Joined dialect (front ++ .raw word :: rest) :=
  hfront.append (follows_cons hbreaks rest) (.opening hopens hrest)

theorem Condition.joined (dialect : Dialect) (c : Condition) :
    Joined dialect (c.pieces dialect) := by
  induction c with
  | and a b iha ihb =>
    exact joined_around rfl rfl rfl
      (Joined.between rfl rfl iha ihb)
  | or a b iha ihb =>
    exact joined_around rfl rfl rfl
      (Joined.between rfl rfl iha ihb)
  | not a ih => exact joined_around rfl rfl rfl ih
  | isNull column => exact .ended rfl (follows_cons rfl _) (joined_single rfl)
  | isNotNull column => exact .ended rfl (follows_cons rfl _) (joined_single rfl)
  | compare column op v =>
    have hop : (Piece.raw (" " ++ op.sql ++ " ")).opens dialect = true := by cases op <;> rfl
    have hbreaks : (Piece.raw (" " ++ op.sql ++ " ")).breaks = true := by cases op <;> rfl
    exact .ended rfl (follows_cons hbreaks _) (.opening hop (joined_single rfl))
  | equalsAny v column =>
    exact .ended rfl (follows_cons rfl _)
      (.opening rfl (.ended rfl (follows_cons rfl _) (joined_single rfl)))
  | within column first rest =>
    have hvalues : Joined dialect
        (separated ", " ((first :: rest).map fun v => [Piece.value v])) := by
      refine joined_separated rfl rfl fun part hpart => ?_
      obtain ⟨v, -, rfl⟩ := List.mem_map.mp hpart
      exact joined_single rfl
    exact .ended rfl (follows_cons rfl _) (joined_around rfl rfl rfl hvalues)
  | like first rest pattern =>
    have hterms : Joined dialect
        (separated " or " ((first :: rest).map (likeTerm dialect pattern))) := by
      refine joined_separated rfl rfl fun part hpart => ?_
      obtain ⟨column, -, rfl⟩ := List.mem_map.mp hpart
      exact likeTerm_joined dialect pattern column
    exact joined_around rfl rfl rfl hterms
  | never => exact joined_single rfl
  | hashed idColumn op seed pivot =>
    have hop : (Piece.raw (" " ++ op.sql ++ " md5(")).opens dialect = true := by cases op <;> rfl
    have hbreaks : (Piece.raw (" " ++ op.sql ++ " md5(")).breaks = true := by cases op <;> rfl
    refine (hashedId_joined dialect idColumn seed).append (follows_cons hbreaks _) ?_
    exact .opening hop (.ended rfl (follows_cons rfl _) (.opening rfl (.ended rfl
      (follows_cons rfl _) (joined_single rfl))))

theorem OrderTerm.joined (dialect : Dialect) (term : OrderTerm) : Joined dialect term.pieces := by
  cases term with
  | column c descending nullsFirst =>
    cases descending <;> rcases nullsFirst with _ | _ | _ <;>
      exact .ended rfl (follows_cons rfl _) (joined_single rfl)
  | nullRank c descending =>
    cases descending <;> exact .ended rfl (follows_cons rfl _) (joined_single rfl)
  | hashed idColumn seed descending =>
    have hwhole : (Piece.raw (direction descending)).isWhole dialect = true := by
      cases descending <;> rfl
    have hbreaks : (Piece.raw (direction descending)).breaks = true := by cases descending <;> rfl
    exact (hashedId_joined dialect idColumn seed).append (follows_cons hbreaks _)
      (joined_single hwhole)

end

/-! ## What queries say -/

section

variable {α ι : Type} [Identity ι] [Resource α ι]

/-- The row's id behind a seed, hashed. -/
def Operand.randomKey (α : Type) {ι : Type} [Identity ι] [Resource α ι] (seed : UInt64) : Operand :=
  .hashedId (Resource.schema (α := α)).id.column (Number.unsignedText seed)

/-- The condition that a filter is; none for one that can only be run in memory. -/
def Predicate.ofFilter : Filter α ι → Option Predicate
  | .and a b => do return .and (← ofFilter a) (← ofFilter b)
  | .or a b => do return .or (← ofFilter a) (← ofFilter b)
  | .not a => do return .not (← ofFilter a)
  | .cmp .eq field .null => some (.isNull (.column field.column))
  | .cmp .ne field .null => some (.isNotNull (.column field.column))
  | .cmp op field v => some (.compare (.column field.column) op (.value v))
  | .has field v => some (.compareAny (.value v) .eq (.column field.column))
  | .oneOf _ [] => some (.compare (.number 1) .eq (.number 0))
  | .oneOf field vs => some (.within (.column field.column) (vs.map .value))
  | .contains [] _ => some (.compare (.number 1) .eq (.number 0))
  | .contains (first :: rest) needle =>
    some (rest.foldl (fun left field => .or left (.containing (likePattern needle) field.column))
      (.containing (likePattern needle) first.column))
  | .random seed op pivot =>
    some (.compare (.randomKey α seed) op
      (.hashed (Number.unsignedText seed) (Identity.text pivot)))
  | .satisfies _ => none

def SortKey.ofKey (key : OrderKey α) : SortKey :=
  match key.target with
  | .random seed => ⟨.randomKey α seed, key.descending, none⟩
  | .field field =>
    ⟨.column field.column, key.descending, if field.nullable then some key.nullsFirst else none⟩

def Reading.ofFilter (filter : Option (Filter α ι)) : Option (Option Predicate) :=
  match filter with
  | none => some none
  | some f => (Predicate.ofFilter f).map some

def Reading.ofQuery (table : String) (q : Query α ι) : Option Reading :=
  (ofFilter q.filter).map fun condition =>
    ⟨false, table, condition, (q.order.getD []).map SortKey.ofKey, q.limit⟩

def Reading.ofCount (table : String) (filter : Option (Filter α ι)) : Option Reading :=
  (ofFilter filter).map fun condition => ⟨true, table, condition, [], none⟩

variable {dialect : Dialect}

theorem predicate_ofCmp (field : Field α) (op : CmpOp) (v : Value) :
    Predicate.ofFilter (.cmp op field v : Filter α ι) =
      some (Condition.ofCmp field.column op v).predicate := by
  cases op <;> cases v <;> rfl

/-- The condition that is compiled says what the filter does. -/
theorem predicate_ofFilter {f : Filter α ι} {c : Condition}
    (h : Condition.ofFilter dialect f = .ok c) : Predicate.ofFilter f = some c.predicate := by
  induction f generalizing c with
  | and a b iha ihb =>
    obtain ⟨ca, ha, h⟩ := exists_of_bind_ok h
    obtain ⟨cb, hb, h⟩ := exists_of_bind_ok h
    cases h
    rw [Predicate.ofFilter, iha ha, ihb hb]
    rfl
  | or a b iha ihb =>
    obtain ⟨ca, ha, h⟩ := exists_of_bind_ok h
    obtain ⟨cb, hb, h⟩ := exists_of_bind_ok h
    cases h
    rw [Predicate.ofFilter, iha ha, ihb hb]
    rfl
  | not a ih =>
    obtain ⟨ca, ha, h⟩ := exists_of_bind_ok h
    cases h
    rw [Predicate.ofFilter, ih ha]
    rfl
  | cmp op field v =>
    cases h
    exact predicate_ofCmp field op v
  | has field v =>
    obtain ⟨_, -, h⟩ := exists_of_bind_ok h
    cases h
    rfl
  | oneOf field vs =>
    cases vs <;> cases h <;> rfl
  | contains fields needle =>
    cases fields with
    | nil =>
      cases h
      rfl
    | cons first rest =>
      cases h
      rw [Predicate.ofFilter, Condition.predicate, List.foldl_map]
  | random seed op pivot =>
    obtain ⟨_, -, h⟩ := exists_of_bind_ok h
    cases h
    rfl
  | satisfies p => cases h

/-! ## Orders -/

def OrderTerm.item : OrderTerm → SortItem
  | column c descending nullsFirst => .key ⟨.column c, descending, nullsFirst⟩
  | nullRank c descending => .nullRank (.column c) descending
  | hashed idColumn seed descending => .key ⟨.hashedId idColumn seed, descending, none⟩

theorem symbols_direction (descending : Bool) :
    Piece.symbols dialect (.raw (OrderTerm.direction descending)) =
      [.key (if descending then .DESC else .ASC)] := by
  cases descending <;> rfl

/-- Where it is not said where nulls go, nothing that follows says so. -/
theorem sortItem_key {n : Nat} {a : Operand} {front rest : List Symbol} {descending : Bool}
    (h : Reads (operand n) isConcat front a) (hrest : Stops (isKey .NULLS) rest) :
    sortItem n (front ++ .key (if descending then .DESC else .ASC) :: rest) =
      some (.key ⟨a, descending, none⟩, rest) := by
  have hnulls : nulls rest = some (none, rest) := by
    cases rest with
    | nil => rfl
    | cons symbol rest =>
      have hsymbol : isKey .NULLS symbol = false := hrest symbol rfl
      cases symbol with
      | key word => cases word <;> first | rfl | cases hsymbol
      | _ => rfl
  have hoperand := h (.key (if descending then .DESC else .ASC) :: rest)
    (stops_cons (by cases descending <;> rfl) rest)
  rw [sortItem, hoperand]
  cases descending <;>
  · show ((nulls rest).bind fun found => some (SortItem.key ⟨a, _, found.1⟩, found.2)) = _
    rw [hnulls]
    rfl

theorem sortItem_reads (term : OrderTerm) (n : Nat) :
    Reads (sortItem (n + 3)) (isKey .NULLS) (Piece.symbolsOf dialect term.pieces) term.item := by
  intro rest hrest
  cases term with
  | column c descending nullsFirst =>
    cases nullsFirst with
    | none =>
      have hcolumn : Reads (operand (n + 3)) isConcat [.name c] (.column c) := column_reads c
      have hsymbols : Piece.symbolsOf dialect (OrderTerm.column c descending none).pieces =
          [.name c, .key (if descending then .DESC else .ASC)] := by
        cases descending <;> rfl
      rw [hsymbols]
      exact sortItem_key hcolumn hrest
    | some first => cases descending <;> cases first <;> rfl
  | nullRank c descending => cases descending <;> rfl
  | hashed idColumn seed descending =>
    have hhashed : Reads (operand (n + 3)) isConcat
        (Piece.symbolsOf dialect (hashedId idColumn seed)) (.hashedId idColumn seed) :=
      hashedId_reads dialect idColumn seed
    rw [OrderTerm.pieces, symbolsOf_append, symbolsOf_cons, symbols_direction, List.append_assoc]
    exact sortItem_key hhashed hrest

theorem ofItems_key {key : OrderKey α} {terms : List OrderTerm}
    (h : OrderTerm.ofKey dialect key = .ok terms) (rest : List SortItem) :
    SortKey.ofItems (terms.map OrderTerm.item ++ rest) =
      (SortKey.ofItems rest).map (SortKey.ofKey key :: ·) := by
  obtain ⟨target, descending, nullsFirst⟩ := key
  cases target with
  | random seed =>
    obtain ⟨_, -, h⟩ := exists_of_bind_ok h
    cases h
    rfl
  | field field =>
    have hkey : SortKey.ofKey ⟨.field field, descending, nullsFirst⟩ =
        ⟨.column field.column, descending, if field.nullable then some nullsFirst else none⟩ := rfl
    rw [OrderTerm.ofKey] at h
    dsimp only at h
    split at h
    · rename_i hnullable
      have hnullable : field.nullable = false := by simpa using hnullable
      cases h
      rw [hkey, hnullable]
      rfl
    · rename_i hnullable
      have hnullable : field.nullable = true := by simpa using hnullable
      rw [hkey, hnullable]
      split at h
      · -- Where nulls go is an item of its own, for the same column as the one behind it.
        cases h
        exact if_pos rfl
      · cases h
        rfl

theorem ofItems_order {keys : OrderBy α} {terms : List OrderTerm}
    (h : OrderTerm.ofOrder dialect keys = .ok terms) :
    SortKey.ofItems (terms.map OrderTerm.item) = some (keys.map SortKey.ofKey) := by
  induction keys generalizing terms with
  | nil =>
    cases h
    rfl
  | cons key rest ih =>
    obtain ⟨first, hfirst, h⟩ := exists_of_bind_ok h
    obtain ⟨others, hothers, h⟩ := exists_of_bind_ok h
    cases h
    rw [List.map_append, ofItems_key hfirst, ih hothers]
    rfl

theorem ofOrder_ne_nil {keys : OrderBy α} (hnonempty : keys ≠ []) {terms : List OrderTerm}
    (h : OrderTerm.ofOrder dialect keys = .ok terms) : terms ≠ [] := by
  rintro rfl
  have hitems : some [] = some (keys.map SortKey.ofKey) := ofItems_order h
  exact hnonempty (List.map_eq_nil_iff.mp (Option.some.inj hitems).symm)

/-- The items that `sortKeys` makes keys of. -/
def sortItems (n : Nat) : Reader (List SortItem) :=
  chain (fun symbols => (sortItem n symbols).map fun r => ([r.1], r.2)) isComma (· ++ ·)

theorem sortItems_reads (dialect : Dialect) {terms : List OrderTerm} (hnonempty : terms ≠ [])
    (n : Nat) :
    Reads (sortItems (n + 3)) (fun symbol => isKey .NULLS symbol || isComma symbol)
      (Piece.symbolsOf dialect (separated ", " (terms.map OrderTerm.pieces)))
      (terms.map OrderTerm.item) := by
  cases terms with
  | nil => exact absurd rfl hnonempty
  | cons first others =>
    have hterm : ∀ term ∈ first :: others,
        Reads (fun symbols => (sortItem (n + 3) symbols).map fun r => ([r.1], r.2))
          (isKey .NULLS) (Piece.symbolsOf dialect term.pieces) [term.item] := fun term _ =>
      singleton_reads (sortItem_reads term n)
    have hchain := separated_reads (fun a b => a ++ b)
      (show Piece.symbols dialect (.raw ", ") = [.comma] from rfl)
      (show isComma .comma = true from rfl) rfl hterm
    rwa [foldl_snoc] at hchain

theorem sortItems_joined (dialect : Dialect) (terms : List OrderTerm) :
    Joined dialect (separated ", " (terms.map OrderTerm.pieces)) := by
  refine joined_separated rfl rfl fun part hpart => ?_
  obtain ⟨term, -, rfl⟩ := List.mem_map.mp hpart
  exact term.joined dialect

/-! ## Clauses -/

def whereGoesOn (symbol : Symbol) : Bool := !(isKey .ORDER symbol || isKey .LIMIT symbol)

def orderGoesOn (symbol : Symbol) : Bool := !isKey .LIMIT symbol

/-- A clause stands alone or in front of one that is not its own. -/
structure Clause {β : Type} (dialect : Dialect) (item : Reader β) (goesOn : Symbol → Bool)
    (pieces : List Piece) (b : β) : Prop where
  reads : Reads item goesOn (Piece.symbolsOf dialect pieces) b
  joined : Joined dialect pieces
  follows : Follows pieces

theorem key_of_whereGoesOn {symbol : Symbol} (h : whereGoesOn symbol = false) :
    symbol = .key .ORDER ∨ symbol = .key .LIMIT := by
  cases symbol with
  | key word => cases word <;> first | exact Or.inl rfl | exact Or.inr rfl | cases h
  | _ => cases h

theorem key_of_orderGoesOn {symbol : Symbol} (h : orderGoesOn symbol = false) :
    symbol = .key .LIMIT := by
  cases symbol with
  | key word => cases word <;> first | rfl | cases h
  | _ => cases h

theorem where_clause {filter : Option (Filter α ι)} {pieces : List Piece}
    (h : wherePieces dialect filter = .ok pieces) {n : Nat}
    (hn : (Piece.symbolsOf dialect pieces).length ≤ n) :
    ∃ condition, Reading.ofFilter filter = some condition ∧
      Clause dialect (whereClause dialect n) whereGoesOn pieces condition := by
  cases filter with
  | none =>
    cases h
    refine ⟨none, rfl, fun rest hrest => ?_, .nil, follows_nil⟩
    cases rest with
    | nil => rfl
    | cons symbol rest => rcases key_of_whereGoesOn (hrest symbol rfl) with rfl | rfl <;> rfl
  | some f =>
    obtain ⟨c, hc, h⟩ := exists_of_bind_ok h
    cases h
    refine ⟨some c.predicate, ?_, fun rest hrest => ?_, .opening rfl (c.joined dialect),
      follows_cons rfl _⟩
    · rw [Reading.ofFilter, predicate_ofFilter hc]
      rfl
    · have hlength : (Piece.symbolsOf dialect (c.pieces dialect)).length ≤ n :=
        Nat.le_of_succ_le hn
      have hcondition : Reads (condition dialect n) disjunctionGoesOn
          (Piece.symbolsOf dialect (c.pieces dialect)) c.predicate :=
        disjunction_single (conjunction_single (c.readAs dialect n hlength))
      -- What may stand behind a condition opens another clause.
      have hstops : Stops disjunctionGoesOn rest := hrest.mono fun symbol hsymbol => by
        rcases key_of_whereGoesOn hsymbol with rfl | rfl <;> rfl
      exact congrArg (Option.map _) (hcondition rest hstops)

theorem order_clause {order : Option (OrderBy α)} (hnonempty : order ≠ some [])
    {pieces : List Piece} (h : orderPieces dialect order = .ok pieces) (n : Nat) :
    Clause dialect (orderClause (n + 3)) orderGoesOn pieces
      ((order.getD []).map SortKey.ofKey) := by
  cases order with
  | none =>
    cases h
    refine ⟨fun rest hrest => ?_, .nil, follows_nil⟩
    cases rest with
    | nil => rfl
    | cons symbol rest =>
      obtain rfl := key_of_orderGoesOn (hrest symbol rfl)
      rfl
  | some keys =>
    obtain ⟨terms, hterms, h⟩ := exists_of_bind_ok h
    cases h
    have hitems := ofItems_order hterms
    have hnonempty : terms ≠ [] :=
      ofOrder_ne_nil (fun hnil => hnonempty (congrArg some hnil)) hterms
    refine ⟨fun rest hrest => ?_, .opening rfl (sortItems_joined dialect terms), follows_cons rfl _⟩
    have hread := sortItems_reads dialect hnonempty n
    rw [sortItems] at hread
    have hstops : Stops (fun symbol => isKey .NULLS symbol || isComma symbol) rest :=
      hrest.mono fun symbol hsymbol => by
        obtain rfl := key_of_orderGoesOn hsymbol
        rfl
    show sortKeys (n + 3) (Piece.symbolsOf dialect
      (separated ", " (terms.map OrderTerm.pieces)) ++ rest) = some (keys.map SortKey.ofKey, rest)
    rw [sortKeys]
    dsimp only
    rw [hread rest hstops]
    show (do return (← SortKey.ofItems (terms.map OrderTerm.item), rest)) = _
    rw [hitems]
    rfl

theorem whole_limit (dialect : Dialect) (n : Nat) :
    (Piece.raw (" LIMIT " ++ String.ofList (Number.natText n))).isWhole dialect = true ∧
      Piece.symbols dialect (.raw (" LIMIT " ++ String.ofList (Number.natText n))) =
        [.key .LIMIT, .number n] := by
  have hword : run dialect .between " LIMIT ".toList = some ([.key .LIMIT], .between) := rfl
  have hrun : run dialect .between (" LIMIT " ++ String.ofList (Number.natText n)).toList =
      some ([.key .LIMIT], .word (Number.natText n).reverse) := by
    rw [String.toList_append, run_append hword,
      show (String.ofList (Number.natText n)).toList = Number.natText n from String.toList_ofList,
      run_natText]
    rfl
  have hended : Mode.symbols dialect (.word (Number.natText n).reverse) = some [.number n] := by
    rw [Mode.symbols, List.reverse_reverse, ofWord_natText]
    rfl
  constructor
  · rw [Piece.isWhole, hrun]
    dsimp only
    rw [hended]
    rfl
  · rw [Piece.symbols, lex, lexFrom, hrun]
    show (do return [.key .LIMIT] ++ (← Mode.symbols dialect _) : Option (List Symbol)).getD [] = _
    rw [hended]
    rfl

theorem limit_clause (dialect : Dialect) (limit : Option Nat) :
    Clause dialect limitClause (fun _ => true) (limitPieces limit) limit := by
  have hend : ∀ rest, Stops (fun _ => true) rest → rest = [] := by
    intro rest hrest
    cases rest with
    | nil => rfl
    | cons symbol rest => cases hrest symbol rfl
  cases limit with
  | none =>
    refine ⟨fun rest hrest => ?_, .nil, follows_nil⟩
    obtain rfl := hend rest hrest
    rfl
  | some n =>
    obtain ⟨hwhole, hsymbols⟩ := whole_limit dialect n
    have hbreaks : (Piece.raw (" LIMIT " ++ String.ofList (Number.natText n))).breaks = true := by
      rw [Piece.breaks, String.toList_append]
      rfl
    refine ⟨fun rest hrest => ?_, joined_single hwhole, follows_cons hbreaks []⟩
    obtain rfl := hend rest hrest
    rw [limitPieces, symbolsOf_cons, hsymbols]
    rfl

theorem stops_limit (dialect : Dialect) (limit : Option Nat) :
    Stops orderGoesOn (Piece.symbolsOf dialect (limitPieces limit)) := by
  cases limit with
  | none => exact nofun
  | some n =>
    rw [limitPieces, symbolsOf_cons, (whole_limit dialect n).2]
    exact stops_cons rfl _

theorem stops_order {order : Option (OrderBy α)} {pieces : List Piece}
    (h : orderPieces dialect order = .ok pieces) {rest : List Symbol}
    (hrest : Stops orderGoesOn rest) :
    Stops whereGoesOn (Piece.symbolsOf dialect pieces ++ rest) := by
  cases order with
  | none =>
    cases h
    refine hrest.mono fun symbol hsymbol => ?_
    obtain rfl := key_of_orderGoesOn hsymbol
    rfl
  | some keys =>
    obtain ⟨terms, -, h⟩ := exists_of_bind_ok h
    cases h
    exact stops_cons (show whereGoesOn (.key .ORDER) = false from rfl) _

/-! ## Statements -/

/-- The text of a statement has one place for each parameter, numbered from left to right where the
dialect numbers them, and is read as this with the literals in their places. -/
def ReadsBack (dialect : Dialect) (statement : Statement) (r : Reading) : Prop :=
  ∃ symbols, lex dialect statement.sql.toList = some symbols ∧
    symbols.filter Symbol.isMark = (List.range' 1 statement.params.length).map dialect.mark ∧
    (bind statement.params 0 symbols).bind (reading dialect) = some r

theorem readsBack_ofPieces {pieces : List Piece} {r : Reading} (h : Joined dialect pieces)
    (hr : reading dialect (Piece.symbolsOf dialect pieces) = some r) :
    ReadsBack dialect (.ofPieces dialect pieces) r := by
  refine ⟨markedSymbols dialect 0 pieces, h.lex 0, filter_markedSymbols h.raw_unmarked 0, ?_⟩
  have hbind : bind (pieceValues pieces) 0 (markedSymbols dialect 0 pieces) =
      some (Piece.symbolsOf dialect pieces) := bind_markedSymbols h.raw_unmarked []
  show (bind (pieceValues pieces) 0 (markedSymbols dialect 0 pieces)).bind (reading dialect) = _
  rw [hbind]
  exact hr

def opening (counts : Bool) : String :=
  if counts then "SELECT count(*) FROM " else "SELECT * FROM "

/-- What is read behind the table of a statement, clause by clause. -/
theorem clauses_read (counts : Bool) (table : String) {n : Nat} {symbols behind last : List Symbol}
    {condition : Option Predicate} {order : List SortKey} {limit : Option Nat}
    (hwhere : whereClause dialect n symbols = some (condition, behind))
    (horder : orderClause n behind = some (order, last))
    (hlimit : limitClause last = some (limit, [])) :
    (do
      let (condition, rest) ← whereClause dialect n symbols
      let (order, rest) ← orderClause n rest
      let (limit, rest) ← limitClause rest
      if rest.isEmpty then some (Reading.mk counts table condition order limit) else none) =
        some ⟨counts, table, condition, order, limit⟩ := by
  simp only [hwhere, horder, hlimit, Option.bind_eq_bind, Option.bind_some]
  rfl

/-- Clauses in their order read back as a statement. -/
theorem readsBack_clauses (counts : Bool) (table : String) {filter : Option (Filter α ι)}
    {order : Option (OrderBy α)} (horder : order ≠ some []) (limit : Option Nat)
    {filterPieces sortPieces : List Piece} (hfilter : wherePieces dialect filter = .ok filterPieces)
    (hsort : orderPieces dialect order = .ok sortPieces) :
    ∃ condition, Reading.ofFilter filter = some condition ∧
      ReadsBack dialect
        (.ofPieces dialect (.raw (opening counts) :: .name table ::
          (filterPieces ++ (sortPieces ++ limitPieces limit))))
        ⟨counts, table, condition, (order.getD []).map SortKey.ofKey, limit⟩ := by
  have hlimit := limit_clause dialect limit
  have hstops := stops_limit dialect limit
  have hsymbols : Piece.symbolsOf dialect (.raw (opening counts) :: .name table ::
      (filterPieces ++ (sortPieces ++ limitPieces limit))) =
        Piece.symbols dialect (.raw (opening counts)) ++ .name table ::
          (Piece.symbolsOf dialect filterPieces ++ (Piece.symbolsOf dialect sortPieces ++
            Piece.symbolsOf dialect (limitPieces limit))) := by
    rw [symbolsOf_cons, symbolsOf_cons, symbolsOf_append, symbolsOf_append]
    rfl
  -- The budget is the number of symbols, of which there are more than an operand needs.
  obtain ⟨n, hn⟩ : ∃ n, n + 3 = (Piece.symbolsOf dialect (.raw (opening counts) :: .name table ::
      (filterPieces ++ (sortPieces ++ limitPieces limit)))).length := by
    rw [hsymbols]
    cases counts <;> exact ⟨_, rfl⟩
  have hlength : (Piece.symbolsOf dialect filterPieces).length ≤ n + 3 := by
    rw [hn, hsymbols]
    simp only [List.length_cons, List.length_append]
    omega
  obtain ⟨condition, hcondition, hwhere⟩ := where_clause hfilter hlength
  have hkeys := order_clause horder hsort n
  refine ⟨condition, hcondition, readsBack_ofPieces ?_ ?_⟩
  · have hclauses : Joined dialect (filterPieces ++ (sortPieces ++ limitPieces limit)) :=
      hwhere.joined.append (hkeys.follows.append hlimit.follows)
        (hkeys.joined.append hlimit.follows hlimit.joined)
    have hopens : (Piece.raw (opening counts)).opens dialect = true := by cases counts <;> rfl
    exact .opening hopens
      (.ended rfl (hwhere.follows.append (hkeys.follows.append hlimit.follows)) hclauses)
  · have hreadWhere := hwhere.reads _ (stops_order hsort hstops)
    have hreadOrder := hkeys.reads _ hstops
    have hreadLimit := hlimit.reads [] nofun
    rw [List.append_nil] at hreadLimit
    rw [reading, ← hn, hsymbols]
    cases counts <;> exact clauses_read _ _ hreadWhere hreadOrder hreadLimit

theorem select_readsBack (table : String) {q : Query α ι} (horder : q.order ≠ some [])
    {statement : Statement} (h : select dialect table q = .ok statement) :
    ∃ r, Reading.ofQuery table q = some r ∧ ReadsBack dialect statement r := by
  obtain ⟨filterPieces, hfilter, h⟩ := exists_of_bind_ok h
  obtain ⟨sortPieces, hsort, h⟩ := exists_of_bind_ok h
  cases h
  obtain ⟨condition, hcondition, hread⟩ :=
    readsBack_clauses false table horder q.limit hfilter hsort
  have hpieces : .raw "SELECT * FROM " :: .name table :: filterPieces ++ sortPieces ++
      limitPieces q.limit = .raw (opening false) :: .name table ::
        (filterPieces ++ (sortPieces ++ limitPieces q.limit)) := by
    rw [List.append_assoc]
    rfl
  rw [hpieces]
  exact ⟨_, congrArg (Option.map _) hcondition, hread⟩

theorem count_readsBack (table : String) {filter : Option (Filter α ι)} {statement : Statement}
    (h : count dialect table filter = .ok statement) :
    ∃ r, Reading.ofCount table filter = some r ∧ ReadsBack dialect statement r := by
  obtain ⟨filterPieces, hfilter, h⟩ := exists_of_bind_ok h
  cases h
  obtain ⟨condition, hcondition, hread⟩ :=
    readsBack_clauses true table (show (none : Option (OrderBy α)) ≠ some [] from nofun) none
      hfilter rfl
  have hpieces : .raw "SELECT count(*) FROM " :: .name table :: filterPieces =
      .raw (opening true) :: .name table :: (filterPieces ++ ([] ++ limitPieces none)) := by
    rw [limitPieces, List.append_nil, List.append_nil]
    rfl
  rw [hpieces]
  exact ⟨_, congrArg (Option.map _) hcondition, hread⟩

/-- A statement means what was asked. The order that a query asks for has a key, as every order that
is compiled from a sorting has. -/
theorem statements_readBack (dialect : Dialect) (table : String) {q : Query α ι}
    (horder : q.order ≠ some []) :
    (∀ statement, select dialect table q = .ok statement →
        ∃ r, Reading.ofQuery table q = some r ∧ ReadsBack dialect statement r) ∧
      ∀ statement, count dialect table q.filter = .ok statement →
        ∃ r, Reading.ofCount table q.filter = some r ∧ ReadsBack dialect statement r :=
  ⟨fun _ h => select_readsBack table horder h, fun _ h => count_readsBack table h⟩

open Catalog in
/-- Neither a quote in a name nor what binds tighter changes what is read. -/
theorem statements_readBack_quotes :
    let rank : Field Show := ⟨"rank", "a\" = 1 or \"b", .int, true, fun _ => .null⟩
    let q : Query Show Int64 :=
      { filter := some (.and (.not (.or (.cmp .ne rank .null) (.cmp .lt rank (.int 3))))
          (.random 7 .gt 42))
        order := some (Sorting.compile [.by rank true])
        limit := some 5 }
    let condition : Predicate :=
      .and (.not (.or (.isNotNull (.column rank.column))
          (.compare (.column rank.column) .lt (.value (.int 3)))))
        (.compare (.hashedId "id" "7") .gt (.hashed "7" "42"))
    q.order ≠ some [] ∧
      (∃ statement, select .postgres "the \"shows\"" q = .ok statement ∧
        ReadsBack .postgres statement ⟨false, "the \"shows\"", condition,
          [⟨.column rank.column, true, some false⟩, ⟨.column "id", true, none⟩], some 5⟩) ∧
      ∃ statement, count .postgres "the \"shows\"" q.filter = .ok statement ∧
        ReadsBack .postgres statement ⟨true, "the \"shows\"", condition, [], none⟩ := by
  intro rank q condition
  have horder : q.order ≠ some [] := nofun
  obtain ⟨hselect, hcount⟩ := statements_readBack .postgres "the \"shows\"" horder
  refine ⟨horder, ⟨_, rfl, ?_⟩, ⟨_, rfl, ?_⟩⟩
  · obtain ⟨r, hr, hread⟩ := hselect _ rfl
    cases hr
    exact hread
  · obtain ⟨r, hr, hread⟩ := hcount _ rfl
    cases hr
    exact hread

end

end Sql
end Repertory
