import Repertory.Proofs.Order.Clash
import Repertory.Proofs.Order.Compiled
import Repertory.Proofs.Sql.ReadBack
import Repertory.Proofs.Sql.Truth

/-!
# How a database sorts

A database compares rows by the items of an order, one after the other. An item is an operand in a
direction, whose nulls are a group of their own in front of the values or behind them, or it is
whether an operand is null. A key of an order has three spellings: the column alone where it has no
nulls, the column with where its nulls go, and in a dialect that can not say so whether the column
is null in front of the column. All three compare rows as the key does, so the text of an order
sorts rows as the order does (`orderBy_compiled`).
-/

namespace Repertory
namespace Sql

/-! ## The text of an order -/

/-- The items of an order, when nothing stands behind it. -/
def orderItems (symbols : List Symbol) : Option (List SortItem) :=
  match symbols with
  | .key .ORDER :: .key .BY :: rest => do
    match ← sortItems symbols.length rest with
    | (items, []) => some items
    | _ => none
  | _ => none

/-- The text of the pieces is read as an order by these items, behind whatever parameters it
stands. -/
def ReadsAsOrder (dialect : Dialect) (pieces : List Piece) (items : List SortItem) : Prop :=
  ∀ front : List Value, ∃ symbols,
    lex dialect (pieceText dialect front.length pieces).toList = some symbols ∧
      (bind (front ++ pieceValues pieces) front.length symbols).bind orderItems = some items

theorem length_symbolsOf_pos (dialect : Dialect) {terms : List OrderTerm} (h : terms ≠ []) :
    0 < (Piece.symbolsOf dialect (separated ", " (terms.map OrderTerm.pieces))).length := by
  cases terms with
  | nil => exact absurd rfl h
  | cons first others =>
    have hfirst : 0 < (Piece.symbolsOf dialect first.pieces).length := by
      cases first <;> exact Nat.zero_lt_succ _
    rw [symbolsOf_separated (show Piece.symbols dialect (.raw ", ") = [.comma] from rfl)
      OrderTerm.pieces OrderTerm.item, List.length_append]
    omega

theorem readsAsOrder_ofOrder {α ι : Type} [Identity ι] [Resource α ι] {dialect : Dialect}
    {keys : OrderBy α} (hnonempty : keys ≠ []) {terms : List OrderTerm}
    (h : OrderTerm.ofOrder dialect keys = .ok terms) :
    orderPieces dialect (some keys) =
        .ok (.raw " ORDER BY " :: separated ", " (terms.map OrderTerm.pieces)) ∧
      ReadsAsOrder dialect (.raw " ORDER BY " :: separated ", " (terms.map OrderTerm.pieces))
        (terms.map OrderTerm.item) := by
  have hterms : terms ≠ [] := ofOrder_ne_nil hnonempty h
  have hjoined : Joined dialect
      (.raw " ORDER BY " :: separated ", " (terms.map OrderTerm.pieces)) :=
    .opening rfl (sortItems_joined dialect terms)
  refine ⟨by rw [orderPieces, h]; rfl, fun front => ⟨_, hjoined.lex front.length, ?_⟩⟩
  obtain ⟨n, hn⟩ := Nat.exists_eq_add_of_le' (length_symbolsOf_pos dialect hterms)
  have hread := sortItems_reads dialect hterms n [] nofun
  rw [List.append_nil] at hread
  rw [bind_markedSymbols hjoined.raw_unmarked]
  show orderItems (.key .ORDER :: .key .BY ::
    Piece.symbolsOf dialect (separated ", " (terms.map OrderTerm.pieces))) = _
  rw [orderItems, List.length_cons, List.length_cons, hn, hread]
  rfl

/-! ## Comparisons of a database -/

/-- In a falling direction the values change places. -/
def directed (descending : Bool) (cmp : Value → Value → Ordering) (a b : Value) : Ordering :=
  if descending then cmp b a else cmp a b

/-- Whether a value is null counts as one or as zero. -/
def compareNulls (a b : Value) : Ordering := compare a.isNull.toNat b.isNull.toNat

def compareValues (a b : Value) : Ordering := if a.isNull || b.isNull then .eq else a.order b

section

variable (unsaid : Bool → Bool) (db db' : Operand → Value)

/-- How two rows compare by an item, from what the operands are on them. Where nulls go in a
direction if this is not said is left open, as databases differ in it. -/
def SortItem.order : SortItem → Ordering
  | .key ⟨operand, descending, nullsFirst⟩ =>
    (directed (nullsFirst.getD (unsaid descending)) compareNulls (db operand) (db' operand)).then
      (directed descending compareValues (db operand) (db' operand))
  | .nullRank operand descending => directed descending compareNulls (db operand) (db' operand)

/-- The first item that tells the rows apart decides. -/
def rowOrder : List SortItem → Ordering
  | [] => .eq
  | item :: rest => (item.order unsaid db db').then (rowOrder rest)

theorem rowOrder_append (items rest : List SortItem) :
    rowOrder unsaid db db' (items ++ rest) =
      (rowOrder unsaid db db' items).then (rowOrder unsaid db db' rest) := by
  induction items with
  | nil => rfl
  | cons item items ih => rw [List.cons_append, rowOrder, rowOrder, ih, Ordering.then_assoc]

theorem rowOrder_single (item : SortItem) :
    rowOrder unsaid db db' [item] = item.order unsaid db db' := Ordering.then_eq

end

/-! ## The spellings of a key -/

section

variable {a b : Value}

theorem directed_compareNulls_of_ne_null (ha : a ≠ .null) (hb : b ≠ .null) (nullsFirst : Bool) :
    directed nullsFirst compareNulls a b = .eq := by
  rw [directed, compareNulls, compareNulls, Value.isNull_eq_false_iff.mpr ha,
    Value.isNull_eq_false_iff.mpr hb]
  cases nullsFirst <;> rfl

/-- Where whether a value is null does not tell values apart, neither does where nulls go. -/
theorem compareNulls_then (nullsFirst other : Bool) (a b : Value) :
    (directed nullsFirst compareNulls a b).then (directed other compareNulls a b) =
      directed nullsFirst compareNulls a b := by
  rw [directed, directed, compareNulls, compareNulls]
  cases a.isNull <;> cases b.isNull <;> cases nullsFirst <;> cases other <;> rfl

/-- Values compare in their direction behind where nulls go. -/
theorem orderValues_eq_then (descending nullsFirst : Bool) (a b : Value) :
    orderValues descending nullsFirst a b =
      (directed nullsFirst compareNulls a b).then (directed descending compareValues a b) := by
  rw [orderValues, directed, directed, compareNulls, compareNulls, compareValues, compareValues,
    Value.order_swap a b]
  cases a.isNull <;> cases b.isNull <;> cases nullsFirst <;> cases descending <;> rfl

end

section

variable {α ι : Type} [Identity ι] [Resource α ι] {dialect : Dialect} {db db' : Operand → Value}
  (unsaid : Bool → Bool)

theorem exists_ofKey (dialect : Dialect) {key : OrderKey α}
    (h : ∀ seed, key.target ≠ .random seed) : ∃ terms, OrderTerm.ofKey dialect key = .ok terms := by
  rw [OrderTerm.ofKey]
  cases htarget : key.target with
  | random seed => exact absurd htarget (h seed)
  | field field =>
    dsimp only
    split
    · exact ⟨_, rfl⟩
    · split <;> exact ⟨_, rfl⟩

theorem exists_ofOrder (dialect : Dialect) {keys : OrderBy α}
    (h : ∀ key ∈ keys, ∀ seed, key.target ≠ .random seed) :
    ∃ terms, OrderTerm.ofOrder dialect keys = .ok terms := by
  induction keys with
  | nil => exact ⟨[], rfl⟩
  | cons key rest ih =>
    obtain ⟨first, hfirst⟩ := exists_ofKey dialect (h key List.mem_cons_self)
    obtain ⟨others, hothers⟩ := ih fun other hother => h other (List.mem_cons_of_mem key hother)
    exact ⟨first ++ others, by rw [OrderTerm.ofOrder, hfirst, hothers]; rfl⟩

/-- However a key is spelled, its items compare rows as it does. -/
theorem rowOrder_ofKey {key : OrderKey α} {field : Field α} (htarget : key.target = .field field)
    {terms : List OrderTerm} (h : OrderTerm.ofKey dialect key = .ok terms) {row row' : α}
    (hrow : field.ConformsAt row) (hrow' : field.ConformsAt row')
    (hdb : db (.column field.column) = field.get row)
    (hdb' : db' (.column field.column) = field.get row') :
    rowOrder unsaid db db' (terms.map OrderTerm.item) = key.order row row' := by
  rw [OrderKey.order_of_field htarget, orderValues_eq_then, ← hdb, ← hdb']
  rw [OrderTerm.ofKey, htarget] at h
  dsimp only at h
  split at h
  · -- The column has no nulls, so it does not matter where they go.
    rename_i hnullable
    have hnullable : field.nullable = false := by simpa using hnullable
    have hnulls : ∀ nullsFirst, directed nullsFirst compareNulls (db (.column field.column))
        (db' (.column field.column)) = .eq :=
      directed_compareNulls_of_ne_null (hdb ▸ hrow.ne_null hnullable)
        (hdb' ▸ hrow'.ne_null hnullable)
    cases h
    rw [List.map_singleton, rowOrder_single, OrderTerm.item, SortItem.order, hnulls, hnulls]
  · split at h
    · cases h
      show (directed _ compareNulls _ _).then
        (((directed _ compareNulls _ _).then (directed _ compareValues _ _)).then .eq) = _
      rw [Ordering.then_eq, ← Ordering.then_assoc, compareNulls_then]
    · cases h
      exact Ordering.then_eq

/-- Every key looks at a column in which the two rows have what its field may be. -/
def SeesRows (db db' : Operand → Value) (row row' : α) (keys : OrderBy α) : Prop :=
  ∀ key ∈ keys, ∃ field, key.target = .field field ∧
    (field.ConformsAt row ∧ db (.column field.column) = field.get row) ∧
    (field.ConformsAt row' ∧ db' (.column field.column) = field.get row')

theorem rowOrder_ofOrder {keys : OrderBy α} {terms : List OrderTerm}
    (h : OrderTerm.ofOrder dialect keys = .ok terms) {row row' : α}
    (hrows : SeesRows db db' row row' keys) :
    rowOrder unsaid db db' (terms.map OrderTerm.item) = OrderBy.order keys row row' := by
  induction keys generalizing terms with
  | nil =>
    cases h
    rfl
  | cons key rest ih =>
    obtain ⟨first, hfirst, h⟩ := exists_of_bind_ok h
    obtain ⟨others, hothers, h⟩ := exists_of_bind_ok h
    cases h
    obtain ⟨field, htarget, ⟨hrow, hdb⟩, hrow', hdb'⟩ := hrows key List.mem_cons_self
    have hkey := rowOrder_ofKey unsaid htarget hfirst hrow hrow' hdb hdb'
    have hrest := ih hothers fun other hother => hrows other (List.mem_cons_of_mem key hother)
    rw [List.map_append, rowOrder_append, hkey, hrest, OrderBy.order]

/-- In every dialect an order without random keys has a text. Its items compare any two rows as the
order does, wherever the database puts nulls of its own accord. -/
theorem orderBy_compiled {decl : SchemaDecl α}
    (hschema : decl.build = .ok (Resource.schema (α := α))) {keys : OrderBy α}
    (hkeys : keys.Compiled) (hrandom : ∀ key ∈ keys, ∀ seed, key.target ≠ .random seed)
    (dialect : Dialect) :
    ∃ pieces items, orderPieces dialect (some keys) = .ok pieces ∧
      ReadsAsOrder dialect pieces items ∧
      ∀ (unsaid : Bool → Bool) (row row' : α) (db db' : Operand → Value),
        (Resource.schema (α := α)).Conforms row → (Resource.schema (α := α)).Conforms row' →
        Stores (fun column => db (.column column)) row →
        Stores (fun column => db' (.column column)) row' →
          rowOrder unsaid db db' items = OrderBy.order keys row row' := by
  have hclosed := SchemaDecl.build_closed hschema
  have hnonempty : keys ≠ [] := by
    obtain ⟨key, hkey, -⟩ := hkeys.breaksTies
    exact List.ne_nil_of_mem hkey
  obtain ⟨terms, hterms⟩ := exists_ofOrder dialect hrandom
  obtain ⟨hpieces, hreads⟩ := readsAsOrder_ofOrder hnonempty hterms
  refine ⟨_, _, hpieces, hreads, fun unsaid row row' db db' hrow hrow' hdb hdb' => ?_⟩
  refine rowOrder_ofOrder unsaid hterms fun key hkey => ?_
  cases htarget : key.target with
  | random seed => exact absurd htarget (hrandom key hkey seed)
  | field field =>
    have hfield := hkeys.mem_fields hclosed hkey htarget
    exact ⟨field, rfl, ⟨hrow field hfield, hdb field hfield⟩, hrow' field hfield, hdb' field hfield⟩

open Catalog in
/-- Where `nulls first` can not be said, an order read backwards still has the show without a rating
in front, though ratings fall in it. -/
theorem orderBy_compiled_shows :
    let sorting : Sorting Show := [.by Show.ratingField false, .default]
    let keys := sorting.compile.inverted
    let unrated : Show :=
      ⟨1, "a", "A", none, .unknown, ["drama"], none, none, none, none, none⟩
    let rated : Show :=
      ⟨2, "b", "B", none, .unknown, ["drama"], none, some (.ofInt 5), none, none, none⟩
    let db : Show → Operand → Value := fun row operand =>
      ((Show.schema.fields.find? fun field => operand = .column field.column).map (·.get row)).getD
        .null
    Show.decl.build = .ok Show.schema ∧ sorting.Declared ∧
      (∀ key ∈ keys, ∀ seed, key.target ≠ .random seed) ∧
      (∀ row : Show, Stores (fun column => db row (.column column)) row) ∧
      ∃ pieces items, orderPieces .mysql (some keys) = .ok pieces ∧
        ReadsAsOrder .mysql pieces items ∧
        ∀ unsaid, rowOrder unsaid (db rated) (db unrated) items = .gt := by
  intro sorting keys unrated rated db
  have hsorting : sorting.Declared := by
    intro field descending hterm
    have hterms : SortTerm.by field descending ∈ [_, _] := hterm
    simp only [List.mem_cons, List.not_mem_nil, or_false, SortTerm.by.injEq, reduceCtorEq] at hterms
    obtain ⟨rfl, -⟩ := hterms
    simp [Resource.schema, Show.schema]
  have hrandom : ∀ key ∈ keys, ∀ seed, key.target ≠ .random seed := by
    intro key hkey seed hseed
    have hkeys : key ∈ [_, _, _] := hkey
    simp only [List.mem_cons, List.not_mem_nil, or_false] at hkeys
    rcases hkeys with rfl | rfl | rfl <;> cases hseed
  have hdb : ∀ row : Show, Stores (fun column => db row (.column column)) row := by
    intro row field hfield
    have hfields : field ∈ [_, _, _, _, _, _, _, _] := hfield
    simp only [List.mem_cons, List.not_mem_nil, or_false] at hfields
    rcases hfields with rfl | rfl | rfl | rfl | rfl | rfl | rfl | rfl <;> rfl
  obtain ⟨pieces, items, hpieces, hreads, horder⟩ :=
    orderBy_compiled Show.build_decl (.inverted (.compile hsorting)) hrandom .mysql
  refine ⟨Show.build_decl, hsorting, hrandom, hdb, pieces, items, hpieces, hreads, fun unsaid => ?_⟩
  rw [horder unsaid rated unrated _ _ rated.conforms unrated.conforms (hdb rated) (hdb unrated)]
  rfl

end

end Sql
end Repertory
