import Mathlib.Data.List.Forall2
import Repertory.Catalog.Show
import Repertory.Sql.Statement

/-!
# Statements of queries of one shape

Queries of one shape differ in literals, needles, seeds and pivots only, and where one compares a
field with null for being equal or not, so does the other. Their statements have the same text, or
they fail alike (`sameText_of_sameShape`): what differs is held in the parameters.

The proof follows the pieces of a statement without their values (`Piece.outline`), which decide the
text. Queries of one shape have the same pieces up to values.
-/

namespace Repertory

variable {α ι : Type}

/-! ## Shapes -/

inductive Filter.SameShape : Filter α ι → Filter α ι → Prop where
  | and {a a' b b' : Filter α ι} (ha : SameShape a a') (hb : SameShape b b') :
      SameShape (.and a b) (.and a' b')
  | or {a a' b b' : Filter α ι} (ha : SameShape a a') (hb : SameShape b b') :
      SameShape (.or a b) (.or a' b')
  | not {a a' : Filter α ι} (ha : SameShape a a') : SameShape (.not a) (.not a')
  | cmp (op : CmpOp) (field : Field α) {v v' : Value}
      (h : op.admitsNull = true → (v = .null ↔ v' = .null)) :
      SameShape (.cmp op field v) (.cmp op field v')
  | has (field : Field α) (v v' : Value) : SameShape (.has field v) (.has field v')
  | oneOf (field : Field α) {vs vs' : List Value} (h : vs.length = vs'.length) :
      SameShape (.oneOf field vs) (.oneOf field vs')
  | contains (fields : List (Field α)) (needle needle' : String) :
      SameShape (.contains fields needle) (.contains fields needle')
  | random (op : CmpOp) (seed seed' : UInt64) (pivot pivot' : ι) :
      SameShape (.random seed op pivot) (.random seed' op pivot')
  | satisfies (p p' : α → Bool) : SameShape (.satisfies p) (.satisfies p')

inductive OrderTarget.SameShape : OrderTarget α → OrderTarget α → Prop where
  | field (field : Field α) : SameShape (.field field) (.field field)
  | random (seed seed' : UInt64) : SameShape (.random seed) (.random seed')

structure OrderKey.SameShape (key key' : OrderKey α) : Prop where
  target : key.target.SameShape key'.target
  descending : key.descending = key'.descending
  nullsFirst : key.nullsFirst = key'.nullsFirst

structure Query.SameShape (q q' : Query α ι) : Prop where
  filter : Option.Rel Filter.SameShape q.filter q'.filter
  order : Option.Rel (List.Forall₂ OrderKey.SameShape) q.order q'.order
  limit : q.limit = q'.limit

namespace Sql

/-- Both fail with the same error, or both are statements with the same text and equally many
parameters. -/
inductive SameText : Except StoreError Statement → Except StoreError Statement → Prop where
  | failed (e : StoreError) : SameText (.error e) (.error e)
  | written (sql : String) {params params' : List Value} (h : params.length = params'.length) :
      SameText (.ok ⟨sql, params⟩) (.ok ⟨sql, params'⟩)

/-! ## Pieces without their values -/

def Piece.outline : Piece → Piece
  | raw s => raw s
  | name s => name s
  | value _ => value .null

def outline (pieces : List Piece) : List Piece :=
  pieces.map Piece.outline

@[simp]
theorem outline_nil : outline [] = [] := rfl

@[simp]
theorem outline_cons (piece : Piece) (pieces : List Piece) :
    outline (piece :: pieces) = piece.outline :: outline pieces := rfl

@[simp]
theorem outline_append (front rest : List Piece) :
    outline (front ++ rest) = outline front ++ outline rest := List.map_append

theorem pieceText_outline (dialect : Dialect) (n : Nat) (pieces : List Piece) :
    pieceText dialect n (outline pieces) = pieceText dialect n pieces := by
  induction pieces generalizing n with
  | nil => rfl
  | cons piece rest ih =>
    rw [outline_cons]
    cases piece with
    | raw s =>
      show s ++ pieceText dialect n (outline rest) = s ++ pieceText dialect n rest
      rw [ih]
    | name s =>
      show dialect.quote s ++ pieceText dialect n (outline rest) =
        dialect.quote s ++ pieceText dialect n rest
      rw [ih]
    | value v =>
      show dialect.placeholder (n + 1) ++ pieceText dialect (n + 1) (outline rest) =
        dialect.placeholder (n + 1) ++ pieceText dialect (n + 1) rest
      rw [ih]

theorem length_pieceValues_outline (pieces : List Piece) :
    (pieceValues (outline pieces)).length = (pieceValues pieces).length := by
  induction pieces with
  | nil => rfl
  | cons piece rest ih =>
    cases piece with
    | raw s => exact ih
    | name s => exact ih
    | value v => exact congrArg (· + 1) ih

theorem sameText_ofPieces (dialect : Dialect) {pieces pieces' : List Piece}
    (h : outline pieces = outline pieces') :
    SameText (.ok (.ofPieces dialect pieces)) (.ok (.ofPieces dialect pieces')) := by
  have htext : pieceText dialect 0 pieces = pieceText dialect 0 pieces' := by
    rw [← pieceText_outline, h, pieceText_outline]
  have hvalues : (pieceValues pieces).length = (pieceValues pieces').length := by
    rw [← length_pieceValues_outline, h, length_pieceValues_outline]
  rw [Statement.ofPieces, Statement.ofPieces, htext]
  exact .written _ hvalues

theorem outline_separated (separator : String) (parts : List (List Piece)) :
    outline (separated separator parts) = separated separator (parts.map outline) := by
  induction parts with
  | nil => rfl
  | cons part rest ih =>
    cases rest with
    | nil => rfl
    | cons next rest =>
      show outline (part ++ .raw separator :: separated separator (next :: rest)) =
        outline part ++ .raw separator :: separated separator ((next :: rest).map outline)
      rw [outline_append, outline_cons, ih]
      rfl

/-- Values become placeholders, of which only the number shows. -/
theorem outline_values (vs : List Value) :
    (vs.map fun v => [Piece.value v]).map outline =
      List.replicate vs.length [.value .null] := by
  induction vs with
  | nil => rfl
  | cons v rest ih => exact congrArg ([.value .null] :: ·) ih

/-! ## Conditions -/

/-- What a failure or the pieces of a condition show of it. -/
def outlineOf (dialect : Dialect) (condition : Except StoreError Condition) :
    Except StoreError (List Piece) :=
  condition.map fun c => outline (c.pieces dialect)

theorem outlineOf_join {dialect : Dialect} {word : String}
    (join : Condition → Condition → Condition)
    (hjoin : ∀ a b, (join a b).pieces dialect =
      .raw "(" :: a.pieces dialect ++ .raw word :: b.pieces dialect ++ [.raw ")"])
    (a b : Except StoreError Condition) :
    outlineOf dialect (do return join (← a) (← b)) = do
      let a ← outlineOf dialect a
      let b ← outlineOf dialect b
      return .raw "(" :: a ++ .raw word :: b ++ [.raw ")"] := by
  cases a with
  | error e => rfl
  | ok a =>
    cases b with
    | error e => rfl
    | ok b =>
      show Except.ok (outline ((join a b).pieces dialect)) = _
      rw [hjoin]
      simp only [outline_append, outline_cons, outline_nil]
      rfl

theorem outlineOf_not (dialect : Dialect) (a : Except StoreError Condition) :
    outlineOf dialect (do return .not (← a)) = do
      let a ← outlineOf dialect a
      return .raw "not (" :: a ++ [.raw ")"] := by
  cases a with
  | error e => rfl
  | ok a =>
    show Except.ok (outline (.raw "not (" :: a.pieces dialect ++ [.raw ")"])) = _
    simp only [outline_append, outline_cons, outline_nil]
    rfl

theorem outline_likeTerm (dialect : Dialect) (pattern pattern' column : String) :
    outline (likeTerm dialect pattern column) = outline (likeTerm dialect pattern' column) := by
  simp only [likeTerm, outline_append, outline_cons]
  rfl

theorem outline_like (dialect : Dialect) (first : String) (rest : List String)
    (pattern pattern' : String) :
    outline ((Condition.like first rest pattern).pieces dialect) =
      outline ((Condition.like first rest pattern').pieces dialect) := by
  have hterms : ((first :: rest).map (likeTerm dialect pattern)).map outline =
      ((first :: rest).map (likeTerm dialect pattern')).map outline := by
    rw [List.map_map, List.map_map]
    exact List.map_congr_left fun column _ => outline_likeTerm dialect pattern pattern' column
  simp only [Condition.pieces, outline_append, outline_cons, outline_separated, hterms]

theorem outline_within (dialect : Dialect) (column : String) {first first' : Value}
    {rest rest' : List Value} (h : rest.length = rest'.length) :
    outline ((Condition.within column first rest).pieces dialect) =
      outline ((Condition.within column first' rest').pieces dialect) := by
  have hvalues : ((first :: rest).map fun v => [Piece.value v]).map outline =
      ((first' :: rest').map fun v => [Piece.value v]).map outline := by
    rw [outline_values, outline_values, List.length_cons, List.length_cons, h]
  simp only [Condition.pieces, outline_append, outline_cons, outline_separated, hvalues]

theorem ofCmp_of_ne_null (column : String) {op : CmpOp} {v : Value}
    (h : op.admitsNull = true → v ≠ .null) :
    Condition.ofCmp column op v = .compare column op v := by
  cases op <;> cases v <;> first | rfl | exact absurd rfl (h rfl)

theorem outline_ofCmp (dialect : Dialect) (column : String) (op : CmpOp) {v v' : Value}
    (h : op.admitsNull = true → (v = .null ↔ v' = .null)) :
    outline ((Condition.ofCmp column op v).pieces dialect) =
      outline ((Condition.ofCmp column op v').pieces dialect) := by
  by_cases hnull : op.admitsNull = true ∧ v = .null
  · rw [(h hnull.1).mp hnull.2, hnull.2]
  · have hv : op.admitsNull = true → v ≠ .null := fun hop hv => hnull ⟨hop, hv⟩
    have hv' : op.admitsNull = true → v' ≠ .null := fun hop hv' => hv hop ((h hop).mpr hv')
    rw [ofCmp_of_ne_null column hv, ofCmp_of_ne_null column hv']
    rfl

variable [Identity ι] [Resource α ι]

theorem outlineOf_filter (dialect : Dialect) {f g : Filter α ι} (h : f.SameShape g) :
    outlineOf dialect (Condition.ofFilter dialect f) =
      outlineOf dialect (Condition.ofFilter dialect g) := by
  induction h with
  | and _ _ iha ihb =>
    rw [Condition.ofFilter, Condition.ofFilter, outlineOf_join .and fun _ _ => rfl, iha, ihb,
      ← outlineOf_join .and fun _ _ => rfl]
  | or _ _ iha ihb =>
    rw [Condition.ofFilter, Condition.ofFilter, outlineOf_join .or fun _ _ => rfl, iha, ihb,
      ← outlineOf_join .or fun _ _ => rfl]
  | not _ ih => rw [Condition.ofFilter, Condition.ofFilter, outlineOf_not, ih, ← outlineOf_not]
  | cmp op field hnull => exact congrArg Except.ok (outline_ofCmp dialect field.column op hnull)
  | has field v v' =>
    cases dialect <;> rfl
  | @oneOf field vs vs' hlength =>
    cases vs with
    | nil =>
      rw [List.eq_nil_of_length_eq_zero hlength.symm]
    | cons first rest =>
      cases vs' with
      | nil => cases hlength
      | cons first' rest' =>
        have hrest : rest.length = rest'.length := Nat.succ.inj hlength
        exact congrArg Except.ok (outline_within dialect field.column hrest)
  | contains fields needle needle' =>
    cases fields with
    | nil => rfl
    | cons first rest => exact congrArg Except.ok (outline_like dialect ..)
  | random op seed seed' pivot pivot' => cases dialect <;> rfl
  | satisfies p p' => rfl

/-! ## Orders -/

def outlinesOf (terms : Except StoreError (List OrderTerm)) :
    Except StoreError (List (List Piece)) :=
  terms.map fun terms => terms.map fun term => outline term.pieces

theorem outlinesOf_key (dialect : Dialect) {key key' : OrderKey α} (h : key.SameShape key') :
    outlinesOf (OrderTerm.ofKey dialect key) = outlinesOf (OrderTerm.ofKey dialect key') := by
  obtain ⟨target, descending, nullsFirst⟩ := key
  obtain ⟨target', descending', nullsFirst'⟩ := key'
  obtain ⟨htarget, rfl, rfl⟩ := h
  cases htarget with
  | field field => rfl
  | random seed seed' => cases dialect <;> rfl

theorem outlinesOf_append (a b : Except StoreError (List OrderTerm)) :
    outlinesOf (do return (← a) ++ (← b)) = do
      let a ← outlinesOf a
      let b ← outlinesOf b
      return a ++ b := by
  cases a with
  | error e => rfl
  | ok a =>
    cases b with
    | error e => rfl
    | ok b => exact congrArg Except.ok List.map_append

theorem outlinesOf_order (dialect : Dialect) {order order' : OrderBy α}
    (h : List.Forall₂ OrderKey.SameShape order order') :
    outlinesOf (OrderTerm.ofOrder dialect order) =
      outlinesOf (OrderTerm.ofOrder dialect order') := by
  induction h with
  | nil => rfl
  | cons hkey _ ih =>
    rw [OrderTerm.ofOrder, OrderTerm.ofOrder, outlinesOf_append, outlinesOf_key dialect hkey, ih,
      ← outlinesOf_append]

/-! ## Statements -/

def outlined (pieces : Except StoreError (List Piece)) : Except StoreError (List Piece) :=
  pieces.map outline

theorem outlined_where (dialect : Dialect) {filter filter' : Option (Filter α ι)}
    (h : Option.Rel Filter.SameShape filter filter') :
    outlined (wherePieces dialect filter) = outlined (wherePieces dialect filter') := by
  have hclause : ∀ f : Filter α ι, outlined (wherePieces dialect (some f)) = do
      return .raw " WHERE " :: (← outlineOf dialect (Condition.ofFilter dialect f)) := by
    intro f
    rw [wherePieces]
    cases Condition.ofFilter dialect f <;> rfl
  cases h with
  | none => rfl
  | some hf => rw [hclause, hclause, outlineOf_filter dialect hf]

theorem outlined_order (dialect : Dialect) {order order' : Option (OrderBy α)}
    (h : Option.Rel (List.Forall₂ OrderKey.SameShape) order order') :
    outlined (orderPieces dialect order) = outlined (orderPieces dialect order') := by
  have hclause : ∀ keys : OrderBy α, outlined (orderPieces dialect (some keys)) = do
      let terms ← outlinesOf (OrderTerm.ofOrder dialect keys)
      return .raw " ORDER BY " :: separated ", " terms := by
    intro keys
    rw [orderPieces]
    cases OrderTerm.ofOrder dialect keys with
    | error e => rfl
    | ok terms =>
      show Except.ok (outline (.raw " ORDER BY " ::
        separated ", " (terms.map OrderTerm.pieces))) = _
      rw [outline_cons, outline_separated, List.map_map]
      rfl
  cases h with
  | none => rfl
  | some hkeys => rw [hclause, hclause, outlinesOf_order dialect hkeys]

theorem cases_of_outlined {pieces pieces' : Except StoreError (List Piece)}
    (h : outlined pieces = outlined pieces') :
    (∃ e, pieces = .error e ∧ pieces' = .error e) ∨
      ∃ ps ps', pieces = .ok ps ∧ pieces' = .ok ps' ∧ outline ps = outline ps' := by
  cases pieces with
  | error e =>
    cases pieces' with
    | error e' => exact .inl ⟨e, rfl, by cases h; rfl⟩
    | ok ps' => cases h
  | ok ps =>
    cases pieces' with
    | error e' => cases h
    | ok ps' => exact .inr ⟨ps, ps', rfl, rfl, Except.ok.inj h⟩

theorem select_sameText (dialect : Dialect) (table : String) {q q' : Query α ι}
    (h : q.SameShape q') : SameText (select dialect table q) (select dialect table q') := by
  rw [select, select]
  rcases cases_of_outlined (outlined_where dialect h.filter) with
    ⟨e, he, he'⟩ | ⟨condition, condition', hc, hc', hcondition⟩
  · rw [he, he']
    exact .failed e
  · rw [hc, hc']
    rcases cases_of_outlined (outlined_order dialect h.order) with
      ⟨e, he, he'⟩ | ⟨order, order', ho, ho', horder⟩
    · rw [he, he']
      exact .failed e
    · rw [ho, ho', h.limit]
      apply sameText_ofPieces
      rw [outline_append, outline_append, outline_append, outline_append, horder, outline_cons,
        outline_cons, outline_cons, outline_cons, hcondition]

theorem count_sameText (dialect : Dialect) (table : String)
    {filter filter' : Option (Filter α ι)} (h : Option.Rel Filter.SameShape filter filter') :
    SameText (count dialect table filter) (count dialect table filter') := by
  rw [count, count]
  rcases cases_of_outlined (outlined_where dialect h) with
    ⟨e, he, he'⟩ | ⟨condition, condition', hc, hc', hcondition⟩
  · rw [he, he']
    exact .failed e
  · rw [hc, hc']
    apply sameText_ofPieces
    rw [outline_cons, outline_cons, outline_cons, outline_cons, hcondition]

/-- What queries of one shape hold of literals, needles, seeds and pivots is in the parameters of
their statements and not in the text. -/
theorem sameText_of_sameShape (dialect : Dialect) (table : String) {q q' : Query α ι}
    (h : q.SameShape q') :
    SameText (select dialect table q) (select dialect table q') ∧
      SameText (count dialect table q.filter) (count dialect table q'.filter) :=
  ⟨select_sameText dialect table h, count_sameText dialect table h.filter⟩

open Catalog in
/-- A needle, a name and an id that are written to leave their place in the text do not. -/
theorem sameText_of_hostile :
    let of : String → Value → UInt64 → Int64 → Query Show Int64 := fun needle name seed pivot =>
      { filter := some (.or (.not (.contains [Show.nameField, Show.slugField] needle))
          (.and (.oneOf Show.nameField [name, .null]) (.random seed .gt pivot)))
        order := some [⟨.random seed, false, true⟩, ⟨.field Show.idField, false, true⟩]
        limit := some 10 }
    let plain := of "bebop" (.text "a") 1 2
    let hostile := of "' or 1 = 1 --" (.text "x\"; drop table shows; --") 42 (-7)
    plain.SameShape hostile ∧
      SameText (select .postgres "shows" plain) (select .postgres "shows" hostile) ∧
      SameText (count .postgres "shows" plain.filter) (count .postgres "shows" hostile.filter) := by
  intro of plain hostile
  have hshape : plain.SameShape hostile :=
    { filter := .some (.or (.not (.contains _ _ _)) (.and (.oneOf _ rfl) (.random ..)))
      order := .some (.cons ⟨.random _ _, rfl, rfl⟩ (.cons ⟨.field _, rfl, rfl⟩ .nil))
      limit := rfl }
  exact ⟨hshape, sameText_of_sameShape .postgres "shows" hshape⟩

end Sql
end Repertory
