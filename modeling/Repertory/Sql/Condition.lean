import Repertory.Store.Basic

/-!
# Conditions of SQL

A filter becomes a condition on columns, which holds its literals as values and never as text. Some
conditions exist in one dialect only, and one that can only be run in memory exists in none.
-/

namespace Repertory
namespace Sql

inductive Dialect where
  | generic | sqlite | mysql | postgres
  deriving DecidableEq

inductive Condition where
  | and (a b : Condition)
  | or (a b : Condition)
  | not (a : Condition)
  | isNull (column : String)
  | isNotNull (column : String)
  | compare (column : String) (op : CmpOp) (value : Value)
  | equalsAny (value : Value) (column : String)
  /-- The column equals one of the values, of which there is at least one. -/
  | within (column : String) (first : Value) (rest : List Value)
  | like (first : String) (rest : List String) (pattern : String)
  | never
  /-- The hash of the row's id compared with that of another id, each behind a seed. -/
  | hashed (idColumn : String) (op : CmpOp) (seed pivot : String)

inductive OrderTerm where
  /-- A column; where nulls go is said for columns that may be null. -/
  | column (column : String) (descending : Bool) (nullsFirst : Option Bool)
  /-- Whether the column is null, which sorts nulls where `nulls first` cannot be said. -/
  | nullRank (column : String) (descending : Bool)
  | hashed (idColumn : String) (seed : String) (descending : Bool)

/-- A pattern character stands for itself behind a backslash. -/
def escapeLike : List Char → List Char
  | [] => []
  | c :: rest =>
    if c = '\\' ∨ c = '%' ∨ c = '_' then '\\' :: c :: escapeLike rest else c :: escapeLike rest

/-- The pattern of the texts that contain the needle, in lower case. -/
def likePattern (needle : String) : String :=
  String.ofList ('%' :: escapeLike (Text.lowercase needle).toList ++ ['%'])

def requirePostgres (dialect : Dialect) (what : String) : Except StoreError Unit :=
  if dialect = .postgres then .ok ()
  else .error (.unsupported (what ++ " is only available for Postgres"))

variable {α ι : Type}

/-- A comparison; only whether it is with null shows in the form. -/
def Condition.ofCmp (column : String) (op : CmpOp) (value : Value) : Condition :=
  match op, value with
  | .eq, .null => .isNull column
  | .ne, .null => .isNotNull column
  | op, value => .compare column op value

variable [Identity ι] [Resource α ι]

def Condition.ofFilter (dialect : Dialect) : Filter α ι → Except StoreError Condition
  | .and a b => do
    let a ← ofFilter dialect a
    let b ← ofFilter dialect b
    return .and a b
  | .or a b => do
    let a ← ofFilter dialect a
    let b ← ofFilter dialect b
    return .or a b
  | .not a => do
    let a ← ofFilter dialect a
    return .not a
  | .cmp op field value => .ok (.ofCmp field.column op value)
  | .has field value => do
    requirePostgres dialect "has"
    return .equalsAny value field.column
  | .oneOf _ [] => .ok .never
  | .oneOf field (first :: rest) => .ok (.within field.column first rest)
  | .contains [] _ => .ok .never
  | .contains (first :: rest) needle =>
    .ok (.like first.column (rest.map Field.column) (likePattern needle))
  | .random seed op pivot => do
    requirePostgres dialect "random ordering"
    return .hashed (Resource.schema (α := α)).id.column op (Number.unsignedText seed)
      (Identity.text pivot)
  | .satisfies _ => .error (.unsupported "in-memory predicates can not be compiled to SQL")

def OrderTerm.ofKey (dialect : Dialect) (key : OrderKey α) : Except StoreError (List OrderTerm) :=
  match key.target with
  | .random seed => do
    requirePostgres dialect "random ordering"
    return [.hashed (Resource.schema (α := α)).id.column (Number.unsignedText seed) key.descending]
  | .field field =>
    if !field.nullable then .ok [.column field.column key.descending none]
    else if dialect = .mysql then
      .ok [.nullRank field.column key.nullsFirst, .column field.column key.descending none]
    else .ok [.column field.column key.descending (some key.nullsFirst)]

def OrderTerm.ofOrder (dialect : Dialect) : OrderBy α → Except StoreError (List OrderTerm)
  | [] => .ok []
  | key :: rest => do
    let terms ← ofKey dialect key
    let others ← ofOrder dialect rest
    return terms ++ others

end Sql
end Repertory
