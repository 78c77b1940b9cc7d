import Repertory.Sql.Condition

/-!
# Statements of SQL

A statement is written as a list of pieces: fixed text, names, which are quoted, and values, which
become parameters. Only names and fixed text reach the text of a statement.
-/

namespace Repertory
namespace Sql

inductive Piece where
  | raw (s : String)
  | name (s : String)
  | value (v : Value)

structure Statement where
  sql : String
  params : List Value

namespace Dialect

def quoteChar (dialect : Dialect) : Char :=
  if dialect = .mysql then '\x60' else '"'

/-- A quoted name; a quote inside it is written twice. -/
def quote (dialect : Dialect) (name : String) : String :=
  let q := dialect.quoteChar
  String.ofList (q :: name.toList.flatMap (fun c => if c = q then [q, q] else [c]) ++ [q])

/-- The placeholder of the parameter with this number, counted from one. -/
def placeholder (dialect : Dialect) (number : Nat) : String :=
  if dialect = .postgres then "$" ++ String.ofList (Number.natText number) else "?"

end Dialect

def pieceText (dialect : Dialect) : Nat → List Piece → String
  | _, [] => ""
  | n, .raw s :: rest => s ++ pieceText dialect n rest
  | n, .name s :: rest => dialect.quote s ++ pieceText dialect n rest
  | n, .value _ :: rest => dialect.placeholder (n + 1) ++ pieceText dialect (n + 1) rest

def pieceValues : List Piece → List Value
  | [] => []
  | .value v :: rest => v :: pieceValues rest
  | _ :: rest => pieceValues rest

def separated (separator : String) : List (List Piece) → List Piece
  | [] => []
  | [part] => part
  | part :: rest => part ++ .raw separator :: separated separator rest

def hashedId (idColumn seed : String) : List Piece :=
  [.raw "md5(", .value (.text seed), .raw " || cast(", .name idColumn, .raw " as text))"]

/-- Where a pattern is escaped by the backslash anyway this need not be said. -/
def likeTerm (dialect : Dialect) (pattern column : String) : List Piece :=
  [.raw "lower(", .name column, .raw ") like ", .value (.text pattern)] ++
    if dialect = .mysql then [] else [.raw " escape '\\'"]

namespace Condition

/-- A condition in pieces. Everything but a leaf stands in parentheses. -/
def pieces (dialect : Dialect) : Condition → List Piece
  | .and a b => .raw "(" :: a.pieces dialect ++ .raw " and " :: b.pieces dialect ++ [.raw ")"]
  | .or a b => .raw "(" :: a.pieces dialect ++ .raw " or " :: b.pieces dialect ++ [.raw ")"]
  | .not a => .raw "not (" :: a.pieces dialect ++ [.raw ")"]
  | isNull column => [.name column, .raw " is null"]
  | isNotNull column => [.name column, .raw " is not null"]
  | compare column op v => [.name column, .raw (" " ++ op.sql ++ " "), .value v]
  | equalsAny v column => [.value v, .raw " = any(", .name column, .raw ")"]
  | within column first rest =>
    .name column :: .raw " in (" :: separated ", " ((first :: rest).map fun v => [.value v]) ++
      [.raw ")"]
  | like first rest pattern =>
    .raw "(" :: separated " or " ((first :: rest).map (likeTerm dialect pattern)) ++ [.raw ")"]
  | never => [.raw "1 = 0"]
  | hashed idColumn op seed pivot =>
    hashedId idColumn seed ++
      [.raw (" " ++ op.sql ++ " md5("), .value (.text seed), .raw " || ", .value (.text pivot),
        .raw ")"]

end Condition

namespace OrderTerm

def direction (descending : Bool) : String := if descending then " desc" else " asc"

def pieces : OrderTerm → List Piece
  | column c descending nullsFirst =>
    let nulls :=
      match nullsFirst with
      | none => ""
      | some true => " nulls first"
      | some false => " nulls last"
    [.name c, .raw (direction descending ++ nulls)]
  | nullRank c descending => [.name c, .raw (" is null" ++ direction descending)]
  | hashed idColumn seed descending => hashedId idColumn seed ++ [.raw (direction descending)]

end OrderTerm

def Statement.ofPieces (dialect : Dialect) (pieces : List Piece) : Statement :=
  ⟨pieceText dialect 0 pieces, pieceValues pieces⟩

variable {α ι : Type} [Identity ι] [Resource α ι]

def wherePieces (dialect : Dialect) (filter : Option (Filter α ι)) :
    Except StoreError (List Piece) :=
  match filter with
  | none => .ok []
  | some f => do
    let condition ← Condition.ofFilter dialect f
    return .raw " WHERE " :: condition.pieces dialect

def orderPieces (dialect : Dialect) (order : Option (OrderBy α)) :
    Except StoreError (List Piece) :=
  match order with
  | none => .ok []
  | some keys => do
    let terms ← OrderTerm.ofOrder dialect keys
    return .raw " ORDER BY " :: separated ", " (terms.map OrderTerm.pieces)

def limitPieces (limit : Option Nat) : List Piece :=
  match limit with
  | none => []
  | some n => [.raw (" LIMIT " ++ String.ofList (Number.natText n))]

def select (dialect : Dialect) (table : String) (q : Query α ι) : Except StoreError Statement := do
  let condition ← wherePieces dialect q.filter
  let order ← orderPieces dialect q.order
  return .ofPieces dialect
    (.raw "SELECT * FROM " :: .name table :: condition ++ order ++ limitPieces q.limit)

def count (dialect : Dialect) (table : String) (filter : Option (Filter α ι)) :
    Except StoreError Statement := do
  let condition ← wherePieces dialect filter
  return .ofPieces dialect (.raw "SELECT count(*) FROM " :: .name table :: condition)

end Sql
end Repertory
