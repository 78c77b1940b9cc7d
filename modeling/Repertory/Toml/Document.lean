import Repertory.Toml.Scalar

/-!
# TOML documents

A document fills a tree of tables. Each table is defined in one place: by a header, by keys with
points in them, or as a value; a key is never set twice. A table that only lies on the way to others
may still get its own header.
-/

namespace Repertory
namespace Toml

inductive Origin where
  | implied
  /-- Keys with points in them lead through it. -/
  | dotted
  | header
  deriving DecidableEq

inductive Node where
  | value (v : Json)
  | table (origin : Origin) (entries : List (String × Node))
  /-- Tables under one key, the last one first. -/
  | tables (items : List (List (String × Node)))

abbrev Entries := List (String × Node)

namespace Entries

/-- Changes what a key leads to, in its place or at the end, if that is possible. -/
def alter (key : String) (change : Option Node → Option Node) : Entries → Option Entries
  | [] => (change none).map fun node => [(key, node)]
  | (k, node) :: rest =>
    if k = key then (change (some node)).map fun node => (k, node) :: rest
    else (alter key change rest).map ((k, node) :: ·)

/-- Changes the table at the end of a path. Missing tables on the way are made, and of several
tables under a key the last one is meant. The result is nothing if a part of the path is not a
table, or one that may not be entered. -/
def descend (made : Origin) (enter : Origin → Bool) (change : Origin → Entries → Option Entries) :
    List String → Origin → Entries → Option Entries
  | [], origin, entries => change origin entries
  | part :: path, _, entries =>
    alter part
      (fun
        | none => (descend made enter change path made []).map (.table made)
        | some (.table origin sub) =>
          if enter origin then (descend made enter change path origin sub).map (.table origin)
          else none
        | some (.tables (last :: before)) =>
          (descend made enter change path .header last).map fun last => .tables (last :: before)
        | some _ => none)
      entries

def add (key : String) (v : Json) : Entries → Option Entries :=
  alter key fun node => if node.isNone then some (.value v) else none

/-- Sets a key at the end of a path of keys. The path leads only through tables without headers, and
ends in one that such paths have made. -/
def assign (path : List String) (key : String) (v : Json) (entries : Entries) : Option Entries :=
  let change (origin : Origin) (entries : Entries) : Option Entries :=
    if path.isEmpty = decide (origin = .dotted) then none else add key v entries
  descend .dotted (· ≠ .header) change path .header entries

def openTable (path : List String) (key : String) : Entries → Option Entries :=
  let change (_ : Origin) : Entries → Option Entries :=
    alter key fun
      | none => some (.table .header [])
      | some (.table .implied sub) => some (.table .header sub)
      | some _ => none
  descend .implied (fun _ => true) change path .header

def openNext (path : List String) (key : String) : Entries → Option Entries :=
  let change (_ : Origin) : Entries → Option Entries :=
    alter key fun
      | none => some (.tables [[]])
      | some (.tables items) => some (.tables ([] :: items))
      | some _ => none
  descend .implied (fun _ => true) change path .header

def assignIn (header path : List String) (key : String) (v : Json) : Entries → Option Entries :=
  descend .implied (fun _ => true) (fun _ => assign path key v) header .header

end Entries

mutual

def Node.toJson : Node → Json
  | .value v => v
  | .table _ entries => .object (Node.entriesToJson entries)
  | .tables items => .array (Node.tablesToJson items).reverse

def Node.entriesToJson : List (String × Node) → List (String × Json)
  | [] => []
  | (key, node) :: rest => (key, node.toJson) :: Node.entriesToJson rest

def Node.tablesToJson : List (List (String × Node)) → List Json
  | [] => []
  | entries :: rest => .object (Node.entriesToJson entries) :: Node.tablesToJson rest

end

/-! ## Values -/

mutual

/-- Reads a value. The first number bounds the steps, the second the collections that may be opened
in each other. -/
def readValue : Nat → Nat → Reader Json
  | 0, _, _ => none
  | n + 1, depth, s =>
    match depth, s with
    | 0, '[' :: _ => none
    | 0, '\x7b' :: _ => none
    | depth + 1, '[' :: rest =>
      (readItems n depth [] rest).map fun (items, rest) => (.array items, rest)
    | depth + 1, '\x7b' :: rest =>
      match skipGap rest with
      | '\x7d' :: rest => some (.object [], rest)
      | rest =>
        (readEntries n depth [] rest).map fun (entries, rest) =>
          (.object (Node.entriesToJson entries), rest)
    | _, c :: _ =>
      if c = '"' ∨ c = '\x27' then (readString s).map fun (t, rest) => (.text t, rest)
      else readScalar s
    | _, [] => none

def readItems : Nat → Nat → List Json → Reader (List Json)
  | 0, _, _, _ => none
  | n + 1, depth, acc, s =>
    match skipLines false s with
    | ']' :: rest => some (acc.reverse, rest)
    | s =>
      match readValue n depth s with
      | none => none
      | some (item, rest) =>
        match skipLines false rest with
        | ',' :: rest => readItems n depth (item :: acc) rest
        | ']' :: rest => some ((item :: acc).reverse, rest)
        | _ => none

def readEntries : Nat → Nat → Entries → Reader Entries
  | 0, _, _, _ => none
  | n + 1, depth, acc, s =>
    match readKey s with
    | some ((path, key), '=' :: rest) =>
      match readValue n depth (skipGap rest) with
      | none => none
      | some (v, rest) =>
        match acc.assign path key v, skipGap rest with
        | some acc, ',' :: rest => readEntries n depth acc rest
        | some acc, '\x7d' :: rest => some (acc, rest)
        | _, _ => none
    | _ => none

end

/-! ## Lines -/

def readHeader (tables : Entries) (s : List Char) :
    Option (List String × Entries × List Char) := do
  match s with
  | '[' :: rest =>
    let ((path, key), rest) ← readKey rest
    let rest ← expect ']' (← expect ']' rest)
    return (path ++ [key], ← tables.openNext path key, ← readLineEnd rest)
  | _ =>
    let ((path, key), rest) ← readKey s
    let rest ← expect ']' rest
    return (path ++ [key], ← tables.openTable path key, ← readLineEnd rest)

def readAssignment (header : List String) (tables : Entries) (s : List Char) :
    Option (Entries × List Char) := do
  let ((path, key), rest) ← readKey s
  let rest ← expect '=' rest
  let (v, rest) ← readValue (2 * rest.length + 2) maxDepth (skipGap rest)
  return (← tables.assignIn header path key v, ← readLineEnd rest)

def readTables : Nat → List String → Entries → List Char → Option Entries
  | 0, _, _, _ => none
  | n + 1, header, tables, s =>
    match skipLines false s with
    | [] => some tables
    | '[' :: rest => do
      let (header, tables, rest) ← readHeader tables rest
      readTables n header tables rest
    | s => do
      let (tables, rest) ← readAssignment header tables s
      readTables n header tables rest

def read (text : String) : Option Json :=
  let s :=
    match text.toList with
    | '\ufeff' :: rest => rest
    | s => s
  (readTables (s.length + 1) [] [] s).map fun tables => .object (Node.entriesToJson tables)

end Toml
end Repertory
