import Repertory.QueryError
import Repertory.Resource
import Repertory.Text.Split

/-!
# What callers write to sort rows

A sorting is a list of terms, each of which breaks the ties that the terms before it leave. A term
names a field, stands for the order of the schema, or asks for a random order; a random order is
fixed by its seed, and a term without a seed takes the next of the seeds that the reader is given.
-/

namespace Repertory

inductive SortTerm (α : Type) where
  | default
  | by (field : Field α) (descending : Bool)
  | random (seed : UInt64)

abbrev Sorting (α : Type) := List (SortTerm α)

namespace SortTerm

variable {α ι : Type}

def display : SortTerm α → String
  | default => "default"
  | .by field descending => if descending then field.name ++ ":desc" else field.name
  | random seed => "random:" ++ Number.unsignedText seed

def readDirection (token : String) : Option (List Char) → Except QueryError Bool
  | none => .ok false
  | some order =>
    let word := Text.asciiLower (String.ofList order)
    if word = "asc" then .ok false
    else if word = "desc" then .ok true
    else .error (.invalidSort token (.badDirection word))

def readSeed (token : String) (seed : Option (List Char)) : Except QueryError UInt64 :=
  match seed.bind fun s => Number.readUnsigned (String.ofList s) with
  | some seed => .ok seed
  | none => .error (.invalidSort token .badSeed)

variable [Identity ι] [Resource α ι]

/-- Reads a term: `default`, `random`, `random:seed`, or a field with an optional direction. -/
def read (seed : UInt64) (token : String) : Except QueryError (SortTerm α) :=
  if token.isEmpty then .error (.invalidSort token .emptyKey)
  else if Text.sameName token "default" then .ok default
  else if Text.sameName token "random" then .ok (random seed)
  else
    let (keyChars, order) := Text.splitFirst ':' token.toList
    let key := String.ofList keyChars
    if Text.sameName key "random" then (readSeed token order).map random
    else do
      let descending ← readDirection token order
      match (Resource.schema (α := α)).field? key with
      | some field => .ok (.by field descending)
      | none => .error (.unknownField (Resource.kind α) key)

end SortTerm

namespace Sorting

variable {α ι : Type}

def display (sorting : Sorting α) : String :=
  ",".intercalate (sorting.map SortTerm.display)

/-- Whether the sorting says no more than that the schema's order holds. -/
def isDefault : Sorting α → Bool
  | [.default] => true
  | _ => false

variable [Identity ι] [Resource α ι]

def readTerms (seeds : Nat → UInt64) : Nat → List String → Except QueryError (Sorting α)
  | _, [] => .ok []
  | n, token :: rest => do
    let term ← SortTerm.read (seeds n) token
    let terms ← readTerms seeds (n + 1) rest
    return term :: terms

/-- Reads terms between commas, each with its own seed in case it needs one. No text, or one of
blanks, is the schema's order. -/
def read (seeds : Nat → UInt64) (text : Option String) : Except QueryError (Sorting α) :=
  match text.map Text.trim with
  | none => .ok [.default]
  | some trimmed =>
    if trimmed.isEmpty then .ok [.default] else readTerms seeds 0 (Text.listParts trimmed)

end Sorting
end Repertory
