import Repertory.Number.Binary64
import Repertory.Number.Integer

/-!
# JSON

Rows come and go as JSON values. A number keeps whether it was written as an integer or as a
floating-point number, since an integer field takes only the former. An object is a list of entries
with distinct keys.

A text may have a part with the form of a value that stands for none. A draft, which is what a text
says before anybody asks whether it makes sense, keeps the place of such a part, and it may name a
key of an object twice.
-/

namespace Repertory

/-- A JSON value. Integers lie between the least signed and the greatest unsigned one of 64 bits. -/
inductive Json where
  | null
  | bool (b : Bool)
  | int (n : Int)
  | float (x : Binary64)
  | text (s : String)
  | array (items : List Json)
  | object (entries : List (String × Json))
  /-- A part of a draft that is no value: a number beyond the range of numbers, or text with half of
  a surrogate pair. -/
  | unusable

namespace Json

instance : Inhabited Json := ⟨null⟩

/-- The entries with `key` set to a value, in the place of the entry that had the key. -/
def setEntry (key : String) (value : Json) : List (String × Json) → List (String × Json)
  | [] => [(key, value)]
  | (k, v) :: rest => if k = key then (key, value) :: rest else (k, v) :: setEntry key value rest

def setAll (changes : List (String × Json)) (entries : List (String × Json)) :
    List (String × Json) :=
  changes.foldl (fun acc (k, v) => setEntry k v acc) entries

mutual

/-- A value with another one laid over it. Objects are laid over objects entry by entry; any other
value hides what is below it. -/
def overlay (below : Json) : Json → Json
  | object entries =>
    match below with
    | object under => object (overlayEntries under entries)
    | _ => object entries
  | above => above

def overlayEntries (under : List (String × Json)) :
    List (String × Json) → List (String × Json)
  | [] => under
  | (key, value) :: rest =>
    let value :=
      match under.lookup key with
      | some below => overlay below value
      | none => value
    overlayEntries (setEntry key value under) rest

end

mutual

/-- The value that a draft stands for, if every part of it is one. Of the values under one key the
last counts. -/
def settled : Json → Option Json
  | unusable => none
  | array items => (settledItems items).map array
  | object entries => (settledEntries [] entries).map object
  | j => some j

def settledItems : List Json → Option (List Json)
  | [] => some []
  | item :: rest => do return (← settled item) :: (← settledItems rest)

def settledEntries (acc : List (String × Json)) :
    List (String × Json) → Option (List (String × Json))
  | [] => some acc
  | (key, value) :: rest => do settledEntries (setEntry key (← settled value) acc) rest

end

def get? (key : String) : Json → Option Json
  | object entries => entries.lookup key
  | _ => none

def ofEntries (entries : List (String × Option Json)) : Json :=
  object (entries.filterMap fun (k, v) => v.map (k, ·))

def ofOption {α : Type} (f : α → Json) : Option α → Json
  | some a => f a
  | none => null

mutual

def sorted : Json → Json
  | array items => array (sortedItems items)
  | object entries =>
    object ((sortedEntries entries).mergeSort fun a b => compare a.1 b.1 != .gt)
  | j => j

def sortedItems : List Json → List Json
  | [] => []
  | item :: rest => item.sorted :: sortedItems rest

def sortedEntries : List (String × Json) → List (String × Json)
  | [] => []
  | (key, value) :: rest => (key, value.sorted) :: sortedEntries rest

end

def ofSigned (n : Int64) : Json := int n.toInt

def ofUnsigned (n : UInt64) : Json := int n.toNat

end Json
end Repertory
