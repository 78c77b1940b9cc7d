import Repertory.Date
import Repertory.Number.FloatText
import Repertory.Uuid

/-!
# Field values

A row is read through its fields, and a field yields one of these values. Filters compare values
with `Value.compare`, which is undecided where a null or two unrelated types meet. Orders compare
them with `Value.order`, which always decides.
-/

namespace Repertory

inductive Value where
  | null
  | bool (b : Bool)
  | int (n : Int64)
  | float (x : Binary64)
  | text (s : String)
  | date (d : Date)
  | uuid (u : Uuid)
  | list (items : List Value)

namespace Value

mutual

/-- Decides whether two values are the same, bit by bit in floating-point numbers. -/
def same : Value → Value → Bool
  | null, null => true
  | bool a, bool b => a == b
  | int a, int b => a == b
  | float a, float b => a == b
  | text a, text b => a == b
  | date a, date b => a == b
  | uuid a, uuid b => a == b
  | list a, list b => sameList a b
  | _, _ => false

def sameList : List Value → List Value → Bool
  | [], [] => true
  | a :: as, b :: bs => same a b && sameList as bs
  | _, _ => false

end

mutual

theorem same_iff : ∀ {a b : Value}, same a b = true ↔ a = b
  | null, b => by cases b <;> simp [same]
  | bool _, b => by cases b <;> simp [same]
  | int _, b => by cases b <;> simp [same]
  | float _, b => by cases b <;> simp [same]
  | text _, b => by cases b <;> simp [same]
  | date _, b => by cases b <;> simp [same]
  | uuid _, b => by cases b <;> simp [same]
  | list as, b => by
    cases b <;> simp [same]
    exact sameList_iff

theorem sameList_iff : ∀ {as bs : List Value}, sameList as bs = true ↔ as = bs
  | [], bs => by cases bs <;> simp [sameList]
  | a :: as, bs => by
    cases bs with
    | nil => simp [sameList]
    | cons b bs =>
      have head := @same_iff a b
      have tail := @sameList_iff as bs
      simp [sameList, head, tail]

end

instance : DecidableEq Value := fun _ _ => decidable_of_iff _ same_iff

def isNull : Value → Bool
  | null => true
  | _ => false

def asText : Value → Option String
  | text s => some s
  | _ => none

def ofOption {α : Type} (f : α → Value) : Option α → Value
  | some a => f a
  | none => null

/-! ## Comparison -/

mutual

/-- Compares two values of related types. Integers and floating-point numbers compare as numbers,
the integer rounded to the nearest one. The comparison with a null is undecided. -/
def compare : Value → Value → Option Ordering
  | bool a, bool b => some (Ord.compare a b)
  | int a, int b => some (Ord.compare a b)
  | float a, float b => some (Ord.compare a b)
  | int a, float b => some (Ord.compare (Binary64.ofInt a.toInt) b)
  | float a, int b => some (Ord.compare a (Binary64.ofInt b.toInt))
  | text a, text b => some (Ord.compare a b)
  | date a, date b => some (Ord.compare a b)
  | uuid a, uuid b => some (Ord.compare a b)
  | list a, list b => compareList a b
  | _, _ => none

/-- Compares lists by the first items that differ; a list comes after its beginnings. -/
def compareList : List Value → List Value → Option Ordering
  | [], [] => some .eq
  | [], _ :: _ => some .lt
  | _ :: _, [] => some .gt
  | a :: as, b :: bs =>
    match compare a b with
    | some .eq => compareList as bs
    | decided => decided

end

def rank : Value → Nat
  | null => 0
  | bool _ => 1
  | int _ => 2
  | float _ => 2
  | text _ => 3
  | date _ => 4
  | uuid _ => 5
  | list _ => 6

/-- The order of all values. Null comes last, and values of unrelated types are ordered by their
types. -/
def order (a b : Value) : Ordering :=
  match a.isNull, b.isNull with
  | true, true => .eq
  | true, false => .gt
  | false, true => .lt
  | false, false => (a.compare b).getD (Ord.compare a.rank b.rank)

/-! ## Text -/

mutual

def display : Value → String
  | null => "null"
  | bool b => if b then "true" else "false"
  | int n => Number.signedText n
  | float x => x.text
  | text s => "\"" ++ s ++ "\""
  | date d => d.text
  | uuid u => u.text
  | list items => "[" ++ displayItems items ++ "]"

def displayItems : List Value → String
  | [] => ""
  | [item] => display item
  | item :: rest => display item ++ ", " ++ displayItems rest

end

end Value
end Repertory
