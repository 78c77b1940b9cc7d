import Repertory.Hash.Blake3
import Repertory.QueryError
import Repertory.Resource
import Repertory.Truth

/-!
# Filters

A filter is a condition on the rows of one type. Its leaves hold declared fields and typed values,
so it can be run on rows in memory (`Filter.eval`) as well as compiled for a database.

A row matches when the condition is true of it. Comparisons with a null are undecided, and so is
their negation; only `eq null` and `ne null` ask whether a field is null.
-/

namespace Repertory

inductive CmpOp where
  | eq | ne | gt | ge | lt | le
  deriving DecidableEq

namespace CmpOp

def keyword : CmpOp → String
  | eq => "eq"
  | ne => "ne"
  | gt => "gt"
  | ge => "ge"
  | lt => "lt"
  | le => "le"

def sql : CmpOp → String
  | eq => "="
  | ne => "<>"
  | gt => ">"
  | ge => ">="
  | lt => "<"
  | le => "<="

def read (s : String) : Option CmpOp :=
  match Text.asciiLower s with
  | "eq" | "=" | "==" => some eq
  | "ne" | "!=" => some ne
  | "gt" | ">" => some gt
  | "ge" | ">=" => some ge
  | "lt" | "<" => some lt
  | "le" | "<=" => some le
  | _ => none

def holds : CmpOp → Ordering → Bool
  | eq, o => o == .eq
  | ne, o => o != .eq
  | gt, o => o == .gt
  | ge, o => o != .lt
  | lt, o => o == .lt
  | le, o => o != .gt

def admitsNull : CmpOp → Bool
  | eq | ne => true
  | _ => false

end CmpOp

def randomKey (seed : UInt64) (id : String) : List UInt8 :=
  Blake3.hash (Number.unsignedText seed ++ id).toUTF8.toList

inductive Filter (α ι : Type) where
  | and (a b : Filter α ι)
  | or (a b : Filter α ι)
  | not (a : Filter α ι)
  /-- A field compared with a value; `eq null` means that the field is null. -/
  | cmp (op : CmpOp) (field : Field α) (value : Value)
  | has (field : Field α) (value : Value)
  | oneOf (field : Field α) (values : List Value)
  /-- One of the fields contains the text, in any case of letters. -/
  | contains (fields : List (Field α)) (needle : String)
  /-- The row compared with the row `pivot` in the random order of a seed. -/
  | random (seed : UInt64) (op : CmpOp) (pivot : ι)
  /-- A condition that can only be run. -/
  | satisfies (p : α → Bool)

namespace Filter

variable {α ι : Type}

def all (filters : List (Option (Filter α ι))) : Option (Filter α ι) :=
  match filters.filterMap id with
  | [] => none
  | first :: rest => some (rest.foldl and first)

def any (filters : List (Option (Filter α ι))) : Option (Filter α ι) :=
  match filters.filterMap id with
  | [] => none
  | first :: rest => some (rest.foldl or first)

def isOpaque : Filter α ι → Bool
  | satisfies _ => true
  | and a b | or a b => a.isOpaque || b.isOpaque
  | not a => a.isOpaque
  | _ => false

/-! ## Evaluation -/

def compareTruth (op : CmpOp) (value literal : Value) : Truth :=
  match op, literal with
  | .eq, .null => some value.isNull
  | .ne, .null => some !value.isNull
  | op, literal => (value.compare literal).map op.holds

/-- Whether a collection contains the value; undecided where the field holds no collection. -/
def hasTruth (value needle : Value) : Truth :=
  match value with
  | .list items => some (items.any fun v => v.compare needle == some .eq)
  | _ => none

/-- Whether a field's value contains the needle in any case of letters; undecided for null, and
false for values other than text. -/
def containsTruth (needle : String) (value : Value) : Truth :=
  match value with
  | .text s => some (Text.contains (Text.lowercase s) (Text.lowercase needle))
  | .null => none
  | _ => some false

variable [Identity ι] [Resource α ι]

def eval (row : α) : Filter α ι → Truth
  | and a b => (eval row a).and (eval row b)
  | or a b => (eval row a).or (eval row b)
  | not a => (eval row a).not
  | cmp op field value => compareTruth op (field.get row) value
  | has field value => hasTruth (field.get row) value
  | oneOf field values =>
    Truth.any (values.map fun v => ((field.get row).compare v).map (· == .eq))
  | contains fields needle => Truth.any (fields.map fun f => containsTruth needle (f.get row))
  | random seed op pivot =>
    some (op.holds (compare (randomKey seed (Identity.text (Resource.id row)))
      (randomKey seed (Identity.text pivot))))
  | satisfies p => some (p row)

def isMatch (filter : Filter α ι) (row : α) : Bool :=
  filter.eval row == some true

def idEq (id : ι) : Filter α ι :=
  cmp .eq (Resource.schema (α := α)).id (Identity.toValue id)

end Filter
end Repertory
