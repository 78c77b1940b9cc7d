import Repertory.Schema

/-!
# Resources

A resource is a type of rows that can be stored and addressed: each row has an id, which the store
gives out and which never changes, and a slug, a name that is unique within the type.
-/

namespace Repertory

class Identity (ι : Type) extends Ord ι where
  decEq : DecidableEq ι
  trans : Std.TransOrd ι
  lawful : Std.LawfulEqOrd ι
  unassigned : ι
  /-- The id after `last`, the greatest one that was ever stored; none if there is no more. -/
  allocate : (last : Option ι) → Option ι
  read : String → Option ι
  text : ι → String
  toValue : ι → Value
  compare_toValue : ∀ a b, (toValue a).compare (toValue b) = some (compare a b)

namespace Identity

variable {ι : Type} [Identity ι]

instance : DecidableEq ι := Identity.decEq
instance : Std.TransOrd ι := Identity.trans
instance : Std.LawfulEqOrd ι := Identity.lawful

def isUnassigned (id : ι) : Bool :=
  id = unassigned

end Identity

/-- Numbers count up from one, above every number stored before. -/
instance : Identity Int64 where
  compare := Ord.compare
  decEq := inferInstance
  trans := inferInstanceAs (Std.TransOrd Int64)
  lawful := inferInstanceAs (Std.LawfulEqOrd Int64)
  unassigned := 0
  allocate last :=
    match last with
    | none => some 1
    | some n => Number.signed? (max n.toInt 0 + 1)
  read := Number.readSigned
  text := Number.signedText
  toValue := .int
  compare_toValue _ _ := rfl

/-- An unassigned identifier is the nil one; new ones carry a later time stamp than the last. -/
instance : Identity Uuid where
  compare := Ord.compare
  decEq := inferInstance
  trans := inferInstanceAs (Std.TransOrd Uuid)
  lawful := inferInstanceAs (Std.LawfulEqOrd Uuid)
  unassigned := Uuid.nil
  allocate last := some (Uuid.following last)
  read := Uuid.read
  text := Uuid.text
  toValue := .uuid
  compare_toValue _ _ := rfl

class Resource (α : Type) (ι : outParam Type) [Identity ι] where
  kind : String
  id : α → ι
  slug : α → String
  setId : ι → α → α
  schema : Schema α
  id_setId : ∀ i row, id (setId i row) = i := by intros; rfl
  slug_setId : ∀ i row, slug (setId i row) = slug row := by intros; rfl
  setId_id : ∀ row, setId (id row) row = row := by intros; rfl
  setId_setId : ∀ i j row, setId i (setId j row) = setId i row := by intros; rfl
  schema_id : ∀ row, schema.id.get row = Identity.toValue (id row) := by intros; rfl
  schema_slug : ∀ row, schema.slug.get row = .text (slug row) := by intros; rfl

end Repertory
