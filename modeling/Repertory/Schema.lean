import Repertory.Text.Case
import Repertory.Value

/-!
# Schemas

A schema names the fields of a type of rows. Query text can mention a row only through these names,
so a name that the schema lacks is found when the text is read and not when it is run.
-/

namespace Repertory

/-- The declared type of a field, which gives literals their type. -/
inductive FieldKind where
  | int
  | float
  | bool
  | text
  | date
  | uuid
  | choice (words : List String)
  | textList
  | intList
  deriving DecidableEq

namespace FieldKind

def isList : FieldKind → Bool
  | textList | intList => true
  | _ => false

/-- The kind of the items of a collection; any other kind is its own. -/
def element : FieldKind → FieldKind
  | textList => text
  | intList => int
  | kind => kind

def display : FieldKind → String
  | int => "integer"
  | float => "number"
  | bool => "boolean"
  | text => "text"
  | date => "date"
  | uuid => "uuid"
  | choice words => "one of " ++ "|".intercalate words
  | textList => "text list"
  | intList => "integer list"

/-- Whether a value belongs to the kind. A choice admits any text, since rows may hold words that
a literal could not. -/
def Admits : FieldKind → Value → Prop
  | int, .int _ => True
  | float, .float _ => True
  | bool, .bool _ => True
  | text, .text _ => True
  | date, .date _ => True
  | uuid, .uuid _ => True
  | choice _, .text _ => True
  | textList, .list items => ∀ v ∈ items, ∃ s, v = .text s
  | intList, .list items => ∀ v ∈ items, ∃ n, v = .int n
  | _, _ => False

end FieldKind

structure Field (α : Type) where
  name : String
  column : String
  kind : FieldKind
  nullable : Bool
  get : α → Value

/-- A part of a row that points to other rows. An edit that does not mention the part may keep the
old one. -/
structure RelationSlot (α : Type) where
  name : String
  isSet : α → Bool
  carry : α → α → α

structure Schema (α : Type) where
  id : Field α
  slug : Field α
  /-- All fields, the id and the slug first. -/
  fields : List (Field α)
  relations : List (RelationSlot α)
  /-- Fields to sort by, each with whether it descends. -/
  defaultSort : List (Field α × Bool)
  search : List (Field α)

namespace Schema

def findField {α : Type} (fields : List (Field α)) (name : String) : Option (Field α) :=
  fields.find? fun f => Text.sameName f.name name

def field? {α : Type} (schema : Schema α) (name : String) : Option (Field α) :=
  findField schema.fields name

/-- A row is as its schema says: each field yields a value of its kind, and null only where it may
be null. -/
def Conforms {α : Type} (schema : Schema α) (row : α) : Prop :=
  ∀ f ∈ schema.fields, f.kind.Admits (f.get row) ∨ f.nullable = true ∧ f.get row = .null

end Schema

/-- What a schema is declared from. The order and the search name fields, which have to exist. -/
structure SchemaDecl (α : Type) where
  id : Field α
  slug : Field α
  fields : List (Field α) := []
  relations : List (RelationSlot α) := []
  defaultSort : List (String × Bool) := []
  search : List String := []

namespace SchemaDecl

def resolveNames {α : Type} (fields : List (Field α)) :
    List String → Except String (List (Field α))
  | [] => .ok []
  | name :: rest =>
    match Schema.findField fields name with
    | none => .error name
    | some f => (resolveNames fields rest).map (f :: ·)

/-- The schema, or the first name in it that no field has. Rows are sorted by their slug unless the
declaration says otherwise. -/
def build {α : Type} (decl : SchemaDecl α) : Except String (Schema α) := do
  let fields := decl.id :: decl.slug :: decl.fields
  let sortFields ← resolveNames fields (decl.defaultSort.map Prod.fst)
  let search ← resolveNames fields decl.search
  let sort := sortFields.zip (decl.defaultSort.map Prod.snd)
  return {
    id := decl.id, slug := decl.slug, fields, relations := decl.relations,
    defaultSort := if sort.isEmpty then [(decl.slug, false)] else sort, search }

end SchemaDecl

end Repertory
