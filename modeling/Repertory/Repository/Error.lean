import Repertory.Json.Basic
import Repertory.QueryError
import Repertory.Store.Basic

/-!
# Failures of repositories

A failure says during which operation it arose, of which kind it is, and which row it is about.
-/

namespace Repertory

inductive Operation where
  | get | getAll | count | search | create | createIfNotExists | edit | patch | delete | deleteAll
  | include
  deriving DecidableEq

namespace Operation

def word : Operation → String
  | get => "get"
  | getAll => "get_all"
  | count => "count"
  | search => "search"
  | create => "create"
  | createIfNotExists => "create_if_not_exists"
  | edit => "edit"
  | patch => "patch"
  | delete => "delete"
  | deleteAll => "delete_all"
  | .include => "include"

def all : List Operation :=
  [get, getAll, count, search, create, createIfNotExists, edit, patch, delete, deleteAll, .include]

def ofWord (s : String) : Option Operation :=
  all.find? fun op => op.word == s

end Operation

inductive ErrorKind where
  | notFound | duplicateResource | validationFailed | unsupportedOperation | storageError
  deriving DecidableEq

namespace ErrorKind

def word : ErrorKind → String
  | notFound => "not_found"
  | duplicateResource => "duplicate_resource"
  | validationFailed => "validation_failed"
  | unsupportedOperation => "unsupported_operation"
  | storageError => "storage_error"

def code : ErrorKind → String
  | notFound => "NOT_FOUND"
  | duplicateResource => "DUPLICATE_RESOURCE"
  | validationFailed => "VALIDATION_ERROR"
  | unsupportedOperation => "UNSUPPORTED_OPERATION"
  | storageError => "STORAGE_ERROR"

def ofWord (s : String) : Option ErrorKind :=
  [notFound, duplicateResource, validationFailed, unsupportedOperation, storageError].find?
    fun kind => kind.word == s

end ErrorKind

structure RowRef where
  id : String
  slug : String
  deriving DecidableEq

structure RepositoryError where
  operation : Operation
  kind : ErrorKind
  message : String
  entityType : Option String := none
  entityId : Option String := none
  /-- The row that already has the slug, for a duplicate. -/
  existing : Option RowRef := none
  deriving DecidableEq

namespace RepositoryError

def withEntity (entityType entityId : String) (e : RepositoryError) : RepositoryError :=
  { e with entityType := some entityType, entityId := some entityId }

def withOperation (operation : Operation) (e : RepositoryError) : RepositoryError :=
  { e with operation }

def withExisting (id slug : String) (e : RepositoryError) : RepositoryError :=
  { e with existing := some ⟨id, slug⟩ }

def notFound (entityType entityId : String) : RepositoryError :=
  withEntity entityType entityId ⟨.get, .notFound, "Resource not found", none, none, none⟩

def duplicate (entityType slug : String) : RepositoryError :=
  withEntity entityType slug
    ⟨.create, .duplicateResource, "Resource already exists", none, none, none⟩

def validationFailed (message : String) : RepositoryError :=
  ⟨.create, .validationFailed, message, none, none, none⟩

def readOnly (operation : Operation) (entityType : String) : RepositoryError :=
  ⟨operation, .unsupportedOperation, entityType ++ " resources are read-only", some entityType,
    none, none⟩

def storage (operation : Operation) (message : String) : RepositoryError :=
  ⟨operation, .storageError, message, none, none, none⟩

def ofStore (operation : Operation) : StoreError → RepositoryError
  | .conflict field value =>
    ⟨operation, .duplicateResource, "Resource already exists with " ++ field ++ " " ++ value, none,
      none, none⟩
  | .unsupported what => ⟨operation, .unsupportedOperation, what, none, none, none⟩
  | .notFound id => storage operation (StoreError.notFound id).message
  | .backend what => storage operation (StoreError.backend what).message

def ofQuery (error : QueryError) : RepositoryError :=
  ⟨.getAll, .validationFailed, error.message, none, none, none⟩

def isDuplicate (e : RepositoryError) : Bool := e.kind = .duplicateResource

def isNotFound (e : RepositoryError) : Bool := e.kind = .notFound

def display (e : RepositoryError) : String :=
  let entity :=
    match e.entityType, e.entityId with
    | some entityType, some entityId => " [" ++ entityType ++ ": " ++ entityId ++ "]"
    | _, _ => ""
  "Repository " ++ e.kind.word ++ " error during " ++ e.operation.word ++ ": " ++ e.message ++
    entity

def encode (e : RepositoryError) : Json :=
  .object [
    ("operation", .text e.operation.word), ("kind", .text e.kind.word),
    ("message", .text e.message), ("entity_type", .ofOption .text e.entityType),
    ("entity_id", .ofOption .text e.entityId),
    ("existing",
      .ofOption (fun r => .object [("id", .text r.id), ("slug", .text r.slug)]) e.existing)]

end RepositoryError

inductive Failure where
  | config (message : String)
  | repository (error : RepositoryError)
  | query (error : QueryError)
  | io (message : String)
  | json (message : String)

namespace Failure

def message : Failure → String
  | config message => "Configuration error: " ++ message
  | repository error => error.display
  | query error => "Invalid query: " ++ error.message
  | io message => "I/O error: " ++ message
  | json message => "JSON error: " ++ message

def code : Failure → String
  | config _ => "CONFIG_ERROR"
  | repository error => error.kind.code
  | query _ => ErrorKind.validationFailed.code
  | io _ => "IO_ERROR"
  | json _ => "JSON_ERROR"

def report (failure : Failure) : Json :=
  .object [("error", .text failure.message), ("code", .text failure.code)]

end Failure
end Repertory
