import Repertory.Schema

/-!
# Faults in query text

Filters, sorts and lists of relations are checked when their text is read. Each fault says what is
wrong and what it is about; the wording is in `QueryError.message` alone.
-/

namespace Repertory

inductive SyntaxFault where
  | empty
  | openString
  /-- One of two equal characters stands alone. -/
  | lone (c : Char)
  | tooDeep (limit : Nat)
  | trailing (rest : String)
  | noClosingParenthesis
  | noField
  | noOperator (field : String)
  | unknownOperator (word : String)
  | isCollection (field : String)
  | isNoCollection (field : String)
  | noListOpening
  | noListSeparator
  | noValue (field : String)
  deriving DecidableEq

namespace SyntaxFault

def message : SyntaxFault → String
  | empty => "Empty filter"
  | openString => "Unterminated string"
  | lone c => "Expected `" ++ String.ofList [c, c] ++ "`"
  | tooDeep limit => "Filter nests deeper than " ++ toString limit ++ " levels"
  | trailing rest => "Unexpected characters after expression: '" ++ rest ++ "'"
  | noClosingParenthesis => "Expected closing parenthesis"
  | noField => "Expected a field name"
  | noOperator field => "Expected an operator after `" ++ field ++ "`"
  | unknownOperator word => "Unknown operator: '" ++ word ++ "'"
  | isCollection field => "`" ++ field ++ "` is a collection, use `has`"
  | isNoCollection field => "`has` requires a collection field, `" ++ field ++ "` is not one"
  | noListOpening => "Expected `[` after `in`"
  | noListSeparator => "Expected `,` or `]`"
  | noValue field => "Expected a value for `" ++ field ++ "`"

end SyntaxFault

inductive Expected where
  | ofKind (kind : FieldKind)
  | nonNull (operator : String)
  | idOf (resource : String)
  deriving DecidableEq

namespace Expected

def message : Expected → String
  | ofKind kind => kind.display
  | nonNull operator => "a non-null value for `" ++ operator ++ "`"
  | idOf resource => "an id of " ++ resource

end Expected

inductive SortFault where
  | emptyKey
  | badSeed
  | badDirection (direction : String)
  deriving DecidableEq

namespace SortFault

def message : SortFault → String
  | emptyKey => "empty sort key"
  | badSeed => "invalid random seed"
  | badDirection direction =>
    "the sort order, if set, should be :asc or :desc but it was :" ++ direction

end SortFault

/-- A fault in query text. Positions count bytes of the text in UTF-8. -/
inductive QueryError where
  | unknownField (resource field : String)
  | malformed (fault : SyntaxFault) (position : Nat)
  | invalidValue (field value : String) (expected : Expected)
  | invalidSort (token : String) (fault : SortFault)
  | unknownRelation (resource relation : String)
  | manyValued (resource relation : String)
  | emptySlug
  deriving DecidableEq

namespace QueryError

def message : QueryError → String
  | unknownField resource field => "Unknown field `" ++ field ++ "` on " ++ resource
  | malformed fault position =>
    "Invalid filter at position " ++ toString position ++ ": " ++ fault.message
  | invalidValue field value expected =>
    "Invalid value `" ++ value ++ "` for field `" ++ field ++ "`: expected " ++ expected.message
  | invalidSort token fault => "Invalid sort `" ++ token ++ "`: " ++ fault.message
  | unknownRelation resource relation => "Unknown relation `" ++ relation ++ "` on " ++ resource
  | manyValued resource relation =>
    "Relation `" ++ relation ++ "` on " ++ resource ++ " is multi-valued and cannot be included"
  | emptySlug => "A slug can not be empty"

def subject : QueryError → Option String
  | unknownField _ field => some field
  | invalidValue field _ _ => some field
  | invalidSort token _ => some token
  | unknownRelation _ relation => some relation
  | manyValued _ relation => some relation
  | malformed _ _ => none
  | emptySlug => none

end QueryError
end Repertory
