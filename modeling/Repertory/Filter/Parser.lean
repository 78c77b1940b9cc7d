import Repertory.Filter.Literal
import Repertory.Filter.Token

/-!
# Reading filters

The grammar, loosest binding first; words are taken in any case of letters.

    filter     = conjunction, { ("or" | "||"), conjunction } ;
    conjunction = operand, { ("and" | "&&"), operand } ;
    operand    = ("not" | "!"), operand | "(", filter, ")" | comparison ;
    comparison = field, operator, value | field, "has", value
               | field, "in", "[", [ value, { ",", value } ], "]" ;

Fields are looked up and literals are typed while the text is read. Each `not` and each parenthesis
takes one level from a budget (`maxDepth`), and the reader recurses on that budget; within a level
a chain of operands is read from left to right and joins to the left.
-/

namespace Repertory
namespace Filter

/-- The number of `not`s and parentheses that may enclose a part of a filter. -/
def maxDepth : Nat := 64

inductive ParseFault where
  | syntaxAt (fault : FaultAt)
  | query (error : QueryError)

/-- The rest of the text where the next token starts; empty at the end. -/
def here : List Lexeme → List Char
  | [] => []
  | l :: _ => l.text

def faultAt {β : Type} (fault : SyntaxFault) (lexemes : List Lexeme) : Except ParseFault β :=
  .error (.syntaxAt ⟨fault, here lexemes⟩)

def isKeyword (word : String) (symbol : Token) : Token → Bool
  | .word w => Text.sameName w word
  | token => token == symbol

def isOr : Token → Bool := isKeyword "or" .bothOr
def isAnd : Token → Bool := isKeyword "and" .bothAnd
def isNot : Token → Bool := isKeyword "not" .bang

inductive Relator where
  | cmp (op : CmpOp)
  | has
  | oneOf

def Relator.ofWord (w : String) : Option Relator :=
  match Text.asciiLower w with
  | "has" => some .has
  | "in" => some .oneOf
  | _ => (CmpOp.read w).map .cmp

section

variable {α ι : Type}

/-- A reader takes tokens from the front and gives its result together with the tokens behind it. -/
abbrev Reader (β : Type) := List Lexeme → Except ParseFault (β × List Lexeme)

def value (field : Field α) (kind : FieldKind) : Reader Value := fun lexemes =>
  let typed (raw : String) : Reader Value := fun rest =>
    match kind.literal raw with
    | some v => .ok (v, rest)
    | none => .error (.query (.invalidValue field.name raw (.ofKind kind)))
  match lexemes with
  | ⟨.word w, _⟩ :: rest => if Text.sameName w "null" then .ok (.null, rest) else typed w rest
  | ⟨.quoted s, _⟩ :: rest => typed s rest
  | _ => faultAt (.noValue field.name) lexemes

/-- Reads the values of a list from the first value on, up to the bracket that ends it. The number
bounds the values. -/
def listItems (field : Field α) : Nat → Reader (List Value)
  | 0, lexemes => faultAt .noListSeparator lexemes
  | n + 1, lexemes => do
    let (v, rest) ← value field field.kind lexemes
    match rest with
    | ⟨.comma, _⟩ :: rest =>
      let (vs, rest) ← listItems field n rest
      return (v :: vs, rest)
    | ⟨.closeList, _⟩ :: rest => return ([v], rest)
    | _ => faultAt .noListSeparator rest

def list (field : Field α) : Reader (List Value) := fun lexemes =>
  match lexemes with
  | ⟨.openList, _⟩ :: ⟨.closeList, _⟩ :: rest => .ok ([], rest)
  | ⟨.openList, _⟩ :: rest => listItems field (rest.length + 1) rest
  | _ => faultAt .noListOpening lexemes

def relator (field : Field α) : Reader Relator := fun lexemes =>
  match lexemes with
  | ⟨.op op, _⟩ :: rest => .ok (.cmp op, rest)
  | ⟨.word w, _⟩ :: rest =>
    match Relator.ofWord w with
    | some r => .ok (r, rest)
    | none => faultAt (.unknownOperator w) lexemes
  | _ => faultAt (.noOperator field.name) lexemes

def comparison (field : Field α) : Reader (Filter α ι) := fun lexemes => do
  match ← relator field lexemes with
  | (.cmp op, rest) =>
    if field.kind.isList then faultAt (.isCollection field.name) lexemes
    else
      let (v, rest) ← value field field.kind rest
      if v.isNull && !op.admitsNull then
        .error (.query (.invalidValue field.name "null" (.nonNull op.keyword)))
      else return (.cmp op field v, rest)
  | (.has, rest) =>
    if field.kind.isList then
      let (v, rest) ← value field field.kind.element rest
      return (.has field v, rest)
    else faultAt (.isNoCollection field.name) lexemes
  | (.oneOf, rest) =>
    if field.kind.isList then faultAt (.isCollection field.name) lexemes
    else
      let (vs, rest) ← list field rest
      return (.oneOf field vs, rest)

/-- Reads what may follow an operand: separators, each with one more operand. The number bounds the
operands. -/
def chainFrom (operand : Reader (Filter α ι)) (isSeparator : Token → Bool)
    (join : Filter α ι → Filter α ι → Filter α ι) : Nat → Filter α ι → Reader (Filter α ι)
  | 0, left, lexemes => .ok (left, lexemes)
  | _, left, [] => .ok (left, [])
  | n + 1, left, l :: rest =>
    if isSeparator l.token then do
      let (right, rest) ← operand rest
      chainFrom operand isSeparator join n (join left right) rest
    else .ok (left, l :: rest)

def chain (operand : Reader (Filter α ι)) (isSeparator : Token → Bool)
    (join : Filter α ι → Filter α ι → Filter α ι) : Reader (Filter α ι) := fun lexemes => do
  let (first, rest) ← operand lexemes
  chainFrom operand isSeparator join rest.length first rest

def expression (operand : Reader (Filter α ι)) : Reader (Filter α ι) :=
  chain (chain operand isAnd and) isOr or

variable [Identity ι] [Resource α ι]

def primary : Reader (Filter α ι) := fun lexemes =>
  match lexemes with
  | ⟨.word name, _⟩ :: rest =>
    match (Resource.schema (α := α)).field? name with
    | some field => comparison field rest
    | none => .error (.query (.unknownField (Resource.kind α) name))
  | _ => faultAt .noField lexemes

def operand : Nat → Reader (Filter α ι)
  | _, [] => faultAt .noField []
  | depth, l :: rest =>
    if isNot l.token then
      match depth with
      | 0 => faultAt (.tooDeep maxDepth) (l :: rest)
      | depth + 1 => do
        let (a, rest) ← operand depth rest
        return (.not a, rest)
    else if l.token = .openParen then
      match depth with
      | 0 => faultAt (.tooDeep maxDepth) (l :: rest)
      | depth + 1 => do
        let (a, rest) ← expression (operand depth) rest
        match rest with
        | ⟨.closeParen, _⟩ :: rest => return (a, rest)
        | _ => faultAt .noClosingParenthesis rest
    else primary (l :: rest)

def ofLexemes (lexemes : List Lexeme) : Except ParseFault (Filter α ι) := do
  match lexemes with
  | [] => faultAt .empty []
  | _ =>
    let (a, rest) ← expression (operand maxDepth) lexemes
    match rest with
    | [] => return a
    | l :: _ => faultAt (.trailing (String.ofList l.text)) rest

def ParseFault.locate (text : List Char) : ParseFault → QueryError
  | .query error => error
  | .syntaxAt ⟨.empty, _⟩ => .malformed .empty 0
  | .syntaxAt ⟨fault, rest⟩ => .malformed fault (byteLength text - byteLength rest)

def parse (text : String) : Except QueryError (Filter α ι) :=
  let chars := text.toList
  match Token.scan chars with
  | .error fault => .error (ParseFault.locate chars (.syntaxAt fault))
  | .ok lexemes => (ofLexemes lexemes).mapError (ParseFault.locate chars)

/-- Reads a filter that may be missing. A text of blanks is no filter; otherwise positions count
from the first character that is not blank. -/
def parse? (text : Option String) : Except QueryError (Option (Filter α ι)) :=
  match text.map Text.trim with
  | none => .ok none
  | some trimmed => if trimmed.isEmpty then .ok none else (parse trimmed).map some

end

end Filter
end Repertory
