import Repertory.Proofs.Number.Integer
import Repertory.Sql.Statement

/-!
# Symbols of SQL text

The text of a statement is read from left to right, one character after the other. What was read of
a word, an operator or a quoted part is kept (`Mode`) until a character shows that it has ended: a
quote inside a quoted part is written twice, so only the character behind a quote can tell whether
it was the last one.
-/

namespace Repertory
namespace Sql

inductive Keyword where
  | SELECT | COUNT | FROM | WHERE | ORDER | BY | LIMIT
  | AND | OR | NOT | IS | NULL | IN | LIKE | ESCAPE | ANY
  | LOWER | MD5 | CAST | AS | TEXT
  | ASC | DESC | NULLS | FIRST | LAST
  deriving DecidableEq

def Keyword.ofWord (s : String) : Option Keyword :=
  match s with
  | "select" => some SELECT
  | "count" => some COUNT
  | "from" => some FROM
  | "where" => some WHERE
  | "order" => some ORDER
  | "by" => some BY
  | "limit" => some LIMIT
  | "and" => some AND
  | "or" => some OR
  | "not" => some NOT
  | "is" => some IS
  | "null" => some NULL
  | "in" => some IN
  | "like" => some LIKE
  | "escape" => some ESCAPE
  | "any" => some ANY
  | "lower" => some LOWER
  | "md5" => some MD5
  | "cast" => some CAST
  | "as" => some AS
  | "text" => some TEXT
  | "asc" => some ASC
  | "desc" => some DESC
  | "nulls" => some NULLS
  | "first" => some FIRST
  | "last" => some LAST
  | _ => none

inductive Symbol where
  | key (word : Keyword)
  /-- A quoted name, without its quotes. -/
  | name (s : String)
  | text (s : String)
  | number (n : Nat)
  | openParen
  | closeParen
  | comma
  | star
  | concat
  | op (op : CmpOp)
  /-- The place of a parameter, with its number where it has one. -/
  | mark (number : Option Nat)
  /-- A literal in the place of its parameter. -/
  | value (v : Value)

namespace Symbol

def ofWord (dialect : Dialect) (word : List Char) : Option Symbol :=
  match word with
  | '$' :: digits =>
    if dialect = .postgres then (Number.readDigits digits).map fun n => .mark (some n) else none
  | _ =>
    match Number.readDigits word with
    | some n => some (.number n)
    | none => (Keyword.ofWord (Text.asciiLower (String.ofList word))).map .key

def ofOperator : List Char → Option Symbol
  | ['='] => some (.op .eq)
  | ['<', '>'] => some (.op .ne)
  | ['>'] => some (.op .gt)
  | ['>', '='] => some (.op .ge)
  | ['<'] => some (.op .lt)
  | ['<', '='] => some (.op .le)
  | ['|', '|'] => some .concat
  | _ => none

end Symbol

def isWordChar (c : Char) : Bool :=
  c.isAlphanum || c == '_' || c == '$'

def isOperatorChar (c : Char) : Bool :=
  c == '=' || c == '<' || c == '>' || c == '|'

/-- What was read of a symbol so far, the last character first. -/
inductive Mode where
  | between
  | word (read : List Char)
  | operator (read : List Char)
  | quoted (quote : Char) (read : List Char)
  /-- Behind a quote, which is the last one unless another follows. -/
  | closing (quote : Char) (read : List Char)

namespace Mode

/-- The symbol that ends here, if one does. -/
def symbols (dialect : Dialect) : Mode → Option (List Symbol)
  | between => some []
  | word read => (Symbol.ofWord dialect read.reverse).map ([·])
  | operator read => (Symbol.ofOperator read.reverse).map ([·])
  | quoted _ _ => none
  | closing quote read =>
    let s := String.ofList read.reverse
    some [if quote = '\'' then .text s else .name s]

def start (dialect : Dialect) (c : Char) : Option (List Symbol × Mode) :=
  if c = ' ' then some ([], between)
  else if isWordChar c then some ([], word [c])
  else if isOperatorChar c then some ([], operator [c])
  else if c = '(' then some ([.openParen], between)
  else if c = ')' then some ([.closeParen], between)
  else if c = ',' then some ([.comma], between)
  else if c = '*' then some ([.star], between)
  else if c = '\'' then some ([], quoted c [])
  else if c = dialect.quoteChar then some ([], quoted c [])
  else if c = '?' ∧ dialect ≠ .postgres then some ([.mark none], between)
  else none

/-- What was read ends before this character, which starts something new. -/
def restart (dialect : Dialect) (mode : Mode) (c : Char) : Option (List Symbol × Mode) := do
  let ended ← mode.symbols dialect
  let (symbols, next) ← start dialect c
  return (ended ++ symbols, next)

def step (dialect : Dialect) : Mode → Char → Option (List Symbol × Mode)
  | between, c => start dialect c
  | word read, c =>
    if isWordChar c then some ([], word (c :: read)) else restart dialect (word read) c
  | operator read, c =>
    if isOperatorChar c then some ([], operator (c :: read)) else restart dialect (operator read) c
  | quoted quote read, c =>
    if c = quote then some ([], closing quote read) else some ([], quoted quote (c :: read))
  | closing quote read, c =>
    if c = quote then some ([], quoted quote (c :: read))
    else restart dialect (closing quote read) c

end Mode

def run (dialect : Dialect) : Mode → List Char → Option (List Symbol × Mode)
  | mode, [] => some ([], mode)
  | mode, c :: rest => do
    let (symbols, next) ← mode.step dialect c
    let (more, last) ← run dialect next rest
    return (symbols ++ more, last)

def lexFrom (dialect : Dialect) (mode : Mode) (s : List Char) : Option (List Symbol) := do
  let (symbols, last) ← run dialect mode s
  return symbols ++ (← last.symbols dialect)

def lex (dialect : Dialect) (s : List Char) : Option (List Symbol) := lexFrom dialect .between s

/-! ## Texts one behind the other -/

section

variable {dialect : Dialect} {mode middle : Mode} {front rest : List Char}
  {symbols ended : List Symbol}

theorem run_append (h : run dialect mode front = some (symbols, middle)) (rest : List Char) :
    run dialect mode (front ++ rest) =
      (run dialect middle rest).map fun result => (symbols ++ result.1, result.2) := by
  induction front generalizing mode symbols with
  | nil =>
    cases h
    rw [List.nil_append]
    exact Option.map_id'.symm
  | cons c front ih =>
    rw [run] at h
    obtain ⟨⟨first, next⟩, hstep, h⟩ := Option.bind_eq_some_iff.mp h
    obtain ⟨⟨more, last⟩, hrun, h⟩ := Option.bind_eq_some_iff.mp h
    cases h
    rw [List.cons_append, run, hstep]
    show (do
      let (more, last) ← run dialect next (front ++ rest)
      return (first ++ more, last)) = _
    rw [ih hrun]
    cases run dialect middle rest with
    | none => rfl
    | some result => exact congrArg some (congrArg (·, result.2) (List.append_assoc ..).symm)

theorem lexFrom_append (h : run dialect mode front = some (symbols, middle)) (rest : List Char) :
    lexFrom dialect mode (front ++ rest) = (lexFrom dialect middle rest).map (symbols ++ ·) := by
  rw [lexFrom, run_append h, lexFrom]
  cases run dialect middle rest with
  | none => rfl
  | some result =>
    obtain ⟨more, last⟩ := result
    show (do return symbols ++ more ++ (← last.symbols dialect)) =
      (do return more ++ (← last.symbols dialect)).map (symbols ++ ·)
    cases last.symbols dialect with
    | none => rfl
    | some ended => exact congrArg some (List.append_assoc ..)

theorem lexFrom_cons {c : Char} (h : mode.step dialect c = some (symbols, middle))
    (rest : List Char) :
    lexFrom dialect mode (c :: rest) = (lexFrom dialect middle rest).map (symbols ++ ·) := by
  have hrun : run dialect mode [c] = some (symbols, middle) := by
    rw [run, h]
    show some (symbols ++ [], middle) = _
    rw [List.append_nil]
  exact lexFrom_append hrun rest

/-- A character before which anything read so far has ended. -/
def isBreak (c : Char) : Bool := c == ' ' || c == ')' || c == ','

def Breaks (rest : List Char) : Prop := ∀ c ∈ rest.head?, isBreak c = true

/-- A break ends what was read. -/
def Mode.isRegular : Mode → Bool
  | .quoted _ _ => false
  | .closing quote _ => !isBreak quote
  | _ => true

theorem step_break {c : Char} (hmode : mode.isRegular = true) (hc : isBreak c = true) :
    mode.step dialect c = mode.restart dialect c := by
  have hcases : c = ' ' ∨ c = ')' ∨ c = ',' := by
    simpa [isBreak, or_assoc] using hc
  cases mode with
  | between =>
    show Mode.start dialect c = Mode.restart dialect .between c
    rw [Mode.restart]
    cases Mode.start dialect c <;> rfl
  | word read =>
    have hword : isWordChar c = false := by rcases hcases with rfl | rfl | rfl <;> rfl
    rw [Mode.step, hword]
    rfl
  | operator read =>
    have hop : isOperatorChar c = false := by rcases hcases with rfl | rfl | rfl <;> rfl
    rw [Mode.step, hop]
    rfl
  | quoted => cases hmode
  | closing quote read =>
    have hne : c ≠ quote := by
      rintro rfl
      rw [Mode.isRegular, hc] at hmode
      cases hmode
    rw [Mode.step, if_neg hne]

theorem lexFrom_break (hmode : mode.isRegular = true) (hended : mode.symbols dialect = some ended)
    (hrest : Breaks rest) :
    lexFrom dialect mode rest = (lex dialect rest).map (ended ++ ·) := by
  cases rest with
  | nil =>
    have hend : lexFrom dialect mode [] = mode.symbols dialect := by
      show (do return [] ++ (← mode.symbols dialect)) = mode.symbols dialect
      cases mode.symbols dialect <;> rfl
    rw [hend, hended, show lex dialect [] = some [] from rfl, Option.map_some, List.append_nil]
  | cons c rest =>
    have hstep : mode.step dialect c = mode.restart dialect c := step_break hmode (hrest c rfl)
    rw [Mode.restart, hended] at hstep
    cases hstart : Mode.start dialect c with
    | none =>
      have hnone : mode.step dialect c = none := by
        rw [hstep, hstart]
        rfl
      have hnone' : Mode.between.step dialect c = none := hstart
      rw [lex, lexFrom, run, hnone, lexFrom, run, hnone']
      rfl
    | some result =>
      obtain ⟨first, next⟩ := result
      have hnext : mode.step dialect c = some (ended ++ first, next) := by
        rw [hstep, hstart]
        rfl
      have hbetween : Mode.between.step dialect c = some (first, next) := hstart
      rw [lex, lexFrom_cons hnext, lexFrom_cons hbetween, Option.map_map]
      exact congrArg (Option.map · _) (funext fun behind => List.append_assoc ..)

theorem run_cons {c : Char} (h : mode.step dialect c = some ([], middle)) (rest : List Char) :
    run dialect mode (c :: rest) = run dialect middle rest := by
  rw [run, h]
  show (do
    let (more, last) ← run dialect middle rest
    return ([] ++ more, last)) = run dialect middle rest
  cases run dialect middle rest <;> rfl

end

/-! ## Names, numbers and places of parameters -/

section

variable {dialect : Dialect}

theorem run_quoted (quote : Char) (name read : List Char) :
    run dialect (.quoted quote read)
        (name.flatMap (fun c => if c = quote then [quote, quote] else [c]) ++ [quote]) =
      some ([], .closing quote (name.reverse ++ read)) := by
  have hquote : ∀ read, Mode.step dialect (.quoted quote read) quote =
      some ([], .closing quote read) := fun read => if_pos rfl
  induction name generalizing read with
  | nil =>
    rw [List.flatMap_nil, List.nil_append, run_cons (hquote read)]
    rfl
  | cons c name ih =>
    have hrest := ih (c :: read)
    rw [List.flatMap_cons, List.append_assoc, List.reverse_cons, List.append_assoc name.reverse,
      List.singleton_append]
    by_cases hc : c = quote
    · subst hc
      have hdoubled : Mode.step dialect (.closing c read) c = some ([], .quoted c (c :: read)) :=
        if_pos rfl
      rw [if_pos rfl, List.cons_append, List.singleton_append, run_cons (hquote read),
        run_cons hdoubled, hrest]
    · have hplain : Mode.step dialect (.quoted quote read) c =
          some ([], .quoted quote (c :: read)) := if_neg hc
      rw [if_neg hc, List.singleton_append, run_cons hplain, hrest]

/-- A quoted name, with each quote inside it written twice, reads as the name. -/
theorem run_quote (dialect : Dialect) (name : String) :
    run dialect .between (dialect.quote name).toList =
      some ([], .closing dialect.quoteChar name.toList.reverse) := by
  have hstart : Mode.step dialect .between dialect.quoteChar =
      some ([], .quoted dialect.quoteChar []) := by
    cases dialect <;> rfl
  rw [Dialect.quote, String.toList_ofList, List.cons_append, run_cons hstart, run_quoted,
    List.append_nil]

theorem isWordChar_of_isDigit {c : Char} (h : c.isDigit = true) : isWordChar c = true := by
  simp [isWordChar, Char.isAlphanum, h]

theorem run_word (word read : List Char) (h : ∀ c ∈ word, isWordChar c = true) :
    run dialect (.word read) word = some ([], .word (word.reverse ++ read)) := by
  induction word generalizing read with
  | nil => rfl
  | cons c word ih =>
    have hstep : Mode.step dialect (.word read) c = some ([], .word (c :: read)) :=
      if_pos (h c List.mem_cons_self)
    rw [run_cons hstep, ih (c :: read) fun other hother => h other (List.mem_cons_of_mem c hother),
      List.reverse_cons, List.append_assoc, List.singleton_append]

theorem run_word_first {c : Char} {word : List Char} (hc : isWordChar c = true)
    (h : ∀ c ∈ word, isWordChar c = true) :
    run dialect .between (c :: word) = some ([], .word (c :: word).reverse) := by
  have hblank : c ≠ ' ' := by
    rintro rfl
    cases hc
  have hstep : Mode.step dialect .between c = some ([], .word [c]) := by
    show Mode.start dialect c = _
    rw [Mode.start, if_neg hblank, if_pos hc]
  rw [run_cons hstep, run_word word [c] h, List.reverse_cons]

theorem run_natText (n : Nat) :
    run dialect .between (Number.natText n) = some ([], .word (Number.natText n).reverse) := by
  have hdigits : ∀ c ∈ Number.natText n, isWordChar c = true := fun c hc =>
    isWordChar_of_isDigit (Number.isDigit_of_mem_natText hc)
  obtain ⟨c, rest, htext, -⟩ := Number.exists_natText n
  rw [htext] at hdigits ⊢
  exact run_word_first (hdigits c List.mem_cons_self)
    fun other hother => hdigits other (List.mem_cons_of_mem c hother)

theorem ofWord_natText (n : Nat) : Symbol.ofWord dialect (Number.natText n) = some (.number n) := by
  have hread := Number.readDigits_natText n
  obtain ⟨c, rest, htext, hc⟩ := Number.exists_natText n
  have hsign : c ≠ '$' := by
    rintro rfl
    cases hc
  rw [htext] at hread ⊢
  rw [Symbol.ofWord.eq_def]
  split
  · rename_i heq
    exact absurd (List.cons.inj heq).1 hsign
  · rw [hread]

end

/-! ## Pieces -/

namespace Symbol

def isMark : Symbol → Bool
  | mark _ => true
  | _ => false

end Symbol

/-- The place of the parameter with this number, counted from one. -/
def Dialect.mark (dialect : Dialect) (number : Nat) : Symbol :=
  .mark (if dialect = .postgres then some number else none)

namespace Piece

variable (dialect : Dialect)

/-- Fixed text behind which anything may follow, as its last symbol has ended. -/
def opens : Piece → Bool
  | raw s =>
    match run dialect .between s.toList with
    | some (symbols, .between) => symbols.all fun symbol => !symbol.isMark
    | _ => false
  | _ => false

/-- A piece behind which a break ends the last symbol. -/
def isWhole : Piece → Bool
  | raw s =>
    match run dialect .between s.toList with
    | some (symbols, last) =>
      last.isRegular && (last.symbols dialect).any fun ended =>
        (symbols ++ ended).all fun symbol => !symbol.isMark
    | none => false
  | _ => true

/-- Fixed text that begins with a break. -/
def breaks : Piece → Bool
  | raw s => s.toList.head?.any isBreak
  | _ => false

/-- What a piece stands for, with the literal itself in the place of a parameter. -/
def symbols : Piece → List Symbol
  | raw s => (lex dialect s.toList).getD []
  | name s => [.name s]
  | value v => [.value v]

end Piece

/-- What the text of pieces reads as, behind as many parameters as the number says. -/
def markedSymbols (dialect : Dialect) : Nat → List Piece → List Symbol
  | _, [] => []
  | n, .raw s :: rest => Piece.symbols dialect (.raw s) ++ markedSymbols dialect n rest
  | n, .name s :: rest => .name s :: markedSymbols dialect n rest
  | n, .value _ :: rest => dialect.mark (n + 1) :: markedSymbols dialect (n + 1) rest

/-- The first piece, if there is one, begins with a break. -/
def Follows (pieces : List Piece) : Prop := ∀ piece ∈ pieces.head?, piece.breaks = true

/-- Wherever two pieces meet, the first has ended or the second begins with a break. -/
inductive Joined (dialect : Dialect) : List Piece → Prop where
  | nil : Joined dialect []
  | opening {piece : Piece} {rest : List Piece} (h : piece.opens dialect = true)
      (hrest : Joined dialect rest) : Joined dialect (piece :: rest)
  | ended {piece : Piece} {rest : List Piece} (h : piece.isWhole dialect = true)
      (hfollows : Follows rest) (hrest : Joined dialect rest) : Joined dialect (piece :: rest)

section

variable {dialect : Dialect} {pieces front rest : List Piece} {piece : Piece}

theorem Follows.append (h : Follows front) (hrest : Follows rest) : Follows (front ++ rest) := by
  cases front with
  | nil => exact hrest
  | cons piece front => exact h

theorem Joined.append (h : Joined dialect front) (hfollows : Follows rest)
    (hrest : Joined dialect rest) : Joined dialect (front ++ rest) := by
  induction h with
  | nil => exact hrest
  | opening hopens _ ih => exact .opening hopens ih
  | ended hwhole hnext _ ih => exact .ended hwhole (hnext.append hfollows) ih

theorem Follows.breaks (h : Follows pieces) (n : Nat) :
    Breaks (pieceText dialect n pieces).toList := by
  cases pieces with
  | nil => exact fun c hc => nomatch hc
  | cons piece rest =>
    have hpiece := h piece rfl
    cases piece with
    | raw s =>
      obtain ⟨first, hfirst, hbreak⟩ := (Option.any_eq_true _ _).mp hpiece
      obtain ⟨others, hs⟩ := List.head?_eq_some_iff.mp hfirst
      intro c hc
      rw [pieceText, String.toList_append, hs] at hc
      cases hc
      exact hbreak
    | name s => cases hpiece
    | value v => cases hpiece

theorem whole_raw {s : String} (h : (Piece.raw s).isWhole dialect = true) :
    ∃ symbols last ended, run dialect .between s.toList = some (symbols, last) ∧
      last.isRegular = true ∧ last.symbols dialect = some ended ∧
      Piece.symbols dialect (.raw s) = symbols ++ ended ∧
      ∀ symbol ∈ symbols ++ ended, symbol.isMark = false := by
  rw [Piece.isWhole] at h
  split at h
  · rename_i symbols last hrun
    obtain ⟨hregular, hany⟩ := (Bool.and_eq_true _ _).mp h
    obtain ⟨ended, hended, hall⟩ := (Option.any_eq_true _ _).mp hany
    refine ⟨symbols, last, ended, hrun, hregular, hended, ?_, fun symbol hsymbol => ?_⟩
    · rw [Piece.symbols, lex, lexFrom, hrun]
      show (do return symbols ++ (← last.symbols dialect) : Option _).getD [] = _
      rw [hended]
      rfl
    · simpa using List.all_eq_true.mp hall symbol hsymbol
  · cases h

theorem open_raw {s : String} (h : (Piece.raw s).opens dialect = true) :
    run dialect .between s.toList = some (Piece.symbols dialect (.raw s), .between) ∧
      ∀ symbol ∈ Piece.symbols dialect (.raw s), symbol.isMark = false := by
  rw [Piece.opens] at h
  split at h
  · rename_i symbols hrun
    have hsymbols : Piece.symbols dialect (.raw s) = symbols := by
      rw [Piece.symbols, lex, lexFrom, hrun]
      exact List.append_nil symbols
    rw [hsymbols]
    exact ⟨hrun, fun symbol hsymbol => by simpa using List.all_eq_true.mp h symbol hsymbol⟩
  · cases h

theorem lex_ended {s : List Char} {symbols ended : List Symbol} {last : Mode} {behind : List Char}
    (hrun : run dialect .between s = some (symbols, last)) (hlast : last.isRegular = true)
    (hended : last.symbols dialect = some ended) (hbehind : Breaks behind) :
    lex dialect (s ++ behind) = (lex dialect behind).map (symbols ++ ended ++ ·) := by
  rw [lex, lexFrom_append hrun, lexFrom_break hlast hended hbehind, Option.map_map]
  exact congrArg (Option.map · _) (funext fun more => (List.append_assoc ..).symm)

theorem lex_name (name : String) {behind : List Char} (hbehind : Breaks behind) :
    lex dialect ((dialect.quote name).toList ++ behind) =
      (lex dialect behind).map (.name name :: ·) := by
  have hregular : Mode.isRegular (.closing dialect.quoteChar name.toList.reverse) = true := by
    cases dialect <;> rfl
  have hended : Mode.symbols dialect (.closing dialect.quoteChar name.toList.reverse) =
      some [.name name] := by
    rw [Mode.symbols, List.reverse_reverse, String.ofList_toList]
    cases dialect <;> rfl
  exact lex_ended (run_quote dialect name) hregular hended hbehind

theorem lex_placeholder (number : Nat) {behind : List Char} (hbehind : Breaks behind) :
    lex dialect ((dialect.placeholder number).toList ++ behind) =
      (lex dialect behind).map (dialect.mark number :: ·) := by
  by_cases hdialect : dialect = .postgres
  · subst hdialect
    have htext : (Dialect.placeholder .postgres number).toList = '$' :: Number.natText number := by
      rw [Dialect.placeholder, if_pos rfl, String.toList_append]
      exact congrArg ('$' :: ·) String.toList_ofList
    have hdigits : ∀ c ∈ Number.natText number, isWordChar c = true := fun c hc =>
      isWordChar_of_isDigit (Number.isDigit_of_mem_natText hc)
    have hended : Mode.symbols .postgres (.word ('$' :: Number.natText number).reverse) =
        some [Dialect.mark .postgres number] := by
      rw [Mode.symbols, List.reverse_reverse]
      show ((Number.readDigits (Number.natText number)).map _).map _ = _
      rw [Number.readDigits_natText]
      rfl
    rw [htext]
    exact lex_ended (run_word_first rfl hdigits) rfl hended hbehind
  · have htext : (dialect.placeholder number).toList = ['?'] := by
      rw [Dialect.placeholder, if_neg hdialect]
      rfl
    have hrun : run dialect .between ['?'] = some ([dialect.mark number], .between) := by
      rw [Dialect.mark, if_neg hdialect]
      cases dialect with
      | postgres => exact absurd rfl hdialect
      | generic | sqlite | mysql => rfl
    rw [htext]
    exact lex_ended hrun rfl rfl hbehind

/-- The text of joined pieces reads as the symbols of the pieces. -/
theorem Joined.lex (h : Joined dialect pieces) (n : Nat) :
    Sql.lex dialect (pieceText dialect n pieces).toList =
      some (markedSymbols dialect n pieces) := by
  induction h generalizing n with
  | nil => rfl
  | @opening piece rest hopens _ ih =>
    cases piece with
    | raw s =>
      rw [pieceText, String.toList_append, Sql.lex, lexFrom_append (open_raw hopens).1]
      exact congrArg (Option.map _) (ih n)
    | name s => cases hopens
    | value v => cases hopens
  | @ended piece rest hwhole hfollows _ ih =>
    cases piece with
    | raw s =>
      obtain ⟨symbols, last, ended, hrun, hlast, hended, hsymbols, -⟩ := whole_raw hwhole
      rw [pieceText, String.toList_append, lex_ended hrun hlast hended (hfollows.breaks n), ih,
        markedSymbols, hsymbols]
      rfl
    | name s =>
      rw [pieceText, String.toList_append, lex_name s (hfollows.breaks n), ih]
      rfl
    | value v =>
      rw [pieceText, String.toList_append, lex_placeholder _ (hfollows.breaks _), ih]
      rfl

end

/-! ## Parameters -/

/-- Puts literals in the places of parameters: the one with the number of the place, or where places
have no numbers the next one, behind as many as the number says. -/
def bind (params : List Value) : Nat → List Symbol → Option (List Symbol)
  | _, [] => some []
  | n, symbol :: rest => do
    match symbol with
    | .mark number =>
      let index ← match number with
        | none => some n
        | some 0 => none
        | some (i + 1) => some i
      return .value (← params[index]?) :: (← bind params (n + 1) rest)
    | _ => return symbol :: (← bind params n rest)

section

variable {dialect : Dialect} {params : List Value}

theorem bind_unmarked {symbols : List Symbol} (h : ∀ symbol ∈ symbols, symbol.isMark = false)
    (n : Nat) (rest : List Symbol) :
    bind params n (symbols ++ rest) = (bind params n rest).map (symbols ++ ·) := by
  induction symbols with
  | nil => exact Option.map_id'.symm
  | cons symbol symbols ih =>
    have hsymbol := h symbol List.mem_cons_self
    have hrest := ih fun other hother => h other (List.mem_cons_of_mem symbol hother)
    rw [List.cons_append, bind.eq_def]
    cases symbol with
    | mark => cases hsymbol
    | _ =>
      dsimp only
      rw [hrest]
      cases bind params n rest <;> rfl

theorem bind_mark (n : Nat) (rest : List Symbol) :
    bind params n (dialect.mark (n + 1) :: rest) = do
      return .value (← params[n]?) :: (← bind params (n + 1) rest) := by
  rw [Dialect.mark]
  split <;> rfl

theorem Joined.raw_unmarked {pieces : List Piece} (h : Joined dialect pieces) :
    ∀ s, Piece.raw s ∈ pieces →
      ∀ symbol ∈ Piece.symbols dialect (.raw s), symbol.isMark = false := by
  induction h with
  | nil => exact fun s hs => nomatch hs
  | opening hopens _ ih =>
    intro s hs
    rcases List.mem_cons.mp hs with rfl | hs
    · exact (open_raw hopens).2
    · exact ih s hs
  | ended hwhole _ _ ih =>
    intro s hs
    rcases List.mem_cons.mp hs with rfl | hs
    · obtain ⟨symbols, last, ended, -, -, -, hsymbols, hunmarked⟩ := whole_raw hwhole
      rw [hsymbols]
      exact hunmarked
    · exact ih s hs

/-- The places of the parameters of joined pieces are numbered from left to right. -/
theorem filter_markedSymbols {pieces : List Piece}
    (h : ∀ s, Piece.raw s ∈ pieces →
      ∀ symbol ∈ Piece.symbols dialect (.raw s), symbol.isMark = false) (n : Nat) :
    (markedSymbols dialect n pieces).filter Symbol.isMark =
      (List.range' (n + 1) (pieceValues pieces).length).map dialect.mark := by
  induction pieces generalizing n with
  | nil => rfl
  | cons piece rest ih =>
    have hrest := ih fun s hs => h s (List.mem_cons_of_mem piece hs)
    cases piece with
    | raw s =>
      have hnone : (Piece.symbols dialect (.raw s)).filter Symbol.isMark = [] :=
        List.filter_eq_nil_iff.mpr fun symbol hsymbol => by
          simp [h s List.mem_cons_self symbol hsymbol]
      rw [markedSymbols, List.filter_append, hnone, List.nil_append, hrest]
      rfl
    | name s =>
      rw [markedSymbols, List.filter_cons_of_neg (by simp [Symbol.isMark]), hrest]
      rfl
    | value v =>
      rw [markedSymbols, List.filter_cons_of_pos rfl, hrest]
      rfl

/-- Each literal takes the place of its parameter. -/
theorem bind_markedSymbols {pieces : List Piece}
    (h : ∀ s, Piece.raw s ∈ pieces →
      ∀ symbol ∈ Piece.symbols dialect (.raw s), symbol.isMark = false) (front : List Value) :
    bind (front ++ pieceValues pieces) front.length (markedSymbols dialect front.length pieces) =
      some (pieces.flatMap (Piece.symbols dialect)) := by
  induction pieces generalizing front with
  | nil => rfl
  | cons piece rest ih =>
    have hrest := ih fun s hs => h s (List.mem_cons_of_mem piece hs)
    cases piece with
    | raw s =>
      rw [markedSymbols, bind_unmarked (h s List.mem_cons_self)]
      exact congrArg (Option.map _) (hrest front)
    | name s =>
      have hname : ∀ symbol ∈ [Symbol.name s], symbol.isMark = false := by simp [Symbol.isMark]
      have hbind : bind (front ++ pieceValues rest) front.length
          ([.name s] ++ markedSymbols dialect front.length rest) =
            (bind (front ++ pieceValues rest) front.length
              (markedSymbols dialect front.length rest)).map ([.name s] ++ ·) :=
        bind_unmarked hname front.length _
      rw [hrest front] at hbind
      exact hbind
    | value v =>
      have hlength : (front ++ [v]).length = front.length + 1 := List.length_append
      have hparams : front ++ pieceValues (.value v :: rest) = front ++ [v] ++ pieceValues rest :=
        (List.append_assoc front [v] (pieceValues rest)).symm
      have hfound : (front ++ [v] ++ pieceValues rest)[front.length]? = some v := by simp
      have hbind := hrest (front ++ [v])
      rw [hlength] at hbind
      rw [hparams, markedSymbols, bind_mark, hfound, hbind]
      rfl

end

end Sql
end Repertory
