import Repertory.Proofs.Sql.Reader

/-!
# Conditions read back

The symbols of a condition are read as what the condition says (`Condition.readAs`), by induction
over its parts. Everything but a leaf stands in parentheses, so what is read ends at a parenthesis,
whatever binds how tight around it; a leaf ends where its last operand does.
-/

namespace Repertory
namespace Sql

def Piece.symbolsOf (dialect : Dialect) (pieces : List Piece) : List Symbol :=
  pieces.flatMap (Piece.symbols dialect)

/-! ## Operands -/

section

variable {n : Nat} {front : List Symbol} {a : Operand}

theorem operand_of_primary (h : Reads (primary (operand n)) (fun _ => false) front a) :
    Reads (operand (n + 1)) isConcat front a := by
  intro rest hrest
  exact chain_single Operand.concat h rest hrest

theorem column_reads (name : String) :
    Reads (operand (n + 1)) isConcat [.name name] (.column name) :=
  operand_of_primary fun _ _ => rfl

theorem value_reads (v : Value) : Reads (operand (n + 1)) isConcat [.value v] (.value v) :=
  operand_of_primary fun _ _ => rfl

theorem number_reads (m : Nat) : Reads (operand (n + 1)) isConcat [.number m] (.number m) :=
  operand_of_primary fun _ _ => rfl

def Operand.hashedId (idColumn seed : String) : Operand :=
  .md5 (.concat (.value (.text seed)) (.castText (.column idColumn)))

def Operand.hashed (seed id : String) : Operand :=
  .md5 (.concat (.value (.text seed)) (.value (.text id)))

theorem hashedId_reads (dialect : Dialect) (idColumn seed : String) :
    Reads (operand (n + 3)) isConcat (Piece.symbolsOf dialect (hashedId idColumn seed))
      (.hashedId idColumn seed) :=
  operand_of_primary fun _ _ => rfl

theorem hashed_reads (seed id : String) :
    Reads (operand (n + 2)) isConcat
      [.key .MD5, .openParen, .value (.text seed), .concat, .value (.text id), .closeParen]
      (.hashed seed id) :=
  operand_of_primary fun _ _ => rfl

end

/-! ## Lists -/

theorem foldl_snoc {β γ : Type} (g : γ → β) (items : List γ) (left : List β) :
    items.foldl (fun left item => left ++ [g item]) left = left ++ items.map g := by
  induction items generalizing left with
  | nil => exact (List.append_nil left).symm
  | cons item items ih => rw [List.foldl_cons, ih, List.append_assoc, List.map_cons]; rfl

theorem symbolsOf_separated {β γ : Type} {dialect : Dialect} {separator : String} {symbol : Symbol}
    (hsymbol : Piece.symbols dialect (.raw separator) = [symbol]) (f : γ → List Piece) (g : γ → β)
    (x : γ) (xs : List γ) :
    Piece.symbolsOf dialect (separated separator ((x :: xs).map f)) =
      Piece.symbolsOf dialect (f x) ++
        behind symbol (xs.map fun y => (Piece.symbolsOf dialect (f y), g y)) := by
  induction xs generalizing x with
  | nil => exact (List.append_nil _).symm
  | cons y ys ih =>
    have hcons : separated separator ((x :: y :: ys).map f) =
        f x ++ .raw separator :: separated separator ((y :: ys).map f) := rfl
    rw [hcons, Piece.symbolsOf, List.flatMap_append, List.flatMap_cons, hsymbol, ← Piece.symbolsOf,
      ← Piece.symbolsOf, ih]
    rfl

/-- What is separated by a symbol is read as a chain. -/
theorem separated_reads {β γ : Type} {dialect : Dialect} {item : Reader β}
    {goesOn isSeparator : Symbol → Bool} (join : β → β → β) {separator : String} {symbol : Symbol}
    (hsymbol : Piece.symbols dialect (.raw separator) = [symbol])
    (hseparator : isSeparator symbol = true) (hgoesOn : goesOn symbol = false)
    {f : γ → List Piece} {g : γ → β} {x : γ} {xs : List γ}
    (h : ∀ y ∈ x :: xs, Reads item goesOn (Piece.symbolsOf dialect (f y)) (g y)) :
    Reads (chain item isSeparator join) (fun symbol => goesOn symbol || isSeparator symbol)
      (Piece.symbolsOf dialect (separated separator ((x :: xs).map f)))
      (xs.foldl (fun left y => join left (g y)) (g x)) := by
  have hparts : ∀ part ∈ xs.map fun y => (Piece.symbolsOf dialect (f y), g y),
      Reads item goesOn part.1 part.2 := by
    intro part hpart
    obtain ⟨y, hy, rfl⟩ := List.mem_map.mp hpart
    exact h y (List.mem_cons_of_mem x hy)
  have hchain := chain_reads join hseparator hgoesOn (h x List.mem_cons_self) hparts
  rw [symbolsOf_separated hsymbol f g]
  rwa [List.foldl_map] at hchain

theorem singleton_reads {β : Type} {item : Reader β} {goesOn : Symbol → Bool} {front : List Symbol}
    {b : β} (h : Reads item goesOn front b) :
    Reads (fun symbols => (item symbols).map fun r => ([r.1], r.2)) goesOn front [b] := by
  intro rest hrest
  exact congrArg (Option.map _) (h rest hrest)

theorem values_reads (dialect : Dialect) (n : Nat) (first : Value) (rest : List Value) :
    Reads (operands (n + 1)) (fun symbol => isConcat symbol || isComma symbol)
      (Piece.symbolsOf dialect (separated ", " ((first :: rest).map fun v => [.value v])))
      ((first :: rest).map Operand.value) := by
  have hvalue : ∀ v ∈ first :: rest,
      Reads (fun symbols => (operand (n + 1) symbols).map fun r => ([r.1], r.2)) isConcat
        (Piece.symbolsOf dialect [.value v]) [Operand.value v] := fun v _ =>
    singleton_reads (value_reads v)
  have hreads : Reads (operands (n + 1)) (fun symbol => isConcat symbol || isComma symbol)
      (Piece.symbolsOf dialect (separated ", " ((first :: rest).map fun v => [.value v])))
      (rest.foldl (fun left v => left ++ [Operand.value v]) [.value first]) :=
    separated_reads (fun a b => a ++ b) rfl rfl rfl hvalue
  rwa [foldl_snoc] at hreads

/-! ## Predicates -/

section

variable (dialect : Dialect) (n : Nat) (column : String)

/-- An operand at the end of a predicate, or the pattern at its end, may go on. -/
def predicateGoesOn (symbol : Symbol) : Bool := isConcat symbol || isKey .ESCAPE symbol

theorem isNull_reads : Reads (predicate dialect (n + 1)) predicateGoesOn
    [.name column, .key .IS, .key .NULL] (.isNull (.column column)) := fun _ _ => rfl

theorem isNotNull_reads : Reads (predicate dialect (n + 1)) predicateGoesOn
    [.name column, .key .IS, .key .NOT, .key .NULL] (.isNotNull (.column column)) := fun _ _ => rfl

theorem compareAny_reads (v : Value) : Reads (predicate dialect (n + 1)) predicateGoesOn
    [.value v, .op .eq, .key .ANY, .openParen, .name column, .closeParen]
    (.compareAny (.value v) .eq (.column column)) := fun _ _ => rfl

variable {dialect n column}

theorem remark_compare (a : Operand) (op : CmpOp) {first : Symbol} (h : first ≠ .key .ANY)
    (rest : List Symbol) : remark dialect n a (.op op :: first :: rest) =
      (operand n (first :: rest)).map fun r => (.compare a op r.1, r.2) := by
  cases first with
  | key word => cases word <;> first | rfl | exact absurd rfl h
  | _ => rfl

theorem compare_reads {op : CmpOp} {front behind : List Symbol} {a b : Operand} {first : Symbol}
    (ha : Reads (operand n) isConcat front a) (hb : Reads (operand n) isConcat (first :: behind) b)
    (hany : first ≠ .key .ANY) :
    Reads (predicate dialect n) predicateGoesOn (front ++ .op op :: first :: behind)
      (.compare a op b) := by
  intro rest hrest
  have hfront := ha (.op op :: first :: behind ++ rest) (stops_cons rfl _)
  have hbehind := hb rest (Stops.left hrest)
  rw [predicate, List.append_assoc, hfront]
  show remark dialect n a (.op op :: first :: (behind ++ rest)) = _
  rw [remark_compare a op hany, ← List.cons_append, hbehind]
  rfl

theorem within_reads (first : Value) (rest : List Value) :
    Reads (predicate dialect (n + 1)) predicateGoesOn
      (.name column :: .key .IN :: .openParen ::
        (Piece.symbolsOf dialect (separated ", " ((first :: rest).map fun v => [.value v])) ++
          [.closeParen]))
      (.within (.column column) ((first :: rest).map .value)) := by
  intro behind _
  have hvalues := closing_reads (values_reads dialect n first rest) rfl behind
  rw [List.cons_append, List.cons_append, List.cons_append, List.append_assoc,
    List.singleton_append]
  show (closing (operands (n + 1)) _).map _ = _
  rw [hvalues]
  rfl

def Predicate.containing (pattern column : String) : Predicate :=
  .like (.lower (.column column)) (.value (.text pattern)) (some "\\")

theorem remark_like {a b : Operand} {symbols rest : List Symbol}
    (h : operand n symbols = some (b, rest)) (hrest : Stops (isKey .ESCAPE) rest) :
    remark dialect n a (.key .LIKE :: symbols) = some (.like a b dialect.likeEscape, rest) := by
  rw [remark, h]
  cases rest with
  | nil => rfl
  | cons symbol rest =>
    have hsymbol : isKey .ESCAPE symbol = false := hrest symbol rfl
    cases symbol with
    | key word => cases word <;> first | rfl | cases hsymbol
    | _ => rfl

/-- Where the escape is not written, the dialect has the same one. -/
theorem likeTerm_reads (pattern : String) :
    Reads (predicate dialect (n + 2)) predicateGoesOn
      (Piece.symbolsOf dialect (likeTerm dialect pattern column)) (.containing pattern column) := by
  intro rest hrest
  by_cases hdialect : dialect = .mysql
  · subst hdialect
    have hpattern := value_reads (n := n + 1) (.text pattern) rest
      (Stops.left hrest)
    have hlike : remark .mysql (n + 2) (.lower (.column column)) _ =
        some (.containing pattern column, rest) :=
      remark_like hpattern (Stops.right hrest)
    exact hlike
  · have hsymbols : Piece.symbolsOf dialect (likeTerm dialect pattern column) =
        [.key .LOWER, .openParen, .name column, .closeParen, .key .LIKE, .value (.text pattern),
          .key .ESCAPE, .text "\\"] := by
      rw [likeTerm, if_neg hdialect]
      rfl
    rw [hsymbols]
    rfl

/-! ## Conditions -/

theorem negation_of_predicate {first : Symbol} {front : List Symbol} {p : Predicate}
    (h : Reads (predicate dialect n) predicateGoesOn (first :: front) p)
    (hnot : first ≠ .key .NOT) (hopen : first ≠ .openParen) :
    Reads (negation dialect (n + 1)) predicateGoesOn (first :: front) p := by
  intro rest hrest
  have hpredicate : negation dialect (n + 1) (first :: front ++ rest) =
      predicate dialect n (first :: front ++ rest) := by
    cases first with
    | key word => cases word <;> first | rfl | exact absurd rfl hnot
    | openParen => exact absurd rfl hopen
    | _ => rfl
  rw [hpredicate, h rest hrest]

def conjunctionGoesOn (symbol : Symbol) : Bool := predicateGoesOn symbol || isKey .AND symbol

def disjunctionGoesOn (symbol : Symbol) : Bool := conjunctionGoesOn symbol || isKey .OR symbol

section

variable {part : Reader Predicate} {front behind : List Symbol} {p q : Predicate}

theorem conjunction_single (hp : Reads part predicateGoesOn front p) :
    Reads (conjunction part) conjunctionGoesOn front p :=
  chain_single Predicate.and hp

theorem disjunction_single (hp : Reads (conjunction part) conjunctionGoesOn front p) :
    Reads (disjunction part) disjunctionGoesOn front p :=
  chain_single Predicate.or hp

theorem and_reads (hp : Reads part predicateGoesOn front p)
    (hq : Reads part predicateGoesOn behind q) :
    Reads (disjunction part) disjunctionGoesOn (front ++ .key .AND :: behind) (.and p q) := by
  have hand : Reads (conjunction part) conjunctionGoesOn (front ++ .key .AND :: behind)
      (.and p q) := chain_pair Predicate.and rfl rfl hp hq
  exact disjunction_single hand

theorem or_reads (hp : Reads part predicateGoesOn front p)
    (hq : Reads part predicateGoesOn behind q) :
    Reads (disjunction part) disjunctionGoesOn (front ++ .key .OR :: behind) (.or p q) :=
  chain_pair Predicate.or rfl rfl (conjunction_single hp) (conjunction_single hq)

theorem paren_reads (h : Reads (disjunction (negation dialect n)) disjunctionGoesOn front p) :
    Reads (negation dialect (n + 1)) predicateGoesOn (.openParen :: (front ++ [.closeParen]))
      p := by
  intro rest _
  have hclosing := closing_reads h rfl rest
  rw [List.cons_append, List.append_assoc, List.singleton_append]
  exact hclosing

theorem not_reads (h : Reads (negation dialect n) predicateGoesOn front p) :
    Reads (negation dialect (n + 1)) predicateGoesOn (.key .NOT :: front) (.not p) := by
  intro rest hrest
  exact congrArg (Option.map _) (h rest hrest)

end

end

/-- What a condition says. -/
def Condition.predicate : Condition → Predicate
  | and a b => .and a.predicate b.predicate
  | or a b => .or a.predicate b.predicate
  | not a => .not a.predicate
  | isNull column => .isNull (.column column)
  | isNotNull column => .isNotNull (.column column)
  | compare column op v => .compare (.column column) op (.value v)
  | equalsAny v column => .compareAny (.value v) .eq (.column column)
  | within column first rest => .within (.column column) ((first :: rest).map .value)
  | like first rest pattern =>
    rest.foldl (fun left column => .or left (.containing pattern column))
      (.containing pattern first)
  | never => .compare (.number 1) .eq (.number 0)
  | hashed idColumn op seed pivot => .compare (.hashedId idColumn seed) op (.hashed seed pivot)

theorem symbolsOf_append (dialect : Dialect) (front rest : List Piece) :
    Piece.symbolsOf dialect (front ++ rest) =
      Piece.symbolsOf dialect front ++ Piece.symbolsOf dialect rest := List.flatMap_append

theorem symbolsOf_cons (dialect : Dialect) (piece : Piece) (rest : List Piece) :
    Piece.symbolsOf dialect (piece :: rest) =
      Piece.symbols dialect piece ++ Piece.symbolsOf dialect rest := rfl

theorem symbols_compare (dialect : Dialect) (op : CmpOp) :
    Piece.symbols dialect (.raw (" " ++ op.sql ++ " ")) = [.op op] := by
  cases op <;> rfl

theorem symbols_compareHashed (dialect : Dialect) (op : CmpOp) :
    Piece.symbols dialect (.raw (" " ++ op.sql ++ " md5(")) = [.op op, .key .MD5, .openParen] := by
  cases op <;> rfl

/-- The pieces are read as this where a `not` may stand in front of them. The budget is the number
of their symbols. -/
def Piece.ReadAs (dialect : Dialect) (pieces : List Piece) (p : Predicate) : Prop :=
  ∀ n, (Piece.symbolsOf dialect pieces).length ≤ n →
    Reads (negation dialect n) predicateGoesOn (Piece.symbolsOf dialect pieces) p

section

variable {dialect : Dialect} {front behind : List Piece} {p q : Predicate}

theorem readAs_leaf {n : Nat} {first : Symbol} {rest : List Symbol}
    (hsymbols : Piece.symbolsOf dialect front = first :: rest) (hn : n ≤ rest.length)
    (h : ∀ m, Reads (predicate dialect (m + n)) predicateGoesOn (first :: rest) p)
    (hnot : first ≠ .key .NOT) (hopen : first ≠ .openParen) : Piece.ReadAs dialect front p := by
  intro m hm
  rw [hsymbols] at hm ⊢
  obtain ⟨m, rfl⟩ := Nat.exists_eq_add_of_le' (Nat.le_trans (Nat.succ_le_succ hn) hm)
  exact negation_of_predicate (h m) hnot hopen

theorem symbolsOf_joined {word : String} {key : Keyword}
    (hword : Piece.symbols dialect (.raw word) = [.key key]) :
    Piece.symbolsOf dialect (.raw "(" :: front ++ .raw word :: behind ++ [.raw ")"]) =
      .openParen :: (Piece.symbolsOf dialect front ++ .key key :: Piece.symbolsOf dialect behind ++
        [.closeParen]) := by
  rw [symbolsOf_append, symbolsOf_append, symbolsOf_cons, symbolsOf_cons, hword]
  rfl

/-- Two conditions in parentheses are read as they are joined there. -/
theorem readAs_joined {word : String} {key : Keyword} {join : Predicate → Predicate → Predicate}
    (hword : Piece.symbols dialect (.raw word) = [.key key])
    (hjoin : ∀ {part : Reader Predicate} {front behind : List Symbol},
      Reads part predicateGoesOn front p → Reads part predicateGoesOn behind q →
        Reads (disjunction part) disjunctionGoesOn (front ++ .key key :: behind) (join p q))
    (hp : Piece.ReadAs dialect front p) (hq : Piece.ReadAs dialect behind q) :
    Piece.ReadAs dialect (.raw "(" :: front ++ .raw word :: behind ++ [.raw ")"]) (join p q) := by
  intro n hn
  rw [symbolsOf_joined hword] at hn ⊢
  obtain ⟨n, rfl⟩ := Nat.exists_eq_add_of_le' (Nat.le_trans (Nat.le_add_left 1 _) hn)
  simp only [List.length_cons, List.length_append, List.length_nil] at hn
  exact paren_reads (hjoin (hp n (by omega)) (hq n (by omega)))

theorem readAs_not (hp : Piece.ReadAs dialect front p) :
    Piece.ReadAs dialect (.raw "not (" :: front ++ [.raw ")"]) (.not p) := by
  intro n hn
  have hsymbols : Piece.symbolsOf dialect (.raw "not (" :: front ++ [.raw ")"]) =
      .key .NOT :: .openParen :: (Piece.symbolsOf dialect front ++ [.closeParen]) := by
    rw [symbolsOf_append, symbolsOf_cons]
    rfl
  rw [hsymbols] at hn ⊢
  obtain ⟨n, rfl⟩ := Nat.exists_eq_add_of_le' (Nat.le_trans (Nat.le_add_left 2 _) hn)
  simp only [List.length_cons, List.length_append, List.length_nil] at hn
  exact not_reads (paren_reads (disjunction_single (conjunction_single (hp n (by omega)))))

theorem readAs_compare (column : String) (op : CmpOp) (v : Value) :
    Piece.ReadAs dialect [.name column, .raw (" " ++ op.sql ++ " "), .value v]
      (.compare (.column column) op (.value v)) := by
  have hsymbols : Piece.symbolsOf dialect [.name column, .raw (" " ++ op.sql ++ " "), .value v] =
      [.name column, .op op, .value v] := by
    rw [symbolsOf_cons, symbolsOf_cons, symbols_compare]
    rfl
  exact readAs_leaf hsymbols (show 1 ≤ 2 by decide)
    (fun m => compare_reads (column_reads column) (value_reads v) nofun) nofun nofun

theorem readAs_within (column : String) (first : Value) (rest : List Value) :
    Piece.ReadAs dialect
      (.name column :: .raw " in (" ::
        separated ", " ((first :: rest).map fun v => [.value v]) ++ [.raw ")"])
      (.within (.column column) ((first :: rest).map .value)) := by
  have hsymbols : Piece.symbolsOf dialect (.name column :: .raw " in (" ::
      separated ", " ((first :: rest).map fun v => [.value v]) ++ [.raw ")"]) =
        .name column :: .key .IN :: .openParen ::
          (Piece.symbolsOf dialect (separated ", " ((first :: rest).map fun v => [.value v])) ++
            [.closeParen]) := by
    rw [symbolsOf_append]
    rfl
  exact readAs_leaf hsymbols (Nat.succ_le_succ (Nat.zero_le _))
    (fun m => within_reads first rest) nofun nofun

theorem readAs_like (first : String) (rest : List String) (pattern : String) :
    Piece.ReadAs dialect
      (.raw "(" :: separated " or " ((first :: rest).map (likeTerm dialect pattern)) ++ [.raw ")"])
      (rest.foldl (fun left column => .or left (.containing pattern column))
        (.containing pattern first)) := by
  intro n hn
  have hsymbols : Piece.symbolsOf dialect
      (.raw "(" :: separated " or " ((first :: rest).map (likeTerm dialect pattern)) ++
        [.raw ")"]) =
      .openParen :: (Piece.symbolsOf dialect
        (separated " or " ((first :: rest).map (likeTerm dialect pattern))) ++
          [.closeParen]) := by
    rw [symbolsOf_append]
    rfl
  -- The budget that a term needs does not grow with their number; the first one has symbols enough.
  have hfirst : ∃ more, Piece.symbolsOf dialect
      (separated " or " ((first :: rest).map (likeTerm dialect pattern))) =
        .key .LOWER :: .openParen :: more :=
    ⟨_, symbolsOf_separated (show Piece.symbols dialect (.raw " or ") = [.key .OR] from rfl)
      (likeTerm dialect pattern) (Predicate.containing pattern) first rest⟩
  have hlength : 4 ≤ n := by
    obtain ⟨more, hmore⟩ := hfirst
    rw [hsymbols, hmore] at hn
    simp only [List.length_cons, List.length_append, List.length_nil] at hn
    omega
  rw [hsymbols]
  obtain ⟨n, rfl⟩ := Nat.exists_eq_add_of_le' hlength
  have hterms : ∀ column ∈ first :: rest,
      Reads (conjunction (negation dialect (n + 3))) conjunctionGoesOn
        (Piece.symbolsOf dialect (likeTerm dialect pattern column))
        (.containing pattern column) := fun column _ =>
    conjunction_single (negation_of_predicate (likeTerm_reads pattern) nofun nofun)
  exact paren_reads (separated_reads Predicate.or rfl rfl rfl hterms)

theorem readAs_hashed (idColumn : String) (op : CmpOp) (seed pivot : String) :
    Piece.ReadAs dialect
      (hashedId idColumn seed ++ [.raw (" " ++ op.sql ++ " md5("), .value (.text seed),
        .raw " || ", .value (.text pivot), .raw ")"])
      (.compare (.hashedId idColumn seed) op (.hashed seed pivot)) := by
  have hsymbols : Piece.symbolsOf dialect
      (hashedId idColumn seed ++ [.raw (" " ++ op.sql ++ " md5("), .value (.text seed),
        .raw " || ", .value (.text pivot), .raw ")"]) =
      Piece.symbolsOf dialect (hashedId idColumn seed) ++ .op op :: .key .MD5 ::
        [.openParen, .value (.text seed), .concat, .value (.text pivot), .closeParen] := by
    rw [symbolsOf_append, symbolsOf_cons, symbols_compareHashed]
    rfl
  refine readAs_leaf hsymbols (Nat.le_add_left 3 _) (fun m => ?_) nofun nofun
  exact compare_reads (hashedId_reads dialect idColumn seed) (hashed_reads seed pivot) nofun

end

/-- A condition reads back as what it says. -/
theorem Condition.readAs (dialect : Dialect) (c : Condition) :
    Piece.ReadAs dialect (c.pieces dialect) c.predicate := by
  induction c with
  | and a b iha ihb => exact readAs_joined rfl and_reads iha ihb
  | or a b iha ihb => exact readAs_joined rfl or_reads iha ihb
  | not a ih => exact readAs_not ih
  | isNull column =>
    exact readAs_leaf rfl (show 1 ≤ 2 by decide) (isNull_reads dialect · column) nofun nofun
  | isNotNull column =>
    exact readAs_leaf rfl (show 1 ≤ 3 by decide) (isNotNull_reads dialect · column) nofun nofun
  | compare column op v => exact readAs_compare column op v
  | equalsAny v column =>
    exact readAs_leaf rfl (show 1 ≤ 5 by decide) (compareAny_reads dialect · column v) nofun nofun
  | within column first rest => exact readAs_within column first rest
  | like first rest pattern => exact readAs_like first rest pattern
  | never =>
    exact readAs_leaf rfl (show 1 ≤ 2 by decide)
      (fun _ => compare_reads (number_reads 1) (number_reads 0) nofun) nofun nofun
  | hashed idColumn op seed pivot => exact readAs_hashed idColumn op seed pivot

end Sql
end Repertory
