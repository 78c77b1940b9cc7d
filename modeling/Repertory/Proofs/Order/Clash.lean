import Repertory.Proofs.Number.Rounding
import Repertory.Proofs.Order.Value

/-!
# Where the order of all values fails

Two values compare alike from both sides, but three need not fit together. An integer compares with
a floating-point number through the number that it is rounded to, so that two integers may both tie
with one. Lists tie if their first different items do not compare, so that a list with a null ties
with every list that has an item. Values that do not clash in one of these ways are ordered, and the
order leads from a value to one that comes before it only among integers that are rounded alike and
among lists (`Value.order_laws`).
-/

namespace Repertory

/-- The comparisons of a first thing with a second, of the second with a third, and of the first
with the third are as an order makes them. -/
structure Coherent (ab bc ac : Ordering) : Prop where
  left : ab = .eq → ac = bc
  right : bc = .eq → ac = ab
  same : ab = bc → ac = ab

namespace Coherent

variable {ab bc ac ab' bc' ac' : Ordering}

theorem isLE (h : Coherent ab bc ac) (hab : ab.isLE) (hbc : bc.isLE) : ac.isLE := by
  rcases Ordering.isLE_iff_eq_lt_or_eq_eq.mp hab with hlt | heq
  · rcases Ordering.isLE_iff_eq_lt_or_eq_eq.mp hbc with hlt' | heq'
    · rw [h.same (hlt.trans hlt'.symm)]
      exact hab
    · rw [h.right heq']
      exact hab
  · rw [h.left heq]
    exact hbc

/-- Further comparisons only count where all three things tie. -/
theorem lex (h : Coherent ab bc ac) (h' : ab = .eq → bc = .eq → Coherent ab' bc' ac') :
    Coherent (ab.then ab') (bc.then bc') (ac.then ac') := by
  obtain ⟨left, right, same⟩ := h
  cases ab with
  | eq =>
    obtain rfl := left rfl
    cases ac with
    | eq => exact h' rfl rfl
    | lt => exact ⟨fun _ => rfl, nofun, Eq.symm⟩
    | gt => exact ⟨fun _ => rfl, nofun, Eq.symm⟩
  | lt =>
    cases bc with
    | eq =>
      obtain rfl := right rfl
      exact ⟨nofun, fun _ => rfl, fun _ => rfl⟩
    | lt =>
      obtain rfl := same rfl
      exact ⟨nofun, nofun, fun _ => rfl⟩
    | gt => exact ⟨nofun, nofun, nofun⟩
  | gt =>
    cases bc with
    | eq =>
      obtain rfl := right rfl
      exact ⟨nofun, fun _ => rfl, fun _ => rfl⟩
    | lt => exact ⟨nofun, nofun, nofun⟩
    | gt =>
      obtain rfl := same rfl
      exact ⟨nofun, nofun, fun _ => rfl⟩

/-- The first two things change places. -/
theorem swap_left (h : Coherent ab bc ac) : Coherent ab.swap ac bc := by
  obtain ⟨left, right, same⟩ := h
  refine ⟨fun hab => ?_, fun hac => ?_, fun hsame => ?_⟩
  · exact (left (Ordering.swap_eq_eq.mp hab)).symm
  · cases ab <;> cases bc <;> simp_all
  · cases ab <;> cases bc <;> simp_all

/-- The last two things change places. -/
theorem swap_right (h : Coherent ab bc ac) : Coherent ac bc.swap ab := by
  obtain ⟨left, right, same⟩ := h
  refine ⟨fun hac => ?_, fun hbc => ?_, fun hsame => ?_⟩
  · cases ab <;> cases bc <;> simp_all
  · exact (right (Ordering.swap_eq_eq.mp hbc)).symm
  · cases ab <;> cases bc <;> simp_all

theorem of_compare {α : Type} [Ord α] [Std.TransOrd α] (a b c : α) :
    Coherent (compare a b) (compare b c) (compare a c) where
  left h := Std.TransCmp.congr_left h
  right h := (Std.TransCmp.congr_right h).symm
  same h := by
    cases hab : compare a b with
    | lt => exact Std.TransCmp.lt_trans hab (h ▸ hab)
    | eq => exact Std.TransCmp.eq_trans hab (h ▸ hab)
    | gt => exact Std.TransCmp.gt_trans hab (h ▸ hab)

end Coherent

namespace Binary64

theorem eq_of_compare {x y : Binary64} (h : compare x y = .eq) : x = y :=
  key_inj.mp (Std.LawfulEqOrd.eq_of_compare (a := x.key) (b := y.key) h)

/-- Integers compare like the numbers that they are rounded to, unless these are the same. -/
theorem compare_ofInt (m n : Int64) :
    compare (ofInt m.toInt) (ofInt n.toInt) = compare m n ∨ ofInt m.toInt = ofInt n.toInt := by
  by_cases hsame : ofInt m.toInt = ofInt n.toInt
  · exact Or.inr hsame
  have hkey : (ofInt m.toInt).key ≠ (ofInt n.toInt).key := fun h => hsame (key_inj.mp h)
  left
  show compare (ofInt m.toInt).key (ofInt n.toInt).key = compare m n
  rcases Int.lt_trichotomy m.toInt n.toInt with hlt | heq | hgt
  · have hle : (ofInt m.toInt).key ≤ (ofInt n.toInt).key := key_ofInt_mono (Int.le_of_lt hlt)
    rw [Std.compare_eq_lt.mpr (Int64.lt_iff_toInt_lt.mpr hlt), Std.compare_eq_lt]
    omega
  · exact absurd (congrArg ofInt heq) hsame
  · have hle : (ofInt n.toInt).key ≤ (ofInt m.toInt).key := key_ofInt_mono (Int.le_of_lt hgt)
    rw [Std.compare_eq_gt.mpr (Int64.lt_iff_toInt_lt.mpr hgt), Std.compare_eq_gt]
    omega

end Binary64

namespace Value

/-! ## Clashes -/

/-- The floating-point number is what each of two different integers is rounded to. -/
def RoundAlike (m n : Int64) (x : Binary64) : Prop :=
  m ≠ n ∧ .ofInt m.toInt = x ∧ .ofInt n.toInt = x

mutual

/-- Three values that need not fit together: two integers with the number that both are rounded to,
or lists with such items, or with items that do not compare, where they first differ. -/
def Clash : Value → Value → Value → Prop
  | int m, int n, float x => RoundAlike m n x
  | int m, float x, int n => RoundAlike m n x
  | float x, int m, int n => RoundAlike m n x
  | list as, list bs, list cs => ClashList as bs cs
  | _, _, _ => False

def ClashList : List Value → List Value → List Value → Prop
  | a :: as, b :: bs, c :: cs =>
    a.compare b = none ∨ b.compare c = none ∨ a.compare c = none ∨ Clash a b c ∨
      (a.compare b = some .eq ∧ b.compare c = some .eq ∧ a.compare c = some .eq ∧
        ClashList as bs cs)
  | _, _, _ => False

end

/-! ## Two values -/

mutual

theorem compare_swap : ∀ a b : Value, b.compare a = (a.compare b).map Ordering.swap
  | null, b => by cases b <;> rfl
  | bool _, b => by cases b <;> first | rfl | exact congrArg some Std.OrientedOrd.eq_swap
  | int _, b => by cases b <;> first | rfl | exact congrArg some Std.OrientedOrd.eq_swap
  | float _, b => by cases b <;> first | rfl | exact congrArg some Std.OrientedOrd.eq_swap
  | text _, b => by cases b <;> first | rfl | exact congrArg some Std.OrientedOrd.eq_swap
  | date _, b => by cases b <;> first | rfl | exact congrArg some Std.OrientedOrd.eq_swap
  | uuid _, b => by cases b <;> first | rfl | exact congrArg some Std.OrientedOrd.eq_swap
  | list as, b => by
    cases b with
    | list bs => exact compareList_swap as bs
    | _ => rfl

theorem compareList_swap : ∀ as bs : List Value,
    compareList bs as = (compareList as bs).map Ordering.swap
  | [], [] => rfl
  | [], _ :: _ => rfl
  | _ :: _, [] => rfl
  | a :: as, b :: bs => by
    rw [compareList, compareList, compare_swap a b]
    cases a.compare b with
    | none => rfl
    | some o =>
      cases o with
      | eq => exact compareList_swap as bs
      | lt => rfl
      | gt => rfl

end

/-- The place of a value among those of other types. -/
def place : Value → Nat
  | null => 7
  | v => v.rank

/-- Values of one type are ordered by their comparison, and tie if there is none. -/
theorem order_eq_then (a b : Value) :
    a.order b = (Ord.compare a.place b.place).then ((a.compare b).getD .eq) := by
  cases a <;> cases b <;> rfl

theorem order_swap (a b : Value) : b.order a = (a.order b).swap := by
  rw [order_eq_then, order_eq_then, compare_swap a b, Ordering.swap_then,
    Std.OrientedOrd.eq_swap (a := b.place)]
  cases a.compare b <;> rfl

/-! ## Three values -/

/-- Two integers and a number fit together unless both are rounded to it. -/
theorem coherent_numbers {m n : Int64} {x : Binary64} (h : ¬RoundAlike m n x) :
    Coherent (Ord.compare m n) (Ord.compare (Binary64.ofInt n.toInt) x)
      (Ord.compare (Binary64.ofInt m.toInt) x) := by
  rcases Binary64.compare_ofInt m n with hcompare | hsame
  · rw [← hcompare]
    exact .of_compare _ _ _
  · rw [hsame]
    refine ⟨fun _ => rfl, fun htie => ?_, Eq.symm⟩
    have hn : Binary64.ofInt n.toInt = x := Binary64.eq_of_compare htie
    have hmn : m = n := Classical.not_not.mp fun hne => h ⟨hne, hsame.trans hn, hn⟩
    rw [htie, hmn, Std.ReflOrd.compare_self]

/-- Values of one type that are no lists fit together unless they clash. -/
theorem coherent_of_scalar {a b c : Value} (hab : a.place = b.place) (hbc : b.place = c.place)
    (hlist : a.place ≠ 6) (h : ¬Clash a b c) :
    Coherent ((a.compare b).getD .eq) ((b.compare c).getD .eq) ((a.compare c).getD .eq) := by
  cases a with
  | null =>
    cases b <;> cases hab
    cases c <;> cases hbc
    exact ⟨fun _ => rfl, fun _ => rfl, fun _ => rfl⟩
  | bool x =>
    cases b <;> cases hab
    cases c <;> cases hbc
    exact Coherent.of_compare x _ _
  | int m =>
    cases b with
    | int n =>
      cases c with
      | int k => exact Coherent.of_compare m n k
      | float => exact coherent_numbers h
      | _ => cases hbc
    | float x =>
      cases c with
      | int n =>
        have hturned := (coherent_numbers h).swap_right
        rw [← Std.OrientedOrd.eq_swap] at hturned
        exact hturned
      | float y => exact Coherent.of_compare (Binary64.ofInt m.toInt) x y
      | _ => cases hbc
    | _ => cases hab
  | float x =>
    cases b with
    | int m =>
      cases c with
      | int n =>
        have hturned := (coherent_numbers h).swap_right.swap_left
        rw [← Std.OrientedOrd.eq_swap, ← Std.OrientedOrd.eq_swap] at hturned
        exact hturned
      | float y => exact Coherent.of_compare x (Binary64.ofInt m.toInt) y
      | _ => cases hbc
    | float y =>
      cases c with
      | int m => exact Coherent.of_compare x y (Binary64.ofInt m.toInt)
      | float z => exact Coherent.of_compare x y z
      | _ => cases hbc
    | _ => cases hab
  | text x =>
    cases b <;> cases hab
    cases c <;> cases hbc
    exact Coherent.of_compare x _ _
  | date x =>
    cases b <;> cases hab
    cases c <;> cases hbc
    exact Coherent.of_compare x _ _
  | uuid x =>
    cases b <;> cases hab
    cases c <;> cases hbc
    exact Coherent.of_compare x _ _
  | list => exact absurd rfl hlist

/-- The first items decide unless they tie. -/
theorem compareList_cons_getD {a b : Value} {o : Ordering} (h : a.compare b = some o)
    (as bs : List Value) :
    (compareList (a :: as) (b :: bs)).getD .eq = o.then ((compareList as bs).getD .eq) := by
  rw [compareList, h]
  cases o <;> rfl

mutual

/-- Values fit together unless they clash. -/
theorem coherent_of_not_clash : ∀ {a b c : Value}, ¬Clash a b c →
    Coherent (a.order b) (b.order c) (a.order c)
  | a, b, c, h => by
    rw [order_eq_then, order_eq_then, order_eq_then]
    refine Coherent.lex (.of_compare _ _ _) fun hab hbc => ?_
    have hab : a.place = b.place := Std.LawfulEqOrd.eq_of_compare hab
    have hbc : b.place = c.place := Std.LawfulEqOrd.eq_of_compare hbc
    -- Only lists stand at place 6, and only they are compared by their items.
    by_cases hlist : a.place = 6
    · cases a with
      | list as =>
        cases b <;> cases hab
        cases c <;> cases hbc
        exact coherent_of_not_clashList h
      | _ => cases hlist
    · exact coherent_of_scalar hab hbc hlist h

theorem coherent_of_not_clashList : ∀ {as bs cs : List Value}, ¬ClashList as bs cs →
    Coherent ((compareList as bs).getD .eq) ((compareList bs cs).getD .eq)
      ((compareList as cs).getD .eq)
  | [], [], _, _ => ⟨fun _ => rfl, id, Eq.symm⟩
  | [], _ :: _, [], _ => ⟨nofun, nofun, nofun⟩
  | [], _ :: _, _ :: _, _ => ⟨nofun, fun _ => rfl, fun _ => rfl⟩
  | _ :: _, [], [], _ => ⟨nofun, fun _ => rfl, nofun⟩
  | _ :: _, [], _ :: _, _ => ⟨nofun, nofun, nofun⟩
  | _ :: _, _ :: _, [], _ => ⟨fun _ => rfl, nofun, Eq.symm⟩
  | a :: as, b :: bs, c :: cs, h => by
    simp only [ClashList, not_or] at h
    obtain ⟨hab, hbc, hac, hheads, htails⟩ := h
    obtain ⟨o, hab⟩ := Option.ne_none_iff_exists'.mp hab
    obtain ⟨o', hbc⟩ := Option.ne_none_iff_exists'.mp hbc
    obtain ⟨o'', hac⟩ := Option.ne_none_iff_exists'.mp hac
    have heads := coherent_of_not_clash hheads
    rw [order_of_compare hab, order_of_compare hbc, order_of_compare hac] at heads
    rw [compareList_cons_getD hab, compareList_cons_getD hbc, compareList_cons_getD hac]
    refine heads.lex fun ho ho' => coherent_of_not_clashList fun h => htails ?_
    have ho'' : o'' = .eq := (heads.left ho).trans ho'
    exact ⟨ho ▸ hab, ho' ▸ hbc, ho'' ▸ hac, h⟩

end

/-! ## The order -/

/-- The first value comes after the second, but some value ties with both: the values are integers
that are rounded to the same number, or lists, of which the second has an item. -/
def Skipped : Value → Value → Prop
  | int m, int n => n < m ∧ Binary64.ofInt m.toInt = .ofInt n.toInt
  | list as, list bs => compareList as bs = some .gt ∧ bs ≠ []
  | _, _ => False

theorem Clash.skipped {a b c : Value} (h : Clash a b c) (hac : a.order c = .gt) : Skipped a c := by
  cases a with
  | int m =>
    cases b with
    | int n =>
      cases c with
      | float x =>
        obtain ⟨-, hm, -⟩ := h
        have htie : (int m).order (float x) = .eq := hm ▸ Std.ReflOrd.compare_self
        rw [htie] at hac
        cases hac
      | _ => exact h.elim
    | float x =>
      cases c with
      | int n =>
        obtain ⟨-, hm, hn⟩ := h
        exact ⟨Std.compare_eq_gt.mp hac, hm.trans hn.symm⟩
      | _ => exact h.elim
    | _ => exact h.elim
  | float x =>
    cases b with
    | int m =>
      cases c with
      | int n =>
        obtain ⟨-, -, hn⟩ := h
        have htie : (float x).order (int n) = .eq := hn ▸ Std.ReflOrd.compare_self
        rw [htie] at hac
        cases hac
      | _ => exact h.elim
    | _ => exact h.elim
  | list as =>
    cases b with
    | list bs =>
      cases c with
      | list cs =>
        have hgt : (compareList as cs).getD .eq = .gt := hac
        cases hcompare : compareList as cs with
        | none =>
          rw [hcompare] at hgt
          cases hgt
        | some o =>
          rw [hcompare] at hgt
          refine ⟨hcompare.trans (congrArg some hgt), ?_⟩
          rintro rfl
          cases as <;> cases bs <;> exact h.elim
      | _ => exact h.elim
    | _ => exact h.elim
  | _ => exact h.elim

/-- A list with a null ties with every list that has an item. -/
theorem compareList_null_left {as : List Value} (h : as ≠ []) :
    compareList [null] as = none := by
  cases as with
  | nil => exact absurd rfl h
  | cons a as => rw [compareList, compare_null_left]

theorem compareList_null_right {as : List Value} (h : as ≠ []) :
    compareList as [null] = none := by
  rw [compareList_swap, compareList_null_left h]
  rfl

theorem Skipped.exists_tie {a c : Value} (h : Skipped a c) :
    a.order c = .gt ∧ ∃ b : Value, a.order b = .eq ∧ b.order c = .eq := by
  cases a with
  | int m =>
    cases c with
    | int n =>
      obtain ⟨hlt, hsame⟩ := h
      refine ⟨Std.compare_eq_gt.mpr hlt, float (.ofInt m.toInt), ?_, ?_⟩
      · exact Std.ReflOrd.compare_self
      · rw [hsame]
        exact Std.ReflOrd.compare_self
    | _ => exact h.elim
  | list as =>
    cases c with
    | list cs =>
      obtain ⟨hgt, hne⟩ := h
      have has : as ≠ [] := by
        rintro rfl
        cases cs <;> cases hgt
      refine ⟨order_of_compare hgt, list [null], ?_, ?_⟩
      · show (compareList as [null]).getD .eq = .eq
        rw [compareList_null_right has]
        rfl
      · show (compareList [null] cs).getD .eq = .eq
        rw [compareList_null_left hne]
        rfl
    | _ => exact h.elim
  | _ => exact h.elim

/-- From opposite sides two values compare in opposite ways, and three values that do not clash are
ordered. The order leads from a value to one that comes before it for integers that are rounded
alike and for lists, of which the second is not empty, and for no other values. -/
theorem order_laws (a b c : Value) :
    b.order a = (a.order b).swap ∧
    (¬Clash a b c → (a.order b).isLE → (b.order c).isLE → (a.order c).isLE) ∧
    ((∃ v : Value, (a.order v).isLE ∧ (v.order c).isLE ∧ ¬(a.order c).isLE) ↔ Skipped a c) := by
  refine ⟨order_swap a b, fun h => (coherent_of_not_clash h).isLE, ?_, fun h => ?_⟩
  · rintro ⟨v, hav, hvc, hac⟩
    have hclash : Clash a v c := Classical.not_not.mp fun h =>
      hac ((coherent_of_not_clash h).isLE hav hvc)
    exact hclash.skipped (by cases h : a.order c <;> simp_all)
  · obtain ⟨hac, v, hav, hvc⟩ := h.exists_tie
    exact ⟨v, hav ▸ rfl, hvc ▸ rfl, hac ▸ nofun⟩

example : Skipped (int 9007199254740993) (int 9007199254740992) := ⟨by decide, by decide⟩

end Value
end Repertory
