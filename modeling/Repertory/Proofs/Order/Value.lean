import Repertory.Order.Basic

/-!
# The order of the values of one kind

Values of unrelated types, or integers among floating-point numbers, need not compare
consistently. The values of one kind do, and that is all that the keys of an order ever see of rows
that conform to their schema. `Value.order_orders` is the order itself and `orderValues_orders` the
order of a key, which also has a place for nulls.
-/

namespace Repertory

/-- `cmp` is a total order, up to ties, of the things that satisfy `P`. -/
abbrev Orders {α : Type} (P : α → Prop) (cmp : α → α → Ordering) : Prop :=
  Std.TransCmp fun a b : {a : α // P a} => cmp a.1 b.1

namespace Orders

variable {α β : Type} {P : α → Prop} {cmp : α → α → Ordering}

theorem swap (h : Orders P cmp) {a b : α} (ha : P a) (hb : P b) : cmp b a = (cmp a b).swap :=
  h.eq_swap (a := ⟨b, hb⟩) (b := ⟨a, ha⟩)

theorem self (h : Orders P cmp) {a : α} (ha : P a) : cmp a a = .eq :=
  Ordering.eq_eq_of_eq_swap (h.swap ha ha)

theorem trans (h : Orders P cmp) {a b c : α} (ha : P a) (hb : P b) (hc : P c)
    (hab : (cmp a b).isLE) (hbc : (cmp b c).isLE) : (cmp a c).isLE :=
  @Std.TransCmp.isLE_trans _ _ h ⟨a, ha⟩ ⟨b, hb⟩ ⟨c, hc⟩ hab hbc

theorem trans_lt (h : Orders P cmp) {a b c : α} (ha : P a) (hb : P b) (hc : P c)
    (hab : cmp a b = .lt) (hbc : cmp b c = .lt) : cmp a c = .lt :=
  @Std.TransCmp.lt_trans _ _ h ⟨a, ha⟩ ⟨b, hb⟩ ⟨c, hc⟩ hab hbc

theorem trans_ge (h : Orders P cmp) {a b c : α} (ha : P a) (hb : P b) (hc : P c)
    (hab : (cmp a b).isGE) (hbc : (cmp b c).isGE) : (cmp a c).isGE :=
  @Std.TransCmp.isGE_trans _ _ h ⟨a, ha⟩ ⟨b, hb⟩ ⟨c, hc⟩ hab hbc

theorem mono {Q : α → Prop} (h : Orders P cmp) (hQ : ∀ a, Q a → P a) : Orders Q cmp where
  eq_swap {a b} := h.swap (hQ b b.2) (hQ a a.2)
  isLE_trans {a b c} := h.trans (hQ a a.2) (hQ b b.2) (hQ c c.2)

theorem comap {Q : β → Prop} (h : Orders P cmp) (f : β → α) (hf : ∀ b, Q b → P (f b)) :
    Orders Q fun a b => cmp (f a) (f b) where
  eq_swap {a b} := h.swap (hf b b.2) (hf a a.2)
  isLE_trans {a b c} := h.trans (hf a a.2) (hf b b.2) (hf c c.2)

theorem reverse (h : Orders P cmp) : Orders P fun a b => (cmp a b).swap where
  eq_swap {a b} := congrArg Ordering.swap (h.swap b.2 a.2)
  isLE_trans {a b c} hab hbc := by
    simp only [← h.swap a.2 b.2, ← h.swap b.2 c.2, ← h.swap a.2 c.2] at hab hbc ⊢
    exact h.trans c.2 b.2 a.2 hbc hab

theorem lex {cmp' : α → α → Ordering} (h : Orders P cmp) (h' : Orders P cmp') :
    Orders P fun a b => (cmp a b).then (cmp' a b) :=
  inferInstanceAs (Std.TransCmp (compareLex
    (fun a b : {a : α // P a} => cmp a.1 b.1) fun a b : {a : α // P a} => cmp' a.1 b.1))

theorem ofTransOrd [Ord α] [Std.TransOrd α] : Orders P (compare : α → α → Ordering) where
  eq_swap := Std.OrientedOrd.eq_swap
  isLE_trans := Std.TransOrd.isLE_trans

end Orders

namespace FieldKind

/-- The values of a kind are the images of a type with an order, and compare as in it. -/
structure Represents (kind : FieldKind) {X : Type} [Ord X] (image : X → Value) : Prop where
  exists_image : ∀ {v}, kind.Admits v → ∃ x, image x = v
  compare_image : ∀ x y, (image x).compare (image y) = some (compare x y)

theorem compareList_map {X : Type} [Ord X] {image : X → Value}
    (h : ∀ x y, (image x).compare (image y) = some (compare x y)) :
    ∀ xs ys : List X, Value.compareList (xs.map image) (ys.map image) = some (compare xs ys)
  | [], [] => by simp [Value.compareList]
  | [], y :: ys => by simp [Value.compareList]
  | x :: xs, [] => by simp [Value.compareList]
  | x :: xs, y :: ys => by
    rw [List.map_cons, List.map_cons, Value.compareList, h, List.compare_cons_cons]
    cases compare x y with
    | eq => exact compareList_map h xs ys
    | lt => rfl
    | gt => rfl

theorem exists_map_of_forall {X Y : Type} {image : X → Y} :
    ∀ {ys : List Y}, (∀ y ∈ ys, ∃ x, y = image x) → ∃ xs : List X, xs.map image = ys
  | [], _ => ⟨[], rfl⟩
  | y :: ys, h => by
    obtain ⟨x, hx⟩ := h y List.mem_cons_self
    obtain ⟨xs, hxs⟩ := exists_map_of_forall fun z hz => h z (List.mem_cons_of_mem y hz)
    exact ⟨x :: xs, by rw [List.map_cons, hxs, hx]⟩

/-- Each kind holds the images of an ordered type: a scalar, or the lists of one. -/
theorem exists_represents (kind : FieldKind) :
    ∃ (X : Type) (_ : Ord X) (_ : Std.TransOrd X) (image : X → Value), kind.Represents image := by
  cases kind with
  | int =>
    refine ⟨Int64, _, inferInstance, .int, ?_, fun x y => by simp [Value.compare]⟩
    intro v h
    cases v <;> simp_all [Admits]
  | float =>
    refine ⟨Binary64, _, inferInstance, .float, ?_, fun x y => by simp [Value.compare]⟩
    intro v h
    cases v <;> simp_all [Admits]
  | bool =>
    refine ⟨Bool, _, inferInstance, .bool, ?_, fun x y => by simp [Value.compare]⟩
    intro v h
    cases v <;> simp_all [Admits]
  | text =>
    refine ⟨String, _, inferInstance, .text, ?_, fun x y => by simp [Value.compare]⟩
    intro v h
    cases v <;> simp_all [Admits]
  | date =>
    refine ⟨Date, _, inferInstance, .date, ?_, fun x y => by simp [Value.compare]⟩
    intro v h
    cases v <;> simp_all [Admits]
  | uuid =>
    refine ⟨Uuid, _, inferInstance, .uuid, ?_, fun x y => by simp [Value.compare]⟩
    intro v h
    cases v <;> simp_all [Admits]
  | choice words =>
    refine ⟨String, _, inferInstance, .text, ?_, fun x y => by simp [Value.compare]⟩
    intro v h
    cases v <;> simp_all [Admits]
  | textList =>
    refine ⟨List String, _, inferInstance, fun xs => .list (xs.map .text), ?_, fun xs ys => ?_⟩
    · intro v h
      cases v with
      | list items =>
        obtain ⟨xs, hxs⟩ := exists_map_of_forall h
        exact ⟨xs, congrArg Value.list hxs⟩
      | _ => exact h.elim
    · rw [Value.compare]
      exact compareList_map (fun x y => by simp [Value.compare]) xs ys
  | intList =>
    refine ⟨List Int64, _, inferInstance, fun xs => .list (xs.map .int), ?_, fun xs ys => ?_⟩
    · intro v h
      cases v with
      | list items =>
        obtain ⟨xs, hxs⟩ := exists_map_of_forall h
        exact ⟨xs, congrArg Value.list hxs⟩
      | _ => exact h.elim
    · rw [Value.compare]
      exact compareList_map (fun x y => by simp [Value.compare]) xs ys

end FieldKind

namespace Value

@[simp]
theorem isNull_null : null.isNull = true := rfl

@[simp]
theorem isNull_eq_true_iff {v : Value} : v.isNull = true ↔ v = .null := by
  cases v <;> simp [isNull]

@[simp]
theorem isNull_eq_false_iff {v : Value} : v.isNull = false ↔ v ≠ .null := by
  cases v <;> simp [isNull]

@[simp]
theorem compare_null_left (v : Value) : null.compare v = none := by
  cases v <;> simp [compare]

@[simp]
theorem compare_null_right (v : Value) : v.compare null = none := by
  cases v <;> simp [compare]

theorem ne_null_of_compare {a b : Value} {o : Ordering} (h : a.compare b = some o) :
    a ≠ null ∧ b ≠ null := by
  constructor
  · rintro rfl
    simp at h
  · rintro rfl
    simp at h

/-- Where two values compare, the order of all values agrees. -/
theorem order_of_compare {a b : Value} {o : Ordering} (h : a.compare b = some o) :
    a.order b = o := by
  obtain ⟨ha, hb⟩ := ne_null_of_compare h
  rw [← isNull_eq_false_iff] at ha hb
  simp only [order, ha, hb, h, Option.getD_some]

end Value

variable {kind : FieldKind}

namespace FieldKind

theorem Admits.ne_null {v : Value} (h : kind.Admits v) : v ≠ .null := by
  rintro rfl
  cases kind <;> exact h.elim

theorem Admits.compare {a b : Value} (ha : kind.Admits a) (hb : kind.Admits b) :
    a.compare b = some (a.order b) := by
  obtain ⟨X, _, _, image, h⟩ := kind.exists_represents
  obtain ⟨x, rfl⟩ := h.exists_image ha
  obtain ⟨y, rfl⟩ := h.exists_image hb
  rw [Value.order_of_compare (h.compare_image x y), h.compare_image]

end FieldKind

/-- The order of all values orders the values of one kind. -/
theorem Value.order_orders (kind : FieldKind) : Orders kind.Admits Value.order := by
  obtain ⟨X, _, _, image, h⟩ := kind.exists_represents
  have horder : ∀ x y, (image x).order (image y) = Ord.compare x y := fun x y =>
    Value.order_of_compare (h.compare_image x y)
  exact {
    eq_swap := by
      rintro ⟨a, ha⟩ ⟨b, hb⟩
      obtain ⟨x, rfl⟩ := h.exists_image ha
      obtain ⟨y, rfl⟩ := h.exists_image hb
      simp only [horder]
      exact Std.OrientedOrd.eq_swap
    isLE_trans := by
      rintro ⟨a, ha⟩ ⟨b, hb⟩ ⟨c, hc⟩
      obtain ⟨x, rfl⟩ := h.exists_image ha
      obtain ⟨y, rfl⟩ := h.exists_image hb
      obtain ⟨z, rfl⟩ := h.exists_image hc
      simp only [horder]
      exact Std.TransOrd.isLE_trans }

namespace FieldKind

def AdmitsOrNull (kind : FieldKind) (v : Value) : Prop := kind.Admits v ∨ v = .null

end FieldKind

section

variable (descending nullsFirst : Bool)

@[simp]
theorem orderValues_null_null : orderValues descending nullsFirst .null .null = .eq := rfl

theorem orderValues_null_left {v : Value} (h : v ≠ .null) :
    orderValues descending nullsFirst .null v = if nullsFirst then .lt else .gt := by
  rw [← Value.isNull_eq_false_iff] at h
  simp only [orderValues, Value.isNull_null, h]

theorem orderValues_null_right {v : Value} (h : v ≠ .null) :
    orderValues descending nullsFirst v .null = if nullsFirst then .gt else .lt := by
  rw [← Value.isNull_eq_false_iff] at h
  cases nullsFirst <;> simp only [orderValues, Value.isNull_null, h] <;> rfl

theorem orderValues_of_ne_null {a b : Value} (ha : a ≠ .null) (hb : b ≠ .null) :
    orderValues descending nullsFirst a b =
      if descending then (a.order b).swap else a.order b := by
  rw [← Value.isNull_eq_false_iff] at ha hb
  simp only [orderValues, ha, hb]

/-- With both the direction and the place of nulls turned around, any two values change places. -/
theorem orderValues_not (a b : Value) :
    orderValues (!descending) (!nullsFirst) a b = (orderValues descending nullsFirst a b).swap := by
  by_cases ha : a = .null
  · subst ha
    by_cases hb : b = .null
    · subst hb
      rfl
    · rw [orderValues_null_left _ _ hb, orderValues_null_left _ _ hb]
      cases nullsFirst <;> rfl
  · by_cases hb : b = .null
    · subst hb
      rw [orderValues_null_right _ _ ha, orderValues_null_right _ _ ha]
      cases nullsFirst <;> rfl
    · rw [orderValues_of_ne_null _ _ ha hb, orderValues_of_ne_null _ _ ha hb]
      cases descending <;> simp

theorem order_direction_orders (kind : FieldKind) :
    Orders kind.Admits fun a b => if descending then (a.order b).swap else a.order b := by
  cases descending with
  | false => exact Value.order_orders kind
  | true => exact (Value.order_orders kind).reverse

/-- The order of a key orders the values of one kind together with nulls. -/
theorem orderValues_orders (kind : FieldKind) :
    Orders kind.AdmitsOrNull (orderValues descending nullsFirst) := by
  have horder := order_direction_orders descending kind
  exact {
    eq_swap := by
      rintro ⟨a, ha | rfl⟩ ⟨b, hb | rfl⟩
      · simp only [orderValues_of_ne_null _ _ ha.ne_null hb.ne_null,
          orderValues_of_ne_null _ _ hb.ne_null ha.ne_null]
        exact horder.swap hb ha
      · rw [orderValues_null_right _ _ ha.ne_null, orderValues_null_left _ _ ha.ne_null]
        cases nullsFirst <;> rfl
      · rw [orderValues_null_left _ _ hb.ne_null, orderValues_null_right _ _ hb.ne_null]
        cases nullsFirst <;> rfl
      · rfl
    isLE_trans := by
      -- With a null at one end the middle value decides, whatever the other values are.
      rintro ⟨a, ha | rfl⟩ ⟨b, hb | rfl⟩ ⟨c, hc | rfl⟩ hab hbc
      · simp only [orderValues_of_ne_null _ _ ha.ne_null hb.ne_null,
          orderValues_of_ne_null _ _ hb.ne_null hc.ne_null,
          orderValues_of_ne_null _ _ ha.ne_null hc.ne_null] at hab hbc ⊢
        exact horder.trans ha hb hc hab hbc
      · rw [orderValues_null_right _ _ hb.ne_null] at hbc
        rw [orderValues_null_right _ _ ha.ne_null]
        exact hbc
      · rw [orderValues_null_right _ _ ha.ne_null] at hab
        rw [orderValues_null_left _ _ hc.ne_null] at hbc
        cases nullsFirst <;> simp at hab hbc
      · exact hab
      · rw [orderValues_null_left _ _ hb.ne_null] at hab
        rw [orderValues_null_left _ _ hc.ne_null]
        exact hab
      · rfl
      · exact hbc
      · rfl }

end

end Repertory
