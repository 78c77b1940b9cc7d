import Repertory.Proofs.Order.Value

/-!
# Orders of rows

A key sees a row only through one field, so an order is total on the rows that conform in the
fields of its keys (`OrderBy.order_orders`). A compiled order ends with the id, which leaves no ties
between rows of different ids. Such rows have one sorted arrangement, and `OrderBy.sort` finds it
(`OrderBy.sort_eq_of_perm`). Therefore an order read backwards turns the sorted rows around
(`OrderBy.sort_inverted`).
-/

namespace Repertory

variable {α ι : Type}

/-- The row yields a value of the field's kind, and a null only where the field may be null. -/
def Field.ConformsAt (field : Field α) (row : α) : Prop :=
  field.kind.Admits (field.get row) ∨ field.nullable = true ∧ field.get row = .null

theorem Field.ConformsAt.admitsOrNull {field : Field α} {row : α} (h : field.ConformsAt row) :
    field.kind.AdmitsOrNull (field.get row) :=
  h.imp_right And.right

theorem Field.ConformsAt.ne_null {field : Field α} {row : α} (h : field.ConformsAt row)
    (hnullable : field.nullable = false) : field.get row ≠ .null := by
  rcases h with hadmits | ⟨hnulls, -⟩
  · exact hadmits.ne_null
  · rw [hnullable] at hnulls
    cases hnulls

namespace OrderKey

def ConformsAt (key : OrderKey α) (row : α) : Prop :=
  match key.target with
  | .field field => field.ConformsAt row
  | .random _ => True

variable [Identity ι] [Resource α ι]

theorem order_of_field {key : OrderKey α} {field : Field α} (h : key.target = .field field)
    (a b : α) :
    key.order a b = orderValues key.descending key.nullsFirst (field.get a) (field.get b) := by
  rw [order, h]

def randomPlace (seed : UInt64) (row : α) : List UInt8 :=
  randomKey seed (Identity.text (Resource.id row))

theorem order_of_random {key : OrderKey α} {seed : UInt64} (h : key.target = .random seed)
    (a b : α) :
    key.order a b =
      if key.descending then (compare (randomPlace seed a) (randomPlace seed b)).swap
      else compare (randomPlace seed a) (randomPlace seed b) := by
  rw [order, h]
  rfl

theorem order_of_id {key : OrderKey α}
    (h : key.target = .field (Resource.schema (α := α)).id) (a b : α) :
    key.order a b =
      if key.descending then (compare (Resource.id a) (Resource.id b)).swap
      else compare (Resource.id a) (Resource.id b) := by
  have hcompare := Identity.compare_toValue (Resource.id a) (Resource.id b)
  obtain ⟨ha, hb⟩ := Value.ne_null_of_compare hcompare
  rw [order_of_field h, Resource.schema_id, Resource.schema_id, orderValues_of_ne_null _ _ ha hb,
    Value.order_of_compare hcompare]

theorem order_orders (key : OrderKey α) : Orders key.ConformsAt key.order := by
  cases htarget : key.target with
  | field field =>
    rw [show key.order = _ from funext fun a => funext (order_of_field htarget a)]
    refine (orderValues_orders _ _ field.kind).comap field.get fun row h => ?_
    rw [ConformsAt, htarget] at h
    exact Field.ConformsAt.admitsOrNull h
  | random seed =>
    have hplace : Orders key.ConformsAt fun a b =>
        compare (randomPlace seed a) (randomPlace seed b) :=
      (Orders.ofTransOrd (P := fun _ => True)).comap (randomPlace seed) fun _ _ => trivial
    rw [show key.order = _ from funext fun a => funext (order_of_random htarget a)]
    cases key.descending with
    | false => exact hplace
    | true => exact hplace.reverse

/-- A key read backwards: values and nulls both change places. -/
theorem order_inverted (key : OrderKey α) (a b : α) :
    key.inverted.order a b = (key.order a b).swap := by
  cases htarget : key.target with
  | field field =>
    have hinverted : key.inverted.target = .field field := htarget
    rw [order_of_field hinverted, order_of_field htarget]
    exact orderValues_not _ _ _ _
  | random seed =>
    have hinverted : key.inverted.target = .random seed := htarget
    rw [order_of_random hinverted, order_of_random htarget]
    cases hdescending : key.descending <;> simp [inverted, hdescending]

end OrderKey

namespace OrderBy

def ConformsAt (keys : OrderBy α) (row : α) : Prop := ∀ key ∈ keys, key.ConformsAt row

/-- One of the keys is the id. -/
def BreaksTies [Identity ι] [Resource α ι] (keys : OrderBy α) : Prop :=
  ∃ key ∈ keys, key.target = .field (Resource.schema (α := α)).id

theorem conformsAt_cons {key : OrderKey α} {keys : OrderBy α} {row : α} :
    ConformsAt (key :: keys) row ↔ key.ConformsAt row ∧ ConformsAt keys row :=
  List.forall_mem_cons

@[simp]
theorem conformsAt_inverted {keys : OrderBy α} {row : α} :
    ConformsAt keys.inverted row ↔ ConformsAt keys row := by
  simp [ConformsAt, inverted, OrderKey.ConformsAt, OrderKey.inverted]

variable [Identity ι] [Resource α ι]

/-- An order is total, up to ties, on the rows that conform in the fields of its keys. -/
theorem order_orders : ∀ keys : OrderBy α, Orders keys.ConformsAt (order keys)
  | [] => { eq_swap := rfl, isLE_trans := fun _ _ => rfl }
  | key :: rest => by
    have hkey := key.order_orders.mono fun row (h : ConformsAt (key :: rest) row) =>
      (conformsAt_cons.mp h).1
    have hrest := (order_orders rest).mono fun row (h : ConformsAt (key :: rest) row) =>
      (conformsAt_cons.mp h).2
    exact hkey.lex hrest

theorem id_eq_of_order_eq {keys : OrderBy α} (h : keys.BreaksTies) {a b : α}
    (hab : order keys a b = .eq) : Resource.id a = Resource.id b := by
  obtain ⟨key, hkey, htarget⟩ := h
  induction keys with
  | nil => exact absurd hkey List.not_mem_nil
  | cons first rest ih =>
    rw [order, Ordering.then_eq_eq] at hab
    rcases List.mem_cons.mp hkey with rfl | hkey
    · have hid := hab.1
      rw [OrderKey.order_of_id htarget] at hid
      refine Std.LawfulEqOrd.eq_of_compare ?_
      cases hdescending : key.descending <;> simpa [hdescending] using hid
    · exact ih hab.2 hkey

/-! ## Compiled orders -/

theorem compile_breaksTies (sorting : Sorting α) : sorting.compile.BreaksTies :=
  ⟨_, List.mem_append_right _ List.mem_cons_self, rfl⟩

theorem inverted_breaksTies {keys : OrderBy α} (h : keys.BreaksTies) :
    keys.inverted.BreaksTies := by
  obtain ⟨key, hkey, htarget⟩ := h
  exact ⟨key.inverted, List.mem_map_of_mem hkey, htarget⟩

/-! ## Sorting -/

theorem insertFalling_perm (keys : OrderBy α) (row : α) (rows : List α) :
    (insertFalling keys row rows).Perm (row :: rows) := by
  induction rows with
  | nil => exact List.Perm.refl _
  | cons first rest ih =>
    rw [insertFalling]
    split
    · exact (ih.cons first).trans (List.Perm.swap row first rest)
    · exact List.Perm.refl _

theorem mem_insertFalling {keys : OrderBy α} {row other : α} {rows : List α} :
    other ∈ insertFalling keys row rows ↔ other = row ∨ other ∈ rows := by
  rw [(insertFalling_perm keys row rows).mem_iff, List.mem_cons]

theorem insertFalling_pairwise {keys : OrderBy α} {row : α} {rows : List α}
    (hrow : keys.ConformsAt row) (hrows : ∀ other ∈ rows, keys.ConformsAt other)
    (h : rows.Pairwise fun a b => (order keys a b).isGE) :
    (insertFalling keys row rows).Pairwise fun a b => (order keys a b).isGE := by
  have horder := order_orders keys
  induction rows with
  | nil => exact List.pairwise_singleton _ _
  | cons first rest ih =>
    obtain ⟨hfirst, hrest⟩ := List.pairwise_cons.mp h
    rw [List.forall_mem_cons] at hrows
    rw [insertFalling]
    split
    · rename_i hlt
      refine List.pairwise_cons.mpr ⟨fun other hother => ?_, ih hrows.2 hrest⟩
      rcases mem_insertFalling.mp hother with rfl | hother
      · rw [horder.swap hrow hrows.1, hlt]
        rfl
      · exact hfirst other hother
    · rename_i hge
      have hge : (order keys row first).isGE := by
        cases h : order keys row first <;> simp_all
      refine List.pairwise_cons.mpr ⟨fun other hother => ?_, h⟩
      rcases List.mem_cons.mp hother with rfl | hother
      · exact hge
      · exact horder.trans_ge hrow hrows.1 (hrows.2 other hother) hge (hfirst other hother)

theorem foldl_insertFalling_perm (keys : OrderBy α) (rows sorted : List α) :
    (rows.foldl (fun sorted row => insertFalling keys row sorted) sorted).Perm
      (rows ++ sorted) := by
  induction rows generalizing sorted with
  | nil => exact List.Perm.refl _
  | cons row rest ih =>
    refine (ih _).trans (((insertFalling_perm keys row sorted).append_left rest).trans ?_)
    exact List.perm_middle

theorem foldl_insertFalling_pairwise {keys : OrderBy α} {rows sorted : List α}
    (hrows : ∀ row ∈ rows, keys.ConformsAt row) (hsorted : ∀ row ∈ sorted, keys.ConformsAt row)
    (h : sorted.Pairwise fun a b => (order keys a b).isGE) :
    (rows.foldl (fun sorted row => insertFalling keys row sorted) sorted).Pairwise
      fun a b => (order keys a b).isGE := by
  induction rows generalizing sorted with
  | nil => exact h
  | cons row rest ih =>
    rw [List.forall_mem_cons] at hrows
    refine ih hrows.2 (fun other hother => ?_) (insertFalling_pairwise hrows.1 hsorted h)
    rcases mem_insertFalling.mp hother with rfl | hother
    · exact hrows.1
    · exact hsorted other hother

theorem sort_perm (keys : OrderBy α) (rows : List α) : (sort keys rows).Perm rows := by
  have h := foldl_insertFalling_perm keys rows []
  rw [List.append_nil] at h
  exact (List.reverse_perm _).trans h

/-- Rows stand in strictly rising order, so that none of them ties with another. -/
def Rising (keys : OrderBy α) (rows : List α) : Prop :=
  rows.Pairwise fun a b => order keys a b = .lt

variable {keys : OrderBy α} {rows : List α}

/-- Sorted rows rise strictly if their ids differ. -/
theorem sort_rising (hties : keys.BreaksTies) (hrows : ∀ row ∈ rows, keys.ConformsAt row)
    (hids : (rows.map Resource.id).Nodup) : keys.Rising (sort keys rows) := by
  have hmem : ∀ row ∈ sort keys rows, keys.ConformsAt row := fun row h =>
    hrows row ((sort_perm keys rows).mem_iff.mp h)
  have hle : (sort keys rows).Pairwise fun a b => (order keys b a).isGE :=
    List.pairwise_reverse.mpr
      (foldl_insertFalling_pairwise hrows (List.forall_mem_nil _) List.Pairwise.nil)
  have hne : (sort keys rows).Pairwise fun a b => Resource.id a ≠ Resource.id b :=
    List.pairwise_map.mp (((sort_perm keys rows).map Resource.id).nodup_iff.mpr hids)
  refine List.Pairwise.imp_of_mem (fun {a b} ha hb hab => ?_) (hle.and hne)
  rw [(order_orders keys).swap (hmem a ha) (hmem b hb), Ordering.isGE_swap] at hab
  rcases Ordering.isLE_iff_eq_lt_or_eq_eq.mp hab.1 with hlt | heq
  · exact hlt
  · exact absurd (id_eq_of_order_eq hties heq) hab.2

/-- Rows have only one strictly rising arrangement. -/
theorem Rising.eq_of_perm {others : List α} (hrows : ∀ row ∈ rows, keys.ConformsAt row)
    (h : keys.Rising rows) (h' : keys.Rising others) (hperm : rows.Perm others) :
    rows = others := by
  refine hperm.eq_of_pairwise (fun a b ha hb hab hba => ?_) h h'
  rw [(order_orders keys).swap (hrows a ha) (hrows b (hperm.mem_iff.mpr hb)), hab] at hba
  exact absurd hba (by decide)

theorem sort_eq_of_perm {sorted : List α} (hties : keys.BreaksTies)
    (hrows : ∀ row ∈ rows, keys.ConformsAt row) (hids : (rows.map Resource.id).Nodup)
    (hperm : sorted.Perm rows) (h : keys.Rising sorted) : sort keys rows = sorted :=
  (h.eq_of_perm (fun row hrow => hrows row (hperm.mem_iff.mp hrow))
    (sort_rising hties hrows hids) (hperm.trans (sort_perm keys rows).symm)).symm

/-! ## Orders read backwards -/

theorem order_inverted (keys : OrderBy α) (a b : α) :
    order keys.inverted a b = (order keys a b).swap := by
  induction keys with
  | nil => rfl
  | cons key rest ih =>
    show (key.inverted.order a b).then (order (inverted rest) a b) =
      ((key.order a b).then (order rest a b)).swap
    rw [key.order_inverted, ih, Ordering.swap_then]

/-- An order read backwards gives rows in the opposite order: no ties are left whose rows it could
keep in place. -/
theorem sort_inverted (hties : keys.BreaksTies) (hrows : ∀ row ∈ rows, keys.ConformsAt row)
    (hids : (rows.map Resource.id).Nodup) :
    sort keys.inverted rows = (sort keys rows).reverse := by
  have hrising : keys.inverted.Rising (sort keys rows).reverse := by
    refine List.pairwise_reverse.mpr ?_
    refine List.Pairwise.imp_of_mem (fun {a b} ha hb hab => ?_) (sort_rising hties hrows hids)
    have hconforms : ∀ row ∈ sort keys rows, keys.ConformsAt row := fun row h =>
      hrows row ((sort_perm keys rows).mem_iff.mp h)
    rw [order_inverted, (order_orders keys).swap (hconforms a ha) (hconforms b hb), hab]
    rfl
  exact sort_eq_of_perm (inverted_breaksTies hties)
    (fun row hrow => conformsAt_inverted.mpr (hrows row hrow)) hids
    ((List.reverse_perm _).trans (sort_perm keys rows)) hrising

end OrderBy
end Repertory
