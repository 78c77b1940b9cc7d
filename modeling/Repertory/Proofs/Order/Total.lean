import Repertory.Proofs.Order.Compiled

/-!
# Compiled orders are total

On the rows that conform to the schema, every compiled order is a total order whose ties are rows
of one id. Its keys all have nulls last, so that the first key that tells two rows apart puts a
null behind whatever the direction is. Rows of distinct ids then have one arrangement, which the
order read backwards turns around (`OrderBy.compile_total`).
-/

namespace Repertory

variable {α ι : Type} [Identity ι] [Resource α ι]

namespace OrderBy

theorem nullsFirst_of_mem_compile {sorting : Sorting α} {key : OrderKey α}
    (h : key ∈ sorting.compile) : key.nullsFirst = false := by
  rcases List.mem_append.mp h with hkey | hkey
  · obtain ⟨term, -, hkey⟩ := List.mem_flatMap.mp hkey
    cases term with
    | default =>
      obtain ⟨entry, -, rfl⟩ := List.mem_map.mp hkey
      rfl
    | «by» field descending =>
      obtain rfl := List.mem_singleton.mp hkey
      rfl
    | random seed =>
      obtain rfl := List.mem_singleton.mp hkey
      rfl
  · obtain rfl := List.mem_singleton.mp hkey
    rfl

theorem order_append (front rest : OrderBy α) (a b : α) :
    order (front ++ rest) a b = (order front a b).then (order rest a b) := by
  induction front with
  | nil => rfl
  | cons key front ih => rw [List.cons_append, order, order, ih, Ordering.then_assoc]

/-- Where the keys before leave a tie, a key with nulls last puts a null behind. -/
theorem order_of_null {front rest : OrderBy α} {key : OrderKey α} {field : Field α} {a b : α}
    (htarget : key.target = .field field) (hlast : key.nullsFirst = false)
    (hfront : order front a b = .eq) (ha : field.get a = .null) (hb : field.get b ≠ .null) :
    order (front ++ key :: rest) a b = .gt := by
  have hkey : key.order a b = .gt := by
    rw [OrderKey.order_of_field htarget, ha, orderValues_null_left _ _ hb, hlast]
    rfl
  rw [order_append, hfront, order, hkey]
  rfl

theorem sort_perm_eq {keys : OrderBy α} {rows others : List α} (hties : keys.BreaksTies)
    (hrows : ∀ row ∈ rows, keys.ConformsAt row) (hids : (rows.map Resource.id).Nodup)
    (hperm : others.Perm rows) : sort keys others = sort keys rows := by
  have hothers : ∀ row ∈ others, keys.ConformsAt row := fun row hrow =>
    hrows row (hperm.mem_iff.mp hrow)
  have hids' : (others.map Resource.id).Nodup := (hperm.map Resource.id).nodup_iff.mpr hids
  exact sort_eq_of_perm hties hothers hids' ((sort_perm keys rows).trans hperm.symm)
    (sort_rising hties hrows hids)

/-- The rows that conform are ordered totally, ties have one id, and nulls come last. Reading the
order backwards swaps all comparisons. Rows of distinct ids are sorted into the same rising list
wherever each of them stood before, and backwards into that list turned around. -/
theorem compile_total {decl : SchemaDecl α}
    (hschema : decl.build = .ok (Resource.schema (α := α))) {sorting : Sorting α}
    (hsorting : sorting.Declared) :
    (∀ a b c : α, (Resource.schema (α := α)).Conforms a → (Resource.schema (α := α)).Conforms b →
      (Resource.schema (α := α)).Conforms c →
      order sorting.compile a a = .eq ∧
      order sorting.compile b a = (order sorting.compile a b).swap ∧
      ((order sorting.compile a b).isLE → (order sorting.compile b c).isLE →
        (order sorting.compile a c).isLE)) ∧
    (∀ a b : α, order sorting.compile a b = .eq → Resource.id a = Resource.id b) ∧
    (∀ a b : α, order sorting.compile.inverted a b = (order sorting.compile a b).swap) ∧
    (∀ (front rest : OrderBy α) (key : OrderKey α) (field : Field α) (a b : α),
      sorting.compile = front ++ key :: rest → key.target = .field field →
      order front a b = .eq → field.get a = .null → field.get b ≠ .null →
      order sorting.compile a b = .gt) ∧
    ∀ rows others : List α, (∀ row ∈ rows, (Resource.schema (α := α)).Conforms row) →
      (rows.map Resource.id).Nodup → others.Perm rows →
      (sort sorting.compile rows).Perm rows ∧
      sorting.compile.Rising (sort sorting.compile rows) ∧
      sort sorting.compile others = sort sorting.compile rows ∧
      sort sorting.compile.inverted others = (sort sorting.compile rows).reverse := by
  have hclosed := SchemaDecl.build_closed hschema
  have hconforms : ∀ row : α, (Resource.schema (α := α)).Conforms row →
      sorting.compile.ConformsAt row := fun row => (Compiled.compile hsorting).conformsAt hclosed
  have hties := compile_breaksTies sorting
  have horders := order_orders sorting.compile
  refine ⟨fun a b c ha hb hc => ⟨?_, ?_, ?_⟩, fun a b => id_eq_of_order_eq hties,
    order_inverted _, ?_, ?_⟩
  · exact horders.self (hconforms a ha)
  · exact horders.swap (hconforms a ha) (hconforms b hb)
  · exact horders.trans (hconforms a ha) (hconforms b hb) (hconforms c hc)
  · intro front rest key field a b hsplit htarget hfront hnull hvalue
    have hkey : key ∈ sorting.compile := hsplit ▸ List.mem_append_right _ List.mem_cons_self
    rw [hsplit]
    exact order_of_null htarget (nullsFirst_of_mem_compile hkey) hfront hnull hvalue
  · intro rows others hrows hids hperm
    have hrows : ∀ row ∈ rows, sorting.compile.ConformsAt row := fun row hrow =>
      hconforms row (hrows row hrow)
    refine ⟨sort_perm _ _, sort_rising hties hrows hids, sort_perm_eq hties hrows hids hperm, ?_⟩
    have hbackwards : ∀ row ∈ rows, sorting.compile.inverted.ConformsAt row := fun row hrow =>
      conformsAt_inverted.mpr (hrows row hrow)
    rw [sort_perm_eq (inverted_breaksTies hties) hbackwards hids hperm,
      sort_inverted hties hrows hids]

open Catalog in
/-- Though ratings fall, a show without one comes behind a show with one, and where they stood makes
no difference. -/
theorem compile_total_unrated :
    let sorting : Sorting Show := [.by Show.ratingField true, .random 7]
    let unrated : Show :=
      ⟨1, "a", "A", none, .unknown, ["drama"], none, none, none, none, none⟩
    let rated : Show :=
      ⟨2, "b", "A", none, .unknown, ["drama"], none, some (.ofInt 5), none, none, none⟩
    Show.decl.build = .ok Show.schema ∧ sorting.Declared ∧ Show.schema.Conforms rated ∧
      Show.schema.Conforms unrated ∧ order sorting.compile unrated rated = .gt ∧
      sort sorting.compile [unrated, rated] = sort sorting.compile [rated, unrated] ∧
      sort sorting.compile.inverted [unrated, rated] =
        (sort sorting.compile [rated, unrated]).reverse := by
  intro sorting unrated rated
  have hsorting : sorting.Declared := by
    intro field descending hterm
    have hterms : SortTerm.by field descending ∈ [_, _] := hterm
    simp only [List.mem_cons, List.not_mem_nil, or_false, SortTerm.by.injEq,
      reduceCtorEq] at hterms
    obtain ⟨rfl, -⟩ := hterms
    simp [Resource.schema, Show.schema]
  obtain ⟨-, -, -, hnull, hsort⟩ := compile_total Show.build_decl hsorting
  have hrows : ∀ row ∈ [rated, unrated], Show.schema.Conforms row := fun row _ => row.conforms
  obtain ⟨-, -, hsame, hbackwards⟩ := hsort [rated, unrated] [unrated, rated] hrows (by decide)
    (.swap rated unrated [])
  exact ⟨Show.build_decl, hsorting, rated.conforms, unrated.conforms,
    hnull [] _ _ Show.ratingField _ _ rfl rfl rfl rfl Value.noConfusion, hsame, hbackwards⟩

end OrderBy
end Repertory
