import Repertory.Proofs.Store.Table
import Repertory.Relation

/-!
# What is loaded with rows

The rows that keys lead to are fetched together and then given to the items one by one. Each item
gets what its own key leads to in the table (`Relation.loadByKey_exec`), as if it had been looked up
alone. What a text asks for is a set of names (`Include.requested`), and so is what is loaded
(`Include.LoadsBy`).
-/

namespace Repertory

variable {σ α β ι κ : Type}

/-! ## Rows by keys -/

namespace Relation

theorem mem_insertId [Identity κ] {id other : κ} {ids : List κ} :
    other ∈ insertId id ids ↔ other = id ∨ other ∈ ids := by
  induction ids with
  | nil => rw [insertId, List.mem_singleton, List.mem_nil_iff, or_false]
  | cons first rest ih =>
    rw [insertId]
    cases hcompare : compare id first with
    | lt => rw [List.mem_cons]
    | eq =>
      obtain rfl := Std.LawfulEqOrd.compare_eq_iff_eq.mp hcompare
      rw [List.mem_cons, or_self_left]
    | gt => rw [List.mem_cons, ih, List.mem_cons, or_left_comm]

theorem mem_foldl_insertId [Identity κ] {keys ids : List κ} {id : κ} :
    id ∈ keys.foldl (fun acc key => insertId key acc) ids ↔ id ∈ keys ∨ id ∈ ids := by
  induction keys generalizing ids with
  | nil => rw [List.foldl_nil, List.mem_nil_iff, false_or]
  | cons key rest ih =>
    rw [List.foldl_cons, ih, mem_insertId, List.mem_cons, or_assoc, or_left_comm]

variable [Identity κ] [Resource β κ]

/-- Among the rows with some ids, those with one of these ids are found as among all rows. -/
theorem find?_execute_ids {table : Table β κ} {ids : List κ} {id : κ} (hid : id ∈ ids) :
    (table.execute { filter := some (.oneOf (Resource.schema (α := β)).id
        (ids.map Identity.toValue)) }).find? (fun row => Resource.id row = id) =
      table.find? id := by
  show (table.rows.filter _).find? _ = table.rows.find? _
  rw [List.find?_filter]
  congr 1
  funext row
  rw [Bool.eq_iff_iff, decide_eq_true_iff, decide_eq_true_iff, Query.selects_some,
    Filter.isMatch_oneOf_ids]
  exact ⟨And.right, fun hrow => ⟨hrow ▸ hid, hrow⟩⟩

/-- Loading rows together gives every item the row that its key leads to, and changes nothing in
the table. -/
theorem loadByKey_exec (lens : Lens σ (Table β κ)) (key : α → Option κ)
    (attach : Option β → α → α) (items : List α) (s : σ) :
    (loadByKey (Table.store lens) key attach items).exec s =
      (.ok (items.map fun item =>
        attach ((key item).bind fun id => (lens.get s).find? id) item), s) := by
  have hids : ∀ item ∈ items, ∀ id, key item = some id →
      id ∈ (items.filterMap key).foldl (fun acc id => insertId id acc) [] :=
    fun item hitem id hkey =>
      mem_foldl_insertId.mpr (Or.inl (List.mem_filterMap.mpr ⟨item, hitem, hkey⟩))
  rw [loadByKey]
  dsimp only
  generalize (items.filterMap key).foldl (fun acc id => insertId id acc) [] = ids at hids ⊢
  by_cases hempty : ids.isEmpty = true
  · -- Without a key there is nothing to load, and nothing to be found.
    rw [if_pos hempty]
    have hnone : ∀ item ∈ items, key item = none := fun item hitem => by
      cases hkey : key item with
      | none => rfl
      | some id =>
        have hmem := hids item hitem id hkey
        rw [List.isEmpty_iff.mp hempty] at hmem
        exact absurd hmem List.not_mem_nil
    show (Except.ok _, s) = _
    congr 2
    exact List.map_congr_left fun item hitem => by rw [hnone item hitem]; rfl
  · rw [if_neg hempty]
    show (Except.ok _, s) = _
    congr 2
    refine List.map_congr_left fun item hitem => ?_
    cases hkey : key item with
    | none => rfl
    | some id =>
      dsimp only [Option.bind_some]
      rw [← find?_execute_ids (hids item hitem id hkey)]

end Relation

/-! ## Names -/

namespace Include

/-- The names that a text asks for, in lower case. -/
def requested (text : Option String) : List String :=
  ((Text.listParts (text.getD "")).filter fun name => !name.isEmpty).map Text.lowercase

/-- Relations with these names can be loaded. -/
def Known (known : List (Relation σ α)) (names : List String) : Prop :=
  ∀ name ∈ names, ∃ r, known.find? (fun r => r.info.name == name) = some r ∧ r.load.isSome = true

theorem names_add (found : Include σ α) (r : Relation σ α) (name : String) :
    name ∈ (add found r).names ↔ name = r.info.name ∨ name ∈ found.names := by
  rw [add]
  split
  · rename_i hfound
    obtain ⟨other, hother, hname⟩ := List.any_eq_true.mp hfound
    have hmem : r.info.name ∈ found.names :=
      List.mem_map.mpr ⟨other, hother, eq_of_beq hname⟩
    exact ⟨Or.inr, fun h => h.elim (fun heq => heq ▸ hmem) id⟩
  · rw [names, List.map_append, List.mem_append, List.map_singleton, List.mem_singleton, or_comm]
    rfl

theorem mem_add {found : Include σ α} {r other : Relation σ α} (h : other ∈ add found r) :
    other = r ∨ other ∈ found := by
  rw [add] at h
  split at h
  · exact Or.inr h
  · rw [List.mem_append, List.mem_singleton] at h
    exact h.symm

section

variable [Identity ι] [Resource α ι] {known : List (Relation σ α)}

/-- What is read from names has these names, all of which can be loaded. -/
theorem addNames_ok {found relations : Include σ α} {names : List String}
    (h : addNames known found names = .ok relations) :
    Known known (names.map Text.lowercase) ∧
      (∀ name, name ∈ relations.names ↔ name ∈ names.map Text.lowercase ∨ name ∈ found.names) ∧
      ∀ r ∈ relations, r ∈ known ∧ r.load.isSome = true ∨ r ∈ found := by
  induction names generalizing found with
  | nil =>
    cases h
    exact ⟨List.forall_mem_nil _, fun name => by simp, fun r hr => Or.inr hr⟩
  | cons name rest ih =>
    rw [addNames] at h
    cases hfind : Relation.find? known name with
    | none =>
      rw [hfind] at h
      cases h
    | some r =>
      rw [hfind] at h
      dsimp only at h
      cases hload : r.load with
      | none =>
        rw [hload] at h
        cases h
      | some load =>
        rw [hload] at h
        obtain ⟨hknown, hnames, hmem⟩ := ih h
        have hname : r.info.name = Text.lowercase name := by simpa using List.find?_some hfind
        have hsome : r.load.isSome = true := by rw [hload]; rfl
        refine ⟨List.forall_mem_cons.mpr ⟨⟨r, hfind, hsome⟩, hknown⟩,
          fun other => ?_, fun other hother => ?_⟩
        · rw [hnames, names_add, List.map_cons, List.mem_cons, hname, or_left_comm, or_assoc]
        · rcases hmem other hother with hother | hother
          · exact Or.inl hother
          · rcases mem_add hother with rfl | hother
            · exact Or.inl ⟨List.mem_of_find?_eq_some hfind, hsome⟩
            · exact Or.inr hother

theorem exists_addNames {names : List String} (h : Known known (names.map Text.lowercase))
    (found : Include σ α) : ∃ relations, addNames known found names = .ok relations := by
  induction names generalizing found with
  | nil => exact ⟨found, rfl⟩
  | cons name rest ih =>
    obtain ⟨⟨r, hfind, hload⟩, hrest⟩ := List.forall_mem_cons.mp h
    obtain ⟨relations, hread⟩ := ih hrest (add found r)
    obtain ⟨load, hload⟩ := Option.isSome_iff_exists.mp hload
    refine ⟨relations, ?_⟩
    rw [addNames, show Relation.find? known name = some r from hfind]
    dsimp only
    rw [hload]
    exact hread

theorem read_ok {text : Option String} {relations : Include σ α}
    (h : read known text = .ok relations) :
    Known known (requested text) ∧ (∀ name, name ∈ relations.names ↔ name ∈ requested text) ∧
      ∀ r ∈ relations, r ∈ known ∧ r.load.isSome = true := by
  obtain ⟨hknown, hnames, hmem⟩ := addNames_ok h
  refine ⟨hknown, fun name => (hnames name).trans ?_, fun r hr => (hmem r hr).resolve_right ?_⟩
  · exact or_iff_left List.not_mem_nil
  · exact List.not_mem_nil

theorem exists_read {text : Option String} (h : Known known (requested text)) :
    ∃ relations, read known text = .ok relations := exists_addNames h []

end

/-! ## Loading -/

end Include

/-- Loading the relation first and then what has some names does what `g` says of its name together
with these. -/
def Relation.Steps (r : Relation σ α) (s : σ) (g : List String → α → α) : Prop :=
  ∀ load, r.load = some load → ∃ attach : α → α,
    (∀ rows, (load rows).exec s = (.ok (rows.map attach), s)) ∧
    ∀ names row, g names (attach row) = g (r.info.name :: names) row

theorem Relation.many_steps (name target foreignKey : String) (s : σ)
    (g : List String → α → α) : (Relation.many name target foreignKey).Steps s g :=
  fun _ hload => nomatch hload

theorem Relation.one_steps [Identity κ] [Resource β κ] {name foreignKey : String}
    {lens : Lens σ (Table β κ)} {key : α → Option κ} {attach : Option β → α → α} {s : σ}
    {g : List String → α → α}
    (h : ∀ names row, g names (attach ((key row).bind fun id => (lens.get s).find? id) row) =
      g (name :: names) row) :
    (Relation.one name foreignKey (Table.store lens) key attach).Steps s g := by
  intro load hload
  cases hload
  exact ⟨_, fun rows => loadByKey_exec lens key attach rows s, h⟩

namespace Include

/-- What loading the relations with some names does to a row: it is loading one of them and then the
others, and depends on the set of the names only. -/
structure Gives (known : List (Relation σ α)) (s : σ) (g : List String → α → α) : Prop where
  nil : ∀ row, g [] row = row
  cons : ∀ r ∈ known, r.Steps s g
  congr : ∀ {names names'}, (∀ name, name ∈ names ↔ name ∈ names') → g names = g names'

/-- What is read from a text and then loaded with rows is what `g` says of the names in the text.
Texts with the same names are read alike and have the same loaded. -/
structure LoadsBy [Identity ι] [Resource α ι] (known : List (Relation σ α)) (s : σ)
    (g : List String → α → α) : Prop where
  apply : ∀ text relations, read known text = .ok relations → ∀ rows : List α,
    (relations.apply rows).exec s = (.ok (rows.map (g (requested text))), s)
  sameNames : ∀ text text' relations, (∀ name, name ∈ requested text ↔ name ∈ requested text') →
    read known text = .ok relations → ∃ relations', read known text' = .ok relations' ∧
      ∀ rows : List α, (relations'.apply rows).exec s = (relations.apply rows).exec s

variable {known : List (Relation σ α)} {s : σ} {g : List String → α → α}

theorem Gives.apply_exec (h : Gives known s g) {relations : Include σ α}
    (hknown : ∀ r ∈ relations, r ∈ known ∧ r.load.isSome = true) (rows : List α) :
    (relations.apply rows).exec s = (.ok (rows.map (g relations.names)), s) := by
  induction relations generalizing rows with
  | nil =>
    have hsame : g [] = id := funext h.nil
    rw [names, List.map_nil, hsame, List.map_id]
    rfl
  | cons r rest ih =>
    obtain ⟨⟨hr, hsome⟩, hrest⟩ := List.forall_mem_cons.mp hknown
    obtain ⟨load, hload⟩ := Option.isSome_iff_exists.mp hsome
    obtain ⟨attach, hexec, hnames⟩ := h.cons r hr load hload
    rw [apply, hload]
    dsimp only
    cases rows with
    | nil => exact ih hrest []
    | cons row rows =>
      rw [if_neg (by simp), Action.exec_bind, hexec]
      dsimp only
      rw [ih hrest, List.map_map]
      congr 2
      exact List.map_congr_left fun row _ => hnames (names rest) row

theorem Gives.loadsBy [Identity ι] [Resource α ι] (h : Gives known s g) : LoadsBy known s g := by
  have happly : ∀ text relations, read known text = .ok relations → ∀ rows : List α,
      (relations.apply rows).exec s = (.ok (rows.map (g (requested text))), s) := by
    intro text relations hread rows
    obtain ⟨-, hnames, hknown⟩ := read_ok hread
    rw [h.apply_exec hknown, h.congr hnames]
  refine ⟨happly, fun text text' relations hsame hread => ?_⟩
  have hknown : Known known (requested text') := fun name hname =>
    (read_ok hread).1 name ((hsame name).mpr hname)
  obtain ⟨relations', hread'⟩ := exists_read hknown
  refine ⟨relations', hread', fun rows => ?_⟩
  rw [happly text relations hread, happly text' relations' hread', h.congr hsame]

end Include
end Repertory
