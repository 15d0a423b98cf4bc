import Mathlib.Data.List.Sort
import Mathlib.Data.List.Nodup
import Mathlib.Order.Basic

/-! # Finite maps kept as strictly sorted association lists

The order of iteration is the order of the keys, so a map is determined by its lookups and two maps
with the same lookups are equal. A sorted list without duplicates is the same thing with no values.
-/

namespace Collections

universe u v

/-- The keys are strictly increasing: an unsorted or ambiguous map cannot be built. -/
structure SortedMap (κ : Type u) (ν : Type v) [LinearOrder κ] where
  entries : List (κ × ν)
  sorted : (entries.map Prod.fst).Pairwise (· < ·)

namespace SortedMap

variable {κ : Type u} {ν : Type v} [LinearOrder κ]

instance [DecidableEq ν] : DecidableEq (SortedMap κ ν) := fun m n =>
  decidable_of_iff (m.entries = n.entries) (by cases m; cases n; simp)

def empty : SortedMap κ ν := ⟨[], List.Pairwise.nil⟩

instance : Inhabited (SortedMap κ ν) := ⟨empty⟩

def get (m : SortedMap κ ν) (k : κ) : Option ν :=
  (m.entries.find? fun e => decide (e.1 = k)).map Prod.snd

def keys (m : SortedMap κ ν) : List κ := m.entries.map Prod.fst

def values (m : SortedMap κ ν) : List ν := m.entries.map Prod.snd

def insertEntry (k : κ) (v : ν) : List (κ × ν) → List (κ × ν)
  | [] => [(k, v)]
  | e :: rest =>
    if k < e.1 then (k, v) :: e :: rest
    else if k = e.1 then (k, v) :: rest
    else e :: insertEntry k v rest

theorem mem_insertEntry_fst {k j : κ} {v : ν} {entries : List (κ × ν)}
    (h : j ∈ (insertEntry k v entries).map Prod.fst) : j = k ∨ j ∈ entries.map Prod.fst := by
  induction entries with
  | nil => exact Or.inl (by simpa [insertEntry] using h)
  | cons e rest ih =>
    rw [insertEntry] at h
    split at h
    · simpa using h
    · split at h
      · rcases List.mem_cons.mp h with hHead | hTail
        · exact Or.inl hHead
        · exact Or.inr (List.mem_cons_of_mem _ hTail)
      · rcases List.mem_cons.mp h with hHead | hTail
        · exact Or.inr (hHead ▸ List.mem_cons_self)
        · exact (ih hTail).imp_right (List.mem_cons_of_mem _)

theorem insertEntry_sorted (k : κ) (v : ν) {entries : List (κ × ν)}
    (h : (entries.map Prod.fst).Pairwise (· < ·)) :
    ((insertEntry k v entries).map Prod.fst).Pairwise (· < ·) := by
  induction entries with
  | nil => simp [insertEntry]
  | cons e rest ih =>
    obtain ⟨hHead, hRest⟩ := List.pairwise_cons.mp h
    rw [insertEntry]
    split
    · rename_i hLt
      refine List.pairwise_cons.mpr ⟨?_, h⟩
      intro j hj
      rcases List.mem_cons.mp hj with rfl | hj
      · exact hLt
      · exact hLt.trans (hHead j hj)
    · split
      · rename_i hEq
        subst hEq
        exact List.pairwise_cons.mpr ⟨hHead, hRest⟩
      · rename_i hNotLt hNe
        refine List.pairwise_cons.mpr ⟨?_, ih hRest⟩
        intro j hj
        rcases mem_insertEntry_fst hj with rfl | hj
        · exact lt_of_le_of_ne (not_lt.mp hNotLt) (Ne.symm hNe)
        · exact hHead j hj

def insert (m : SortedMap κ ν) (k : κ) (v : ν) : SortedMap κ ν :=
  ⟨insertEntry k v m.entries, insertEntry_sorted k v m.sorted⟩

def remove (m : SortedMap κ ν) (k : κ) : SortedMap κ ν :=
  ⟨m.entries.filter fun e => decide (e.1 ≠ k),
    m.sorted.sublist (List.filter_sublist.map Prod.fst)⟩

def insertAll (m : SortedMap κ ν) (kvs : List (κ × ν)) : SortedMap κ ν :=
  kvs.foldl (fun m e => m.insert e.1 e.2) m

def removeAll (m : SortedMap κ ν) (ks : List κ) : SortedMap κ ν :=
  ks.foldl (fun m k => m.remove k) m

/-! ## Lookups -/

theorem find?_eq_some_of_mem {entries : List (κ × ν)}
    (hSorted : (entries.map Prod.fst).Pairwise (· < ·)) {k : κ} {v : ν} (h : (k, v) ∈ entries) :
    entries.find? (fun e => decide (e.1 = k)) = some (k, v) := by
  induction entries with
  | nil => cases h
  | cons e rest ih =>
    obtain ⟨hHead, hRest⟩ := List.pairwise_cons.mp hSorted
    rcases List.mem_cons.mp h with rfl | h
    · simp
    · have hLt : e.1 < k := hHead k (List.mem_map.mpr ⟨(k, v), h, rfl⟩)
      rw [List.find?_cons_of_neg (by simpa using hLt.ne)]
      exact ih hRest h

theorem mem_entries_iff {m : SortedMap κ ν} {k : κ} {v : ν} :
    (k, v) ∈ m.entries ↔ m.get k = some v := by
  constructor
  · intro h
    rw [get, find?_eq_some_of_mem m.sorted h]
    rfl
  · intro h
    obtain ⟨e, hFind, hValue⟩ := Option.map_eq_some_iff.mp h
    have hKey : e.1 = k := by simpa using List.find?_some hFind
    have hMem := List.mem_of_find?_eq_some hFind
    rwa [show e = (k, v) from Prod.ext hKey hValue] at hMem

theorem mem_keys_iff {m : SortedMap κ ν} {k : κ} : k ∈ m.keys ↔ ∃ v, m.get k = some v := by
  simp only [keys, List.mem_map, ← mem_entries_iff, Prod.exists]
  constructor
  · rintro ⟨j, v, h, rfl⟩
    exact ⟨v, h⟩
  · rintro ⟨v, h⟩
    exact ⟨k, v, h, rfl⟩

theorem mem_keys_iff_isSome {m : SortedMap κ ν} {k : κ} : k ∈ m.keys ↔ (m.get k).isSome := by
  rw [mem_keys_iff, Option.isSome_iff_exists]

theorem mem_values_iff {m : SortedMap κ ν} {v : ν} : v ∈ m.values ↔ ∃ k, m.get k = some v := by
  simp only [values, List.mem_map, ← mem_entries_iff, Prod.exists]
  constructor
  · rintro ⟨k, w, h, rfl⟩
    exact ⟨k, h⟩
  · rintro ⟨k, h⟩
    exact ⟨k, v, h, rfl⟩

theorem map_values_eq_keys {m : SortedMap κ ν} {f : ν → κ} (h : ∀ k v, m.get k = some v → f v = k) :
    m.values.map f = m.keys := by
  rw [values, keys, List.map_map]
  refine List.map_congr_left ?_
  rintro ⟨k, v⟩ hMem
  exact h k v (mem_entries_iff.mp hMem)

/-- In a map of values under their own keys, searching the values is looking up the key. -/
theorem find?_values {m : SortedMap κ ν} {f : ν → κ} (h : ∀ k v, m.get k = some v → f v = k) (k : κ) :
    m.values.find? (fun v => decide (f v = k)) = m.get k := by
  have hFound : ∀ v ∈ m.values, f v = k → m.get k = some v := by
    intro v hMem hKey
    obtain ⟨j, hGet⟩ := mem_values_iff.mp hMem
    rw [← hKey, h j v hGet]
    exact hGet
  cases hFind : m.values.find? (fun v => decide (f v = k)) with
  | some v =>
    have hKey := List.find?_some hFind
    exact (hFound v (List.mem_of_find?_eq_some hFind) (of_decide_eq_true hKey)).symm
  | none =>
    cases hGet : m.get k with
    | none => rfl
    | some v =>
      have hMem := mem_values_iff.mpr ⟨k, hGet⟩
      exact absurd (decide_eq_true (h k v hGet)) (List.find?_eq_none.mp hFind v hMem)

/-- The entries are determined by the lookups: the sorted representation is canonical. -/
theorem entries_eq {m : SortedMap κ ν} {entries : List (κ × ν)}
    (hSorted : (entries.map Prod.fst).Pairwise (· < ·))
    (h : ∀ k v, (k, v) ∈ entries ↔ m.get k = some v) : m.entries = entries := by
  have hPerm : m.entries.Perm entries := by
    refine (List.perm_ext_iff_of_nodup (List.Nodup.of_map Prod.fst (m.sorted.imp ne_of_lt))
      (List.Nodup.of_map Prod.fst (hSorted.imp ne_of_lt))).mpr ?_
    rintro ⟨k, v⟩
    rw [mem_entries_iff, h]
  exact hPerm.eq_of_pairwise (fun a b _ _ hab hba => absurd hab hba.asymm)
    (List.pairwise_map.mp m.sorted) (List.pairwise_map.mp hSorted)

@[ext] theorem ext_get {m n : SortedMap κ ν} (h : ∀ k, m.get k = n.get k) : m = n := by
  have hEntries : m.entries = n.entries :=
    entries_eq n.sorted fun k v => by rw [mem_entries_iff, h k]
  cases m
  cases n
  simpa using hEntries

theorem values_eq_filterMap {m : SortedMap κ ν} {names : List κ} {g : κ → Option ν}
    (hSorted : names.Pairwise (· < ·)) (h : ∀ k, m.get k = if k ∈ names then g k else none) :
    m.values = names.filterMap g := by
  have hPairs : ((names.filterMap fun k => (g k).map fun v => (k, v)).map Prod.fst).Pairwise (· < ·) := by
    rw [List.map_filterMap]
    refine hSorted.filterMap _ ?_
    intro a b hab x hx y hy
    simp only [Option.map_map, Option.map_eq_some_iff] at hx hy
    obtain ⟨_, _, rfl⟩ := hx
    obtain ⟨_, _, rfl⟩ := hy
    exact hab
  have hEntries : m.entries = names.filterMap fun k => (g k).map fun v => (k, v) := by
    refine entries_eq hPairs fun k v => ?_
    rw [h k, List.mem_filterMap]
    constructor
    · rintro ⟨j, hj, hValue⟩
      obtain ⟨w, hw, hPair⟩ := Option.map_eq_some_iff.mp hValue
      cases hPair
      rw [if_pos hj, hw]
    · intro hGet
      split at hGet
      · rename_i hMem
        exact ⟨k, hMem, by rw [hGet]; rfl⟩
      · cases hGet
  rw [values, hEntries, List.map_filterMap]
  refine List.filterMap_congr fun k _ => ?_
  cases g k <;> rfl

@[simp] theorem get_empty (k : κ) : (empty : SortedMap κ ν).get k = none := rfl

@[simp] theorem keys_empty : (empty : SortedMap κ ν).keys = [] := rfl

theorem mem_insertEntry_iff {k j : κ} {v w : ν} {entries : List (κ × ν)}
    (hSorted : (entries.map Prod.fst).Pairwise (· < ·)) :
    (j, w) ∈ insertEntry k v entries ↔ (j = k ∧ w = v) ∨ (j ≠ k ∧ (j, w) ∈ entries) := by
  induction entries with
  | nil => simp [insertEntry]
  | cons e rest ih =>
    obtain ⟨hHead, hRest⟩ := List.pairwise_cons.mp hSorted
    have hAfter (w : ν) (hMem : (j, w) ∈ rest) : e.1 < j := hHead j (List.mem_map.mpr ⟨_, hMem, rfl⟩)
    rw [insertEntry]
    split
    · rename_i hLt
      have hNe : (j, w) ∈ e :: rest → j ≠ k := by
        rintro hMem rfl
        rcases List.mem_cons.mp hMem with rfl | hMem
        · exact lt_irrefl _ hLt
        · exact lt_irrefl _ (hLt.trans (hAfter w hMem))
      grind
    · split
      · rename_i hEq
        have hNe : (j, w) ∈ rest → j ≠ k := fun hMem hjk => (hAfter w hMem).ne (hEq.symm.trans hjk.symm)
        grind
      · rename_i hNotLt hNe
        have := ih hRest
        grind

@[simp] theorem get_insert (m : SortedMap κ ν) (k j : κ) (v : ν) :
    (m.insert k v).get j = if j = k then some v else m.get j := by
  apply Option.ext
  intro w
  rw [← mem_entries_iff, insert, mem_insertEntry_iff m.sorted, mem_entries_iff]
  split
  · rename_i hEq
    simp [hEq, eq_comm]
  · rename_i hNe
    simp [hNe]

theorem get_empty_insert {k j : κ} {v w : ν} :
    ((empty : SortedMap κ ν).insert k v).get j = some w ↔ j = k ∧ w = v := by
  rw [get_insert, get_empty]
  split
  · rename_i hEq
    simp [hEq, eq_comm]
  · rename_i hNe
    simp [hNe]

@[simp] theorem get_remove (m : SortedMap κ ν) (k j : κ) :
    (m.remove k).get j = if j = k then none else m.get j := by
  apply Option.ext
  intro w
  rw [← mem_entries_iff, remove, List.mem_filter, mem_entries_iff]
  split
  · rename_i hEq
    simp [hEq]
  · rename_i hNe
    simp [hNe]

theorem get_removeAll (m : SortedMap κ ν) (ks : List κ) (j : κ) :
    (m.removeAll ks).get j = if j ∈ ks then none else m.get j := by
  induction ks generalizing m with
  | nil => simp [removeAll]
  | cons k ks ih =>
    have hStep : m.removeAll (k :: ks) = (m.remove k).removeAll ks := rfl
    rw [hStep, ih, get_remove]
    by_cases hjk : j = k <;> by_cases hMem : j ∈ ks <;> simp [hjk, hMem]

def lastValue (kvs : List (κ × ν)) (j : κ) : Option ν :=
  kvs.foldl (fun acc e => if j = e.1 then some e.2 else acc) none

theorem foldl_lastValue (kvs : List (κ × ν)) (j : κ) (acc : Option ν) :
    kvs.foldl (fun acc e => if j = e.1 then some e.2 else acc) acc = (lastValue kvs j).or acc := by
  induction kvs generalizing acc with
  | nil => simp [lastValue]
  | cons e kvs ih =>
    rw [lastValue, List.foldl_cons, List.foldl_cons, ih, ih (if j = e.1 then some e.2 else none)]
    by_cases hj : j = e.1 <;> simp [hj]

theorem lastValue_cons (e : κ × ν) (kvs : List (κ × ν)) (j : κ) :
    lastValue (e :: kvs) j = (lastValue kvs j).or (if j = e.1 then some e.2 else none) :=
  foldl_lastValue kvs j _

theorem lastValue_mem {kvs : List (κ × ν)} {j : κ} {v : ν} (h : lastValue kvs j = some v) :
    (j, v) ∈ kvs := by
  induction kvs with
  | nil => cases h
  | cons e kvs ih =>
    rw [lastValue_cons, Option.or_eq_some_iff] at h
    rcases h with h | ⟨_, h⟩
    · exact List.mem_cons_of_mem _ (ih h)
    · split at h
      · rename_i hj
        cases h
        exact hj ▸ List.mem_cons_self
      · cases h

theorem lastValue_eq_none_iff {kvs : List (κ × ν)} {j : κ} :
    lastValue kvs j = none ↔ j ∉ kvs.map Prod.fst := by
  induction kvs with
  | nil => simp [lastValue]
  | cons e kvs ih =>
    rw [lastValue_cons, Option.or_eq_none_iff, ih]
    by_cases hj : j = e.1 <;> simp [hj]

theorem lastValue_map {μ : Type*} (f : ν → μ) (kvs : List (κ × ν)) (j : κ) :
    lastValue (kvs.map fun e => (e.1, f e.2)) j = (lastValue kvs j).map f := by
  induction kvs with
  | nil => rfl
  | cons e kvs ih =>
    rw [List.map_cons, lastValue_cons, lastValue_cons, ih, Option.map_or]
    split <;> rfl

theorem lastValue_filterMap (order : List κ) (g : κ → Option ν) (j : κ) :
    lastValue (order.filterMap fun k => (g k).map fun v => (k, v)) j = if j ∈ order then g j else none := by
  induction order with
  | nil => rfl
  | cons k order ih =>
    rw [List.filterMap_cons]
    cases hValue : g k with
    | none =>
      rw [Option.map_none]
      dsimp only
      rw [ih]
      by_cases hjk : j = k
      · simp [hjk, hValue]
      · simp [hjk]
    | some v =>
      rw [Option.map_some]
      dsimp only
      rw [lastValue_cons, ih]
      by_cases hjk : j = k
      · by_cases hMem : k ∈ order <;> simp [hjk, hMem, hValue]
      · simp [hjk]

theorem get_insertAll (m : SortedMap κ ν) (kvs : List (κ × ν)) (j : κ) :
    (m.insertAll kvs).get j = (lastValue kvs j).or (m.get j) := by
  induction kvs generalizing m with
  | nil => simp [insertAll, lastValue]
  | cons e kvs ih =>
    have hStep : m.insertAll (e :: kvs) = (m.insert e.1 e.2).insertAll kvs := rfl
    rw [hStep, ih, get_insert, lastValue_cons]
    by_cases hj : j = e.1 <;> simp [hj]

/-- The map with the values of a partial function on the listed keys. -/
def tabulate (names : List κ) (g : κ → Option ν) : SortedMap κ ν :=
  empty.insertAll (names.filterMap fun k => (g k).map fun v => (k, v))

@[simp] theorem get_tabulate (names : List κ) (g : κ → Option ν) (j : κ) :
    (tabulate names g).get j = if j ∈ names then g j else none := by
  rw [tabulate, get_insertAll, lastValue_filterMap, get_empty, Option.or_none]

theorem values_tabulate {names : List κ} (hSorted : names.Pairwise (· < ·)) (g : κ → Option ν) :
    (tabulate names g).values = names.filterMap g :=
  values_eq_filterMap hSorted fun k => get_tabulate names g k

@[simp] theorem tabulate_nil (g : κ → Option ν) : tabulate [] g = empty := rfl

theorem tabulate_congr {names order : List κ} (h : ∀ k, k ∈ order ↔ k ∈ names) (g : κ → Option ν) :
    tabulate order g = tabulate names g := by
  ext1 k
  simp only [get_tabulate, h k]

theorem mem_keys_insertAll {m : SortedMap κ ν} {kvs : List (κ × ν)} {j : κ} :
    j ∈ (m.insertAll kvs).keys ↔ j ∈ kvs.map Prod.fst ∨ j ∈ m.keys := by
  rw [mem_keys_iff_isSome, mem_keys_iff_isSome, get_insertAll, Option.isSome_or, Bool.or_eq_true]
  have hLast : (lastValue kvs j).isSome = true ↔ j ∈ kvs.map Prod.fst := by
    rw [← not_iff_not, Bool.not_eq_true, Option.isSome_eq_false_iff, Option.isNone_iff_eq_none,
      lastValue_eq_none_iff]
  rw [hLast]

theorem forall_get_insertAll {P : κ → ν → Prop} {m : SortedMap κ ν} {kvs : List (κ × ν)}
    (hOld : ∀ k v, m.get k = some v → P k v) (hNew : ∀ e ∈ kvs, P e.1 e.2) :
    ∀ k v, (m.insertAll kvs).get k = some v → P k v := by
  intro k v h
  rw [get_insertAll, Option.or_eq_some_iff] at h
  rcases h with h | ⟨_, h⟩
  · exact hNew (k, v) (lastValue_mem h)
  · exact hOld k v h

end SortedMap

/-! ## Sorted lists without duplicates -/

section SortedUnique

variable {κ : Type u} [LinearOrder κ]

/-- Collecting into an ordered set and reading it back. -/
def sortedUnique (names : List κ) : List κ :=
  (SortedMap.empty.insertAll (names.map fun n => (n, ()))).keys

@[simp] theorem mem_sortedUnique {names : List κ} {n : κ} : n ∈ sortedUnique names ↔ n ∈ names := by
  rw [sortedUnique, SortedMap.mem_keys_insertAll]
  simp

theorem sortedUnique_sorted (names : List κ) : (sortedUnique names).Pairwise (· < ·) :=
  SortedMap.sorted _

theorem eq_of_sorted_of_mem_iff {xs ys : List κ} (hx : xs.Pairwise (· < ·)) (hy : ys.Pairwise (· < ·))
    (h : ∀ n, n ∈ xs ↔ n ∈ ys) : xs = ys := by
  have hPerm : xs.Perm ys :=
    (List.perm_ext_iff_of_nodup (hx.imp ne_of_lt) (hy.imp ne_of_lt)).mpr h
  exact hPerm.eq_of_pairwise (fun a b _ _ hab hba => absurd hab hba.asymm) hx hy

theorem sortedUnique_of_sorted {names : List κ} (h : names.Pairwise (· < ·)) :
    sortedUnique names = names :=
  eq_of_sorted_of_mem_iff (sortedUnique_sorted names) h fun _ => mem_sortedUnique

@[simp] theorem sortedUnique_sortedUnique (names : List κ) :
    sortedUnique (sortedUnique names) = sortedUnique names :=
  sortedUnique_of_sorted (sortedUnique_sorted names)

end SortedUnique

end Collections
