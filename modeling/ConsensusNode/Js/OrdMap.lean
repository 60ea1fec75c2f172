import Mathlib.Data.List.Nodup

/-! # Insertion-ordered maps

A `Map` of the language: the entries in insertion order, no key twice. `set` on a key that is present
replaces its value where it stands, on a new key it appends; `delete` keeps the order of the rest; so
the first key is the one that has been in the map for the longest time (`oldest?`). A `Set` is a map
with values in `Unit`. -/

namespace ConsensusNode.Js

/-- An insertion-ordered map. -/
structure OrdMap (κ ν : Type) where
  /-- The entries, oldest first. -/
  entries : List (κ × ν)
  nodup : (entries.map Prod.fst).Nodup
deriving DecidableEq

namespace OrdMap

section Lookup

variable {κ ν : Type*} [BEq κ] [LawfulBEq κ]

theorem lookup_eq_none {l : List (κ × ν)} {k : κ} : l.lookup k = none ↔ k ∉ l.map Prod.fst := by
  induction l with
  | nil => simp
  | cons e l ih =>
    obtain ⟨a, b⟩ := e
    rw [List.lookup_cons]
    by_cases h : k = a
    · subst h; simp
    · have hb : (k == a) = false := by simpa using h
      simp only [hb, List.map_cons, List.mem_cons, h, false_or]
      exact ih

theorem lookup_eq_some {l : List (κ × ν)} (hl : (l.map Prod.fst).Nodup) {k : κ} {v : ν} :
    l.lookup k = some v ↔ (k, v) ∈ l := by
  induction l with
  | nil => simp
  | cons e l ih =>
    obtain ⟨a, b⟩ := e
    simp only [List.map_cons, List.nodup_cons] at hl
    rw [List.lookup_cons]
    by_cases h : k = a
    · subst h
      have hv : (k, v) ∉ l := fun hm => hl.1 (List.mem_map.mpr ⟨_, hm, rfl⟩)
      simp [hv, eq_comm]
    · have hb : (k == a) = false := by simpa using h
      simp only [hb]
      rw [ih hl.2]
      simp [h]

omit [LawfulBEq κ] in
theorem mem_of_lookup {l : List (κ × ν)} {k : κ} {v : ν} (h : l.lookup k = some v) :
    ∃ k', (k', v) ∈ l := by
  induction l with
  | nil => cases h
  | cons e l ih =>
    obtain ⟨a, b⟩ := e
    rw [List.lookup_cons] at h
    split at h
    · cases h
      exact ⟨a, by simp⟩
    · obtain ⟨k', hk'⟩ := ih h
      exact ⟨k', by simp [hk']⟩

end Lookup

variable {κ ν : Type} [DecidableEq κ]

deriving instance DecidableEq for OrdMap

/-- The map without entries. -/
def empty : OrdMap κ ν := ⟨[], by simp⟩

instance : EmptyCollection (OrdMap κ ν) := ⟨empty⟩

/-- The value of a key. -/
def get? (m : OrdMap κ ν) (k : κ) : Option ν := m.entries.lookup k

/-- The key is present. -/
def has (m : OrdMap κ ν) (k : κ) : Bool := (m.get? k).isSome

/-- The keys, oldest first. -/
def keys (m : OrdMap κ ν) : List κ := m.entries.map Prod.fst

/-- The number of entries. -/
def size (m : OrdMap κ ν) : ℕ := m.entries.length

/-- The key inserted first. -/
def oldest? (m : OrdMap κ ν) : Option κ := m.keys.head?

/-- Keep the entries that satisfy `p`. -/
def filter (m : OrdMap κ ν) (p : κ × ν → Bool) : OrdMap κ ν :=
  ⟨m.entries.filter p, m.nodup.sublist (List.filter_sublist.map _)⟩

/-- Remove a key. -/
def delete (m : OrdMap κ ν) (k : κ) : OrdMap κ ν := m.filter fun e => decide (e.1 ≠ k)

/-- Replace the value of `k` where it stands. -/
def replace (k : κ) (v : ν) (e : κ × ν) : κ × ν := if e.1 = k then (k, v) else e

theorem replace_fst (k : κ) (v : ν) (e : κ × ν) : (replace k v e).1 = e.1 := by
  unfold replace; split_ifs with h
  · exact h.symm
  · rfl

theorem map_replace_fst (k : κ) (v : ν) (l : List (κ × ν)) :
    (l.map (replace k v)).map Prod.fst = l.map Prod.fst := by
  rw [List.map_map]; exact List.map_congr_left fun e _ => replace_fst k v e

/-- Change every value. -/
def map {ν' : Type} (m : OrdMap κ ν) (f : ν → ν') : OrdMap κ ν' :=
  ⟨m.entries.map fun e => (e.1, f e.2), by rw [List.map_map]; exact m.nodup⟩

/-- Set the value of a key. -/
def set (m : OrdMap κ ν) (k : κ) (v : ν) : OrdMap κ ν :=
  if h : m.has k then ⟨m.entries.map (replace k v), by rw [map_replace_fst]; exact m.nodup⟩
  else ⟨m.entries ++ [(k, v)], by
    have hk : k ∉ m.entries.map Prod.fst := by
      rw [← lookup_eq_none]; exact Option.not_isSome_iff_eq_none.mp h
    rw [List.map_append]
    refine m.nodup.append (by simp) fun a ha ha' => hk ?_
    rw [show k = a from (List.mem_singleton.mp ha').symm]; exact ha⟩

/-! ### Reading -/

theorem has_iff {m : OrdMap κ ν} {k : κ} : m.has k = true ↔ k ∈ m.keys := by
  unfold has keys
  rw [Option.isSome_iff_ne_none, ne_eq, get?, lookup_eq_none, not_not]

theorem not_has_iff {m : OrdMap κ ν} {k : κ} : m.has k = false ↔ m.get? k = none := by
  unfold has; simp

theorem get?_eq_none {m : OrdMap κ ν} {k : κ} : m.get? k = none ↔ k ∉ m.keys := lookup_eq_none

omit [DecidableEq κ] in
theorem ext_entries {m m' : OrdMap κ ν} (h : m.entries = m'.entries) : m = m' := by
  cases m; cases m'; cases h; rfl

theorem get?_eq_some {m : OrdMap κ ν} {k : κ} {v : ν} : m.get? k = some v ↔ (k, v) ∈ m.entries :=
  lookup_eq_some m.nodup

@[simp] theorem get?_empty (k : κ) : (empty : OrdMap κ ν).get? k = none := rfl

omit [DecidableEq κ] in
@[simp] theorem keys_empty : (empty : OrdMap κ ν).keys = [] := rfl

/-! ### Reading after an update -/

theorem lookup_map_replace (l : List (κ × ν)) (k k' : κ) (v : ν) :
    (l.map (replace k v)).lookup k' =
      if k' = k then (l.lookup k).map fun _ => v else l.lookup k' := by
  induction l with
  | nil => simp
  | cons e l ih =>
    obtain ⟨a, b⟩ := e
    rw [List.map_cons]
    by_cases ha : a = k
    · subst ha
      rw [replace, if_pos rfl, List.lookup_cons, List.lookup_cons, List.lookup_cons, ih]
      by_cases hk : k' = a
      · subst hk; simp
      · have hb : (k' == a) = false := by simpa using hk
        simp [hb, hk]
    · rw [replace, if_neg ha, List.lookup_cons, List.lookup_cons, List.lookup_cons, ih]
      have hka : (k == a) = false := by simpa using fun h : k = a => ha h.symm
      by_cases hk : k' = k
      · subst hk; simp [hka]
      · by_cases hk' : k' = a
        · subst hk'; simp [hk]
        · have hb : (k' == a) = false := by simpa using hk'
          simp [hb, hk]

theorem get?_set (m : OrdMap κ ν) (k k' : κ) (v : ν) :
    (m.set k v).get? k' = if k' = k then some v else m.get? k' := by
  unfold set
  split_ifs with h hk hk
  · obtain ⟨w, hw⟩ := Option.isSome_iff_exists.mp h
    show (m.entries.map (replace k v)).lookup k' = _
    rw [lookup_map_replace, if_pos hk]
    show (m.get? k).map (fun _ => v) = some v
    rw [hw]; rfl
  · show (m.entries.map (replace k v)).lookup k' = _
    rw [lookup_map_replace, if_neg hk]; rfl
  · have hn : m.get? k = none := by simpa [has] using h
    subst hk
    show (m.entries ++ [(k', v)]).lookup k' = some v
    rw [List.lookup_append, show m.entries.lookup k' = none from hn, Option.none_or]
    exact List.lookup_cons_self
  · show (m.entries ++ [(k, v)]).lookup k' = m.entries.lookup k'
    have hb : (k' == k) = false := by simpa using hk
    rw [List.lookup_append, List.lookup_cons, hb]
    simp

@[simp] theorem get?_set_self (m : OrdMap κ ν) (k : κ) (v : ν) : (m.set k v).get? k = some v := by
  rw [get?_set, if_pos rfl]

theorem get?_set_ne (m : OrdMap κ ν) {k k' : κ} (v : ν) (h : k' ≠ k) :
    (m.set k v).get? k' = m.get? k' := by
  rw [get?_set, if_neg h]

omit [DecidableEq κ] in
theorem mem_filter_entries {m : OrdMap κ ν} {p : κ × ν → Bool} {e : κ × ν} :
    e ∈ (m.filter p).entries ↔ e ∈ m.entries ∧ p e = true := by
  unfold filter; simp

theorem get?_filter_eq_some {m : OrdMap κ ν} {p : κ × ν → Bool} {k : κ} {v : ν} :
    (m.filter p).get? k = some v ↔ m.get? k = some v ∧ p (k, v) = true := by
  rw [get?_eq_some, mem_filter_entries, get?_eq_some]

theorem get?_delete (m : OrdMap κ ν) (k k' : κ) :
    (m.delete k).get? k' = if k' = k then none else m.get? k' := by
  ext v
  show (m.filter _).get? k' = some v ↔ _
  rw [get?_filter_eq_some]
  by_cases h : k' = k
  · simp [h]
  · simp [h]

@[simp] theorem get?_delete_self (m : OrdMap κ ν) (k : κ) : (m.delete k).get? k = none := by
  rw [get?_delete, if_pos rfl]

theorem get?_delete_ne (m : OrdMap κ ν) {k k' : κ} (h : k' ≠ k) :
    (m.delete k).get? k' = m.get? k' := by
  rw [get?_delete, if_neg h]

section Map

variable {ν' : Type} (f : ν → ν')

omit [DecidableEq κ] in
@[simp] theorem keys_map (m : OrdMap κ ν) : (m.map f).keys = m.keys := by
  unfold map keys
  rw [List.map_map]
  rfl

end Map

theorem delete_of_get?_none {m : OrdMap κ ν} {k : κ} (h : m.get? k = none) : m.delete k = m := by
  refine ext_entries (List.filter_eq_self.mpr fun e he => ?_)
  have hne : e.1 ≠ k := by
    rintro rfl
    exact get?_eq_none.mp h (List.mem_map_of_mem he)
  simp [hne]

/-! ### Keys and size -/

theorem mem_keys_iff {m : OrdMap κ ν} {k : κ} : k ∈ m.keys ↔ ∃ v, m.get? k = some v := by
  rw [← has_iff, has, Option.isSome_iff_exists]

theorem mem_keys_set {m : OrdMap κ ν} {k k' : κ} {v : ν} :
    k' ∈ (m.set k v).keys ↔ k' = k ∨ k' ∈ m.keys := by
  rw [mem_keys_iff, mem_keys_iff]
  by_cases h : k' = k
  · subst h; simp
  · simp [get?_set_ne m v h, h]

theorem has_set_iff {m : OrdMap κ ν} {k k' : κ} {v : ν} :
    (m.set k v).has k' = true ↔ k' = k ∨ m.has k' = true := by
  rw [has_iff, has_iff, mem_keys_set]

theorem has_delete_iff {m : OrdMap κ ν} {k k' : κ} :
    (m.delete k).has k' = true ↔ k' ≠ k ∧ m.has k' = true := by
  unfold has
  rw [get?_delete]
  split_ifs with h
  · simp [h]
  · simp [h]

/-- Filtering by a test of the keys. -/
theorem has_filter_iff {m : OrdMap κ ν} {q : κ → Bool} {k : κ} :
    (m.filter fun e => q e.1).has k = true ↔ q k = true ∧ m.has k = true := by
  unfold has
  simp only [Option.isSome_iff_exists, get?_filter_eq_some]
  constructor
  · rintro ⟨v, hv, hq⟩
    exact ⟨hq, v, hv⟩
  · rintro ⟨hq, v, hv⟩
    exact ⟨v, hv, hq⟩

theorem eq_empty {m : OrdMap κ ν} (h : ∀ k, m.has k = false) : m = ∅ := by
  refine ext_entries (List.eq_nil_iff_forall_not_mem.mpr fun e he => ?_)
  have hk : m.has e.1 = true := has_iff.mpr (List.mem_map_of_mem he)
  rw [h] at hk
  cases hk

theorem has_foldl_delete (ks : List κ) {m : OrdMap κ ν} {k : κ} :
    (ks.foldl delete m).has k = true ↔ k ∉ ks ∧ m.has k = true := by
  induction ks generalizing m with
  | nil => simp
  | cons k' ks ih =>
    rw [List.foldl_cons, ih, has_delete_iff, List.mem_cons, not_or]
    tauto

/-- Nothing is left when every key is deleted. -/
theorem foldl_delete_keys (m : OrdMap κ ν) : m.keys.foldl delete m = ∅ := by
  refine eq_empty fun k => ?_
  rw [← Bool.not_eq_true, has_foldl_delete, has_iff]
  exact fun h => h.1 h.2

omit [DecidableEq κ] in
theorem length_keys (m : OrdMap κ ν) : m.keys.length = m.size := by simp [keys, size]

theorem size_delete_le (m : OrdMap κ ν) (k : κ) : (m.delete k).size ≤ m.size := List.length_filter_le _ _

theorem size_delete_lt {m : OrdMap κ ν} {k : κ} (h : k ∈ m.keys) : (m.delete k).size < m.size := by
  obtain ⟨e, he, rfl⟩ := List.mem_map.mp h
  exact List.length_filter_lt_length_iff_exists.mpr ⟨e, he, by simp⟩

theorem size_set_le (m : OrdMap κ ν) (k : κ) (v : ν) : (m.set k v).size ≤ m.size + 1 := by
  unfold set size
  split_ifs
  · rw [List.length_map]
    exact Nat.le_succ _
  · exact Nat.le_of_eq List.length_append

omit [DecidableEq κ] in
theorem nodup_keys (m : OrdMap κ ν) : m.keys.Nodup := m.nodup

end OrdMap

end ConsensusNode.Js
