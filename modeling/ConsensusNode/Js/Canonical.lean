import ConsensusNode.Js.OrdMap
import ConsensusNode.Js.Buffer

/-! # Sorted objects

Two ways of writing a value with the keys of every object sorted. `deepSort` rebuilds an object from its
sorted entries and keeps every key; `sortValue` assigns the sorted keys one by one to a fresh object, so
that a key `__proto__` is lost. In both, keys that are array indices still come first in the text.

A field that is read from the sorted object is the sorted field of the original (`lookup_deepSort`,
`lookup_sortValue`), so the text determines every field (`stableStringify_field`,
`canonicalJson_field`). -/

namespace ConsensusNode.Js

mutual

/-- No object has a key twice. -/
def Json.Wf : Json → Prop
  | .arr xs => WfList xs
  | .obj fs => (fs.map Prod.fst).Nodup ∧ WfFields fs
  | _ => True

def WfList : List Json → Prop
  | [] => True
  | x :: xs => x.Wf ∧ WfList xs

def WfFields : List (JsString × Json) → Prop
  | [] => True
  | (_, v) :: fs => v.Wf ∧ WfFields fs

end

/-- Entries sorted by key. -/
def sortEntries {α : Type} (es : List (JsString × α)) : List (JsString × α) :=
  es.insertionSort fun a b => a.1 ≤ b.1

mutual

/-- `deepSort` of `runtime/dedupe.ts`, also `stableValue` of `runtime/profile-v1.ts`. -/
def deepSort : Json → Json
  | .arr xs => .arr (deepSortList xs)
  | .obj fs => .obj (fromEntries (sortEntries (deepSortFields fs)))
  | v => v

def deepSortList : List Json → List Json
  | [] => []
  | x :: xs => deepSort x :: deepSortList xs

def deepSortFields : List (JsString × Json) → List (JsString × Json)
  | [] => []
  | (k, v) :: fs => (k, deepSort v) :: deepSortFields fs

end

def stableStringify (v : Json) : JsString := stringify (deepSort v)

mutual

/-- `sortValue` of `crypto/canonical-json.ts`. -/
def sortValue : Json → Json
  | .arr xs => .arr (sortValueList xs)
  | .obj fs => .obj ((sortEntries (sortValueFields fs)).foldl (fun o e => assignField o e.1 e.2) [])
  | v => v

def sortValueList : List Json → List Json
  | [] => []
  | x :: xs => sortValue x :: sortValueList xs

def sortValueFields : List (JsString × Json) → List (JsString × Json)
  | [] => []
  | (k, v) :: fs => (k, sortValue v) :: sortValueFields fs

end

def canonicalJson (v : Json) : JsString := stringify (sortValue v)

theorem wellFormed_canonicalJson (v : Json) : WellFormed (canonicalJson v) := wellFormed_stringify _

/-! ### Values without repeated keys -/

theorem wfFields_iff {fs : List (JsString × Json)} : WfFields fs ↔ ∀ e ∈ fs, e.2.Wf := by
  induction fs with
  | nil => simp [WfFields]
  | cons e fs ih =>
    rw [WfFields, ih]
    simp

theorem Json.Wf.field {a v : Json} (h : a.Wf) {k : JsString} (hv : a.field? k = some v) : v.Wf := by
  cases a with
  | obj fs =>
    obtain ⟨k', hmem⟩ := OrdMap.mem_of_lookup (show fs.lookup k = some v from hv)
    exact wfFields_iff.mp h.2 _ hmem
  | _ => cases hv

theorem mem_insertField {α : Type} {k : JsString} {v : α} {e : JsString × α} :
    ∀ {fs : List (JsString × α)}, e ∈ insertField k v fs → e = (k, v) ∨ e ∈ fs
  | [], h => .inl (List.mem_singleton.mp h)
  | (l, w) :: fs, h => by
    unfold insertField at h
    split_ifs at h
    · exact List.mem_cons.mp h
    · rcases List.mem_cons.mp h with h | h
      · exact .inr (by simp [h])
      · exact (mem_insertField h).imp_right fun h => by simp [h]

theorem mem_setField {α : Type} {k : JsString} {v : α} {e : JsString × α} {fs : List (JsString × α)}
    (h : e ∈ setField fs k v) : e = (k, v) ∨ e ∈ fs := by
  unfold setField at h
  split_ifs at h
  · obtain ⟨e', he', rfl⟩ := List.mem_map.mp h
    split_ifs
    · exact .inl rfl
    · exact .inr he'
  · exact mem_insertField h

theorem mem_of_mem_fromEntries {α : Type} {e : JsString × α} {es : List (JsString × α)}
    (h : e ∈ fromEntries es) : e ∈ es := by
  unfold fromEntries at h
  induction es using List.reverseRecOn with
  | nil => cases h
  | append_singleton es x ih =>
    rw [List.foldl_append] at h
    rcases mem_setField h with rfl | h
    · simp
    · simp [ih h]

mutual

theorem wf_rebuild : ∀ v : Json, (rebuild v).Wf
  | .arr xs => wf_rebuildList xs
  | .obj fs => by
    refine ⟨nodup_fromEntries _, wfFields_iff.mpr fun e he => ?_⟩
    exact wfFields_iff.mp (wf_rebuildFields fs) e (mem_of_mem_fromEntries he)
  | .null => trivial
  | .bool _ => trivial
  | .num _ => trivial
  | .str _ => trivial

theorem wf_rebuildList : ∀ xs : List Json, WfList (rebuildList xs)
  | [] => trivial
  | x :: xs => ⟨wf_rebuild x, wf_rebuildList xs⟩

theorem wf_rebuildFields : ∀ fs : List (JsString × Json), WfFields (rebuildFields fs)
  | [] => trivial
  | (_, v) :: fs => ⟨wf_rebuild v, wf_rebuildFields fs⟩

end

/-- **What `JSON.parse` returns has no key twice.** -/
theorem wf_parse {s : JsString} {v : Json} (h : parse s = some v) : v.Wf := by
  unfold parse at h
  split at h
  · split_ifs at h
    cases h
    exact wf_rebuild _
  · cases h

/-! ### Reading a sorted object -/

section Fields

variable {α : Type}

theorem lookup_perm {l l' : List (JsString × α)} (h : l.Perm l') (hl : (l.map Prod.fst).Nodup)
    (k : JsString) : l.lookup k = l'.lookup k := by
  ext v
  rw [OrdMap.lookup_eq_some hl, OrdMap.lookup_eq_some ((h.map _).nodup_iff.mp hl), h.mem_iff]

theorem lookup_sortEntries {es : List (JsString × α)} (h : (es.map Prod.fst).Nodup) (k : JsString) :
    (sortEntries es).lookup k = es.lookup k :=
  (lookup_perm (List.perm_insertionSort _ es).symm h k).symm

theorem nodup_sortEntries {es : List (JsString × α)} (h : (es.map Prod.fst).Nodup) :
    ((sortEntries es).map Prod.fst).Nodup :=
  ((List.perm_insertionSort _ es).map _).nodup_iff.mpr h

/-- What is read from `k` after a sequence of updates with distinct keys. -/
theorem lookup_foldl_set {set : List (JsString × α) → JsString → α → List (JsString × α)}
    {k : JsString} (hset : ∀ fs k' v, (set fs k' v).lookup k = if k = k' then some v else fs.lookup k) :
    ∀ (es init : List (JsString × α)), (es.map Prod.fst).Nodup →
      (es.foldl (fun fs e => set fs e.1 e.2) init).lookup k = (es.lookup k).or (init.lookup k)
  | [], init, _ => by simp
  | (l, w) :: es, init, hn => by
    simp only [List.map_cons, List.nodup_cons] at hn
    rw [List.foldl_cons, lookup_foldl_set hset es _ hn.2, hset, List.lookup_cons]
    by_cases h : k = l
    · subst h
      rw [OrdMap.lookup_eq_none.mpr hn.1]
      simp
    · have hb : (k == l) = false := by simpa using h
      simp [h, hb]

theorem lookup_fromEntries {es : List (JsString × α)} (h : (es.map Prod.fst).Nodup) (k : JsString) :
    (fromEntries es).lookup k = es.lookup k := by
  unfold fromEntries
  rw [lookup_foldl_set (fun fs k' v => lookup_setField fs k' k v) es [] h]
  simp

end Fields

theorem map_fst_deepSortFields : ∀ fs : List (JsString × Json),
    (deepSortFields fs).map Prod.fst = fs.map Prod.fst
  | [] => rfl
  | (k, v) :: fs => by rw [deepSortFields, List.map_cons, List.map_cons, map_fst_deepSortFields fs]

theorem lookup_deepSortFields (k : JsString) : ∀ fs : List (JsString × Json),
    (deepSortFields fs).lookup k = (fs.lookup k).map deepSort
  | [] => rfl
  | (l, v) :: fs => by
    rw [deepSortFields, List.lookup_cons, List.lookup_cons, lookup_deepSortFields k fs]
    cases (k == l) <;> rfl

theorem lookup_deepSort {fs : List (JsString × Json)} (h : (fs.map Prod.fst).Nodup) (k : JsString) :
    (deepSort (.obj fs)).field? k = (fs.lookup k).map deepSort := by
  have hn : ((deepSortFields fs).map Prod.fst).Nodup := by rw [map_fst_deepSortFields]; exact h
  show (fromEntries (sortEntries (deepSortFields fs))).lookup k = _
  rw [lookup_fromEntries (nodup_sortEntries hn), lookup_sortEntries hn, lookup_deepSortFields]

theorem map_fst_sortValueFields : ∀ fs : List (JsString × Json),
    (sortValueFields fs).map Prod.fst = fs.map Prod.fst
  | [] => rfl
  | (k, v) :: fs => by rw [sortValueFields, List.map_cons, List.map_cons, map_fst_sortValueFields fs]

theorem lookup_sortValueFields (k : JsString) : ∀ fs : List (JsString × Json),
    (sortValueFields fs).lookup k = (fs.lookup k).map sortValue
  | [] => rfl
  | (l, v) :: fs => by
    rw [sortValueFields, List.lookup_cons, List.lookup_cons, lookup_sortValueFields k fs]
    cases (k == l) <;> rfl

theorem lookup_sortValue {fs : List (JsString × Json)} (h : (fs.map Prod.fst).Nodup) {k : JsString}
    (hk : k ≠ js "__proto__") : (sortValue (.obj fs)).field? k = (fs.lookup k).map sortValue := by
  have hn : ((sortValueFields fs).map Prod.fst).Nodup := by rw [map_fst_sortValueFields]; exact h
  have hset : ∀ (os : List (JsString × Json)) k' v,
      (assignField os k' v).lookup k = if k = k' then some v else os.lookup k := by
    intro os k' v
    unfold assignField
    split_ifs with h1 h2 h2
    · exact absurd (h2.trans h1) hk
    · rfl
    · rw [lookup_setField, if_pos h2]
    · rw [lookup_setField, if_neg h2]
  show ((sortEntries (sortValueFields fs)).foldl (fun o e => assignField o e.1 e.2) []).lookup k = _
  rw [lookup_foldl_set hset _ _ (nodup_sortEntries hn), lookup_sortEntries hn, lookup_sortValueFields]
  simp

/-! ### The text determines the fields -/

theorem deepSort_eq_str {v : Json} {s : JsString} (h : deepSort v = .str s) : v = .str s := by
  cases v <;> simp_all [deepSort]

theorem sortValue_eq_str {v : Json} {s : JsString} (h : sortValue v = .str s) : v = .str s := by
  cases v <;> simp_all [sortValue]

theorem field?_finitize (v : Json) (k : JsString) :
    (finitize v).field? k = (v.field? k).map finitize := by
  cases v with
  | num x => cases x <;> rfl
  | obj fs => exact lookup_finitizeFields k fs
  | _ => rfl

/-- A field that holds a string is read back from the finitized value. -/
theorem field?_of_finitize_eq {v w : Json} (h : finitize v = finitize w) {k s : JsString}
    (hs : v.field? k = some (.str s)) : w.field? k = some (.str s) := by
  have hk : (w.field? k).map finitize = some (.str s) := by
    rw [← field?_finitize, ← h, field?_finitize, hs]; rfl
  obtain ⟨x, hx, hxs⟩ := Option.map_eq_some_iff.mp hk
  rw [hx, finitize_eq_str hxs]

/-- **Equal sorted texts have equal string fields.** -/
theorem stableStringify_field {fs gs : List (JsString × Json)} (hf : (fs.map Prod.fst).Nodup)
    (hg : (gs.map Prod.fst).Nodup) (h : stableStringify (.obj fs) = stableStringify (.obj gs))
    {k s : JsString} (hs : fs.lookup k = some (.str s)) : gs.lookup k = some (.str s) := by
  have hk := field?_of_finitize_eq (stringify_injective h) (k := k) (s := s)
    (by rw [lookup_deepSort hf, hs]; rfl)
  rw [lookup_deepSort hg] at hk
  obtain ⟨x, hx, hxs⟩ := Option.map_eq_some_iff.mp hk
  rw [hx, deepSort_eq_str hxs]

theorem canonicalJson_field {fs gs : List (JsString × Json)} (hf : (fs.map Prod.fst).Nodup)
    (hg : (gs.map Prod.fst).Nodup) (h : canonicalJson (.obj fs) = canonicalJson (.obj gs))
    {k s : JsString} (hk : k ≠ js "__proto__") (hs : fs.lookup k = some (.str s)) :
    gs.lookup k = some (.str s) := by
  have hk' := field?_of_finitize_eq (stringify_injective h) (k := k) (s := s)
    (by rw [lookup_sortValue hf hk, hs]; rfl)
  rw [lookup_sortValue hg hk] at hk'
  obtain ⟨x, hx, hxs⟩ := Option.map_eq_some_iff.mp hk'
  rw [hx, sortValue_eq_str hxs]

end ConsensusNode.Js
