import ConsensusNode.Crypto.CanonicalJson
import ConsensusNode.Runtime.ProfileV1

/-! # The stable text of a value

`stableStringify` of `runtime/dedupe.ts` and `JSON.stringify(stableValue(…))` of `runtime/profile-v1.ts`. Both write
an infinite number, which `JSON.parse` makes of `1e400`, as `null`.

* `deepSort_eq_iff`: sorted values are equal if and only if the values are equal up to the order of keys.
* `stableText_canonical`: so are their texts, for values with finite numbers. -/

namespace ConsensusNode.Runtime

open Js

/-! ### Sorting up to the order of keys -/

mutual

/-- A sorted value is the value up to the order of keys. -/
theorem same_deepSort : ∀ v : Json, v.Wf → v.Same (deepSort v)
  | .null, _ => .null
  | .bool b, _ => .bool b
  | .num x, _ => .num x
  | .str s, _ => .str s
  | .arr xs, h => .arr (sameList_deepSort xs h)
  | .obj fs, h => by
    have hn : ((sortEntries (deepSortFields fs)).map Prod.fst).Nodup := by
      refine nodup_sortEntries ?_
      rw [map_fst_deepSortFields]
      exact h.1
    have hperm : (fromEntries (sortEntries (deepSortFields fs))).Perm (deepSortFields fs) :=
      (fromEntries_perm hn).trans (sortEntries_perm _)
    exact .obj (.trans (sameFields_deepSort fs h.2) (.of_perm hperm.symm))

theorem sameList_deepSort : ∀ xs : List Json, WfList xs → SameList xs (deepSortList xs)
  | [], _ => .nil
  | x :: xs, h => .cons (same_deepSort x h.1) (sameList_deepSort xs h.2)

theorem sameFields_deepSort : ∀ fs : List (JsString × Json), WfFields fs → SameFields fs (deepSortFields fs)
  | [], _ => .nil
  | (k, v) :: fs, h => .cons k (same_deepSort v h.1) (sameFields_deepSort fs h.2)

end

/-- **Sorted values are equal** exactly when the values are equal up to the order of keys. -/
theorem deepSort_eq_iff {v w : Json} (hv : v.Wf) (hw : w.Wf) : deepSort v = deepSort w ↔ v.Same w := by
  constructor
  · intro h
    have hsame := same_deepSort v hv
    rw [h] at hsame
    exact hsame.trans (same_deepSort w hw).symm
  · intro h
    exact deepSort_eq_of_same h hv

/-! ### Infinite numbers -/

theorem map_fst_finitize (fs : List (JsString × Json)) : (finitizeFields fs).map Prod.fst = fs.map Prod.fst := by
  rw [finitizeFields_eq_map, map_fst_mapValue]

mutual

theorem wf_finitize : ∀ {v : Json}, v.Wf → (finitize v).Wf
  | .null, _ => trivial
  | .bool _, _ => trivial
  | .num (.fin _ _), _ => trivial
  | .num .posInf, _ => trivial
  | .num .negInf, _ => trivial
  | .str _, _ => trivial
  | .arr _, h => wf_finitizeList h
  | .obj fs, h => ⟨by rw [map_fst_finitize]; exact h.1, wf_finitizeFields h.2⟩

theorem wf_finitizeList : ∀ {xs : List Json}, WfList xs → WfList (finitizeList xs)
  | [], _ => trivial
  | _ :: _, h => ⟨wf_finitize h.1, wf_finitizeList h.2⟩

theorem wf_finitizeFields : ∀ {fs : List (JsString × Json)}, WfFields fs → WfFields (finitizeFields fs)
  | [], _ => trivial
  | (_, _) :: _, h => ⟨wf_finitize h.1, wf_finitizeFields h.2⟩

end

/-- Sorting looks at the keys only. -/
theorem sortEntries_mapValue {α β : Type} (f : α → β) (es : List (JsString × α)) :
    sortEntries (es.map fun e => (e.1, f e.2)) = (sortEntries es).map fun e => (e.1, f e.2) := by
  unfold sortEntries
  exact (List.map_insertionSort (r := fun a b : JsString × α => a.1 ≤ b.1) (s := fun a b : JsString × β => a.1 ≤ b.1)
    (fun e => (e.1, f e.2)) es fun _ _ _ _ => Iff.rfl).symm

mutual

/-- Writing `null` for the infinite numbers before or after sorting. -/
theorem finitize_deepSort : ∀ v : Json, finitize (deepSort v) = deepSort (finitize v)
  | .null => rfl
  | .bool _ => rfl
  | .num (.fin _ _) => rfl
  | .num .posInf => rfl
  | .num .negInf => rfl
  | .str _ => rfl
  | .arr xs => by rw [deepSort, finitize, finitize, deepSort, finitizeList_deepSort xs]
  | .obj fs => by
    rw [deepSort, finitize, finitize, deepSort, ← finitizeFields_deepSort fs, finitizeFields_eq_map,
      finitizeFields_eq_map, sortEntries_mapValue, fromEntries_mapValue]

theorem finitizeList_deepSort : ∀ xs : List Json, finitizeList (deepSortList xs) = deepSortList (finitizeList xs)
  | [] => rfl
  | x :: xs => by
    rw [deepSortList, finitizeList, finitizeList, deepSortList, finitize_deepSort x, finitizeList_deepSort xs]

theorem finitizeFields_deepSort : ∀ fs : List (JsString × Json),
    finitizeFields (deepSortFields fs) = deepSortFields (finitizeFields fs)
  | [] => rfl
  | (k, v) :: fs => by
    rw [deepSortFields, finitizeFields, finitizeFields, deepSortFields, finitize_deepSort v, finitizeFields_deepSort fs]

end

/-! ### Texts -/

/-- **Equal texts**: the values are equal up to the order of keys when `null` stands for the infinite numbers. -/
theorem stringify_deepSort_eq_iff {v w : Json} (hv : v.Wf) (hw : w.Wf) :
    stringify (deepSort v) = stringify (deepSort w) ↔ (finitize v).Same (finitize w) := by
  rw [stringify_eq_iff, finitize_deepSort, finitize_deepSort]
  exact deepSort_eq_iff (wf_finitize hv) (wf_finitize hw)

/-- No number in the value is infinite. -/
def FiniteNumbers (v : Json) : Prop := finitize v = v

/-- **The stable text is a canonical form**: up to the order of keys and to `null` for infinite numbers in general, and
up to the order of keys for values with finite numbers. -/
theorem stableText_canonical {v w : Json} (hv : v.Wf) (hw : w.Wf) :
    (stableStringify v = stableStringify w ↔ (finitize v).Same (finitize w)) ∧
    (stringify (stableValue v) = stringify (stableValue w) ↔ (finitize v).Same (finitize w)) ∧
    (FiniteNumbers v → FiniteNumbers w → (stableStringify v = stableStringify w ↔ v.Same w) ∧
      (stringify (stableValue v) = stringify (stableValue w) ↔ v.Same w)) := by
  have hiff := stringify_deepSort_eq_iff hv hw
  refine ⟨hiff, hiff, fun hfv hfw => ?_⟩
  rw [hfv, hfw] at hiff
  exact ⟨hiff, hiff⟩

namespace Sample

/-- `{"b":1,"a":[{"2":null}]}` -/
def nested : Json := .obj [(js "b", .num (.ofNat 1)), (js "a", .arr [.obj [(js "2", .null)]])]

/-- `{"a":[{"2":null}],"b":1}` -/
def nestedSorted : Json := .obj [(js "a", .arr [.obj [(js "2", .null)]]), (js "b", .num (.ofNat 1))]

theorem wf_nested : nested.Wf := ⟨by decide, trivial, ⟨⟨⟨by decide, trivial, trivial⟩, trivial⟩, trivial⟩⟩

theorem wf_nestedSorted : nestedSorted.Wf := ⟨by decide, ⟨⟨⟨by decide, trivial, trivial⟩, trivial⟩, trivial, trivial⟩⟩

theorem nested_sameText : stableStringify nested = stableStringify nestedSorted :=
  ((stableText_canonical wf_nested wf_nestedSorted).2.2 rfl rfl).1.mpr (.obj (.swap ..))

/-- `1e400` and `null` have the same text. -/
theorem infinity_as_null : ¬ ∀ (s t : JsString) (v w : Json), parse s = some v → parse t = some w →
    (stableStringify v = stableStringify w ↔ v.Same w) := by
  intro hall
  have hsame := (hall (js "1e400") (js "null") (.num .posInf) .null (by decide +kernel) (by decide)).mp rfl
  cases hsame

end Sample

end ConsensusNode.Runtime
