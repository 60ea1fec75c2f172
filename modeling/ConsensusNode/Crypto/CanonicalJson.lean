import ConsensusNode.Js.KeyOrder

/-! # What a canonical text covers

`crypto/canonical-json.ts` builds every object by assigning its sorted keys, so a member `__proto__` sets
the prototype of the new object and is not in the text; and `JSON.stringify` writes `null` for an infinite
number, which `JSON.parse` returns for a literal such as `1e400`. `covered` is the value without these
parts.

* `canonicalJson_eq_iff`: two values have the same canonical text exactly when what the text covers of them
  is equal up to the order of keys.
* `canonicalJson_faithful_iff`: so the text tells two values apart (up to the order of keys) exactly when
  they do not become equal by leaving out the members `__proto__` and writing `null` for the infinite
  numbers. -/

namespace ConsensusNode.Js

theorem stringify_eq_iff {v w : Json} : stringify v = stringify w ↔ finitize v = finitize w := by
  constructor
  · exact stringify_injective
  · intro h
    rw [← stringify_finitize v, h, stringify_finitize]

/-! ### The covered part -/

mutual

/-- **What a canonical text covers**: the value without members `__proto__`, and with `null` for the
infinite numbers. -/
def covered : Json → Json
  | .num (.fin q h) => .num (.fin q h)
  | .num _ => .null
  | .arr xs => .arr (coveredList xs)
  | .obj fs => .obj (coveredFields fs)
  | v => v

def coveredList : List Json → List Json
  | [] => []
  | x :: xs => covered x :: coveredList xs

def coveredFields : List (JsString × Json) → List (JsString × Json)
  | [] => []
  | (k, v) :: fs => if k = js "__proto__" then coveredFields fs else (k, covered v) :: coveredFields fs

end

/-- The entries that an assignment turns into fields. -/
def assigned {α : Type} (es : List (JsString × α)) : List (JsString × α) :=
  es.filter fun e => decide (e.1 ≠ js "__proto__")

theorem foldl_assignField {α : Type} : ∀ es fs : List (JsString × α),
    es.foldl (fun o e => assignField o e.1 e.2) fs =
      (assigned es).foldl (fun o e => setField o e.1 e.2) fs
  | [], _ => rfl
  | e :: es, fs => by
    unfold assigned
    rw [List.foldl_cons, List.filter_cons]
    by_cases h : e.1 = js "__proto__"
    · rw [if_neg (by simp [h]), assignField, if_pos h]
      exact foldl_assignField es fs
    · rw [if_pos (by simp [h]), List.foldl_cons, assignField, if_neg h]
      exact foldl_assignField es _

theorem sortValue_obj (fs : List (JsString × Json)) :
    sortValue (.obj fs) = .obj (fromEntries (assigned (sortEntries (sortValueFields fs)))) := by
  rw [sortValue, foldl_assignField]
  rfl

theorem nodup_assigned {es : List (JsString × Json)} (h : (es.map Prod.fst).Nodup) :
    ((assigned es).map Prod.fst).Nodup :=
  h.sublist (List.filter_sublist.map _)

theorem nodup_sortValueFields {fs : List (JsString × Json)} (h : (fs.map Prod.fst).Nodup) :
    ((assigned (sortEntries (sortValueFields fs))).map Prod.fst).Nodup := by
  have hn : ((sortValueFields fs).map Prod.fst).Nodup := by
    rw [map_fst_sortValueFields]
    exact h
  exact nodup_assigned (nodup_sortEntries hn)

theorem finitizeFields_eq_map (fs : List (JsString × Json)) :
    finitizeFields fs = fs.map fun e => (e.1, finitize e.2) := by
  induction fs with
  | nil => rfl
  | cons e fs ih =>
    rw [finitizeFields, ih]
    rfl

theorem finitizeFields_perm {fs gs : List (JsString × Json)} (h : fs.Perm gs) :
    (finitizeFields fs).Perm (finitizeFields gs) := by
  rw [finitizeFields_eq_map, finitizeFields_eq_map]
  exact h.map _

mutual

/-- The sorted value is the covered value up to the order of keys. -/
theorem same_covered : ∀ v : Json, v.Wf → (covered v).Same (finitize (sortValue v))
  | .null, _ => .null
  | .bool b, _ => .bool b
  | .num (.fin q h), _ => .num _
  | .num .posInf, _ => .null
  | .num .negInf, _ => .null
  | .str s, _ => .str s
  | .arr xs, h => .arr (sameList_covered xs h)
  | .obj fs, h => by
    rw [covered, sortValue_obj, finitize]
    have hperm : (fromEntries (assigned (sortEntries (sortValueFields fs)))).Perm
        (assigned (sortValueFields fs)) :=
      (fromEntries_perm (nodup_sortValueFields h.1)).trans ((sortEntries_perm _).filter _)
    exact .obj (.trans (sameFields_covered fs h.2) (.of_perm (finitizeFields_perm hperm.symm)))

theorem sameList_covered : ∀ xs : List Json, WfList xs →
    SameList (coveredList xs) (finitizeList (sortValueList xs))
  | [], _ => .nil
  | x :: xs, h => .cons (same_covered x h.1) (sameList_covered xs h.2)

theorem sameFields_covered : ∀ fs : List (JsString × Json), WfFields fs →
    SameFields (coveredFields fs) (finitizeFields (assigned (sortValueFields fs)))
  | [], _ => .nil
  | (k, v) :: fs, h => by
    have ih := sameFields_covered fs h.2
    unfold assigned at *
    rw [coveredFields, sortValueFields, List.filter_cons]
    by_cases hk : k = js "__proto__"
    · rw [if_pos hk, if_neg (by simp [hk])]
      exact ih
    · rw [if_neg hk, if_pos (by simp [hk]), finitizeFields]
      exact .cons k (same_covered v h.1) ih

end

/-! ### The sorted value is a normal form -/

section Values

variable {α β : Type} (f : α → β)

theorem map_fst_mapValue (fs : List (JsString × α)) :
    (fs.map fun e => (e.1, f e.2)).map Prod.fst = fs.map Prod.fst := by
  rw [List.map_map]
  rfl

theorem insertField_mapValue (k : JsString) (v : α) : ∀ fs : List (JsString × α),
    insertField k (f v) (fs.map fun e => (e.1, f e.2)) =
      (insertField k v fs).map fun e => (e.1, f e.2)
  | [] => rfl
  | (l, w) :: fs => by
    rw [List.map_cons, insertField, insertField]
    split_ifs
    · rfl
    · rw [insertField_mapValue k v fs]
      rfl

theorem setField_mapValue (fs : List (JsString × α)) (k : JsString) (v : α) :
    setField (fs.map fun e => (e.1, f e.2)) k (f v) = (setField fs k v).map fun e => (e.1, f e.2) := by
  unfold setField
  rw [map_fst_mapValue]
  split_ifs
  · rw [List.map_map, List.map_map]
    refine List.map_congr_left fun e _ => ?_
    simp only [Function.comp_apply]
    split_ifs <;> rfl
  · exact insertField_mapValue f k v fs

theorem fromEntries_mapValue (es : List (JsString × α)) :
    fromEntries (es.map fun e => (e.1, f e.2)) = (fromEntries es).map fun e => (e.1, f e.2) := by
  induction es using List.reverseRecOn with
  | nil => rfl
  | append_singleton es e ih =>
    unfold fromEntries at *
    rw [List.map_append, List.foldl_append, List.foldl_append, ih]
    exact setField_mapValue f _ e.1 e.2

end Values

theorem deepSortFields_of_fixed : ∀ {fs : List (JsString × Json)}, (∀ e ∈ fs, deepSort e.2 = e.2) →
    deepSortFields fs = fs
  | [], _ => rfl
  | (k, v) :: fs, h => by
    rw [deepSortFields, h (k, v) (by simp), deepSortFields_of_fixed fun e he => h e (by simp [he])]

mutual

theorem deepSort_sortValue : ∀ v : Json, v.Wf →
    deepSort (finitize (sortValue v)) = finitize (sortValue v)
  | .null, _ => rfl
  | .bool _, _ => rfl
  | .num (.fin _ _), _ => rfl
  | .num .posInf, _ => rfl
  | .num .negInf, _ => rfl
  | .str _, _ => rfl
  | .arr xs, h => by rw [sortValue, finitize, deepSort, deepSortList_sortValue xs h]
  | .obj fs, h => by
    have hn := nodup_sortValueFields h.1
    -- the entries in the order of their keys
    set es := assigned (sortEntries (sortValueFields fs)) with hes
    have hsorted : es.Pairwise fun a b => a.1 ≤ b.1 :=
      (List.pairwise_insertionSort _ (sortValueFields fs)).sublist List.filter_sublist
    have hsort : sortEntries (finitizeFields (fromEntries es)) = finitizeFields es := by
      have hperm : (finitizeFields (fromEntries es)).Perm (finitizeFields es) :=
        finitizeFields_perm (fromEntries_perm hn)
      have hn' : ((finitizeFields (fromEntries es)).map Prod.fst).Nodup := by
        rw [finitizeFields_eq_map, map_fst_mapValue]
        exact nodup_fromEntries es
      rw [sortEntries_congr hperm hn']
      refine List.Pairwise.insertionSort_eq ?_
      rw [finitizeFields_eq_map, List.pairwise_map]
      exact hsorted
    have hfixed : ∀ e ∈ finitizeFields (fromEntries es), deepSort e.2 = e.2 := by
      intro e he
      have he' : e ∈ finitizeFields es := (finitizeFields_perm (fromEntries_perm hn)).mem_iff.mp he
      rw [finitizeFields_eq_map] at he'
      obtain ⟨x, hx, rfl⟩ := List.mem_map.mp he'
      have hx' : x ∈ sortValueFields fs := by
        rw [hes] at hx
        exact (sortEntries_perm _).mem_iff.mp (List.mem_of_mem_filter hx)
      exact deepSort_sortValueFields fs h.2 x hx'
    rw [sortValue_obj, ← hes, finitize, deepSort, deepSortFields_of_fixed hfixed, hsort,
      finitizeFields_eq_map, finitizeFields_eq_map, fromEntries_mapValue]

theorem deepSortList_sortValue : ∀ xs : List Json, WfList xs →
    deepSortList (finitizeList (sortValueList xs)) = finitizeList (sortValueList xs)
  | [], _ => rfl
  | x :: xs, h => by
    rw [sortValueList, finitizeList, deepSortList, deepSort_sortValue x h.1,
      deepSortList_sortValue xs h.2]

theorem deepSort_sortValueFields : ∀ fs : List (JsString × Json), WfFields fs →
    ∀ e ∈ sortValueFields fs, deepSort (finitize e.2) = finitize e.2
  | [], _ => by
    intro e he
    cases he
  | (k, v) :: fs, h => by
    intro e he
    rcases List.mem_cons.mp he with rfl | he
    · exact deepSort_sortValue v h.1
    · exact deepSort_sortValueFields fs h.2 e he

end

/-! ### Equal texts -/

mutual

theorem wf_covered : ∀ {v : Json}, v.Wf → (covered v).Wf
  | .null, _ => trivial
  | .bool _, _ => trivial
  | .num (.fin _ _), _ => trivial
  | .num .posInf, _ => trivial
  | .num .negInf, _ => trivial
  | .str _, _ => trivial
  | .arr _, h => wf_coveredList h
  | .obj fs, h => ⟨h.1.sublist (keys_coveredFields fs), wf_coveredFields h.2⟩

theorem wf_coveredList : ∀ {xs : List Json}, WfList xs → WfList (coveredList xs)
  | [], _ => trivial
  | _ :: _, h => ⟨wf_covered h.1, wf_coveredList h.2⟩

theorem wf_coveredFields : ∀ {fs : List (JsString × Json)}, WfFields fs → WfFields (coveredFields fs)
  | [], _ => trivial
  | (k, v) :: fs, h => by
    rw [coveredFields]
    split_ifs
    · exact wf_coveredFields h.2
    · exact ⟨wf_covered h.1, wf_coveredFields h.2⟩

theorem keys_coveredFields : ∀ fs : List (JsString × Json),
    ((coveredFields fs).map Prod.fst).Sublist (fs.map Prod.fst)
  | [] => .slnil
  | (k, v) :: fs => by
    rw [coveredFields]
    split_ifs
    · exact (keys_coveredFields fs).cons k
    · exact (keys_coveredFields fs).cons_cons k

end

/-- **Equal canonical texts.** -/
theorem canonicalJson_eq_iff {v w : Json} (hv : v.Wf) (hw : w.Wf) :
    canonicalJson v = canonicalJson w ↔ (covered v).Same (covered w) := by
  unfold canonicalJson
  rw [stringify_eq_iff]
  constructor
  · intro h
    have hcov := same_covered v hv
    rw [h] at hcov
    exact hcov.trans (same_covered w hw).symm
  · intro h
    have hsame : (finitize (sortValue v)).Same (finitize (sortValue w)) :=
      ((same_covered v hv).symm.trans h).trans (same_covered w hw)
    have hwf : (finitize (sortValue v)).Wf := (same_covered v hv).wf (wf_covered hv)
    calc finitize (sortValue v) = deepSort (finitize (sortValue v)) := (deepSort_sortValue v hv).symm
      _ = deepSort (finitize (sortValue w)) := deepSort_eq_of_same hsame hwf
      _ = finitize (sortValue w) := deepSort_sortValue w hw

mutual

theorem Json.Same.covered : ∀ {v w : Json}, v.Same w → (covered v).Same (covered w)
  | _, _, .null => .null
  | _, _, .bool b => .bool b
  | _, _, .num x => .refl _
  | _, _, .str s => .str s
  | _, _, .arr h => .arr h.covered
  | _, _, .obj h => .obj h.covered

theorem SameList.covered : ∀ {xs ys : List Json}, SameList xs ys →
    SameList (coveredList xs) (coveredList ys)
  | _, _, .nil => .nil
  | _, _, .cons h hs => .cons h.covered hs.covered

theorem SameFields.covered : ∀ {fs gs : List (JsString × Json)}, SameFields fs gs →
    SameFields (coveredFields fs) (coveredFields gs)
  | _, _, .nil => .nil
  | _, _, .cons k h hs => by
    rw [coveredFields, coveredFields]
    split_ifs
    · exact hs.covered
    · exact .cons k h.covered hs.covered
  | _, _, .swap (k, v) (l, w) fs => by
    simp only [coveredFields]
    split_ifs
    · exact .refl _
    · exact .refl _
    · exact .refl _
    · exact .swap ..
  | _, _, .trans h h' => .trans h.covered h'.covered

end

/-- **When the canonical text tells two values apart.** -/
theorem canonicalJson_faithful_iff {v w : Json} (hv : v.Wf) (hw : w.Wf) :
    (canonicalJson v = canonicalJson w ↔ v.Same w) ↔ ((covered v).Same (covered w) → v.Same w) := by
  rw [canonicalJson_eq_iff hv hw]
  constructor
  · exact fun h => h.mp
  · exact fun h => ⟨h, fun hs => hs.covered⟩

/-! ### Two messages -/

namespace Sample

def routes : Json := .obj [(js "b", .num (.ofNat 1)), (js "a", .arr [.null])]

def routesSorted : Json := .obj [(js "a", .arr [.null]), (js "b", .num (.ofNat 1))]

/-- `routes` with a member `__proto__`. -/
def routesExtended : Json :=
  .obj [(js "b", .num (.ofNat 1)), (js "a", .arr [.null]),
    (js "__proto__", .obj [(js "admin", .bool true)])]

theorem wf_routes : routes.Wf := ⟨by decide, trivial, ⟨trivial, trivial⟩, trivial⟩

theorem wf_routesSorted : routesSorted.Wf := ⟨by decide, ⟨trivial, trivial⟩, trivial, trivial⟩

theorem routes_faithful : (canonicalJson routes = canonicalJson routesSorted ↔ routes.Same routesSorted) :=
  (canonicalJson_faithful_iff wf_routes wf_routesSorted).mpr fun _ => .obj (.swap ..)

/-- The canonical text does not see the member `__proto__`. -/
theorem proto_not_covered :
    ¬ (canonicalJson routes = canonicalJson routesExtended ↔ routes.Same routesExtended) := by
  intro h
  have hsame : routes.Same routesExtended := h.mp (by decide)
  rcases hsame with _ | _ | _ | _ | _ | hfields
  have hlen := hfields.keys_perm.length_eq
  exact absurd hlen (by decide)

end Sample

end ConsensusNode.Js
