import ConsensusNode.Js.Canonical

/-! # Values up to the order of keys

`Json.Same v w`: the values are equal up to the order of the keys of every object.

* `fromEntries_perm`, `sortEntries_congr`: an object built from entries with distinct keys has these
  entries, and sorting them forgets their order.
* `deepSort_eq_of_same`: values that are the same have equal sorted values. -/

namespace ConsensusNode.Js

mutual

/-- **Equal up to the order of keys**, at every depth. -/
inductive Json.Same : Json → Json → Prop
  | null : Json.Same .null .null
  | bool (b : Bool) : Json.Same (.bool b) (.bool b)
  | num (x : JsNumber) : Json.Same (.num x) (.num x)
  | str (s : JsString) : Json.Same (.str s) (.str s)
  | arr {xs ys : List Json} (h : SameList xs ys) : Json.Same (.arr xs) (.arr ys)
  | obj {fs gs : List (JsString × Json)} (h : SameFields fs gs) : Json.Same (.obj fs) (.obj gs)

inductive SameList : List Json → List Json → Prop
  | nil : SameList [] []
  | cons {x y : Json} {xs ys : List Json} (h : Json.Same x y) (hs : SameList xs ys) :
      SameList (x :: xs) (y :: ys)

inductive SameFields : List (JsString × Json) → List (JsString × Json) → Prop
  | nil : SameFields [] []
  | cons {v w : Json} {fs gs : List (JsString × Json)} (k : JsString) (h : Json.Same v w)
      (hs : SameFields fs gs) : SameFields ((k, v) :: fs) ((k, w) :: gs)
  | swap (e e' : JsString × Json) (fs : List (JsString × Json)) :
      SameFields (e :: e' :: fs) (e' :: e :: fs)
  | trans {fs gs hs : List (JsString × Json)} (h : SameFields fs gs) (h' : SameFields gs hs) :
      SameFields fs hs

end

/-! ### An equivalence -/

mutual

theorem Json.Same.refl : ∀ v : Json, v.Same v
  | .null => .null
  | .bool b => .bool b
  | .num x => .num x
  | .str s => .str s
  | .arr xs => .arr (SameList.refl xs)
  | .obj fs => .obj (SameFields.refl fs)

theorem SameList.refl : ∀ xs : List Json, SameList xs xs
  | [] => .nil
  | x :: xs => .cons (Json.Same.refl x) (SameList.refl xs)

theorem SameFields.refl : ∀ fs : List (JsString × Json), SameFields fs fs
  | [] => .nil
  | (k, v) :: fs => .cons k (Json.Same.refl v) (SameFields.refl fs)

end

mutual

theorem Json.Same.symm : ∀ {v w : Json}, v.Same w → w.Same v
  | _, _, .null => .null
  | _, _, .bool b => .bool b
  | _, _, .num x => .num x
  | _, _, .str s => .str s
  | _, _, .arr h => .arr h.symm
  | _, _, .obj h => .obj h.symm

theorem SameList.symm : ∀ {xs ys : List Json}, SameList xs ys → SameList ys xs
  | _, _, .nil => .nil
  | _, _, .cons h hs => .cons h.symm hs.symm

theorem SameFields.symm : ∀ {fs gs : List (JsString × Json)}, SameFields fs gs → SameFields gs fs
  | _, _, .nil => .nil
  | _, _, .cons k h hs => .cons k h.symm hs.symm
  | _, _, .swap e e' fs => .swap e' e fs
  | _, _, .trans h h' => .trans h'.symm h.symm

end

mutual

theorem Json.Same.trans : ∀ {u v w : Json}, u.Same v → v.Same w → u.Same w
  | _, _, _, .null, h => h
  | _, _, _, .bool _, h => h
  | _, _, _, .num _, h => h
  | _, _, _, .str _, h => h
  | _, _, _, .arr h, .arr h' => .arr (h.trans h')
  | _, _, _, .obj h, .obj h' => .obj (.trans h h')

theorem SameList.trans : ∀ {xs ys zs : List Json}, SameList xs ys → SameList ys zs → SameList xs zs
  | _, _, _, .nil, h => h
  | _, _, _, .cons h hs, .cons h' hs' => .cons (h.trans h') (hs.trans hs')

end

theorem SameFields.of_perm {fs gs : List (JsString × Json)} (h : fs.Perm gs) : SameFields fs gs := by
  induction h with
  | nil => exact .nil
  | cons e _ ih => exact .cons e.1 (.refl e.2) ih
  | swap e e' fs => exact .swap e' e fs
  | trans _ _ ih ih' => exact .trans ih ih'

theorem SameFields.keys_perm : ∀ {fs gs : List (JsString × Json)}, SameFields fs gs →
    (fs.map Prod.fst).Perm (gs.map Prod.fst)
  | _, _, .nil => .nil
  | _, _, .cons k _ hs => hs.keys_perm.cons k
  | _, _, .swap e e' fs => .swap e'.1 e.1 _
  | _, _, .trans h h' => h.keys_perm.trans h'.keys_perm

/-! ### Building an object keeps its entries -/

section Entries

variable {α : Type}

theorem insertField_perm (k : JsString) (v : α) : ∀ fs : List (JsString × α),
    (insertField k v fs).Perm ((k, v) :: fs)
  | [] => .refl _
  | (l, w) :: fs => by
    unfold insertField
    split_ifs
    · exact .refl _
    · exact ((insertField_perm k v fs).cons _).trans (.swap ..)

theorem foldl_setField_perm : ∀ {es fs : List (JsString × α)}, ((fs ++ es).map Prod.fst).Nodup →
    (es.foldl (fun o e => setField o e.1 e.2) fs).Perm (fs ++ es)
  | [], fs, _ => by simp
  | e :: es, fs, hn => by
    have hk : e.1 ∉ fs.map Prod.fst := by
      intro hmem
      rw [List.map_append, List.map_cons] at hn
      exact (List.nodup_append.mp hn).2.2 e.1 hmem e.1 (by simp) rfl
    have hset : (setField fs e.1 e.2).Perm (e :: fs) := by
      unfold setField
      rw [if_neg hk]
      exact insertField_perm e.1 e.2 fs
    have hmove : (setField fs e.1 e.2 ++ es).Perm (fs ++ e :: es) :=
      (hset.append_right es).trans List.perm_middle.symm
    have hn' : ((setField fs e.1 e.2 ++ es).map Prod.fst).Nodup :=
      (hmove.map _).nodup_iff.mpr hn
    rw [List.foldl_cons]
    exact (foldl_setField_perm hn').trans hmove

/-- An object built from entries with distinct keys has these entries. -/
theorem fromEntries_perm {es : List (JsString × α)} (hn : (es.map Prod.fst).Nodup) :
    (fromEntries es).Perm es := by
  have h := @foldl_setField_perm _ es [] hn
  exact h

theorem sortEntries_perm (es : List (JsString × α)) : (sortEntries es).Perm es :=
  List.perm_insertionSort _ es

/-- Sorting forgets the order of entries with distinct keys. -/
theorem sortEntries_congr {es es' : List (JsString × α)} (h : es.Perm es')
    (hn : (es.map Prod.fst).Nodup) : sortEntries es = sortEntries es' := by
  have hperm : (sortEntries es).Perm (sortEntries es') :=
    (sortEntries_perm es).trans (h.trans (sortEntries_perm es').symm)
  have hsorted : ∀ l : List (JsString × α), (sortEntries l).Pairwise fun a b => a.1 ≤ b.1 := by
    intro l
    exact List.pairwise_insertionSort _ l
  refine hperm.eq_of_pairwise ?_ (hsorted es) (hsorted es')
  intro a b ha hb hab hba
  have hkey : a.1 = b.1 := List.le_antisymm hab hba
  have ha' : a ∈ es := (sortEntries_perm es).mem_iff.mp ha
  have hb' : b ∈ es := h.mem_iff.mpr ((sortEntries_perm es').mem_iff.mp hb)
  exact List.inj_on_of_nodup_map hn ha' hb' hkey

end Entries

/-! ### Sorting respects the relation -/

mutual

theorem Json.Same.wf : ∀ {v w : Json}, v.Same w → v.Wf → w.Wf
  | _, _, .null, h => h
  | _, _, .bool _, h => h
  | _, _, .num _, h => h
  | _, _, .str _, h => h
  | _, _, .arr hs, h => hs.wf h
  | _, _, .obj hs, h => ⟨hs.keys_perm.nodup_iff.mp h.1, hs.wf h.2⟩

theorem SameList.wf : ∀ {xs ys : List Json}, SameList xs ys → WfList xs → WfList ys
  | _, _, .nil, h => h
  | _, _, .cons hx hs, h => ⟨hx.wf h.1, hs.wf h.2⟩

theorem SameFields.wf : ∀ {fs gs : List (JsString × Json)}, SameFields fs gs → WfFields fs → WfFields gs
  | _, _, .nil, h => h
  | _, _, .cons _ hx hs, h => ⟨hx.wf h.1, hs.wf h.2⟩
  | _, _, .swap _ _ _, h => ⟨h.2.1, h.1, h.2.2⟩
  | _, _, .trans hs hs', h => hs'.wf (hs.wf h)

end

mutual

/-- **The same values have equal sorted values.** -/
theorem deepSort_eq_of_same : ∀ {v w : Json}, v.Same w → v.Wf → deepSort v = deepSort w
  | _, _, .null, _ => rfl
  | _, _, .bool _, _ => rfl
  | _, _, .num _, _ => rfl
  | _, _, .str _, _ => rfl
  | _, _, .arr hs, h => by rw [deepSort, deepSort, deepSortList_eq_of_same hs h]
  | .obj fs, .obj gs, .obj hs, h => by
    have hperm := deepSortFields_perm hs h.2
    have hn : ((deepSortFields fs).map Prod.fst).Nodup := by
      rw [map_fst_deepSortFields]
      exact h.1
    rw [deepSort, deepSort, sortEntries_congr hperm hn]

theorem deepSortList_eq_of_same : ∀ {xs ys : List Json}, SameList xs ys → WfList xs →
    deepSortList xs = deepSortList ys
  | _, _, .nil, _ => rfl
  | _, _, .cons hx hs, h => by
    rw [deepSortList, deepSortList, deepSort_eq_of_same hx h.1, deepSortList_eq_of_same hs h.2]

theorem deepSortFields_perm : ∀ {fs gs : List (JsString × Json)}, SameFields fs gs → WfFields fs →
    (deepSortFields fs).Perm (deepSortFields gs)
  | _, _, .nil, _ => .nil
  | _, _, .cons k hx hs, h => by
    rw [deepSortFields, deepSortFields, deepSort_eq_of_same hx h.1]
    exact (deepSortFields_perm hs h.2).cons _
  | _, _, .swap _ _ _, _ => .swap ..
  | _, _, .trans hs hs', h => (deepSortFields_perm hs h).trans (deepSortFields_perm hs' (hs.wf h))

end

end ConsensusNode.Js
