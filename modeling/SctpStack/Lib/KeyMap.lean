import Mathlib.Algebra.GroupWithZero.Nat
import Mathlib.Data.List.Nodup
import Mathlib.Data.List.Lookmap
import Mathlib.Data.List.Perm.Subperm

/-!
# Maps as lists of entries

A finite map kept as the list of its entries, no key twice. The list fixes an
iteration order: `put` and `emplace` add a new key at the end, `emplaceBy` at its
place in an order, and every operation leaves the other entries where they are.

`get?_put`, `get?_emplaceBy`, `get?_erase` and `get?_filterMap` say what each
operation does to a lookup; `mem_entries` turns a lookup into membership.
-/

universe u v

/-- A finite map: a list of entries with distinct keys. -/
structure KeyMap (κ : Type u) (ν : Type v) where
  entries : List (κ × ν)
  nodup : (entries.map Prod.fst).Nodup

namespace KeyMap

variable {κ : Type u} {ν ν' : Type v}

/-- Maps with the same iteration order are the same map. -/
theorem ext_entries {m m' : KeyMap κ ν} (h : m.entries = m'.entries) : m = m' := by
  cases m; cases m'; simp_all

/-- The map with no entry. -/
def empty : KeyMap κ ν := ⟨[], List.nodup_nil⟩

instance : EmptyCollection (KeyMap κ ν) := ⟨empty⟩

instance : Inhabited (KeyMap κ ν) := ⟨empty⟩

/-- The keys in iteration order. -/
def keys (m : KeyMap κ ν) : List κ := m.entries.map Prod.fst

/-- Whether there is no entry. -/
def isEmpty (m : KeyMap κ ν) : Bool := m.entries.isEmpty

theorem keys_filterMap_sublist (f : κ → ν → Option ν') (l : List (κ × ν)) :
    ((l.filterMap fun e => (f e.1 e.2).map (Prod.mk e.1)).map Prod.fst).Sublist
      (l.map Prod.fst) := by
  induction l with
  | nil => simp
  | cons e l ih =>
    cases h : f e.1 e.2 with
    | none => simpa [h] using ih.cons _
    | some v => simpa [h] using ih

/-- `(k, v)` inserted before the first entry whose key it precedes. -/
def place (lt : κ → κ → Bool) (k : κ) (v : ν) : List (κ × ν) → List (κ × ν)
  | [] => [(k, v)]
  | e :: l => if lt k e.1 then (k, v) :: e :: l else e :: place lt k v l

theorem perm_place (lt : κ → κ → Bool) (k : κ) (v : ν) (l : List (κ × ν)) :
    (place lt k v l).Perm ((k, v) :: l) := by
  induction l with
  | nil => exact List.Perm.refl _
  | cons e l ih =>
    unfold place
    split
    · exact List.Perm.refl _
    · exact (ih.cons e).trans (List.Perm.swap _ _ _)

/-- A key placed among keys in order keeps them in order, where the order is that of a
rank that tells it apart from them. -/
theorem pairwise_place (rank : κ → Nat) {lt : κ → κ → Bool} {k : κ} {v : ν} {l : List (κ × ν)}
    (ranked : ∀ x ∈ k :: l.map Prod.fst, ∀ y ∈ k :: l.map Prod.fst, lt x y = true ↔ rank x < rank y)
    (apart : ∀ x ∈ l.map Prod.fst, rank x ≠ rank k)
    (sorted : (l.map Prod.fst).Pairwise fun x y => lt x y = true) :
    ((place lt k v l).map Prod.fst).Pairwise fun x y => lt x y = true := by
  induction l with
  | nil => simp [place]
  | cons e l ih =>
    rw [List.map_cons, List.pairwise_cons] at sorted
    have here : e.1 ∈ k :: e.1 :: l.map Prod.fst := by simp
    have mine : k ∈ k :: e.1 :: l.map Prod.fst := by simp
    unfold place
    split
    · next first =>
      rw [List.map_cons, List.map_cons, List.pairwise_cons, List.pairwise_cons]
      refine ⟨fun x member => ?_, sorted⟩
      rcases List.mem_cons.mp member with rfl | later
      · exact first
      · have before := (ranked e.1 here x (by simp [later])).mp (sorted.1 x later)
        exact (ranked k mine x (by simp [later])).mpr
          (Nat.lt_trans ((ranked k mine e.1 here).mp first) before)
    · next later =>
      have inner := ih
        (fun x hx y hy => ranked x (by
          rcases List.mem_cons.mp hx with rfl | hx <;> simp_all) y (by
          rcases List.mem_cons.mp hy with rfl | hy <;> simp_all))
        (fun x hx => apart x (List.mem_cons_of_mem _ hx)) sorted.2
      rw [List.map_cons, List.pairwise_cons]
      refine ⟨fun x member => ?_, inner⟩
      have members := ((perm_place lt k v l).map Prod.fst).mem_iff.mp member
      rcases List.mem_cons.mp members with same | old
      · rw [ranked k mine e.1 here] at later
        rw [show x = k from same]
        exact (ranked e.1 here k mine).mpr
          (Nat.lt_of_le_of_ne (Nat.not_lt.mp later) (apart e.1 (by simp)))
      · exact sorted.1 x old

variable [DecidableEq κ]

instance [DecidableEq ν] : DecidableEq (KeyMap κ ν) := fun a b =>
  decidable_of_iff (a.entries = b.entries) ⟨ext_entries, fun h => by rw [h]⟩

/-- The value under a key. -/
def get? (m : KeyMap κ ν) (k : κ) : Option ν := m.entries.lookup k

/-- Whether a key has a value. -/
def contains (m : KeyMap κ ν) (k : κ) : Bool := (m.get? k).isSome

section Lists

variable {l : List (κ × ν)}

theorem lookup_eq_none {k : κ} : l.lookup k = none ↔ k ∉ l.map Prod.fst := by
  induction l with
  | nil => simp
  | cons e l ih =>
    obtain ⟨k', v⟩ := e
    by_cases h : k = k'
    · subst h
      simp
    · have hb : (k == k') = false := by simpa using h
      simp [List.lookup_cons, hb, ih, h]

theorem lookup_eq_some (hn : (l.map Prod.fst).Nodup) {k : κ} {v : ν} :
    l.lookup k = some v ↔ (k, v) ∈ l := by
  induction l with
  | nil => simp
  | cons e l ih =>
    obtain ⟨k', v'⟩ := e
    rw [List.map_cons, List.nodup_cons] at hn
    by_cases h : k = k'
    · subst h
      have hnot : (k, v) ∉ l := fun hm => hn.1 (List.mem_map.mpr ⟨(k, v), hm, rfl⟩)
      simp [hnot, eq_comm]
    · have hb : (k == k') = false := by simpa using h
      simp [List.lookup_cons, hb, ih hn.2, h]

end Lists

theorem mem_entries {m : KeyMap κ ν} {k : κ} {v : ν} : (k, v) ∈ m.entries ↔ m.get? k = some v :=
  (lookup_eq_some m.nodup).symm

/-- Whether all that is stored has a property. -/
instance decidableForall (m : KeyMap κ ν) (p : κ → ν → Prop) [∀ k v, Decidable (p k v)] :
    Decidable (∀ k v, m.get? k = some v → p k v) :=
  decidable_of_iff (∀ e ∈ m.entries, p e.1 e.2)
    ⟨fun all k v stored => all (k, v) (mem_entries.mpr stored), fun all e member =>
      all e.1 e.2 (mem_entries.mp member)⟩

theorem mem_keys {m : KeyMap κ ν} {k : κ} : k ∈ m.keys ↔ (m.get? k).isSome = true := by
  rw [← not_iff_not, keys, ← lookup_eq_none]
  simp only [get?, Bool.not_eq_true, Option.isSome_eq_false_iff, Option.isNone_iff_eq_none]

theorem get?_eq_none {m : KeyMap κ ν} {k : κ} : m.get? k = none ↔ k ∉ m.keys := lookup_eq_none

theorem contains_eq_false {m : KeyMap κ ν} {k : κ} : m.contains k = false ↔ m.get? k = none := by
  simp [contains]

theorem contains_eq_true {m : KeyMap κ ν} {k : κ} :
    m.contains k = true ↔ ∃ v, m.get? k = some v := by
  simp [contains, Option.isSome_iff_exists]

@[simp] theorem get?_empty (k : κ) : (∅ : KeyMap κ ν).get? k = none := rfl

theorem isEmpty_iff {m : KeyMap κ ν} : m.isEmpty = true ↔ ∀ k, m.get? k = none := by
  obtain ⟨l, hn⟩ := m
  cases l with
  | nil => simp [isEmpty, get?]
  | cons e l =>
    obtain ⟨k, v⟩ := e
    simp only [isEmpty, List.isEmpty_cons, Bool.false_eq_true, false_iff, not_forall]
    exact ⟨k, by simp [get?]⟩

/-! ## Removing and changing entries -/

/-- Applies `f` to every entry; an entry `f` sends to `none` is dropped. -/
def filterMap (f : κ → ν → Option ν') (m : KeyMap κ ν) : KeyMap κ ν' :=
  ⟨m.entries.filterMap fun e => (f e.1 e.2).map (Prod.mk e.1),
    m.nodup.sublist (keys_filterMap_sublist f m.entries)⟩

omit [DecidableEq κ] in
theorem mem_filterMap_entries {f : κ → ν → Option ν'} {m : KeyMap κ ν} {k : κ} {v : ν'} :
    (k, v) ∈ (m.filterMap f).entries ↔ ∃ u, (k, u) ∈ m.entries ∧ f k u = some v := by
  simp only [filterMap, List.mem_filterMap, Option.map_eq_some_iff, Prod.mk.injEq]
  constructor
  · rintro ⟨⟨k', u⟩, hm, v', hv, rfl, rfl⟩
    exact ⟨u, hm, hv⟩
  · rintro ⟨u, hm, hv⟩
    exact ⟨(k, u), hm, v, hv, rfl, rfl⟩

@[simp] theorem get?_filterMap (f : κ → ν → Option ν') (m : KeyMap κ ν) (k : κ) :
    (m.filterMap f).get? k = (m.get? k).bind (f k) := by
  apply Option.ext
  intro v
  rw [← mem_entries, mem_filterMap_entries]
  simp only [mem_entries, Option.bind_eq_some_iff]

omit [DecidableEq κ] in
theorem keys_filterMap (f : κ → ν → Option ν') (m : KeyMap κ ν) :
    (m.filterMap f).keys.Sublist m.keys := keys_filterMap_sublist f m.entries

/-- Applies `f` to every value. -/
def mapVals (f : κ → ν → ν') (m : KeyMap κ ν) : KeyMap κ ν' := m.filterMap fun k v => some (f k v)

@[simp] theorem get?_mapVals (f : κ → ν → ν') (m : KeyMap κ ν) (k : κ) :
    (m.mapVals f).get? k = (m.get? k).map (f k) := by
  simp only [mapVals, get?_filterMap, Option.map_eq_bind, Function.comp_def]

omit [DecidableEq κ] in
theorem entries_mapVals (f : κ → ν → ν') (m : KeyMap κ ν) :
    (m.mapVals f).entries = m.entries.map fun e => (e.1, f e.1 e.2) := by
  simp [mapVals, filterMap]

omit [DecidableEq κ] in
/-- Two changes to every value are one. -/
theorem mapVals_mapVals {ν'' : Type v} (f : κ → ν → ν') (g : κ → ν' → ν'') (m : KeyMap κ ν) :
    (m.mapVals f).mapVals g = m.mapVals fun k v => g k (f k v) := by
  apply ext_entries
  rw [entries_mapVals, entries_mapVals, entries_mapVals, List.map_map]
  rfl

/-- Drops the entry under a key. -/
def erase (m : KeyMap κ ν) (k : κ) : KeyMap κ ν :=
  m.filterMap fun k' v => if k' = k then none else some v

@[simp] theorem get?_erase (m : KeyMap κ ν) (k k' : κ) :
    (m.erase k).get? k' = if k' = k then none else m.get? k' := by
  unfold erase
  rw [get?_filterMap]
  split <;> simp

/-- Applies `f` to the value under a key. -/
def modify (m : KeyMap κ ν) (k : κ) (f : ν → ν) : KeyMap κ ν :=
  m.mapVals fun k' v => if k' = k then f v else v

@[simp] theorem get?_modify (m : KeyMap κ ν) (k k' : κ) (f : ν → ν) :
    (m.modify k f).get? k' = if k' = k then (m.get? k).map f else m.get? k' := by
  unfold modify
  rw [get?_mapVals]
  split
  · next h => rw [h]
  · simp

/-! ## Adding entries -/

/-- Adds the entry, before the first one whose key `k` precedes, unless the key is there. -/
def emplaceBy (lt : κ → κ → Bool) (m : KeyMap κ ν) (k : κ) (v : ν) : KeyMap κ ν :=
  if h : k ∈ m.keys then m
  else ⟨place lt k v m.entries, by
    have hp := (perm_place lt k v m.entries).map Prod.fst
    rw [hp.nodup_iff, List.map_cons, List.nodup_cons]
    exact ⟨h, m.nodup⟩⟩

theorem entries_emplaceBy {lt : κ → κ → Bool} {m : KeyMap κ ν} {k : κ} {v : ν}
    (h : m.get? k = none) :
    (m.emplaceBy lt k v).entries = place lt k v m.entries := by
  rw [emplaceBy, dif_neg (get?_eq_none.mp h)]

theorem perm_emplaceBy {lt : κ → κ → Bool} {m : KeyMap κ ν} {k : κ} {v : ν} (h : m.get? k = none) :
    (m.emplaceBy lt k v).entries.Perm ((k, v) :: m.entries) := by
  rw [entries_emplaceBy h]
  exact perm_place lt k v m.entries

theorem emplaceBy_of_some {lt : κ → κ → Bool} {m : KeyMap κ ν} {k : κ} {v u : ν}
    (h : m.get? k = some u) : m.emplaceBy lt k v = m := by
  rw [emplaceBy, dif_pos (mem_keys.mpr (by rw [h]; rfl))]

theorem get?_emplaceBy (lt : κ → κ → Bool) (m : KeyMap κ ν) (k k' : κ) (v : ν) :
    (m.emplaceBy lt k v).get? k' = if k' = k then some ((m.get? k).getD v) else m.get? k' := by
  cases h : m.get? k with
  | some u =>
    rw [emplaceBy_of_some h]
    split
    · next he => rw [he, h]; rfl
    · rfl
  | none =>
    apply Option.ext
    intro u
    rw [← mem_entries, (perm_emplaceBy h).mem_iff, List.mem_cons, Prod.mk.injEq, mem_entries]
    split
    · next he =>
      subst he
      simp [h, eq_comm]
    · next he => simp [he]

/-- Adds the entry at the end unless the key is there. -/
def emplace (m : KeyMap κ ν) (k : κ) (v : ν) : KeyMap κ ν := m.emplaceBy (fun _ _ => false) k v

theorem get?_emplace (m : KeyMap κ ν) (k k' : κ) (v : ν) :
    (m.emplace k v).get? k' = if k' = k then some ((m.get? k).getD v) else m.get? k' :=
  get?_emplaceBy _ m k k' v

/-- Sets the value under a key: in place if there is one, else at the end. -/
def put (m : KeyMap κ ν) (k : κ) (v : ν) : KeyMap κ ν := (m.modify k fun _ => v).emplace k v

@[simp] theorem get?_put (m : KeyMap κ ν) (k k' : κ) (v : ν) :
    (m.put k v).get? k' = if k' = k then some v else m.get? k' := by
  unfold put
  rw [get?_emplace]
  split
  · cases h : m.get? k <;> simp [h]
  · next hne => simp [hne]

/-- A key that is not there has nothing to change. -/
theorem modify_of_none {m : KeyMap κ ν} {k : κ} (h : m.get? k = none) (f : ν → ν) :
    m.modify k f = m := by
  apply ext_entries
  rw [modify, entries_mapVals]
  refine (List.map_congr_left fun e he => ?_).trans (List.map_id _)
  have apart : e.1 ≠ k := by
    rintro rfl
    rw [mem_entries.mp (show (e.1, e.2) ∈ m.entries from he)] at h
    cases h
  simp [apart]

/-- Two changes to the value under one key are one. -/
theorem modify_modify (m : KeyMap κ ν) (k : κ) (f g : ν → ν) :
    (m.modify k f).modify k g = m.modify k fun v => g (f v) := by
  rw [modify, modify, modify, mapVals_mapVals]
  congr
  funext k' v
  by_cases here : k' = k
  · rw [if_pos here, if_pos here, if_pos here]
  · rw [if_neg here, if_neg here, if_neg here]

/-- A key that is there keeps its place. -/
theorem put_of_some {m : KeyMap κ ν} {k : κ} {u : ν} (h : m.get? k = some u) (f : ν → ν) :
    m.put k (f u) = m.modify k f := by
  have there : (m.modify k fun _ => f u).get? k = some (f u) := by simp [h]
  rw [put, emplace, emplaceBy_of_some there]
  apply ext_entries
  rw [modify, modify, entries_mapVals, entries_mapVals]
  refine List.map_congr_left fun e he => ?_
  by_cases here : e.1 = k
  · have found := mem_entries.mp (show (e.1, e.2) ∈ m.entries from he)
    rw [here, h] at found
    cases found
    simp [here]
  · simp [here]

theorem contains_put (m : KeyMap κ ν) (k k' : κ) (v : ν) :
    (m.put k v).contains k' = (decide (k' = k) || m.contains k') := by
  by_cases h : k' = k <;> simp [contains, h]

/-! ## Maps with one entry -/

/-- The map with one entry. -/
def single (k : κ) (v : ν) : KeyMap κ ν := ⟨[(k, v)], List.nodup_singleton k⟩

omit [DecidableEq κ] in
@[simp] theorem keys_single (k : κ) (v : ν) : (single k v).keys = [k] := rfl

@[simp] theorem get?_single (k k' : κ) (v : ν) :
    (single k v).get? k' = if k' = k then some v else none := by
  by_cases here : k' = k
  · simp [single, get?, here]
  · simp [single, get?, List.lookup_cons, beq_false_of_ne here, here]

omit [DecidableEq κ] in
@[simp] theorem mapVals_single (f : κ → ν → ν') (k : κ) (v : ν) :
    (single k v).mapVals f = single k (f k v) := rfl

@[simp] theorem modify_single (k : κ) (v : ν) (f : ν → ν) :
    (single k v).modify k f = single k (f v) := by
  simp [modify]

@[simp] theorem put_single (k : κ) (v w : ν) : (single k v).put k w = single k w :=
  (put_of_some (by simp : (single k v).get? k = some v) fun _ => w).trans
    (modify_single k v fun _ => w)

omit [DecidableEq κ] in
theorem filterMap_single {f : κ → ν → Option ν'} {k : κ} {v : ν} {w : ν'} (kept : f k v = some w) :
    (single k v).filterMap f = single k w := by
  apply ext_entries
  simp [filterMap, single, kept]

theorem eq_single {m : KeyMap κ ν} {k : κ} {v : ν} (keys : m.keys = [k])
    (found : m.get? k = some v) :
    m = single k v := by
  obtain ⟨⟨k', v'⟩, entries⟩ :=
    List.length_eq_one_iff.mp (by simpa [KeyMap.keys] using congrArg List.length keys)
  have member := mem_entries.mpr found
  rw [entries, List.mem_singleton] at member
  apply ext_entries
  rw [entries, ← member]
  rfl

/-! ## Adding up entries -/

omit [DecidableEq κ] in
theorem nodup_entries (m : KeyMap κ ν) : m.entries.Nodup := List.Nodup.of_map Prod.fst m.nodup

/-- Maps that look up alike have the same entries, in some order. -/
theorem perm_of_get? {m m' : KeyMap κ ν} (h : ∀ k, m.get? k = m'.get? k) :
    m.entries.Perm m'.entries := by
  rw [List.perm_ext_iff_of_nodup m.nodup_entries m'.nodup_entries]
  rintro ⟨k, v⟩
  rw [mem_entries, mem_entries, h]

theorem perm_erase {m : KeyMap κ ν} {k : κ} {v : ν} (h : m.get? k = some v) :
    m.entries.Perm ((k, v) :: (m.erase k).entries) := by
  have apart : (k, v) ∉ (m.erase k).entries := by simp [mem_entries]
  rw [List.perm_ext_iff_of_nodup m.nodup_entries
    (List.nodup_cons.mpr ⟨apart, (m.erase k).nodup_entries⟩)]
  rintro ⟨k', v'⟩
  rw [List.mem_cons, mem_entries, mem_entries, get?_erase, Prod.mk.injEq]
  by_cases he : k' = k
  · subst he
    simp [h, eq_comm]
  · simp [he]

theorem length_erase {m : KeyMap κ ν} {k : κ} {v : ν} (h : m.get? k = some v) :
    (m.erase k).entries.length + 1 = m.entries.length := by
  rw [(perm_erase h).length_eq, List.length_cons]

/-- The sum of a weight over the values. -/
def weight (w : ν → Nat) (m : KeyMap κ ν) : Nat := (m.entries.map fun e => w e.2).sum

theorem weight_congr (w : ν → Nat) (m m' : KeyMap κ ν) (h : ∀ k, m.get? k = m'.get? k) :
    m.weight w = m'.weight w :=
  ((perm_of_get? h).map _).sum_nat

/-- One entry apart from the others. -/
theorem weight_erase (w : ν → Nat) (m : KeyMap κ ν) (k : κ) :
    m.weight w = (m.get? k).elim 0 w + (m.erase k).weight w := by
  cases h : m.get? k with
  | none =>
    rw [weight_congr w m (m.erase k)]
    · simp
    · intro k'
      by_cases he : k' = k
      · simp [he, h]
      · simp [he]
  | some v =>
    unfold weight
    rw [((perm_erase h).map _).sum_nat]
    simp

theorem weight_put (w : ν → Nat) (m : KeyMap κ ν) (k : κ) (v : ν) :
    (m.put k v).weight w = w v + (m.erase k).weight w := by
  rw [weight_erase w (m.put k v) k, weight_congr w ((m.put k v).erase k) (m.erase k)]
  · simp
  · intro k'
    by_cases he : k' = k <;> simp [he]

omit [DecidableEq κ] in
/-- A map with some entries dropped and none made heavier weighs no more. -/
theorem weight_filterMap_le {w : ν → Nat} {w' : ν' → Nat} (m : KeyMap κ ν) {f : κ → ν → Option ν'}
    (light : ∀ k v v', f k v = some v' → w' v' ≤ w v) : (m.filterMap f).weight w' ≤ m.weight w := by
  simp only [weight, filterMap]
  induction m.entries with
  | nil => exact Nat.le_refl 0
  | cons e rest ih =>
    rw [List.filterMap_cons, List.map_cons, List.sum_cons]
    cases kept : f e.1 e.2 with
    | none => exact Nat.le_add_left_of_le ih
    | some v' => exact Nat.add_le_add (light e.1 e.2 v' kept) ih

theorem weight_emplaceBy_le (w : ν → Nat) (lt : κ → κ → Bool) (m : KeyMap κ ν) (k : κ) (v : ν) :
    (m.emplaceBy lt k v).weight w ≤ m.weight w + w v := by
  cases h : m.get? k with
  | none =>
    unfold weight
    rw [((perm_emplaceBy h).map _).sum_nat]
    simp [Nat.add_comm]
  | some u =>
    rw [emplaceBy_of_some h]
    exact Nat.le_add_right _ _

end KeyMap
