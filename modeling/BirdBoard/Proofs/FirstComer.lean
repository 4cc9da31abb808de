import Mathlib.Data.List.Nodup

/-! # Lists with a key

  States and edges are kept in lists whose entries bear a key each, and the first entry of a key is the one that counts.

  - `appendNew` adds entries at the end, the first of each key that is not there yet. It is what a run of insertions
    leaves (`appendNew_cons`, `appendNew_append`).
  - If a key determines its entry, the order of the additions only matters for the order of the list (`perm_appendNew`).
  - A list that bears every surviving key does not change when the others are added and dropped again
    (`filter_appendNew_settled`, `filter_appendNew_again`).
  - While keys are distinct, an operation on the first entry of a key is the same operation on all entries of the key:
    erasing is filtering (`eraseIdx_first`) and modifying is mapping (`modify_first`).
-/

namespace BirdBoard

variable {α β : Type} [DecidableEq β] {key : α → β}

/-! ### Adding what is missing -/

/-- Adds entries at the end: the first entry of each key that the list does not bear yet. -/
def appendNew (key : α → β) (xs ys : List α) : List α :=
  xs ++ (ys.filter fun y => key y ∉ xs.map key).eraseDupsBy fun a b => key a == key b

@[simp] theorem appendNew_nil (key : α → β) (xs : List α) : appendNew key xs [] = xs := by
  simp [appendNew]

/-- A present key adds nothing. -/
theorem appendNew_cons_of_mem {xs : List α} {y : α} (ys : List α) (h : key y ∈ xs.map key) :
    appendNew key xs (y :: ys) = appendNew key xs ys := by
  simp only [appendNew, List.filter_cons, h, not_true_eq_false, decide_false, Bool.false_eq_true, if_false]

/-- A missing key is added at the end, and counts as present from then on. -/
theorem appendNew_cons_of_notMem {xs : List α} {y : α} (ys : List α) (h : key y ∉ xs.map key) :
    appendNew key xs (y :: ys) = appendNew key (xs ++ [y]) ys := by
  -- To drop the later entries of a new key is to count the key as present.
  have hfilter : ((ys.filter fun z => key z ∉ xs.map key).filter fun z => (key z == key y) = false) =
      ys.filter fun z => key z ∉ (xs ++ [y]).map key := by
    rw [List.filter_filter]
    congr 1
    funext z
    by_cases hz : key z = key y <;> simp [hz, and_comm]
  simp only [appendNew, List.filter_cons, h, not_false_eq_true, decide_true, if_true]
  rw [List.eraseDupsBy_cons, hfilter]
  simp

/-- Entries in two parts are added part by part. -/
theorem appendNew_append (key : α → β) (xs ys zs : List α) :
    appendNew key xs (ys ++ zs) = appendNew key (appendNew key xs ys) zs := by
  induction ys generalizing xs with
  | nil => simp
  | cons y ys ih =>
    by_cases h : key y ∈ xs.map key
    · rw [List.cons_append, appendNew_cons_of_mem _ h, appendNew_cons_of_mem _ h, ih]
    · rw [List.cons_append, appendNew_cons_of_notMem _ h, appendNew_cons_of_notMem _ h, ih]

theorem appendNew_cons (key : α → β) (xs : List α) (y : α) (ys : List α) :
    appendNew key xs (y :: ys) = appendNew key (appendNew key xs [y]) ys :=
  appendNew_append key xs [y] ys

/-- Entries whose key is present may be left out beforehand. -/
theorem appendNew_filter_missing (key : α → β) (xs ys : List α) :
    appendNew key xs (ys.filter fun y => key y ∉ xs.map key) = appendNew key xs ys := by
  simp [appendNew, List.filter_filter]

/-- Everything is added when the keys are missing and distinct. -/
theorem appendNew_of_disjoint {xs ys : List α} (hys : (ys.map key).Nodup)
    (h : ∀ y ∈ ys, key y ∉ xs.map key) : appendNew key xs ys = xs ++ ys := by
  induction ys generalizing xs with
  | nil => simp
  | cons y ys ih =>
    obtain ⟨hy, hys⟩ := List.nodup_cons.mp hys
    rw [appendNew_cons_of_notMem _ (h y List.mem_cons_self), ih hys, List.append_assoc, List.singleton_append]
    intro z hz
    have hzx := h z (List.mem_cons_of_mem _ hz)
    have hzy : key z ≠ key y := fun e => hy (e ▸ List.mem_map_of_mem hz)
    simp only [List.map_append, List.map_cons, List.map_nil, List.mem_append, List.mem_singleton, not_or]
    exact ⟨hzx, hzy⟩

/-- The keys that are borne in the end: those of the list and those of the added entries. -/
theorem mem_map_appendNew {k : β} {xs ys : List α} :
    k ∈ (appendNew key xs ys).map key ↔ k ∈ xs.map key ∨ k ∈ ys.map key := by
  induction ys generalizing xs with
  | nil => simp
  | cons y ys ih =>
    by_cases h : key y ∈ xs.map key
    · rw [appendNew_cons_of_mem _ h, ih, List.map_cons, List.mem_cons]
      constructor
      · rintro (hk | hk)
        · exact .inl hk
        · exact .inr (.inr hk)
      · rintro (hk | rfl | hk)
        · exact .inl hk
        · exact .inl h
        · exact .inr hk
    · rw [appendNew_cons_of_notMem _ h, ih]
      simp [or_assoc]

/-- The list stands in front, and what follows was asked for and bears missing keys. -/
theorem appendNew_eq_append (key : α → β) (xs ys : List α) :
    ∃ new, appendNew key xs ys = xs ++ new ∧ ∀ y ∈ new, y ∈ ys ∧ key y ∉ xs.map key := by
  induction ys generalizing xs with
  | nil => exact ⟨[], by simp⟩
  | cons y ys ih =>
    by_cases hy : key y ∈ xs.map key
    · obtain ⟨new, hnew, hmem⟩ := ih xs
      refine ⟨new, by rw [appendNew_cons_of_mem _ hy, hnew], ?_⟩
      intro z hz
      exact ⟨List.mem_cons_of_mem _ (hmem z hz).1, (hmem z hz).2⟩
    · obtain ⟨new, hnew, hmem⟩ := ih (xs ++ [y])
      refine ⟨y :: new, by rw [appendNew_cons_of_notMem _ hy, hnew, List.append_assoc, List.singleton_append], ?_⟩
      intro z hz
      rcases List.mem_cons.mp hz with rfl | hz
      · exact ⟨List.mem_cons_self, hy⟩
      · obtain ⟨hzs, hzx⟩ := hmem z hz
        rw [List.map_append, List.mem_append, not_or] at hzx
        exact ⟨List.mem_cons_of_mem _ hzs, hzx.1⟩

/-- Distinct keys stay distinct. -/
theorem nodup_map_appendNew {xs : List α} (ys : List α) (h : (xs.map key).Nodup) :
    ((appendNew key xs ys).map key).Nodup := by
  induction ys generalizing xs with
  | nil => simpa using h
  | cons y ys ih =>
    by_cases hy : key y ∈ xs.map key
    · rw [appendNew_cons_of_mem _ hy]
      exact ih h
    · rw [appendNew_cons_of_notMem _ hy]
      apply ih
      rw [List.map_append, List.map_cons, List.map_nil]
      exact h.append (List.nodup_singleton _) (by simpa using hy)

/-- If a key determines its entry, the list and the missing entries are what is there in the end. -/
theorem mem_appendNew {xs ys : List α} (hkey : ∀ a ∈ ys, ∀ b ∈ ys, key a = key b → a = b) {a : α} :
    a ∈ appendNew key xs ys ↔ a ∈ xs ∨ a ∈ ys ∧ key a ∉ xs.map key := by
  obtain ⟨new, hnew, hmem⟩ := appendNew_eq_append key xs ys
  rw [hnew, List.mem_append]
  constructor
  · exact Or.imp_right (hmem a)
  · rintro (ha | ⟨ha, hmissing⟩)
    · exact .inl ha
    · -- Some entry of this key has been added, and it can only be this one.
      have hborne : key a ∈ (appendNew key xs ys).map key := mem_map_appendNew.mpr (.inr (List.mem_map_of_mem ha))
      rw [hnew, List.map_append, List.mem_append, or_iff_right hmissing] at hborne
      obtain ⟨b, hb, hab⟩ := List.mem_map.mp hborne
      rw [← hkey b (hmem b hb).1 a ha hab]
      exact .inr hb

/-- Entries in another order leave the same, in another order. -/
theorem perm_appendNew {xs ys zs : List α} (hkey : ∀ a ∈ ys, ∀ b ∈ ys, key a = key b → a = b)
    (hxs : (xs.map key).Nodup) (h : ys.Perm zs) :
    (appendNew key xs ys).Perm (appendNew key xs zs) := by
  have hkey' : ∀ a ∈ zs, ∀ b ∈ zs, key a = key b → a = b :=
    fun a ha b hb => hkey a (h.mem_iff.mpr ha) b (h.mem_iff.mpr hb)
  rw [List.perm_ext_iff_of_nodup (nodup_map_appendNew ys hxs).of_map (nodup_map_appendNew zs hxs).of_map]
  intro a
  rw [mem_appendNew hkey, mem_appendNew hkey', h.mem_iff]

/-- If every surviving entry of the additions is present already, the survivors are those of the list alone. -/
theorem filter_appendNew_settled {p : α → Bool} {xs ys : List α} (h : ∀ y ∈ ys, p y → key y ∈ xs.map key) :
    (appendNew key xs ys).filter p = xs.filter p := by
  induction ys generalizing xs with
  | nil => simp
  | cons y ys ih =>
    have hys : ∀ z ∈ ys, p z → key z ∈ xs.map key := fun z hz => h z (List.mem_cons_of_mem _ hz)
    by_cases hy : key y ∈ xs.map key
    · rw [appendNew_cons_of_mem _ hy]
      exact ih hys
    · -- An entry whose key is missing cannot survive.
      have hpy : p y = false := by
        simpa using fun hp => hy (h y List.mem_cons_self hp)
      rw [appendNew_cons_of_notMem _ hy, ih, List.filter_append]
      · simp [hpy]
      · intro z hz hpz
        rw [List.map_append]
        exact List.mem_append_left _ (hys z hz hpz)

/-- Adding the same entries to what a filter has left, and filtering once more, leaves it as it is. In between, the
entries may have changed in all but their keys. -/
theorem filter_appendNew_again (key : α → β) (q : β → Bool) {f : α → α} (hf : ∀ a, key (f a) = key a)
    (xs ys : List α) :
    (appendNew key (((appendNew key xs ys).filter fun a => q (key a)).map f) ys).filter (fun a => q (key a)) =
      ((appendNew key xs ys).filter fun a => q (key a)).map f := by
  have hsettled : ∀ y ∈ ys, q (key y) →
      key y ∈ (((appendNew key xs ys).filter fun a => q (key a)).map f).map key := by
    intro y hy hq
    -- The first pass has left an entry of this key, perhaps another one.
    obtain ⟨a, ha, hkey⟩ : ∃ a ∈ appendNew key xs ys, key a = key y :=
      List.mem_map.mp (mem_map_appendNew.mpr (.inr (List.mem_map_of_mem hy)))
    rw [List.map_map]
    refine List.mem_map.mpr ⟨a, List.mem_filter.mpr ⟨ha, by rwa [hkey]⟩, ?_⟩
    rw [Function.comp_apply, hf, hkey]
  rw [filter_appendNew_settled hsettled, List.filter_eq_self]
  intro b hb
  obtain ⟨a, ha, rfl⟩ := List.mem_map.mp hb
  rw [hf]
  exact (List.mem_filter.mp ha).2

/-! ### The first entry of a key -/

/-- With distinct keys, erasing the first entry of a key drops every entry of the key. -/
theorem eraseIdx_first {xs : List α} {k : β} {i : Nat} (hnd : (xs.map key).Nodup)
    (hi : xs.findIdx? (key · == k) = some i) : xs.eraseIdx i = xs.filter (key · != k) := by
  induction xs generalizing i with
  | nil => simp at hi
  | cons x xs ih =>
    obtain ⟨hx, hnd⟩ := List.nodup_cons.mp hnd
    rw [List.findIdx?_cons] at hi
    by_cases hk : key x = k
    · subst hk
      obtain rfl : i = 0 := by simpa using hi.symm
      have hrest : ∀ y ∈ xs, key y ≠ key x := fun y hy e => hx (e ▸ List.mem_map_of_mem hy)
      rw [List.eraseIdx_cons_zero, List.filter_cons_of_neg (by simp), eq_comm, List.filter_eq_self]
      simpa using hrest
    · obtain ⟨j, hj, rfl⟩ : ∃ j, xs.findIdx? (key · == k) = some j ∧ j + 1 = i := by
        simpa [hk] using hi
      simp [hk, ih hnd hj]

/-- With distinct keys, modifying the first entry of a key modifies every entry of the key. -/
theorem modify_first {xs : List α} {k : β} {i : Nat} (f : α → α) (hnd : (xs.map key).Nodup)
    (hi : xs.findIdx? (key · == k) = some i) :
    xs.modify i f = xs.map fun x => if key x = k then f x else x := by
  induction xs generalizing i with
  | nil => simp at hi
  | cons x xs ih =>
    obtain ⟨hx, hnd⟩ := List.nodup_cons.mp hnd
    rw [List.findIdx?_cons] at hi
    by_cases hk : key x = k
    · subst hk
      obtain rfl : i = 0 := by simpa using hi.symm
      have hrest : ∀ y ∈ xs, key y ≠ key x := fun y hy e => hx (e ▸ List.mem_map_of_mem hy)
      have hmap : xs.map (fun y => if key y = key x then f y else y) = xs := by
        rw [List.map_congr_left fun y hy => if_neg (hrest y hy), List.map_id']
      simp [hmap]
    · obtain ⟨j, hj, rfl⟩ : ∃ j, xs.findIdx? (key · == k) = some j ∧ j + 1 = i := by
        simpa [hk] using hi
      simp [hk, ih hnd hj]

/-- With distinct keys, an entry is the only one of its key. -/
theorem filter_first {xs : List α} {x : α} (hnd : (xs.map key).Nodup) (hx : x ∈ xs) :
    xs.filter (fun y => key y = key x) = [x] := by
  induction xs with
  | nil => cases hx
  | cons y xs ih =>
    obtain ⟨hy, hnd⟩ := List.nodup_cons.mp hnd
    rcases List.mem_cons.mp hx with rfl | hx
    · have hrest : ∀ z ∈ xs, key z ≠ key x := fun z hz e => hy (e ▸ List.mem_map_of_mem hz)
      have hnil : xs.filter (fun z => key z = key x) = [] := by simpa using hrest
      rw [List.filter_cons_of_pos (by simp), hnil]
    · have hxy : key y ≠ key x := fun e => hy (e ▸ List.mem_map_of_mem hx)
      rw [List.filter_cons_of_neg (by simpa using hxy), ih hnd hx]

end BirdBoard
