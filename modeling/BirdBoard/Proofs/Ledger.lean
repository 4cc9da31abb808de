import Mathlib.Data.List.Induction
import Mathlib.Order.Bounds.Basic
import BirdBoard.Proofs.FirstComer

/-! # Lists with a history

  A list of entries with keys, which steps add to at the end, drop from and revise, told by the steps alone.

  - `Ledger` says what a step does, and `Ledger.step` does it to a list.
  - `Ledger.lasting` are the places in a history of the steps that asked for a key and whose entry no later step has
    dropped. The first of them is the step that made the entry; it is also the last step that asked for the key while
    the list did not bear it (`isGreatest_of_isLeast_lasting`).
  - `Ledger.Account` tells the list by these places: which keys it bears, in which order, and what the entries are.
    `Ledger.exists_account` is the induction over all histories.
-/

namespace BirdBoard

/-- What the steps of a history do to a list of entries with keys. -/
structure Ledger (ε α β : Type) where
  key : α → β
  /-- The entries that a step asks for behind a history. They are added in this order where their key is missing. -/
  adds : List ε → ε → List α
  /-- Whether a step drops the entry of a key. -/
  drops : ε → β → Bool
  /-- What a step makes of an entry that it does not drop. -/
  revise : ε → α → α
  /-- No step asks for a key twice. -/
  nodup_adds (es : List ε) (e : ε) : ((adds es e).map key).Nodup
  /-- The key of an entry stays. -/
  key_revise (e : ε) (a : α) : key (revise e a) = key a

namespace Ledger

variable {ε α β : Type} (L : Ledger ε α β)

/-- What a step leaves of a list. -/
def kept (e : ε) (xs : List α) : List α := (xs.filter fun a => !L.drops e (L.key a)).map (L.revise e)

/-- The list after one more step. -/
def step [DecidableEq β] (es : List ε) (e : ε) (xs : List α) : List α := appendNew L.key (L.kept e xs) (L.adds es e)

/-- What the steps of a history make of an entry. -/
def revised (es : List ε) (a : α) : α := es.foldl (fun a e => L.revise e a) a

/-- The places of the steps that ask for a key and that no later step undoes by dropping it. -/
def lasting (es : List ε) (k : β) : Set Nat :=
  {i | ∃ e, es[i]? = some e ∧ k ∈ (L.adds (es.take i) e).map L.key ∧
    ∀ j f, i < j → es[j]? = some f → L.drops f k = false}

/-- How a history tells the entries that have come behind the old ones. -/
structure Account (old : List α) (es : List ε) (new : List α) : Prop where
  /-- A key is borne if a step has asked for it for good. -/
  mem_keys (k : β) : k ∈ new.map L.key ↔ k ∉ old.map L.key ∧ (L.lasting es k).Nonempty
  /-- An entry comes from the first of those steps, and has been revised since. -/
  origin : ∀ a ∈ new, ∀ i, IsLeast (L.lasting es (L.key a)) i →
    ∃ e b, es[i]? = some e ∧ b ∈ L.adds (es.take i) e ∧ a = L.revised (es.drop (i + 1)) b
  /-- The entries stand in the order of the steps that they come from, and as these steps list them. -/
  order : new.Pairwise fun a b => ∀ i j, IsLeast (L.lasting es (L.key a)) i → IsLeast (L.lasting es (L.key b)) j →
    i < j ∨ i = j ∧ ∃ e, es[i]? = some e ∧ [L.key a, L.key b].Sublist ((L.adds (es.take i) e).map L.key)

variable {L} {es : List ε} {e : ε} {k : β} {i : Nat}

/-! ### Places -/

theorem lt_length_of_mem_lasting (h : i ∈ L.lasting es k) : i < es.length := by
  obtain ⟨e, he, _⟩ := h
  exact (List.getElem?_eq_some_iff.mp he).1

/-- One more step may undo the earlier ones, and may ask for the key itself. -/
theorem mem_lasting_concat :
    i ∈ L.lasting (es ++ [e]) k ↔
      i ∈ L.lasting es k ∧ L.drops e k = false ∨ i = es.length ∧ k ∈ (L.adds es e).map L.key := by
  have hat (j : Nat) (hj : j < es.length) : (es ++ [e])[j]? = es[j]? := List.getElem?_append_left hj
  have hend : (es ++ [e])[es.length]? = some e := List.getElem?_concat_length
  constructor
  · rintro ⟨f, hf, hk, hlater⟩
    have hle : i < es.length + 1 := by
      simpa using (List.getElem?_eq_some_iff.mp hf).1
    rcases Nat.lt_succ_iff_lt_or_eq.mp hle with hi | rfl
    · rw [hat i hi] at hf
      rw [List.take_append_of_le_length hi.le] at hk
      refine .inl ⟨⟨f, hf, hk, fun j g hij hg => ?_⟩, hlater _ e hi hend⟩
      exact hlater j g hij (by rw [hat j (List.getElem?_eq_some_iff.mp hg).1, hg])
    · rw [hend] at hf
      cases hf
      rw [List.take_left' rfl] at hk
      exact .inr ⟨rfl, hk⟩
  · rintro (⟨⟨f, hf, hk, hlater⟩, hdrop⟩ | ⟨rfl, hk⟩)
    · have hi := (List.getElem?_eq_some_iff.mp hf).1
      refine ⟨f, by rw [hat i hi, hf], by rwa [List.take_append_of_le_length hi.le], fun j g hij hg => ?_⟩
      have hle : j < es.length + 1 := by
        simpa using (List.getElem?_eq_some_iff.mp hg).1
      rcases Nat.lt_succ_iff_lt_or_eq.mp hle with hj | rfl
      · exact hlater j g hij (by rw [← hat j hj, hg])
      · rw [hend] at hg
        cases hg
        exact hdrop
    · refine ⟨e, hend, by rwa [List.take_left' rfl], fun j g hij hg => ?_⟩
      have hj : j < es.length + 1 := by
        simpa using (List.getElem?_eq_some_iff.mp hg).1
      omega

/-- A key that is kept keeps its place. -/
theorem isLeast_lasting_of_kept (hk : (L.lasting es k).Nonempty) (hdrop : L.drops e k = false) :
    IsLeast (L.lasting (es ++ [e]) k) i ↔ IsLeast (L.lasting es k) i := by
  obtain ⟨j, hj⟩ := hk
  have hlt := lt_length_of_mem_lasting hj
  simp only [IsLeast, mem_lowerBounds, mem_lasting_concat, hdrop, and_true]
  constructor
  · rintro ⟨hi | ⟨rfl, _⟩, hleast⟩
    · exact ⟨hi, fun i' hi' => hleast i' (.inl hi')⟩
    · exact absurd (hleast j (.inl hj)) (by omega)
  · rintro ⟨hi, hleast⟩
    refine ⟨.inl hi, ?_⟩
    rintro i' (hi' | ⟨rfl, _⟩)
    · exact hleast i' hi'
    · exact (lt_length_of_mem_lasting hi).le

/-- A key that is missing, or is dropped by the very step, gets the place of the step that asks for it. -/
theorem isLeast_lasting_of_new (hmissing : ¬ ((L.lasting es k).Nonempty ∧ L.drops e k = false))
    (hk : k ∈ (L.adds es e).map L.key) : IsLeast (L.lasting (es ++ [e]) k) i ↔ i = es.length := by
  have hmem (j : Nat) : j ∈ L.lasting (es ++ [e]) k ↔ j = es.length := by
    rw [mem_lasting_concat, and_iff_left hk]
    exact or_iff_right fun ⟨hj, hdrop⟩ => hmissing ⟨⟨j, hj⟩, hdrop⟩
  constructor
  · exact fun h => (hmem i).mp h.1
  · rintro rfl
    exact ⟨(hmem _).mpr rfl, fun j hj => ((hmem j).mp hj).ge⟩

/-- The first step that has asked for a key for good is the last one that has asked for it while it was missing. -/
theorem isGreatest_of_isLeast_lasting (hadds : ∀ es e, k ∈ (L.adds es e).map L.key → L.drops e k = false)
    (h : IsLeast (L.lasting es k) i) :
    IsGreatest {j | (∃ e, es[j]? = some e ∧ k ∈ (L.adds (es.take j) e).map L.key) ∧
      ¬ (L.lasting (es.take j) k).Nonempty} i := by
  obtain ⟨⟨e, he, hk, hlater⟩, hleast⟩ := h
  refine ⟨⟨⟨e, he, hk⟩, ?_⟩, ?_⟩
  · -- An earlier lasting step would still be lasting in the end, since the step itself drops nothing that it asks for.
    rintro ⟨j, hj⟩
    have hji : j < i := (lt_length_of_mem_lasting hj).trans_le (List.length_take_le i es)
    obtain ⟨f, hf, hkf, hbetween⟩ := hj
    rw [List.getElem?_take_of_lt hji] at hf
    rw [List.take_take, min_eq_left hji.le] at hkf
    refine absurd (hleast ⟨f, hf, hkf, fun l g hjl hg => ?_⟩) (by omega)
    rcases Nat.lt_trichotomy l i with hl | rfl | hl
    · exact hbetween l g hjl (by rw [List.getElem?_take_of_lt hl, hg])
    · rw [he] at hg
      cases hg
      exact hadds _ _ hk
    · exact hlater l g hl hg
  · rintro j ⟨_, hmissing⟩
    by_contra hij
    rw [not_le] at hij
    -- Behind the step the key is never missing again.
    refine hmissing ⟨i, e, by rw [List.getElem?_take_of_lt hij, he], ?_, fun l f hil hf => ?_⟩
    · rwa [List.take_take, min_eq_left hij.le]
    · have hl : l < j := (List.getElem?_eq_some_iff.mp hf).1.trans_le (List.length_take_le j es)
      rw [List.getElem?_take_of_lt hl] at hf
      exact hlater l f hil hf

/-! ### What a step keeps -/

theorem mem_kept_iff {xs : List α} {a : α} :
    a ∈ L.kept e xs ↔ ∃ b ∈ xs, L.drops e (L.key b) = false ∧ L.revise e b = a := by
  simp [kept, and_assoc]

theorem mem_keys_kept_iff {xs : List α} : k ∈ (L.kept e xs).map L.key ↔ k ∈ xs.map L.key ∧ L.drops e k = false := by
  simp only [List.mem_map, mem_kept_iff]
  constructor
  · rintro ⟨_, ⟨b, hb, hdrop, rfl⟩, rfl⟩
    rw [key_revise]
    exact ⟨⟨b, hb, rfl⟩, hdrop⟩
  · rintro ⟨⟨b, hb, rfl⟩, hdrop⟩
    exact ⟨_, ⟨b, hb, hdrop, rfl⟩, L.key_revise e b⟩

/-- Entries whose keys are never dropped are all kept. -/
theorem kept_of_permanent {xs : List α} (h : ∀ a ∈ xs, L.drops e (L.key a) = false) :
    L.kept e xs = xs.map (L.revise e) := by
  rw [kept, List.filter_eq_self.mpr]
  intro a ha
  rw [h a ha]
  rfl

/-- A step that drops and revises nothing only adds. -/
theorem step_of_adding [DecidableEq β] (es : List ε) (xs : List α) (hdrops : ∀ k, L.drops e k = false)
    (hrevise : ∀ a, L.revise e a = a) : L.step es e xs = appendNew L.key xs (L.adds es e) := by
  rw [step, kept_of_permanent fun a _ => hdrops (L.key a), List.map_congr_left fun a _ => hrevise a, List.map_id']

theorem revised_concat (es : List ε) (e : ε) (a : α) : L.revised (es ++ [e]) a = L.revise e (L.revised es a) := by
  simp [revised]

theorem key_revised (es : List ε) (a : α) : L.key (L.revised es a) = L.key a := by
  induction es using List.reverseRecOn with
  | nil => rfl
  | append_singleton es e ih => rw [revised_concat, key_revise, ih]

theorem map_key_revised (es : List ε) (xs : List α) : (xs.map (L.revised es)).map L.key = xs.map L.key := by
  rw [List.map_map]
  exact List.map_congr_left fun a _ => key_revised es a

/-! ### Histories -/

section

variable [DecidableEq β] {old new : List α}

/-- The entries that a step adds behind old ones and new ones. -/
def arrivals (L : Ledger ε α β) (old : List α) (es : List ε) (e : ε) (new : List α) : List α :=
  (L.adds es e).filter fun a => L.key a ∉ (old ++ L.kept e new).map L.key

theorem mem_keys_arrivals_iff :
    k ∈ (L.arrivals old es e new).map L.key ↔
      k ∈ (L.adds es e).map L.key ∧ k ∉ old.map L.key ∧ k ∉ (L.kept e new).map L.key := by
  simp only [arrivals, List.map_append, List.mem_append, not_or, List.mem_map, List.mem_filter, decide_eq_true_eq]
  constructor
  · rintro ⟨a, ⟨ha, hmissing⟩, rfl⟩
    exact ⟨⟨a, ha, rfl⟩, hmissing⟩
  · rintro ⟨⟨a, ha, rfl⟩, hmissing⟩
    exact ⟨a, ⟨ha, hmissing⟩, rfl⟩

/-- Old entries that a step does not drop stay in front. -/
theorem step_append (es : List ε) (e : ε) (hold : ∀ a ∈ old, L.drops e (L.key a) = false) :
    L.step es e (old ++ new) = old.map (L.revise e) ++ (L.kept e new ++ L.arrivals old es e new) := by
  have hkept : L.kept e (old ++ new) = old.map (L.revise e) ++ L.kept e new := by
    rw [← kept_of_permanent hold, kept, List.filter_append, List.map_append]
    rfl
  have hkeys : (old.map (L.revise e) ++ L.kept e new).map L.key = (old ++ L.kept e new).map L.key := by
    simp [Function.comp_def, key_revise]
  have hnodup : ((L.arrivals old es e new).map L.key).Nodup :=
    (L.nodup_adds es e).sublist (List.filter_sublist.map _)
  rw [step, hkept, ← appendNew_filter_missing, hkeys]
  rw [show (L.adds es e).filter (fun a => L.key a ∉ (old ++ L.kept e new).map L.key) = L.arrivals old es e new from rfl,
    appendNew_of_disjoint hnodup, List.append_assoc]
  intro a ha
  rw [hkeys]
  simpa using (List.mem_filter.mp ha).2

/-- **Step**: the account of a history is carried on. -/
theorem Account.concat (h : L.Account old es new) (e : ε) :
    L.Account old (es ++ [e]) (L.kept e new ++ L.arrivals old es e new) := by
  -- A kept entry keeps its place, and an arrival has the place of the step itself.
  have hkept {b : α} (hb : b ∈ new) (hdrop : L.drops e (L.key b) = false) {i : Nat} :
      IsLeast (L.lasting (es ++ [e]) (L.key (L.revise e b))) i ↔ IsLeast (L.lasting es (L.key b)) i := by
    rw [key_revise, isLeast_lasting_of_kept ((h.mem_keys _).mp (List.mem_map_of_mem hb)).2 hdrop]
  have harrived {a : α} (ha : a ∈ L.arrivals old es e new) {i : Nat} :
      IsLeast (L.lasting (es ++ [e]) (L.key a)) i ↔ i = es.length := by
    obtain ⟨hadds, hold, hmissing⟩ := mem_keys_arrivals_iff.mp (List.mem_map_of_mem ha)
    refine isLeast_lasting_of_new (fun ⟨hlasting, hdrop⟩ => hmissing ?_) hadds
    exact mem_keys_kept_iff.mpr ⟨(h.mem_keys _).mpr ⟨hold, hlasting⟩, hdrop⟩
  have hend : (es ++ [e])[es.length]? = some e := List.getElem?_concat_length
  refine ⟨fun k => ?_, ?_, ?_⟩
  · have hlasting : (L.lasting (es ++ [e]) k).Nonempty ↔
        (L.lasting es k).Nonempty ∧ L.drops e k = false ∨ k ∈ (L.adds es e).map L.key := by
      simp only [Set.Nonempty, mem_lasting_concat, exists_or, exists_and_right, exists_eq, true_and]
    rw [List.map_append, List.mem_append, mem_keys_arrivals_iff, mem_keys_kept_iff, h.mem_keys, hlasting]
    tauto
  · intro a ha i hi
    rcases List.mem_append.mp ha with ha | ha
    · obtain ⟨b, hb, hdrop, rfl⟩ := mem_kept_iff.mp ha
      rw [hkept hb hdrop] at hi
      obtain ⟨f, c, hf, hc, rfl⟩ := h.origin b hb i hi
      have hlt := lt_length_of_mem_lasting hi.1
      refine ⟨f, c, by rw [List.getElem?_append_left hlt, hf], by rwa [List.take_append_of_le_length hlt.le], ?_⟩
      rw [List.drop_append_of_le_length hlt, revised_concat]
    · rw [harrived ha] at hi
      subst hi
      refine ⟨e, a, hend, by rw [List.take_left' rfl]; exact (List.mem_filter.mp ha).1, ?_⟩
      rw [List.drop_of_length_le (by simp)]
      rfl
  · refine List.pairwise_append.mpr ⟨?_, ?_, ?_⟩
    · refine List.pairwise_map.mpr ((h.order.sublist List.filter_sublist).imp_of_mem ?_)
      intro a b ha hb hab i j hi hj
      obtain ⟨ha, hdropa⟩ := List.mem_filter.mp ha
      obtain ⟨hb, hdropb⟩ := List.mem_filter.mp hb
      rw [hkept ha (by simpa using hdropa)] at hi
      rw [hkept hb (by simpa using hdropb)] at hj
      have hlt := lt_length_of_mem_lasting hi.1
      rw [key_revise, key_revise, List.getElem?_append_left hlt, List.take_append_of_le_length hlt.le]
      exact hab i j hi hj
    · -- The step lists its arrivals in the order in which it asks for them.
      refine List.pairwise_iff_forall_sublist.mpr fun {a b} hab i j hi hj => .inr ?_
      rw [harrived (hab.subset (by simp))] at hi hj
      subst hi hj
      refine ⟨rfl, e, hend, ?_⟩
      rw [List.take_left' rfl]
      exact (hab.trans List.filter_sublist).map L.key
    · intro a ha b hb i j hi hj
      obtain ⟨c, hc, hdrop, rfl⟩ := mem_kept_iff.mp ha
      rw [hkept hc hdrop] at hi
      rw [harrived hb] at hj
      exact .inl (hj ▸ lt_length_of_mem_lasting hi.1)

/-- **History**: whatever the steps of a process have been, the old entries stand in front, and the history tells what
has come behind them. -/
theorem exists_account {f : List ε → List α} (hold : ∀ e, ∀ a ∈ old, L.drops e (L.key a) = false)
    (hstart : f [] = old) (hstep : ∀ es e, f (es ++ [e]) = L.step es e (f es)) (es : List ε) :
    ∃ new, f es = old.map (L.revised es) ++ new ∧ L.Account old es new := by
  induction es using List.reverseRecOn with
  | nil =>
    have hempty (k : β) : ¬ (L.lasting [] k).Nonempty := fun ⟨i, hi⟩ => Nat.not_lt_zero i (lt_length_of_mem_lasting hi)
    have hrevised : L.revised [] = id := rfl
    exact ⟨[], by simp [hstart, hrevised], ⟨fun k => by simp [hempty], by simp, .nil⟩⟩
  | append_singleton es e ih =>
    obtain ⟨new, hlist, haccount⟩ := ih
    have hstays : ∀ a ∈ old.map (L.revised es), L.drops e (L.key a) = false := by
      intro a ha
      obtain ⟨b, hb, rfl⟩ := List.mem_map.mp ha
      rw [key_revised]
      exact hold e b hb
    have harrivals : L.arrivals (old.map (L.revised es)) es e new = L.arrivals old es e new := by
      simp only [arrivals, List.map_append, map_key_revised]
    have hrevised : (old.map (L.revised es)).map (L.revise e) = old.map (L.revised (es ++ [e])) := by
      simp [revised_concat]
    exact ⟨_, by rw [hstep, hlist, step_append es e hstays, harrivals, hrevised], haccount.concat e⟩

end

end Ledger

end BirdBoard
