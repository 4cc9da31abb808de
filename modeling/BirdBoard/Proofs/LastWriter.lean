import BirdBoard.Proofs.Removal
import BirdBoard.Proofs.Rollback

/-! # Updates of birds

  A list of updates, each of which patches the bird of one state.

  - For one bird the last patch that gives a value has its way, field by field, and so a second pass of the same patches
    changes nothing (`Bird.afterPatches_append_self`).
  - A state sees the patches for its own key and no other (`run_birdUpdates`). So a list of updates may be replaced by
    any other that gives every registered key the same patches in the same order (`run_birdUpdates_congr`): updates of
    unregistered keys may be left out, and updates of different keys may change places.
  - `Model.birds_lastWriter` puts these together, and adds that a second pass changes nothing.
-/

namespace BirdBoard

/-- The edits that patch the birds of some keys, in order. -/
def birdUpdates (us : List (StateKey × BirdPatch)) : List Edit := us.map fun u => .updateBird u.1 u.2

/-! ### One bird -/

/-- A second pass of the same patches changes nothing. -/
theorem Bird.afterPatches_append_self (b : Bird) (ps : List BirdPatch) :
    b.afterPatches (ps ++ ps) = b.afterPatches ps := by
  rw [afterPatches_eq, afterPatches_eq]
  simp only [lastSet_append, Option.or_self]

/-! ### The patches for a key -/

section

variable (k : StateKey)

theorem patchesFor_append (us vs : List (StateKey × BirdPatch)) :
    patchesFor k (us ++ vs) = patchesFor k us ++ patchesFor k vs := by
  simp [patchesFor]

/-- Updates next to each other that concern different keys may change places. -/
theorem patchesFor_swap (us : List (StateKey × BirdPatch)) {u v : StateKey × BirdPatch} (huv : u.1 ≠ v.1)
    (vs : List (StateKey × BirdPatch)) :
    patchesFor k (us ++ v :: u :: vs) = patchesFor k (us ++ u :: v :: vs) := by
  rw [patchesFor_append, patchesFor_append]
  congr 1
  -- At most one of the two is for the key.
  by_cases hu : u.1 = k
  · have hv : v.1 ≠ k := fun hv => huv (hu.trans hv.symm)
    simp [patchesFor, hu, hv]
  · simp [patchesFor, List.filter_cons, hu]

/-- Updates of other keys may be left out. -/
theorem patchesFor_filter {p : StateKey → Bool} (hk : p k) (us : List (StateKey × BirdPatch)) :
    patchesFor k (us.filter fun u => p u.1) = patchesFor k us := by
  unfold patchesFor
  rw [List.filter_filter]
  congr 1
  apply List.filter_congr
  intro u _
  by_cases hu : u.1 = k <;> simp [hu, hk]

end

/-! ### All birds -/

namespace Model

variable {m : Model}

/-- Every bird takes the patches for its own state, and nothing else changes. -/
theorem run_birdUpdates (h : m.Legal) (us : List (StateKey × BirdPatch)) :
    m.run (birdUpdates us) =
      m.withStates (m.states.states.map fun s => { s with bird := s.bird.afterPatches (patchesFor s.key us) }) :=
  run_updateBirds h.keys_nodup us

/-- Two lists of updates leave the same if they have the same patches for every registered key. -/
theorem run_birdUpdates_congr (h : m.Legal) {us vs : List (StateKey × BirdPatch)}
    (heq : ∀ k, m.states.contains k → patchesFor k us = patchesFor k vs) :
    m.run (birdUpdates us) = m.run (birdUpdates vs) := by
  rw [run_birdUpdates h, run_birdUpdates h]
  congr 1
  apply List.map_congr_left
  intro s hs
  rw [heq s.key (Registry.contains_iff.mpr ⟨s, hs, rfl⟩)]

/-- A second pass of the same updates changes nothing. -/
theorem run_birdUpdates_again (h : m.Legal) (us : List (StateKey × BirdPatch)) :
    (m.run (birdUpdates us)).run (birdUpdates us) = m.run (birdUpdates us) := by
  have hboth : birdUpdates us ++ birdUpdates us = birdUpdates (us ++ us) := by
    simp [birdUpdates]
  rw [← run_append, hboth, run_birdUpdates h, run_birdUpdates h]
  simp only [patchesFor_append, Bird.afterPatches_append_self]

/-- The state of a key after the updates: it is still there, with the last values for its bird. -/
theorem get?_run_birdUpdates (h : m.Legal) (us : List (StateKey × BirdPatch)) (k : StateKey) :
    (m.run (birdUpdates us)).states.get? k = (m.states.get? k).map fun s =>
      { key := k, bird := s.bird.afterPatches (patchesFor k us) } := by
  have hfind : (m.run (birdUpdates us)).states.get? k = (m.states.get? k).map fun s =>
      { s with bird := s.bird.afterPatches (patchesFor s.key us) } := by
    rw [run_birdUpdates h, states_withStates, Registry.get?, List.find?_map]
    rfl
  rw [hfind]
  cases hs : m.states.get? k with
  | none => rfl
  | some s => rw [Option.map_some, Option.map_some, Registry.key_of_get? hs]

/-- **The last writer of each field has its way, and only with its own bird.** After any list of updates of birds on a
reachable model:

* the keys of the states stand as before, and the edges are the same;
* in each state, every field of the bird has the value of the last patch for this state that gives the field, or its old
  value if no patch does;
* updates of unregistered keys have had no effect;
* a second pass of the whole list changes nothing more;
* every list that has the same patches for each key leaves the same, so two neighbours for different keys may change
  places. -/
theorem birds_lastWriter (hm : m.Reachable) (us : List (StateKey × BirdPatch)) :
    (m.run (birdUpdates us)).states.states.map State.key = m.states.states.map State.key ∧
    (m.run (birdUpdates us)).transitions = m.transitions ∧
    (∀ k, (m.run (birdUpdates us)).states.get? k = (m.states.get? k).map fun s =>
      { key := k
        bird :=
          { level := (lastSet BirdPatch.level (patchesFor k us)).getD s.bird.level
            position := (lastSet BirdPatch.position (patchesFor k us)).getD s.bird.position
            mode := (lastSet BirdPatch.mode (patchesFor k us)).getD s.bird.mode } }) ∧
    m.run (birdUpdates (us.filter fun u => m.states.contains u.1)) = m.run (birdUpdates us) ∧
    (m.run (birdUpdates us)).run (birdUpdates us) = m.run (birdUpdates us) ∧
    (∀ vs, (∀ k, patchesFor k vs = patchesFor k us) → m.run (birdUpdates vs) = m.run (birdUpdates us)) ∧
    ∀ xs u v ys, us = xs ++ u :: v :: ys → u.1 ≠ v.1 →
      m.run (birdUpdates (xs ++ v :: u :: ys)) = m.run (birdUpdates us) := by
  have h := hm.legal
  refine ⟨?_, ?_, fun k => ?_, ?_, run_birdUpdates_again h us, ?_, ?_⟩
  · rw [run_birdUpdates h]
    simp
  · rw [run_birdUpdates h]
    rfl
  · rw [get?_run_birdUpdates h]
    simp only [Bird.afterPatches_eq]
  · exact run_birdUpdates_congr h fun k hk => patchesFor_filter k hk us
  · intro vs hvs
    exact run_birdUpdates_congr h fun k _ => hvs k
  · intro xs u v ys hus huv
    rw [hus]
    exact run_birdUpdates_congr h fun k _ => patchesFor_swap k xs huv ys

/-- Updates of two corners in turn, with a key without a state among them: one bird is put on a cell, then grabs and
loses its position again; the other one only attacks. -/
def cornerUpdates : List (StateKey × BirdPatch) :=
  [(zetaCorner, .place zetaCorner.level zetaCorner.position), (etaCorner, { mode := some .attacking }),
    (scratchKey, .clear), (zetaCorner, { mode := some .grabbing }),
    (zetaCorner, { position := some none })]

/-- What the updates leave of the two birds, whether they are made once or twice. -/
theorem birds_lastWriter_corners :
    (corners.run (birdUpdates cornerUpdates)).states.get? zetaCorner =
        some { key := zetaCorner, bird := { level := some zetaCorner.level, position := none, mode := .grabbing } } ∧
      (corners.run (birdUpdates cornerUpdates)).states.get? etaCorner =
        some { key := etaCorner, bird := { mode := .attacking } } ∧
      (corners.run (birdUpdates cornerUpdates)).run (birdUpdates cornerUpdates) =
        corners.run (birdUpdates cornerUpdates) ∧
      corners.run (birdUpdates (cornerUpdates.filter fun u => corners.states.contains u.1)) =
        corners.run (birdUpdates cornerUpdates) := by
  obtain ⟨_, _, hbird, hunknown, hagain, _⟩ := birds_lastWriter reachable_corners cornerUpdates
  exact ⟨(hbird _).trans (by decide +kernel), (hbird _).trans (by decide +kernel), hagain, hunknown⟩

end Model

end BirdBoard
