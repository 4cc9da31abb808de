import BirdBoard.State

/-! # The registry of states

  The states of a model in the order of their insertion. The base grid stands first and stays; overlay states come and
  go behind it.

  - `insert` and `insertGrid` add what is missing and leave present states alone.
  - `insertGrid` goes through a grid key by key, and `insertGrid_eq` says what the loop comes to. The base grid is what
    it makes of no states at all (`baseGrid_eq`).
  - `erase?` and `patch?` refuse a key that they cannot serve by giving nothing.
-/

namespace BirdBoard

/-- States in insertion order. -/
structure Registry where
  /-- The states, oldest first. -/
  states : List State
  deriving DecidableEq, Repr

namespace Registry

/-! ### Queries -/

/-- The state of a key. -/
def get? (r : Registry) (k : StateKey) : Option State := r.states.find? (·.key == k)

/-- Whether a key has a state. -/
def contains (r : Registry) (k : StateKey) : Bool := r.states.any (·.key == k)

/-- The place of the first state that bears a key. -/
def indexOf? (r : Registry) (k : StateKey) : Option Nat := r.states.findIdx? (·.key == k)

/-- The state of a short label; nothing for a malformed one. -/
def findLabel? (r : Registry) (label : String) : Option State :=
  match StateKey.ofLabel label with
  | .ok k => r.get? k
  | .error _ => none

/-- The states of one variant, in insertion order. -/
def ofVariant (r : Registry) (v : Variant) : List State := r.states.filter (·.key.variant == v)

/-- The states whose bird is visible, in insertion order. -/
def withBird (r : Registry) : List State := r.states.filter (·.hasBird)

/-- The number of states. -/
def size (r : Registry) : Nat := r.states.length

/-- A key has a state exactly if one of the states bears it. -/
theorem contains_iff {r : Registry} {k : StateKey} : r.contains k ↔ ∃ s ∈ r.states, s.key = k := by
  simp [contains]

/-- A key has a state exactly if the look-up finds one. -/
theorem isSome_get? (r : Registry) (k : StateKey) : (r.get? k).isSome = r.contains k :=
  List.isSome_find?

/-- The state that a look-up finds bears the key. -/
theorem key_of_get? {r : Registry} {k : StateKey} {s : State} (h : r.get? k = some s) : s.key = k := by
  simpa using List.find?_some h

/-! ### Changes -/

/-- The state of a key, which is added at the end if it was not there, and the registry that then holds it. -/
def insert (r : Registry) (k : StateKey) : State × Registry :=
  match r.get? k with
  | some s => (s, r)
  | none => (State.fresh k, { states := r.states ++ [State.fresh k] })

/-- One turn of the loop over a grid: adds the state of a key at the end if it is missing, and counts it. -/
def fill (added : Nat × Registry) (k : StateKey) : Nat × Registry :=
  if added.2.contains k then added else (added.1 + 1, { states := added.2.states ++ [State.fresh k] })

/-- Adds every missing state of a variant at the end, level by level; answers with their number. -/
def insertGrid (r : Registry) (v : Variant) : Nat × Registry :=
  Level.all.foldl (fun added l =>
    Position.all.foldl (fun added p => fill added { variant := v, level := l, position := p }) added) (0, r)

/-- The registry that holds the base grid and nothing else. -/
def baseGrid : Registry := (insertGrid { states := [] } .base).2

/-- Removes the state of an overlay key: the first one that bears it. Base keys and keys without a state are refused. -/
def erase? (r : Registry) (k : StateKey) : Option Registry :=
  if k.variant.isBase then none
  else (r.indexOf? k).map fun i => { states := r.states.eraseIdx i }

/-- Updates the bird of a state: the first one that bears the key. Keys without a state are refused. -/
def patch? (r : Registry) (k : StateKey) (p : BirdPatch) : Option Registry :=
  (r.indexOf? k).map fun i => { states := r.states.modify i fun s => { s with bird := p.apply s.bird } }

/-! ### Grids -/

/-- The two loops are one loop over the keys of the grid. -/
theorem insertGrid_eq_foldl (r : Registry) (v : Variant) : r.insertGrid v = (StateKey.grid v).foldl fill (0, r) := by
  simp only [insertGrid, StateKey.grid, List.foldl_flatMap, List.foldl_map]

/-- The keys of a grid that have no state yet, level by level. -/
def missing (r : Registry) (v : Variant) : List StateKey :=
  (StateKey.grid v).filter fun k => !r.contains k

theorem missing_eq_nil_iff {r : Registry} {v : Variant} :
    r.missing v = [] ↔ ∀ k, k.variant = v → r.contains k := by
  simp [missing, List.filter_eq_nil_iff, StateKey.mem_grid]

/-- Of distinct keys the loop adds those that are missing at its start. -/
theorem foldl_fill {ks : List StateKey} (hks : ks.Nodup) (n : Nat) (r : Registry) :
    ks.foldl fill (n, r) =
      (n + (ks.filter fun k => !r.contains k).length,
        { states := r.states ++ (ks.filter fun k => !r.contains k).map State.fresh }) := by
  induction ks generalizing n r with
  | nil => simp
  | cons k ks ih =>
    obtain ⟨hk, hks⟩ := List.nodup_cons.mp hks
    rw [List.foldl_cons, fill]
    by_cases hpresent : r.contains k
    · rw [if_pos hpresent, ih hks, List.filter_cons_of_neg (by simp [hpresent])]
    · -- The new state bears none of the keys that are still to come.
      have hrest : (ks.filter fun j => !({ states := r.states ++ [State.fresh k] } : Registry).contains j) =
          ks.filter fun j => !r.contains j := by
        apply List.filter_congr
        intro j hj
        have hjk : (k == j) = false := beq_eq_false_iff_ne.mpr fun h => hk (h ▸ hj)
        simp [contains, State.fresh, hjk]
      rw [if_neg hpresent, ih hks, hrest, List.filter_cons_of_pos (by simp [hpresent]), List.length_cons, List.map_cons,
        List.append_assoc, List.singleton_append, Nat.add_right_comm, Nat.add_assoc]

/-- So a grid adds what is missing of it, and answers how much that is. -/
theorem insertGrid_eq (r : Registry) (v : Variant) :
    r.insertGrid v =
      ((r.missing v).length, { states := r.states ++ (r.missing v).map State.fresh }) := by
  rw [insertGrid_eq_foldl, foldl_fill (StateKey.nodup_grid v), Nat.zero_add]
  rfl

/-- Without any states, all of it is missing. -/
theorem baseGrid_eq : baseGrid = { states := (StateKey.grid .base).map State.fresh } := by
  have hmissing : missing { states := [] } .base = StateKey.grid .base := List.filter_eq_self.mpr fun _ _ => rfl
  rw [baseGrid, insertGrid_eq, hmissing, List.nil_append]

end Registry

end BirdBoard
