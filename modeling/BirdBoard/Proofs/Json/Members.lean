import Mathlib.Data.List.Nodup
import Mathlib.Data.List.Pairwise
import BirdBoard.Json.Decoder

/-! # Objects whatever the order of their members

  What a record reads off an object does not depend on the order of the members.

  - `Fills` says that members, in the order in which they stand, turn one draft into another. A strict record whose
    fields have distinct names and keep out of each other's way (`Record.Tidy`) reads an object exactly if its members
    fill the draft and none is there twice (`Record.readMembers_eq_ok_iff`), and then they may be permuted
    (`Fills.perm`).
  - So any member can be looked at as if it were the first one. What happens to an object that gains or loses one
    member follows: an unknown member, one that is there already, a default, or one that the record requires.
  - A value may be replaced inside of a list or an object by one that is read as the same, and the error of a value that
    is refused is the error of what it stands in.
  - `Node.Reordered` permutes the members of one object at any depth, and a blind decoder does not notice.
-/

namespace BirdBoard.Json

variable {α β σ : Type}

/-! ### Fields -/

namespace Field

/-- Whether the values of two fields may be stored in either order. -/
def Commutes (f g : Field σ) : Prop :=
  ∀ v w s u, (∃ t, f.store v s = .ok t ∧ g.store w t = .ok u) ↔ ∃ t, g.store w s = .ok t ∧ f.store v t = .ok u

theorem Commutes.symm {f g : Field σ} (h : f.Commutes g) : g.Commutes f := by
  intro v w s u
  exact (h w v s u).symm

instance : Std.Symm (@Commutes σ) := ⟨fun _ _ h => h.symm⟩

variable {name name' : String} {needed needed' : Bool} {d : Decoder α} {d' : Decoder β} {set : α → σ → σ}
  {set' : β → σ → σ}

@[simp] theorem of_name : (Field.of name needed d set).name = name := rfl

theorem store_of_eq_ok_iff {v : Node} {s t : σ} :
    (Field.of name needed d set).store v s = .ok t ↔ ∃ a, d v = .ok a ∧ set a s = t := by
  cases h : d v <;> simp [Field.of, h, Except.map]

theorem store_of_error {v : Node} {e : ReadError} (h : d v = .error e) (s : σ) :
    (Field.of name needed d set).store v s = .error e := by
  simp [Field.of, h, Except.map]

/-- Whether a field leaves a part of the draft as it is. -/
def Keeps (f : Field σ) (get : σ → β) : Prop := ∀ v s t, f.store v s = .ok t → get t = get s

theorem of_keeps {get : σ → β} (h : ∀ a s, get (set a s) = get s) : (Field.of name needed d set).Keeps get := by
  intro v s t hstore
  obtain ⟨a, -, rfl⟩ := store_of_eq_ok_iff.mp hstore
  exact h a s

theorem of_commutes (h : ∀ a b s, set' b (set a s) = set a (set' b s)) :
    (Field.of name needed d set).Commutes (.of name' needed' d' set') := by
  intro v w s u
  simp only [store_of_eq_ok_iff]
  constructor
  · rintro ⟨_, ⟨a, ha, rfl⟩, b, hb, rfl⟩
    exact ⟨set' b s, ⟨b, hb, rfl⟩, a, ha, (h a b s).symm⟩
  · rintro ⟨_, ⟨b, hb, rfl⟩, a, ha, rfl⟩
    exact ⟨set a s, ⟨a, ha, rfl⟩, b, hb, h a b s⟩

end Field

/-- Fields of distinct names are found by their names. -/
theorem find?_field {fields : List (Field σ)} (h : (fields.map Field.name).Nodup) {f : Field σ} (hf : f ∈ fields) :
    fields.find? (·.name == f.name) = some f := by
  cases hfind : fields.find? (·.name == f.name) with
  | none => exact absurd (beq_self_eq_true f.name) (List.find?_eq_none.mp hfind f hf)
  | some g =>
    have hname : g.name = f.name := by simpa using List.find?_some hfind
    rw [List.inj_on_of_nodup_map h (List.mem_of_find?_eq_some hfind) hf hname]

/-! ### Drafts -/

/-- Members that turn one draft into another, in the order in which they stand. -/
inductive Fills (fields : List (Field σ)) : σ → List (Option String × Node) → σ → Prop
  | done {s : σ} : Fills fields s [] s
  | member {f : Field σ} {s t u : σ} {v : Node} {ms : List (Option String × Node)} (hf : f ∈ fields)
      (hstore : f.store v s = .ok t) (h : Fills fields t ms u) : Fills fields s ((some f.name, v) :: ms) u

namespace Fills

variable {fields : List (Field σ)} {s t u : σ} {ms ms' : List (Option String × Node)}

theorem append_iff : Fills fields s (ms ++ ms') u ↔ ∃ t, Fills fields s ms t ∧ Fills fields t ms' u := by
  constructor
  · intro h
    induction ms generalizing s with
    | nil => exact ⟨s, .done, h⟩
    | cons m ms ih =>
      cases h with
      | member hf hstore h =>
        obtain ⟨t, hms, hms'⟩ := ih h
        exact ⟨t, .member hf hstore hms, hms'⟩
  · rintro ⟨t, hms, hms'⟩
    induction hms with
    | done => exact hms'
    | member hf hstore _ ih => exact .member hf hstore (ih hms')

/-- Fields that commute can be filled in any order. -/
theorem perm (hcommute : ∀ f ∈ fields, ∀ g ∈ fields, f.name ≠ g.name → f.Commutes g) (hperm : ms.Perm ms')
    (hnodup : (ms.map Prod.fst).Nodup) (h : Fills fields s ms t) : Fills fields s ms' t := by
  induction hperm generalizing s t with
  | nil => exact h
  | cons m _ ih =>
    cases h with
    | member hf hstore h => exact .member hf hstore (ih (List.nodup_cons.mp hnodup).2 h)
  | swap m m' ms =>
    cases h with
    | @member f _ _ _ v _ hf hstore h =>
      cases h with
      | @member g _ _ _ w _ hg hstore' h =>
        have hne : f.name ≠ g.name := by
          intro heq
          simp [heq] at hnodup
        obtain ⟨_, hw, hv⟩ := (hcommute f hf g hg hne v w _ _).mp ⟨_, hstore, hstore'⟩
        exact .member hg hw (.member hf hv h)
  | trans hperm _ ih ih' => exact ih' ((hperm.map Prod.fst).nodup_iff.mp hnodup) (ih hnodup h)

/-- The first member is stored by the field of its name. -/
theorem cons_iff (hnames : (fields.map Field.name).Nodup) {f : Field σ} (hf : f ∈ fields) {v : Node} :
    Fills fields s ((some f.name, v) :: ms) u ↔ ∃ t, f.store v s = .ok t ∧ Fills fields t ms u := by
  constructor
  · intro h
    generalize hms : (some f.name, v) :: ms = ms' at h
    cases h with
    | done => cases hms
    | @member g _ t _ _ _ hg hstore h =>
      obtain ⟨hhead, rfl⟩ := List.cons.inj hms
      obtain ⟨hname, rfl⟩ := Prod.mk.inj hhead
      obtain rfl : f = g := List.inj_on_of_nodup_map hnames hf hg (Option.some.inj hname)
      exact ⟨t, hstore, h⟩
  · rintro ⟨t, hstore, h⟩
    exact .member hf hstore h

end Fills

/-! ### Records -/

namespace Record

/-- A record that refuses unknown members, and whose fields have distinct names and keep out of each other's way. -/
structure Tidy (r : Record σ α) : Prop where
  strict : r.lenient = false
  names : (r.fields.map Field.name).Nodup
  commute : r.fields.Pairwise Field.Commutes

variable {r : Record σ α} {s t : σ} {ms before after : List (Option String × Node)} {seen : List String} {a : α}

/-- Fields with different names commute. -/
theorem Tidy.commutes (hr : r.Tidy) : ∀ f ∈ r.fields, ∀ g ∈ r.fields, f.name ≠ g.name → f.Commutes g := by
  intro f hf g hg hne
  refine hr.commute.forall hf hg ?_
  intro heq
  exact hne (congrArg Field.name heq)

/-- Members that fill the draft, none of them twice, are collected before what follows them. -/
theorem readMembers_append (hnames : (r.fields.map Field.name).Nodup) (h : Fills r.fields s before t)
    (hnodup : (before.map Prod.fst).Nodup) (hseen : ∀ k ∈ seen, some k ∉ before.map Prod.fst) :
    ∃ seen', (∀ k, k ∈ seen' ↔ k ∈ seen ∨ some k ∈ before.map Prod.fst) ∧
      ∀ ms, r.readMembers seen s (before ++ ms) = r.readMembers seen' t ms := by
  induction h generalizing seen with
  | done => exact ⟨seen, by simp, fun _ => rfl⟩
  | @member f s t u v before hf hstore _ ih =>
    obtain ⟨hfresh, hnodup⟩ := List.nodup_cons.mp hnodup
    have hunseen : f.name ∉ seen := by
      intro hmem
      exact hseen f.name hmem List.mem_cons_self
    have hrest : ∀ k ∈ f.name :: seen, some k ∉ before.map Prod.fst := by
      intro k hk hmem
      rcases List.mem_cons.mp hk with rfl | hk
      · exact hfresh hmem
      · exact hseen k hk (List.mem_cons_of_mem _ hmem)
    obtain ⟨seen', hseen', hread⟩ := ih hnodup hrest
    refine ⟨seen', ?_, ?_⟩
    · intro k
      rw [hseen', List.mem_cons, List.map_cons, List.mem_cons, Option.some.injEq]
      tauto
    · intro ms
      rw [List.cons_append, readMembers, find?_field hnames hf]
      simp only [List.contains_eq_mem, hunseen, decide_false, Bool.false_eq_true, if_false, hstore]
      exact hread ms

/-- At the beginning of an object nothing has been there before. -/
theorem readMembers_start (hnames : (r.fields.map Field.name).Nodup) (h : Fills r.fields r.start before t)
    (hnodup : (before.map Prod.fst).Nodup) : ∃ seen, (∀ k, k ∈ seen ↔ some k ∈ before.map Prod.fst) ∧
      ∀ ms, r.readMembers [] r.start (before ++ ms) = r.readMembers seen t ms := by
  have hseen : ∀ k ∈ ([] : List String), some k ∉ before.map Prod.fst := by simp
  simpa using readMembers_append hnames h hnodup hseen

/-- The members of an object are collected exactly if they fill the draft and none is there twice. -/
theorem readMembers_eq_ok_iff (hr : r.Tidy) : r.readMembers seen s ms = .ok t ↔
    Fills r.fields s ms t ∧ (ms.map Prod.fst).Nodup ∧ ∀ k ∈ seen, some k ∉ ms.map Prod.fst := by
  constructor
  · intro h
    -- The induction follows the collecting: what has been stored is seen by the rest.
    induction ms generalizing seen s with
    | nil =>
      cases h
      exact ⟨.done, List.nodup_nil, by simp⟩
    | cons m ms ih =>
      obtain ⟨key, v⟩ := m
      cases key with
      | none => cases h
      | some key =>
        rw [readMembers] at h
        split at h
        · next f hfind =>
          have hf := List.mem_of_find?_eq_some hfind
          obtain rfl : f.name = key := by simpa using List.find?_some hfind
          split at h
          · cases h
          · next hunseen =>
            split at h
            · cases h
            · next t' hstore =>
              obtain ⟨hfills, hnodup, hrest⟩ := ih h
              refine ⟨.member hf hstore hfills, ?_, ?_⟩
              · exact List.nodup_cons.mpr ⟨hrest f.name List.mem_cons_self, hnodup⟩
              · intro k hk hmem
                rcases List.mem_cons.mp hmem with heq | hmem
                · obtain rfl := Option.some.inj heq
                  exact hunseen (List.contains_iff_mem.mpr hk)
                · exact hrest k (List.mem_cons_of_mem _ hk) hmem
        · simp [hr.strict] at h
  · rintro ⟨hfills, hnodup, hseen⟩
    obtain ⟨seen', -, hread⟩ := readMembers_append hr.names hfills hnodup hseen
    simpa [readMembers] using hread []

/-- An object is read exactly if its members fill the draft, none of them twice, and the draft is complete. -/
theorem decoder_object_eq_ok_iff (hr : r.Tidy) : r.decoder (.object ms true) = .ok a ↔
    ∃ s, Fills r.fields r.start ms s ∧ (ms.map Prod.fst).Nodup ∧ r.finish s = .ok a := by
  have hiff (s : σ) : r.readMembers [] r.start ms = .ok s ↔
      Fills r.fields r.start ms s ∧ (ms.map Prod.fst).Nodup := by
    rw [readMembers_eq_ok_iff hr]
    simp
  rw [decoder]
  split
  · next herror =>
    constructor
    · intro h
      cases h
    · rintro ⟨s, hfills, hnodup, -⟩
      cases herror.symm.trans ((hiff s).mpr ⟨hfills, hnodup⟩)
  · next s hok =>
    rw [if_pos rfl]
    obtain ⟨hfills, hnodup⟩ := (hiff s).mp hok
    constructor
    · intro h
      exact ⟨s, hfills, hnodup, h⟩
    · rintro ⟨s', hfills', hnodup', h⟩
      cases hok.symm.trans ((hiff s').mpr ⟨hfills', hnodup'⟩)
      exact h

/-- The members of an object may be permuted. -/
theorem decoder_perm (hr : r.Tidy) {ms' : List (Option String × Node)} (hperm : ms.Perm ms')
    (h : r.decoder (.object ms true) = .ok a) : r.decoder (.object ms' true) = .ok a := by
  obtain ⟨s, hfills, hnodup, hfinish⟩ := (decoder_object_eq_ok_iff hr).mp h
  have hnodup' := (hperm.map Prod.fst).nodup_iff.mp hnodup
  exact (decoder_object_eq_ok_iff hr).mpr ⟨s, hfills.perm hr.commutes hperm hnodup, hnodup', hfinish⟩

/-! ### One member more or less -/

variable {key : String} {name : Option String} {v v' : Node} {f : Field σ} {e : ReadError}

/-- A member with an unknown name is refused. -/
theorem decoder_unknown (hr : r.Tidy) (h : r.decoder (.object (before ++ after) true) = .ok a)
    (hkey : key ∉ r.fields.map Field.name) :
    r.decoder (.object (before ++ (some key, v) :: after) true) =
      .error (.data (.unknownField key (r.fields.map Field.name))) := by
  obtain ⟨s, hfills, hnodup, -⟩ := (decoder_object_eq_ok_iff hr).mp h
  obtain ⟨t, hbefore, -⟩ := Fills.append_iff.mp hfills
  rw [List.map_append] at hnodup
  obtain ⟨seen, -, hread⟩ := readMembers_start hr.names hbefore hnodup.of_append_left
  have hfind : r.fields.find? (·.name == key) = none := by
    rw [List.find?_eq_none]
    intro f hf heq
    exact hkey (List.mem_map.mpr ⟨f, hf, by simpa using heq⟩)
  simp only [decoder, hread, readMembers, hfind, hr.strict, Bool.not_false, if_true]

/-- A member whose name is no text is refused. -/
theorem decoder_nameless (hr : r.Tidy) (h : r.decoder (.object (before ++ after) true) = .ok a) :
    r.decoder (.object (before ++ (none, v) :: after) true) = .error .malformed := by
  obtain ⟨s, hfills, hnodup, -⟩ := (decoder_object_eq_ok_iff hr).mp h
  obtain ⟨t, hbefore, -⟩ := Fills.append_iff.mp hfills
  rw [List.map_append] at hnodup
  obtain ⟨seen, -, hread⟩ := readMembers_start hr.names hbefore hnodup.of_append_left
  simp only [decoder, hread, readMembers]

/-- A member that is there already is refused. -/
theorem decoder_repeated (hr : r.Tidy) (hname : name ∈ (before ++ after).map Prod.fst) :
    ∃ e, r.decoder (.object (before ++ (name, v) :: after) true) = .error e := by
  cases h : r.decoder (.object (before ++ (name, v) :: after) true) with
  | error e => exact ⟨e, rfl⟩
  | ok a =>
    obtain ⟨_, -, hnodup, -⟩ := (decoder_object_eq_ok_iff hr).mp h
    rw [(List.perm_middle.map Prod.fst).nodup_iff, List.map_cons, List.nodup_cons] at hnodup
    exact absurd hname hnodup.1

/-- A member that says what the draft says at the beginning may be given or left out. -/
theorem decoder_default (hr : r.Tidy) (hf : f ∈ r.fields) (hdefault : f.store v r.start = .ok r.start) :
    r.decoder (.object (before ++ (some f.name, v) :: after) true) = .ok a ↔
      r.decoder (.object (before ++ after) true) = .ok a ∧ some f.name ∉ (before ++ after).map Prod.fst := by
  have hfront : r.decoder (.object (before ++ (some f.name, v) :: after) true) = .ok a ↔
      r.decoder (.object ((some f.name, v) :: (before ++ after)) true) = .ok a :=
    ⟨decoder_perm hr List.perm_middle, decoder_perm hr List.perm_middle.symm⟩
  rw [hfront, decoder_object_eq_ok_iff hr, decoder_object_eq_ok_iff hr]
  simp only [Fills.cons_iff hr.names hf, hdefault, Except.ok.injEq, exists_eq_left', List.map_cons, List.nodup_cons]
  constructor
  · rintro ⟨s, hfills, ⟨hfresh, hnodup⟩, hfinish⟩
    exact ⟨⟨s, hfills, hnodup, hfinish⟩, hfresh⟩
  · rintro ⟨⟨s, hfills, hnodup, hfinish⟩, hfresh⟩
    exact ⟨s, hfills, ⟨hfresh, hnodup⟩, hfinish⟩

/-- The names of the members that a record cannot do without. The flag `given` says of a draft whether it has one of
them: it is down at the beginning, only the field of that name raises it, and a draft is complete if all are up. -/
structure Requires (r : Record σ α) (names : List String) (given : String → σ → Bool) : Prop where
  start : ∀ name ∈ names, given name r.start = false
  keeps : ∀ name ∈ names, ∀ f ∈ r.fields, f.name ≠ name → f.Keeps (given name)
  complete : ∀ s a, r.finish s = .ok a → ∀ name ∈ names, given name s = true
  missing : ∀ s, ∀ name ∈ names, given name s = false → (∀ other ∈ names, other ≠ name → given other s = true) →
    r.finish s = .error (.data (.missingField name))

variable {names : List String} {given : String → σ → Bool}

/-- No other member gives a required one. -/
theorem Requires.given_eq (hrequires : r.Requires names given) (h : Fills r.fields s ms t) (hkey : key ∈ names)
    (hfresh : some key ∉ ms.map Prod.fst) : given key t = given key s := by
  induction h with
  | done => rfl
  | @member f _ _ _ _ _ hf hstore _ ih =>
    rw [List.map_cons, List.mem_cons, not_or, Option.some.injEq] at hfresh
    have hne : f.name ≠ key := fun heq => hfresh.1 heq.symm
    rw [ih hfresh.2, hrequires.keeps key hkey f hf hne _ _ _ hstore]

/-- An object that loses a member that the record requires is refused. -/
theorem decoder_missing (hr : r.Tidy) (hrequires : r.Requires names given) (hkey : key ∈ names)
    (h : r.decoder (.object (before ++ (some key, v) :: after) true) = .ok a) :
    r.decoder (.object (before ++ after) true) = .error (.data (.missingField key)) := by
  -- The member is moved to the end, so that the others have filled the draft when it is stored.
  have hperm : (before ++ (some key, v) :: after).Perm ((before ++ after) ++ [(some key, v)]) :=
    List.perm_middle.trans (List.perm_append_singleton _ _).symm
  obtain ⟨s, hfills, hnodup, hfinish⟩ := (decoder_object_eq_ok_iff hr).mp (decoder_perm hr hperm h)
  obtain ⟨t, hothers, hlast⟩ := Fills.append_iff.mp hfills
  rw [List.map_append, List.map_singleton, (List.perm_append_singleton _ _).nodup_iff] at hnodup
  obtain ⟨hfresh, hnodup⟩ := List.nodup_cons.mp hnodup
  have habsent : given key t = false :=
    (hrequires.given_eq hothers hkey hfresh).trans (hrequires.start key hkey)
  have hothersGiven : ∀ other ∈ names, other ≠ key → given other t = true := by
    intro other hother hne
    have hlone : some other ∉ [(some key, v)].map Prod.fst := by simpa using hne
    rw [← hrequires.given_eq hlast hother hlone]
    exact hrequires.complete s a hfinish other hother
  have hread : r.readMembers [] r.start (before ++ after) = .ok t :=
    (readMembers_eq_ok_iff hr).mpr ⟨hothers, hnodup, by simp⟩
  simp only [decoder, hread, if_true, hrequires.missing t key hkey habsent hothersGiven]

/-! ### Values inside of an object -/

/-- A value in an object may be replaced by one that is stored as the same. -/
theorem decoder_member_ok (hr : r.Tidy)
    (hv : ∀ g ∈ r.fields, some g.name = name → ∀ s t, g.store v s = .ok t → g.store v' s = .ok t)
    (h : r.decoder (.object (before ++ (name, v) :: after) true) = .ok a) :
    r.decoder (.object (before ++ (name, v') :: after) true) = .ok a := by
  obtain ⟨s, hfills, hnodup, hfinish⟩ := (decoder_object_eq_ok_iff hr).mp h
  obtain ⟨t, hbefore, hrest⟩ := Fills.append_iff.mp hfills
  refine (decoder_object_eq_ok_iff hr).mpr ⟨s, Fills.append_iff.mpr ⟨t, hbefore, ?_⟩, ?_, hfinish⟩
  · cases hrest with
    | member hg hstore hafter => exact .member hg (hv _ hg rfl _ _ hstore) hafter
  · simpa using hnodup

/-- A value that is refused in the place of one that was stored is refused for the whole object. -/
theorem decoder_member_error (hr : r.Tidy) (hf : f ∈ r.fields)
    (hv : ∀ s t, f.store v s = .ok t → f.store v' s = .error e)
    (h : r.decoder (.object (before ++ (some f.name, v) :: after) true) = .ok a) :
    r.decoder (.object (before ++ (some f.name, v') :: after) true) = .error e := by
  obtain ⟨s, hfills, hnodup, -⟩ := (decoder_object_eq_ok_iff hr).mp h
  obtain ⟨t, hbefore, hrest⟩ := Fills.append_iff.mp hfills
  obtain ⟨u, hstore, -⟩ := (Fills.cons_iff hr.names hf).mp hrest
  have hfresh : some f.name ∉ before.map Prod.fst := by
    rw [(List.perm_middle.map Prod.fst).nodup_iff, List.map_cons, List.nodup_cons, List.map_append] at hnodup
    intro hmem
    exact hnodup.1 (List.mem_append_left _ hmem)
  rw [List.map_append] at hnodup
  obtain ⟨seen, hseen, hread⟩ := readMembers_start hr.names hbefore hnodup.of_append_left
  have hunseen : f.name ∉ seen := by
    rw [hseen]
    simpa using hfresh
  rw [decoder, hread, readMembers, find?_field hr.names hf]
  simp only [List.contains_eq_mem, hunseen, decide_false, Bool.false_eq_true, if_false, hv t u hstore]

end Record

/-! ### Values inside of a list -/

namespace Decoder

variable {d : Decoder α} {before after : List Node} {v v' : Node} {closed : Bool} {as : List α} {e : ReadError}

theorem items_append (ns ns' : List Node) :
    items d (ns ++ ns') = (items d ns).bind fun as => (items d ns').map (as ++ ·) := by
  induction ns with
  | nil => cases h : items d ns' <;> simp [items, h, Except.bind, Except.map]
  | cons n ns ih =>
    rw [List.cons_append, items, items, ih]
    cases d n with
    | error => rfl
    | ok a => cases items d ns <;> cases items d ns' <;> rfl

/-- A value in a list may be replaced by one that is read as the same. -/
theorem list_item_ok (hv : ∀ a, d v = .ok a → d v' = .ok a)
    (h : list d (.array (before ++ v :: after) closed) = .ok as) :
    list d (.array (before ++ v' :: after) closed) = .ok as := by
  cases hd : d v with
  | error e =>
    simp only [list, items_append, items, hd] at h
    cases hbefore : items d before <;> simp [hbefore, Except.bind, Except.map] at h
  | ok a =>
    rw [← h]
    simp only [list, items_append, items, hd, hv a hd]

/-- A value that is refused in the place of one that was read is refused for the whole list. -/
theorem list_item_error (hv : ∀ a, d v = .ok a → d v' = .error e)
    (h : list d (.array (before ++ v :: after) closed) = .ok as) :
    list d (.array (before ++ v' :: after) closed) = .error e := by
  simp only [list, items_append, items] at h ⊢
  cases hbefore : items d before with
  | error => simp [hbefore, Except.bind] at h
  | ok =>
    cases hd : d v with
    | error => simp [hbefore, hd, Except.bind, Except.map] at h
    | ok a => simp [hv a hd, Except.bind, Except.map]

end Decoder

/-! ### Reordered texts -/

/-- Trees that differ in the order of the members of one object, at any depth. -/
inductive Node.Reordered : Node → Node → Prop
  | here {ms ms' : List (Option String × Node)} {closed : Bool} (h : ms.Perm ms') :
      Reordered (.object ms closed) (.object ms' closed)
  | member {before after : List (Option String × Node)} {name : Option String} {v v' : Node} {closed : Bool}
      (h : Reordered v v') :
      Reordered (.object (before ++ (name, v) :: after) closed) (.object (before ++ (name, v') :: after) closed)
  | item {before after : List Node} {v v' : Node} {closed : Bool} (h : Reordered v v') :
      Reordered (.array (before ++ v :: after) closed) (.array (before ++ v' :: after) closed)

/-- Whether a decoder reads what it reads whatever the order of members is. -/
def Decoder.Blind (d : Decoder α) : Prop := ∀ n n' a, n.Reordered n' → d n = .ok a → d n' = .ok a

namespace Decoder

/-- A decoder that reads neither lists nor objects is blind. -/
theorem blind_of_single {d : Decoder α} (harray : ∀ ns closed a, d (.array ns closed) ≠ .ok a)
    (hobject : ∀ ms closed a, d (.object ms closed) ≠ .ok a) : d.Blind := by
  intro n n' a h hok
  cases h with
  | here => exact absurd hok (hobject _ _ _)
  | member => exact absurd hok (hobject _ _ _)
  | item => exact absurd hok (harray _ _ _)

theorem byte_blind : byte.Blind := blind_of_single (by simp [byte]) (by simp [byte])

theorem text_blind : text.Blind := blind_of_single (by simp [text]) (by simp [text])

theorem flag_blind : flag.Blind := blind_of_single (by simp [flag]) (by simp [flag])

theorem optional_blind {d : Decoder α} (hd : d.Blind) : (optional d).Blind := by
  intro n n' a h hok
  have hmap {n : Node} (hn : n ≠ .null) : optional d n = (d n).map some := by
    cases n with
    | null => exact absurd rfl hn
    | _ => rfl
  have hn : n ≠ .null := by cases h <;> nofun
  have hn' : n' ≠ .null := by cases h <;> nofun
  rw [hmap hn] at hok
  rw [hmap hn']
  cases hread : d n with
  | error => simp [hread, Except.map] at hok
  | ok b => rw [hd n n' b h hread, ← hok, hread]

/-- A name in an object is its only member, and its value has no members. -/
theorem choice_blind (names : List (String × α)) : (choice names).Blind := by
  intro n n' a h hok
  have hsingle {ms : List (Option String × Node)} {closed : Bool} (h : choice names (.object ms closed) = .ok a) :
      ∃ name, ms = [(name, .null)] := by
    unfold choice at h
    split at h
    · cases ‹Node.object _ _ = _›
    · next name value members closed' heq =>
      cases heq
      split at h
      · cases h
      · split at h
        · split at h
          · next hlast =>
            simp only [Bool.and_eq_true, List.isEmpty_iff] at hlast
            exact ⟨some name, by rw [hlast.1]⟩
          · cases h
        · cases h
    · cases h
  cases h with
  | here hperm =>
    obtain ⟨name, rfl⟩ := hsingle hok
    rwa [← List.singleton_perm.mp hperm]
  | member hv =>
    obtain ⟨name, hms⟩ := hsingle hok
    have hvalue : ∀ m ∈ [(name, Node.null)], m.2 = .null := by simp
    rw [← hms] at hvalue
    have hnull := hvalue _ (List.mem_append_right _ List.mem_cons_self)
    dsimp only at hnull
    subst hnull
    cases hv
  | item => simp [choice] at hok

theorem list_blind {d : Decoder α} (hd : d.Blind) : (list d).Blind := by
  intro n n' as h hok
  cases h with
  | here => simp [list] at hok
  | member => simp [list] at hok
  | item hv => exact list_item_ok (fun a ha => hd _ _ a hv ha) hok

end Decoder

/-- Whether a field stores a value whatever the order of members in the value is. -/
def Field.Blind (f : Field σ) : Prop := ∀ v v' s t, v.Reordered v' → f.store v s = .ok t → f.store v' s = .ok t

theorem Field.of_blind {name : String} {needed : Bool} {d : Decoder α} {set : α → σ → σ} (hd : d.Blind) :
    (Field.of name needed d set).Blind := by
  intro v v' s t h hstore
  obtain ⟨a, ha, ht⟩ := store_of_eq_ok_iff.mp hstore
  exact store_of_eq_ok_iff.mpr ⟨a, hd v v' a h ha, ht⟩

namespace Record

theorem readItems_blind {r : Record σ α} {fields : List (Field σ)} (hfields : ∀ f ∈ fields, f.Blind) {v v' : Node}
    (hv : v.Reordered v') {before after : List Node} {s t : σ} {closed : Bool}
    (h : r.readItems s closed fields (before ++ v :: after) = .ok t) :
    r.readItems s closed fields (before ++ v' :: after) = .ok t := by
  induction before generalizing s fields with
  | nil =>
    cases fields with
    | nil => cases h
    | cons f fields =>
      rw [List.nil_append, readItems] at h ⊢
      cases hstore : f.store v s with
      | error => simp [hstore] at h
      | ok => rwa [hfields f List.mem_cons_self v v' s _ hv hstore, ← hstore]
  | cons n before ih =>
    cases fields with
    | nil => cases h
    | cons f fields =>
      rw [List.cons_append, readItems] at h ⊢
      cases hstore : f.store n s with
      | error => simp [hstore] at h
      | ok =>
        simp only [hstore] at h ⊢
        exact ih (fun g hg => hfields g (List.mem_cons_of_mem _ hg)) h

theorem decoder_blind {r : Record σ α} (hr : r.Tidy) (hfields : ∀ f ∈ r.fields, f.Blind) : r.decoder.Blind := by
  intro n n' a h hok
  cases h with
  | @here ms ms' closed hperm =>
    cases closed with
    | true => exact decoder_perm hr hperm hok
    | false =>
      rw [decoder] at hok
      split at hok <;> cases hok
  | @member _ _ _ v v' closed hv =>
    cases closed with
    | true => exact decoder_member_ok hr (fun g hg _ s t => hfields g hg v v' s t hv) hok
    | false =>
      rw [decoder] at hok
      split at hok <;> cases hok
  | @item before after v v' closed hv =>
    rw [decoder] at hok
    split at hok
    · cases hok
    · next s hread =>
      rw [decoder, readItems_blind hfields hv hread]
      exact hok

end Record

end BirdBoard.Json
