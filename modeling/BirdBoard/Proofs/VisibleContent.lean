import BirdBoard.Stylesheet
import BirdBoard.Proofs.Labels
import BirdBoard.Proofs.Legal

/-! # The visible content of a model

  A stylesheet shows four things of a model: how many states and how many edges there are, the visible birds in the
  order of the registry, and the switches of the variant in the order of their insertion.

  - `Stylesheet.lines_eq_sheet`: the stylesheet of a legal model is made from these four alone.
  - `Stylesheet.sheet_inj`: the four can be read back from the lines. Blocks of lines are read one after the other; the
    header says how many bird rules follow, and a note never begins like the keyframes.
  - `Stylesheet.unlines_inj`: the lines can be read back from the text, because no line holds a newline.
-/

namespace BirdBoard

/-! ### What is shown -/

/-- A visible bird. -/
structure Sighting where
  /-- The state that shows the bird. -/
  key : StateKey
  level : Level
  position : Position
  grabbing : Bool
  deriving DecidableEq, Repr

/-- The visible bird of a state: there is one when both coordinates of the bird are set. -/
def State.sighting? (s : State) : Option Sighting :=
  match s.bird.level, s.bird.position with
  | some level, some position => some ⟨s.key, level, position, s.bird.mode == .grabbing⟩
  | _, _ => none

/-- The visible birds, in the order of the registry. -/
def Registry.sightings (r : Registry) : List Sighting := r.states.filterMap State.sighting?

/-- The names of the edges that switch the variant, oldest first. -/
def TransitionSet.switches (ts : TransitionSet) : List TransitionId :=
  (ts.edges.filter (·.axis == .variant)).map Transition.id

namespace Stylesheet

/-- The rule of a visible bird. -/
def sightingRule (b : Sighting) : List String := cellRule b.key b.level b.position b.grabbing

/-- The notes on variant switches whose ends are all registered. -/
def switchNotes : List TransitionId → List String
  | [] => []
  | ids => notesHeading :: ids.flatMap note

/-- A stylesheet, made from what it shows. -/
def sheet (states transitions : Nat) (birds : List Sighting) (switches : List TransitionId) : List String :=
  header { states, birdStates := birds.length, transitions } ++ scaffolding ++ birds.flatMap sightingRule ++
    switchNotes switches ++ keyframes

/-! ### From content to lines -/

theorem birdRule_eq (s : State) : birdRule s = (s.sighting?.map sightingRule).getD [] := by
  unfold birdRule State.sighting? Bird.cell?
  cases s.bird.level <;> cases s.bird.position <;> rfl

theorem hasBird_eq (s : State) : s.hasBird = s.sighting?.isSome := by
  unfold State.hasBird State.sighting? Bird.cell?
  cases s.bird.level <;> cases s.bird.position <;> rfl

theorem map_sighting?_withBird (r : Registry) : r.withBird.map State.sighting? = r.sightings.map some := by
  unfold Registry.withBird Registry.sightings
  induction r.states with
  | nil => rfl
  | cons s ss ih =>
    rw [List.filter_cons, List.filterMap_cons, hasBird_eq]
    cases hs : s.sighting? with
    | none => exact ih
    | some b => rw [Option.isSome_some, if_pos rfl, List.map_cons, List.map_cons, hs, ih]

theorem flatMap_birdRule (r : Registry) : r.withBird.flatMap birdRule = r.sightings.flatMap sightingRule := by
  have hrules : r.withBird.flatMap birdRule =
      (r.withBird.map State.sighting?).flatMap fun b => (b.map sightingRule).getD [] := by
    rw [List.flatMap_map, funext birdRule_eq]
  rw [hrules, map_sighting?_withBird, List.flatMap_map]
  rfl

theorem length_withBird (r : Registry) : r.withBird.length = r.sightings.length := by
  have hlen := congrArg List.length (map_sighting?_withBird r)
  rwa [List.length_map, List.length_map] at hlen

/-- On a legal model every variant switch brings its note. -/
theorem notes_eq {m : Model} (h : m.Legal) :
    notes m.states m.transitions = switchNotes m.transitions.switches := by
  have hends : ∀ t ∈ m.transitions.ofAxis .variant,
      (m.states.contains t.id.source && m.states.contains t.id.target) = true := by
    intro t ht
    have htl := h.edge t (List.mem_filter.mp ht).1
    simp [Registry.contains_iff_mem_keys.mpr htl.source_mem, Registry.contains_iff_mem_keys.mpr htl.target_mem]
  unfold notes TransitionSet.switches
  change _ = switchNotes ((m.transitions.ofAxis .variant).map Transition.id)
  cases hswitches : m.transitions.ofAxis .variant with
  | nil => rfl
  | cons t ts =>
    rw [hswitches] at hends
    simp only [List.filter_eq_self.mpr hends, List.map_cons, switchNotes, List.flatMap_cons, List.flatMap_map]

/-- The stylesheet of a legal model is made from what it shows. -/
theorem lines_eq_sheet {m : Model} (h : m.Legal) :
    lines m.states m.transitions =
      sheet m.states.size m.transitions.size m.states.sightings m.transitions.switches := by
  rw [lines, sheet, Summary.of, length_withBird, flatMap_birdRule, notes_eq h]

/-! ### From lines to content -/

theorem header_inj {s s' : Summary} (h : header s = header s') : s = s' := by
  simp only [header, List.cons.injEq, and_true, true_and, String.append_right_inj, String.append_assoc] at h
  obtain ⟨hcounts, hedges⟩ := h
  -- The blank behind the number of birds ends it.
  have hblank (n : Nat) : ' ' ∉ (toString n).toList := notMem_natText rfl n
  obtain ⟨hbirds, hstates⟩ := (append_separator_inj rfl (hblank _) (hblank _)).mp hcounts
  cases s
  cases s'
  rw [Summary.mk.injEq]
  exact ⟨natText_inj.mp hstates, natText_inj.mp hbirds, natText_inj.mp hedges⟩

theorem selector_injective {k j : StateKey} (h : selector k = selector j) : k = j := by
  simp only [selector, String.append_assoc, String.append_right_inj] at h
  -- A colon ends the level and the position.
  have hlevel (l : Level) : ':' ∉ l.text.toList := fun h => by
    cases Level.isDigit_of_mem_text h
  have hposition (p : Position) : ':' ∉ p.text.toList := fun h => by
    cases Position.isDigit_of_mem_text h
  obtain ⟨hl, hrest⟩ := (append_separator_inj rfl (hlevel _) (hlevel _)).mp h
  obtain ⟨hp, hv⟩ := (append_separator_inj rfl (hposition _) (hposition _)).mp hrest
  cases k
  cases j
  rw [StateKey.mk.injEq]
  exact ⟨Variant.name_injective ((String.append_left_inj _).mp hv), Level.text_injective hl,
    Position.text_injective hp⟩

theorem gridColumn_injective {p p' : Position} (h : p.gridColumn = p'.gridColumn) : p = p' := by
  obtain ⟨n, hn, _⟩ := p
  obtain ⟨n', hn', _⟩ := p'
  simp only [Position.gridColumn] at h
  simp only [Position.mk.injEq]
  omega

theorem gridRow_injective {l l' : Level} (h : l.gridRow = l'.gridRow) : l = l' := by
  obtain ⟨n, hn⟩ := l
  obtain ⟨n', hn'⟩ := l'
  simp only [Level.gridRow] at h
  simp only [Level.mk.injEq]
  omega

/-- A bird rule can be read off the front of the lines. -/
theorem sightingRule_append_inj {b b' : Sighting} {rest rest' : List String}
    (h : sightingRule b ++ rest = sightingRule b' ++ rest') : b = b' ∧ rest = rest' := by
  obtain ⟨k, l, p, g⟩ := b
  obtain ⟨k', l', p', g'⟩ := b'
  simp only [sightingRule, cellRule, List.cons_append, List.append_assoc, List.nil_append, List.cons.injEq,
    true_and, String.append_right_inj, String.append_left_inj] at h
  obtain ⟨-, hkey, hcolumn, hrow, htail⟩ := h
  obtain rfl := selector_injective hkey
  obtain rfl := gridColumn_injective (natText_inj.mp hcolumn)
  obtain rfl := gridRow_injective (natText_inj.mp hrow)
  -- The line behind the declarations is the animation or the closing brace.
  cases g <;> cases g' <;> simp at htail
  · exact ⟨rfl, htail⟩
  · exact ⟨rfl, htail⟩

/-- Bird rules can be read off the front of the lines once their number is known. -/
theorem flatMap_sightingRule_inj {bs bs' : List Sighting} {rest rest' : List String} (hlen : bs.length = bs'.length)
    (h : bs.flatMap sightingRule ++ rest = bs'.flatMap sightingRule ++ rest') : bs = bs' ∧ rest = rest' := by
  induction bs generalizing bs' with
  | nil =>
    obtain rfl := List.eq_nil_of_length_eq_zero hlen.symm
    exact ⟨rfl, h⟩
  | cons b bs ih =>
    cases bs' with
    | nil => cases hlen
    | cons b' bs' =>
      rw [List.flatMap_cons, List.flatMap_cons, List.append_assoc, List.append_assoc] at h
      obtain ⟨hb, htail⟩ := sightingRule_append_inj h
      obtain ⟨hbs, hrest⟩ := ih (by simpa using hlen) htail
      exact ⟨by rw [hb, hbs], hrest⟩

/-- A note can be read off the front of the lines. -/
theorem note_append_inj {id id' : TransitionId} {rest rest' : List String}
    (h : note id ++ rest = note id' ++ rest') : id = id' ∧ rest = rest' := by
  obtain ⟨a, b⟩ := id
  obtain ⟨a', b'⟩ := id'
  simp only [note, List.cons_append, List.nil_append, List.cons.injEq, true_and, String.append_assoc,
    String.append_right_inj] at h
  obtain ⟨hlabels, -, hrest⟩ := h
  have hblank (k : StateKey) : ' ' ∉ k.shortLabel.toList := fun h => by
    simpa using StateKey.mem_shortLabel h
  obtain ⟨hsource, htarget⟩ := (append_separator_inj rfl (hblank _) (hblank _)).mp hlabels
  obtain rfl := StateKey.shortLabel_injective hsource
  obtain rfl := StateKey.shortLabel_injective ((String.append_left_inj _).mp htarget)
  exact ⟨rfl, hrest⟩

/-- A note is no beginning of the keyframes. -/
theorem note_append_ne_keyframes (id : TransitionId) (rest : List String) : note id ++ rest ≠ keyframes := by
  intro h
  have hfirst := congrArg String.toList (List.cons.inj h).1
  simp at hfirst

theorem flatMap_note_inj {ids ids' : List TransitionId}
    (h : ids.flatMap note ++ keyframes = ids'.flatMap note ++ keyframes) : ids = ids' := by
  induction ids generalizing ids' with
  | nil =>
    cases ids' with
    | nil => rfl
    | cons id' ids' =>
      rw [List.flatMap_cons, List.append_assoc] at h
      exact absurd h.symm (note_append_ne_keyframes id' _)
  | cons id ids ih =>
    cases ids' with
    | nil =>
      rw [List.flatMap_cons, List.append_assoc] at h
      exact absurd h (note_append_ne_keyframes id _)
    | cons id' ids' =>
      rw [List.flatMap_cons, List.flatMap_cons, List.append_assoc, List.append_assoc] at h
      obtain ⟨hid, htail⟩ := note_append_inj h
      rw [hid, ih htail]

theorem switchNotes_inj {ids ids' : List TransitionId}
    (h : switchNotes ids ++ keyframes = switchNotes ids' ++ keyframes) : ids = ids' := by
  -- Only the heading tells no notes from some.
  have hheading : ∀ rest, notesHeading :: rest ≠ keyframes := by
    intro rest h
    exact absurd (List.cons.inj h).1 (by decide)
  cases ids with
  | nil =>
    cases ids' with
    | nil => rfl
    | cons id' ids' => exact absurd h.symm (hheading _)
  | cons id ids =>
    cases ids' with
    | nil => exact absurd h (hheading _)
    | cons id' ids' => exact flatMap_note_inj (List.cons.inj h).2

/-- What is shown can be read back from the lines. -/
theorem sheet_inj {n n' e e' : Nat} {bs bs' : List Sighting} {ids ids' : List TransitionId}
    (h : sheet n e bs ids = sheet n' e' bs' ids') : n = n' ∧ e = e' ∧ bs = bs' ∧ ids = ids' := by
  simp only [sheet, List.append_assoc] at h
  -- The header has a fixed length, and its count tells where the bird rules end.
  obtain ⟨hheader, h⟩ := List.append_inj h rfl
  obtain ⟨hn, hlen, he⟩ := Summary.mk.inj (header_inj hheader)
  obtain ⟨hbirds, hnotes⟩ := flatMap_sightingRule_inj hlen (List.append_cancel_left h)
  exact ⟨hn, he, hbirds, switchNotes_inj hnotes⟩

/-! ### From text to lines -/

/-- A text that holds no newline. -/
def OneLine (s : String) : Prop := '\n' ∉ s.toList

instance (s : String) : Decidable (OneLine s) := inferInstanceAs (Decidable ('\n' ∉ s.toList))

theorem oneLine_literal {cs : List Char} (h : '\n' ∉ cs) : OneLine (String.ofList cs) := by
  rwa [OneLine, String.toList_ofList]

/-- A text whose characters are all of one kind. -/
def MadeOf (kind : Char → Prop) (s : String) : Prop := ∀ c ∈ s.toList, kind c

instance (kind : Char → Prop) [DecidablePred kind] (s : String) : Decidable (MadeOf kind s) :=
  List.decidableBAll kind s.toList

section kinds

variable {kind : Char → Prop}

theorem madeOf_append {s t : String} : MadeOf kind (s ++ t) ↔ MadeOf kind s ∧ MadeOf kind t := by
  simp only [MadeOf, String.toList_append, List.forall_mem_append]

/-- A closed text is settled character by character; its characters are at hand without decoding it. -/
theorem madeOf_literal {cs : List Char} (h : cs.Forall kind) : MadeOf kind (String.ofList cs) := by
  intro c hc
  rw [String.toList_ofList] at hc
  exact List.forall_iff_forall_mem.mp h c hc

theorem MadeOf.notMem {s : String} (h : MadeOf kind s) {c : Char} (hc : ¬ kind c) : c ∉ s.toList := by
  intro hmem
  exact hc (h c hmem)

theorem madeOf_banner (h : kind '═') : MadeOf kind banner := by
  have hchars : banner.toList = List.replicate 54 '═' := String.toList_ofList
  intro c hc
  obtain rfl := List.eq_of_mem_replicate (hchars ▸ hc)
  exact h

theorem madeOf_natText (hdigit : ∀ c : Char, c.isDigit → kind c) (n : Nat) : MadeOf kind (toString n) := by
  intro c hc
  exact hdigit c (isDigit_of_mem_natText hc)

theorem madeOf_fullLabel (hdigit : ∀ c : Char, c.isDigit → kind c) (hmarks : MadeOf kind "LP []ζη") (k : StateKey) :
    MadeOf kind k.fullLabel := by
  intro c hc
  rcases StateKey.mem_fullLabel hc with h | h
  · exact hdigit c h
  · exact hmarks c h

theorem madeOf_shortLabel (hdigit : ∀ c : Char, c.isDigit → kind c) (hmarks : MadeOf kind "LPζη") (k : StateKey) :
    MadeOf kind k.shortLabel := by
  intro c hc
  rcases StateKey.mem_shortLabel hc with h | h
  · exact hdigit c h
  · exact hmarks c h

end kinds

/-- The characters of a stylesheet before its keyframes that are neither letters nor digits, but for the arrow of the
notes. -/
def signs : List Char :=
  [' ', '"', '#', '(', ')', '*', ',', '-', '.', '/', ':', ';', '=', '[', ']', '_', '\x7b', '\x7d', '~', '—', '→', '×',
    '═', '⚠', 'ζ', 'η']

/-- A letter, a digit or one of these signs. -/
def Ordinary (c : Char) : Prop := c.isAlphanum ∨ c ∈ signs

instance (c : Char) : Decidable (Ordinary c) := inferInstanceAs (Decidable (c.isAlphanum ∨ c ∈ signs))

/-- A text that is made of them. -/
abbrev Lettered : String → Prop := MadeOf Ordinary

theorem Lettered.oneLine {s : String} (h : Lettered s) : OneLine s := h.notMem (by decide)

theorem ordinary_of_isDigit (c : Char) (h : c.isDigit) : Ordinary c := by
  left
  rw [Char.isAlphanum, h, Bool.or_true]

theorem lettered_natText (n : Nat) : Lettered (toString n) := madeOf_natText ordinary_of_isDigit n

theorem lettered_levelText (l : Level) : Lettered l.text := lettered_natText _

theorem lettered_positionText (p : Position) : Lettered p.text := lettered_natText _

theorem lettered_variantName (v : Variant) : Lettered v.name := by
  cases v <;> exact madeOf_literal (by decide)

theorem lettered_fullLabel (k : StateKey) : Lettered k.fullLabel :=
  madeOf_fullLabel ordinary_of_isDigit (madeOf_literal (by decide)) k

theorem lettered_shortLabel (k : StateKey) : Lettered k.shortLabel :=
  madeOf_shortLabel ordinary_of_isDigit (madeOf_literal (by decide)) k

theorem lettered_banner : Lettered banner := madeOf_banner (by decide)

-- In each block the variable parts are settled by the lemmas above, and what is left are closed texts.

theorem lettered_header (s : Summary) : ∀ x ∈ header s, Lettered x := by
  simp only [header, List.forall_mem_cons, madeOf_append, lettered_banner, lettered_natText, and_true]
  and_intros
  all_goals first | exact madeOf_literal (by decide) | exact List.forall_mem_nil _

theorem lettered_scaffolding : ∀ x ∈ scaffolding, Lettered x := by
  simp only [scaffolding, List.forall_mem_cons]
  and_intros
  all_goals first | exact madeOf_literal (by decide) | exact List.forall_mem_nil _

theorem lettered_cellRule (k : StateKey) (l : Level) (p : Position) (g : Bool) :
    ∀ x ∈ cellRule k l p g, Lettered x := by
  have hmark : Lettered (if g then "⚠ GEVAAR" else "") := by cases g <;> exact madeOf_literal (by decide)
  have hanimation : ∀ x ∈ (if g then ["  animation: bird-grab 0.3s ease-in-out;"] else []), Lettered x := by
    cases g with
    | false => exact List.forall_mem_nil _
    | true => exact List.forall_mem_singleton.mpr (madeOf_literal (by decide))
  simp only [cellRule, selector, List.forall_mem_append, List.forall_mem_cons, madeOf_append, lettered_fullLabel,
    lettered_levelText, lettered_positionText, lettered_variantName, lettered_natText, hmark, and_true]
  and_intros
  all_goals
    first
    | exact hanimation
    | exact madeOf_literal (by decide)
    | exact List.forall_mem_nil _

theorem lettered_tail_note (id : TransitionId) : ∀ x ∈ (note id).tail, Lettered x := by
  simp only [note, List.tail_cons, List.forall_mem_cons, madeOf_append, lettered_variantName, and_true]
  and_intros
  all_goals first | exact madeOf_literal (by decide) | exact List.forall_mem_nil _

/-- The first line of a note holds one character besides: the arrow. -/
theorem notMem_note {c : Char} (hc : ¬ Ordinary c) (harrow : c ≠ '⟳') (id : TransitionId) :
    ∀ x ∈ note id, c ∉ x.toList := by
  have hturn : c ∉ " ⟳ ".toList := by
    have hblank : c ≠ ' ' := by
      rintro rfl
      exact hc (by decide)
    simp [hblank, harrow]
  have hsource := (lettered_shortLabel id.source).notMem hc
  have htarget := (lettered_shortLabel id.target).notMem hc
  have hopen : Lettered "/* " := madeOf_literal (by decide)
  have hclose : Lettered " — onzichtbaar voor speler */" := madeOf_literal (by decide)
  have hfirst : c ∉ ("/* " ++ id.source.shortLabel ++ " ⟳ " ++ id.target.shortLabel ++
      " — onzichtbaar voor speler */").toList := by
    simp only [String.toList_append, List.mem_append, not_or]
    exact ⟨⟨⟨⟨hopen.notMem hc, hsource⟩, hturn⟩, htarget⟩, hclose.notMem hc⟩
  intro x hx
  rcases List.mem_cons.mp hx with rfl | hx
  · exact hfirst
  · exact (lettered_tail_note id x hx).notMem hc

theorem oneLine_note (id : TransitionId) : ∀ x ∈ note id, OneLine x := notMem_note (by decide) (by decide) id

theorem oneLine_keyframes : ∀ x ∈ keyframes, OneLine x := by
  simp only [keyframes, List.forall_mem_cons]
  and_intros
  all_goals first | exact oneLine_literal (by decide) | exact List.forall_mem_nil _

/-- Every line of a stylesheet is one line. -/
theorem oneLine_sheet (n e : Nat) (bs : List Sighting) (ids : List TransitionId) :
    ∀ x ∈ sheet n e bs ids, OneLine x := by
  intro x hx
  simp only [sheet, List.mem_append] at hx
  rcases hx with (((hx | hx) | hx) | hx) | hx
  · exact (lettered_header _ x hx).oneLine
  · exact (lettered_scaffolding x hx).oneLine
  · obtain ⟨b, _, hx⟩ := List.mem_flatMap.mp hx
    exact (lettered_cellRule _ _ _ _ x hx).oneLine
  · cases ids with
    | nil => cases hx
    | cons id ids =>
      rcases List.mem_cons.mp hx with rfl | hx
      · exact oneLine_literal (by decide)
      · obtain ⟨i, _, hx⟩ := List.mem_flatMap.mp hx
        exact oneLine_note i x hx
  · exact oneLine_keyframes x hx

theorem unlines_cons (x : String) (xs : List String) : unlines (x :: xs) = x ++ ("\n" ++ unlines xs) := by
  simp [unlines, String.join_cons, String.append_assoc]

/-- Lines can be read back from their text. -/
theorem unlines_inj {xs ys : List String} (hx : ∀ x ∈ xs, OneLine x) (hy : ∀ y ∈ ys, OneLine y)
    (h : unlines xs = unlines ys) : xs = ys := by
  have hnil (z : String) (zs : List String) : unlines [] ≠ unlines (z :: zs) := by
    intro h
    have hchars := congrArg String.toList h
    simp [unlines] at hchars
  induction xs generalizing ys with
  | nil =>
    cases ys with
    | nil => rfl
    | cons y ys => exact absurd h (hnil y ys)
  | cons x xs ih =>
    cases ys with
    | nil => exact absurd h.symm (hnil x xs)
    | cons y ys =>
      rw [unlines_cons, unlines_cons,
        append_separator_inj rfl (hx x List.mem_cons_self) (hy y List.mem_cons_self)] at h
      rw [h.1, ih (fun z hz => hx z (List.mem_cons_of_mem _ hz)) (fun z hz => hy z (List.mem_cons_of_mem _ hz)) h.2]

end Stylesheet

/-! ### The text shows the visible content -/

/-- **The stylesheet carries the visible content and nothing else.** Two reachable models have the same text exactly if
they agree on the number of states, the number of edges, the visible birds in the order of the registry, and the variant
switches in the order of their insertion. -/
theorem Model.stylesheet_eq_iff {m m' : Model} (h : m.Reachable) (h' : m'.Reachable) :
    m.stylesheet = m'.stylesheet ↔
      m.states.size = m'.states.size ∧ m.transitions.size = m'.transitions.size ∧
        m.states.sightings = m'.states.sightings ∧ m.transitions.switches = m'.transitions.switches := by
  simp only [stylesheet, Stylesheet.compile, Stylesheet.lines_eq_sheet h.legal, Stylesheet.lines_eq_sheet h'.legal]
  constructor
  · intro htext
    have hlines := Stylesheet.unlines_inj (Stylesheet.oneLine_sheet _ _ _ _) (Stylesheet.oneLine_sheet _ _ _ _) htext
    exact Stylesheet.sheet_inj hlines
  · rintro ⟨hstates, hedges, hbirds, hswitches⟩
    rw [hstates, hedges, hbirds, hswitches]

/-- A document with one bird on the cell of level 1 and position 14. -/
def Document.oneBird (mode : BirdMode) : Document where
  birds := [{ state := "L2P15", level := some 1, position := some 14, mode := some mode }]

/-- An attacking bird is drawn like a flying one. -/
theorem Model.stylesheet_attacking :
    ((Document.oneBird .attacking).apply Model.initial).1 ≠ ((Document.oneBird .flying).apply Model.initial).1 ∧
      ((Document.oneBird .attacking).apply Model.initial).1.stylesheet =
        ((Document.oneBird .flying).apply Model.initial).1.stylesheet :=
  ⟨by decide +kernel, (stylesheet_eq_iff (.apply .initial _) (.apply .initial _)).mpr (by decide +kernel)⟩

end BirdBoard
