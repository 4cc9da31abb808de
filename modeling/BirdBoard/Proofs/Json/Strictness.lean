import Mathlib.Logic.Relation
import BirdBoard.Document.Json
import BirdBoard.Proofs.Json.Members
import BirdBoard.Proofs.Json.Written

/-! # Documents are strict about keys and blind to their order

  What the text of a document may say in another way without being another document, and what it may not say at all.

  - `Shape` lists the five kinds of objects with their members: which are required, and which may be left out with which
    default. The records of the entries are these kinds (`Shape.record`), and all of them are tidy.
  - `Replaced` changes the members of one object, of the document itself or of an entry of a section. What that does to
    the object is what it does to the whole document (`Replaced.read_ok`, `Replaced.read_error`).
  - `Document.ofText_strict`: members may stand in any order, and defaults may be given or left out. An unknown member,
    a second one and a lack of a required one are errors.
-/

namespace BirdBoard

open Json

/-! ### The kinds of objects -/

/-- The kinds of objects in the text of a document. -/
inductive Shape where
  | document
  | state
  | bird
  | transition
  | removal
  deriving DecidableEq, Repr

namespace Shape

/-- The members that an object cannot do without. -/
def required : Shape → List String
  | document => []
  | state => ["level", "position", "variant"]
  | bird => ["state"]
  | transition => ["from", "to"]
  | removal => ["from", "to"]

/-- The members that an object can do without, each with the value that it has then. -/
def optional : Shape → List (String × Node)
  | document => ["variants", "states", "birds", "transitions", "remove_transitions", "remove_states"].map
      fun name => (name, .array [] true)
  | state => []
  | bird => [("clear", .bool false), ("level", .null), ("position", .null), ("mode", .null)]
  | transition => [("label", .null)]
  | removal => []

/-- The names of all members of an object. -/
def declared (k : Shape) : List String := k.required ++ k.optional.map Prod.fst

/-- The sections of a document that hold objects. -/
def sections : List (String × Shape) :=
  [("states", state), ("birds", bird), ("transitions", transition), ("remove_transitions", removal)]

/-- What is collected of an object. -/
abbrev Draft : Shape → Type
  | document => Document
  | state => StateEntry.Draft
  | bird => BirdEntry.Draft
  | transition => TransitionEntry.Draft
  | removal => EndpointPair.Draft

/-- What an object stands for. -/
abbrev Entry : Shape → Type
  | document => Document
  | state => StateEntry
  | bird => BirdEntry
  | transition => TransitionEntry
  | removal => EndpointPair

/-- How an object is read. -/
def record : (k : Shape) → Record k.Draft k.Entry
  | document => Document.record
  | state => StateEntry.record
  | bird => BirdEntry.record
  | transition => TransitionEntry.record
  | removal => EndpointPair.record

/-- An object has the fields that are declared, in that order. -/
theorem fields_names (k : Shape) : k.record.fields.map Field.name = k.declared := by
  cases k <;> rfl

/-- No two fields of a record are stored in the same place. -/
theorem record_tidy (k : Shape) : k.record.Tidy where
  strict := by cases k <;> rfl
  names := by
    rw [fields_names]
    cases k <;> decide
  commute := by
    cases k <;>
      simp only [record, Document.record, StateEntry.record, BirdEntry.record, TransitionEntry.record,
        EndpointPair.record, List.pairwise_cons, List.forall_mem_cons, List.not_mem_nil, false_implies, implies_true,
        List.Pairwise.nil, and_true]
    all_goals
      and_intros
      all_goals exact Field.of_commutes fun _ _ _ => rfl

/-- A member that may be left out says what the draft says at the beginning. -/
theorem exists_default {k : Shape} {name : String} {v : Node} (h : (name, v) ∈ k.optional) :
    ∃ f ∈ k.record.fields, f.name = name ∧ f.store v k.record.start = .ok k.record.start := by
  cases k with
  | document =>
    obtain ⟨name, hname, heq⟩ := List.mem_map.mp h
    cases heq
    have hfields : ∀ f ∈ Document.record.fields, f.store (.array [] true) {} = .ok {} := by
      simp only [Document.record, List.forall_mem_cons, List.not_mem_nil, false_implies, implies_true, and_true]
      and_intros
      all_goals rfl
    have hnames : name ∈ Document.record.fields.map Field.name := hname
    obtain ⟨f, hf, rfl⟩ := List.mem_map.mp hnames
    exact ⟨f, hf, rfl, hfields f hf⟩
  | state => exact absurd h List.not_mem_nil
  | bird =>
    simp only [optional, List.mem_cons, Prod.mk.injEq, List.not_mem_nil, or_false] at h
    rcases h with ⟨rfl, rfl⟩ | ⟨rfl, rfl⟩ | ⟨rfl, rfl⟩ | ⟨rfl, rfl⟩
    · exact ⟨_, .tail _ (.head _), rfl, rfl⟩
    · exact ⟨_, .tail _ (.tail _ (.head _)), rfl, rfl⟩
    · exact ⟨_, .tail _ (.tail _ (.tail _ (.head _))), rfl, rfl⟩
    · exact ⟨_, .tail _ (.tail _ (.tail _ (.tail _ (.head _)))), rfl, rfl⟩
  | transition =>
    obtain ⟨rfl, rfl⟩ := Prod.mk.inj (List.mem_singleton.mp h)
    exact ⟨_, .tail _ (.tail _ (.head _)), rfl, rfl⟩
  | removal => exact absurd h List.not_mem_nil

/-- Whether a draft has a required member. -/
def given : (k : Shape) → String → k.Draft → Bool
  | state, "level", s => s.level.isSome
  | state, "position", s => s.position.isSome
  | state, "variant", s => s.variant.isSome
  | bird, "state", s => s.state.isSome
  | transition, "from", s => s.source.isSome
  | transition, "to", s => s.target.isSome
  | removal, "from", s => s.source.isSome
  | removal, "to", s => s.target.isSome
  | _, _, _ => false

/-- The required members are those without which a draft is not complete. -/
theorem record_requires (k : Shape) : k.record.Requires k.required k.given where
  start := by cases k <;> decide
  keeps := by
    cases k <;>
      simp [required, record, Document.record, StateEntry.record, BirdEntry.record, TransitionEntry.record,
        EndpointPair.record]
    all_goals
      and_intros
      all_goals exact Field.of_keeps fun _ _ => rfl
  complete := by
    intro s a h
    cases k with
    | document => simp [required]
    | state =>
      obtain ⟨_ | l, _ | p, _ | v⟩ := s
      all_goals first | (cases h; done) | simp [required, given]
    | bird =>
      obtain ⟨_ | l, _, _, _, _⟩ := s
      · cases h
      · simp [required, given]
    | transition =>
      obtain ⟨_ | l, _ | p, _⟩ := s
      all_goals first | (cases h; done) | simp [required, given]
    | removal =>
      obtain ⟨_ | l, _ | p⟩ := s
      all_goals first | (cases h; done) | simp [required, given]
  missing := by
    intro s
    cases k with
    | document => simp [required]
    | state =>
      obtain ⟨_ | l, _ | p, _ | v⟩ := s
      all_goals simp [required, given]
      all_goals rfl
    | bird =>
      obtain ⟨_ | l, _, _, _, _⟩ := s
      all_goals simp [required, given]
      rfl
    | transition =>
      obtain ⟨_ | l, _ | p, _⟩ := s
      all_goals simp [required, given]
      all_goals rfl
    | removal =>
      obtain ⟨_ | l, _ | p⟩ := s
      all_goals simp [required, given]
      all_goals rfl

/-- No field of an entry looks at the order of members in its value. -/
theorem entry_blind {k : Shape} (hk : k ≠ document) : k.record.decoder.Blind := by
  refine Record.decoder_blind k.record_tidy ?_
  cases k with
  | document => exact absurd rfl hk
  | _ =>
    simp only [record, StateEntry.record, BirdEntry.record, TransitionEntry.record, EndpointPair.record,
      List.forall_mem_cons, List.not_mem_nil, false_implies, implies_true, and_true]
    and_intros
    all_goals
      first
      | exact Field.of_blind Decoder.byte_blind
      | exact Field.of_blind Decoder.text_blind
      | exact Field.of_blind Decoder.flag_blind
      | exact Field.of_blind (Decoder.choice_blind _)
      | exact Field.of_blind (Decoder.optional_blind Decoder.byte_blind)
      | exact Field.of_blind (Decoder.optional_blind Decoder.text_blind)
      | exact Field.of_blind (Decoder.optional_blind (Decoder.choice_blind _))

end Shape

namespace Document

/-- A document is read whatever the order of members in it is. -/
theorem decoder_blind : decoder.Blind := by
  refine Record.decoder_blind (Shape.record_tidy .document) ?_
  simp only [record, List.forall_mem_cons, List.not_mem_nil, false_implies, implies_true, and_true]
  refine ⟨?_, ?_, ?_, ?_, ?_, ?_⟩
  · exact Field.of_blind (Decoder.list_blind (Decoder.choice_blind _))
  · exact Field.of_blind (Decoder.list_blind (Shape.entry_blind (k := .state) (by decide)))
  · exact Field.of_blind (Decoder.list_blind (Shape.entry_blind (k := .bird) (by decide)))
  · exact Field.of_blind (Decoder.list_blind (Shape.entry_blind (k := .transition) (by decide)))
  · exact Field.of_blind (Decoder.list_blind (Shape.entry_blind (k := .removal) (by decide)))
  · exact Field.of_blind (Decoder.list_blind Decoder.text_blind)

/-! ### One object in a document -/

/-- Two trees of documents that differ in the members of one object: of the document itself, or of an entry of a
section. -/
inductive Replaced : Shape → List (Option String × Node) → List (Option String × Node) → Node → Node → Prop
  | top {ms ms' : List (Option String × Node)} : Replaced .document ms ms' (.object ms true) (.object ms' true)
  | entry {k : Shape} {name : String} {ms ms' before after : List (Option String × Node)}
      {entriesBefore entriesAfter : List Node} (hsection : (name, k) ∈ Shape.sections) :
      Replaced k ms ms'
        (.object (before ++ (some name, .array (entriesBefore ++ .object ms true :: entriesAfter) true) :: after) true)
        (.object (before ++ (some name, .array (entriesBefore ++ .object ms' true :: entriesAfter) true) :: after) true)

/-- A section is a field of the document, and its entries are of the kind of the section. -/
theorem exists_section {name : String} {k : Shape} (h : (name, k) ∈ Shape.sections) :
    ∃ set : List k.Entry → Document → Document,
      Field.of name false (Decoder.list k.record.decoder) set ∈ record.fields := by
  simp only [Shape.sections, List.mem_cons, Prod.mk.injEq, List.not_mem_nil, or_false] at h
  rcases h with ⟨rfl, rfl⟩ | ⟨rfl, rfl⟩ | ⟨rfl, rfl⟩ | ⟨rfl, rfl⟩
  · exact ⟨_, .tail _ (.head _)⟩
  · exact ⟨_, .tail _ (.tail _ (.head _))⟩
  · exact ⟨_, .tail _ (.tail _ (.tail _ (.head _)))⟩
  · exact ⟨_, .tail _ (.tail _ (.tail _ (.tail _ (.head _))))⟩

variable {k : Shape} {ms ms' : List (Option String × Node)} {n n' : Node} {d : Document}

/-- A document is read as before if the object is. -/
theorem Replaced.read_ok (h : Replaced k ms ms' n n')
    (hobject : ∀ a, k.record.decoder (.object ms true) = .ok a → k.record.decoder (.object ms' true) = .ok a)
    (hread : decoder n = .ok d) : decoder n' = .ok d := by
  cases h with
  | top => exact hobject d hread
  | @entry _ name _ _ _ _ _ _ hsection =>
    obtain ⟨set, hfield⟩ := exists_section hsection
    refine Record.decoder_member_ok (Shape.record_tidy .document) ?_ hread
    intro g hg hname s t hstore
    obtain rfl : g = Field.of name false (Decoder.list k.record.decoder) set :=
      List.inj_on_of_nodup_map (Shape.record_tidy .document).names hg hfield (Option.some.inj hname)
    obtain ⟨as, has, rfl⟩ := Field.store_of_eq_ok_iff.mp hstore
    exact Field.store_of_eq_ok_iff.mpr ⟨as, Decoder.list_item_ok hobject has, rfl⟩

/-- A document is refused if the object is, for the same reason. -/
theorem Replaced.read_error {e : ReadError} (h : Replaced k ms ms' n n')
    (hobject : ∀ a, k.record.decoder (.object ms true) = .ok a → k.record.decoder (.object ms' true) = .error e)
    (hread : decoder n = .ok d) : decoder n' = .error e := by
  cases h with
  | top => exact hobject d hread
  | entry hsection =>
    obtain ⟨set, hfield⟩ := exists_section hsection
    refine Record.decoder_member_error (Shape.record_tidy .document) hfield ?_ hread
    intro s t hstore
    obtain ⟨as, has, -⟩ := Field.store_of_eq_ok_iff.mp hstore
    exact Field.store_of_error (Decoder.list_item_error hobject has) s

/-! ### Other texts of a document -/

/-- Two trees of documents that say the same: the members of an object stand in another order, at any depth, or one
object leaves out, or gives, a member with its default. -/
inductive Restyled : Node → Node → Prop
  | reordered {n n' : Node} (h : n.Reordered n') : Restyled n n'
  | leftOut {k : Shape} {name : String} {v n n' : Node} {before after : List (Option String × Node)}
      (hdefault : (name, v) ∈ k.optional) (h : Replaced k (before ++ (some name, v) :: after) (before ++ after) n n') :
      Restyled n n'
  | writtenOut {k : Shape} {name : String} {v n n' : Node} {before after : List (Option String × Node)}
      (hdefault : (name, v) ∈ k.optional) (hfresh : some name ∉ (before ++ after).map Prod.fst)
      (h : Replaced k (before ++ after) (before ++ (some name, v) :: after) n n') : Restyled n n'

theorem Restyled.read_ok (h : Restyled n n') (hread : decoder n = .ok d) : decoder n' = .ok d := by
  cases h with
  | reordered h => exact decoder_blind n n' d h hread
  | @leftOut k _ _ _ _ _ _ hdefault h =>
    refine h.read_ok ?_ hread
    intro a ha
    obtain ⟨f, hf, rfl, hstart⟩ := Shape.exists_default hdefault
    exact ((Record.decoder_default k.record_tidy hf hstart).mp ha).1
  | @writtenOut k _ _ _ _ _ _ hdefault hfresh h =>
    refine h.read_ok ?_ hread
    intro a ha
    obtain ⟨f, hf, rfl, hstart⟩ := Shape.exists_default hdefault
    exact (Record.decoder_default k.record_tidy hf hstart).mpr ⟨ha, hfresh⟩

/-- Any number of changes of style. -/
theorem read_ok_of_restyled (h : Relation.ReflTransGen Restyled n n') (hread : decoder n = .ok d) :
    decoder n' = .ok d := by
  induction h with
  | refl => exact hread
  | tail _ hstep ih => exact hstep.read_ok ih

/-- The error of a member that is not declared. A name that is no text is no JSON text either. -/
def undeclaredError (k : Shape) : Option String → ReadError
  | some key => .data (.unknownField key k.declared)
  | none => .malformed

theorem read_undeclared {before after : List (Option String × Node)} {key : Option String} {v : Node}
    (h : Replaced k (before ++ after) (before ++ (key, v) :: after) n n') (hkey : ∀ name ∈ k.declared, key ≠ some name)
    (hread : decoder n = .ok d) : decoder n' = .error (undeclaredError k key) := by
  refine h.read_error ?_ hread
  intro a ha
  cases key with
  | none => exact Record.decoder_nameless k.record_tidy ha
  | some key =>
    have hunknown : key ∉ k.record.fields.map Field.name := by
      rw [k.fields_names]
      intro hmem
      exact hkey key hmem rfl
    rw [undeclaredError, ← k.fields_names]
    exact Record.decoder_unknown k.record_tidy ha hunknown

theorem read_repeated {before after : List (Option String × Node)} {key : Option String} {v : Node}
    (h : Replaced k (before ++ after) (before ++ (key, v) :: after) n n')
    (hkey : key ∈ (before ++ after).map Prod.fst) (hread : decoder n = .ok d) : ∃ e, decoder n' = .error e := by
  obtain ⟨e, he⟩ := Record.decoder_repeated (v := v) k.record_tidy hkey
  exact ⟨e, h.read_error (fun _ _ => he) hread⟩

theorem read_missing {before after : List (Option String × Node)} {name : String} {v : Node}
    (h : Replaced k (before ++ (some name, v) :: after) (before ++ after) n n') (hname : name ∈ k.required)
    (hread : decoder n = .ok d) : decoder n' = .error (.data (.missingField name)) := by
  refine h.read_error ?_ hread
  intro a ha
  exact Record.decoder_missing k.record_tidy k.record_requires hname ha

/-- A text that is read as a document is JSON of some tree `n`. Any text whose tree says the same in another style is
read as the same document. A text with one more member in one of the objects is refused if the member is not declared
or was there before, and so is a text that lacks a required member of one of the objects. -/
theorem ofText_strict {s : String} {d : Document} (h : ofText s = .ok d) :
    ∃ n, Grammar.Text s n ∧ ∀ s' n', Grammar.Text s' n' →
      (Relation.ReflTransGen Restyled n n' → ofText s' = .ok d) ∧
      (∀ k before after key v, Replaced k (before ++ after) (before ++ (key, v) :: after) n n' →
        ((∀ name ∈ k.declared, key ≠ some name) → ofText s' = .error (undeclaredError k key)) ∧
        (key ∈ (before ++ after).map Prod.fst → ∃ e, ofText s' = .error e)) ∧
      (∀ k before after name v, name ∈ k.required →
        Replaced k (before ++ (some name, v) :: after) (before ++ after) n n' →
        ofText s' = .error (.data (.missingField name))) := by
  obtain ⟨n, htext, hread⟩ := decoder.ofText_eq_ok_iff.mp h
  refine ⟨n, htext, ?_⟩
  intro s' n' htext'
  have heq : ofText s' = decoder n' := decoder.ofText_of_text htext'
  rw [heq]
  refine ⟨?_, ?_, ?_⟩
  · intro hstyle
    exact read_ok_of_restyled hstyle hread
  · intro k before after key v hmore
    refine ⟨?_, ?_⟩
    · intro hkey
      exact read_undeclared hmore hkey hread
    · intro hkey
      exact read_repeated hmore hkey hread
  · intro k before after name v hname hless
    exact read_missing hless hname hread

/-- A document with one entry in its section of birds. -/
def birdSection (members : List (String × Value)) : Value := .object [("birds", .array [.object members])]

/-- A misspelt member of a bird is no member that is left out. -/
theorem ofText_strict_misspelt :
    ofText (birdSection [("state", .string "L0P13")]).text = .ok { birds := [{ state := "L0P13" }] } ∧
    ofText (birdSection [("state", .string "L0P13"), ("klear", .bool true)]).text =
      .error (.data (.unknownField "klear" ["state", "clear", "level", "position", "mode"])) := by
  have hread : ofText (birdSection [("state", .string "L0P13")]).text = .ok { birds := [{ state := "L0P13" }] } :=
    decoder.ofText_eq_ok_iff.mpr ⟨_, Grammar.text_compact _, rfl⟩
  obtain ⟨n, htext, hstrict⟩ := ofText_strict hread
  obtain rfl := htext.unique (Grammar.text_compact _)
  have hmore : Replaced .bird ([(some "state", .string (some "L0P13"))] ++ [])
      ([(some "state", .string (some "L0P13"))] ++ (some "klear", .bool true) :: [])
      (birdSection [("state", .string "L0P13")]).node
      (birdSection [("state", .string "L0P13"), ("klear", .bool true)]).node :=
    @Replaced.entry .bird "birds" _ _ [] [] [] [] (.tail _ (.head _))
  have hmisspelt := (hstrict _ _ (Grammar.text_compact _)).2.1 _ _ _ _ _ hmore
  exact ⟨hread, hmisspelt.1 (by decide)⟩

end Document

end BirdBoard
