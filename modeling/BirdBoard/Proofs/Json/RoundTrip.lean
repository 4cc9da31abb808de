import BirdBoard.Document.Json
import BirdBoard.Proofs.Json.Members
import BirdBoard.Proofs.Json.Written

/-! # Documents survive their JSON text

  A document that is written as compact JSON and read again is the same document, whatever it holds.

  - A decoder inverts an encoder if it gives back every value from the tree of its JSON (`Decoder.Inverts`). Bytes,
    texts, names and lists come back by themselves.
  - `Collects` says that the members of an object stand in the order of the fields and some fields are left out. Such
    members fill the draft of a record whose fields have distinct names (`Record.decoder_of_collects`), and a member
    that is left out is one that the draft has already.
  - Every kind of entry, and the document itself, is such a record, and reading the text adds nothing
    (`Decoder.Inverts.ofText`).
-/

namespace BirdBoard

namespace Json

variable {α σ : Type}

/-! ### Single values and lists -/

/-- Whether a decoder gives back every value from the tree of its JSON. -/
def Decoder.Inverts (d : Decoder α) (json : α → Value) : Prop := ∀ a, d (json a).node = .ok a

namespace Decoder

theorem byte_inverts : byte.Inverts fun b => .nat b.toNat := fun b => by
  have hlt : b.toNat < 256 := b.toNat_lt
  have hword : b.toNat < wordSize := Nat.lt_trans hlt (by decide)
  have hbyte : 0 ≤ (b.toNat : Int) ∧ (b.toNat : Int) < 256 := by omega
  simp only [Value.node, byte, Literal.number?_ofNat hword, if_pos hbyte, Int.toNat_natCast, UInt8.ofNat_toNat]

theorem text_inverts : text.Inverts Value.string := fun _ => rfl

theorem flag_inverts : flag.Inverts Value.bool := fun _ => rfl

/-- A list is read item by item. -/
theorem list_inverts {d : Decoder α} {json : α → Value} (hd : d.Inverts json) :
    (list d).Inverts fun as => .array (as.map json) := fun as => by
  have hitems : items d (Value.nodes (as.map json)) = .ok as := by
    induction as with
    | nil => rfl
    | cons a as ih => simp only [List.map_cons, Value.nodes, items, hd a, ih]; rfl
  simp only [Value.node, list, hitems, if_true]

end Decoder

/-! ### Records -/

/-- Members that are given for some of the fields, in the order of the fields, and turn one draft into another. -/
inductive Collects : List (Field σ) → σ → List (String × Value) → σ → Prop
  | done {s : σ} : Collects [] s [] s
  | given {f : Field σ} {fs : List (Field σ)} {s t u : σ} {v : Value} {ms : List (String × Value)}
      (hstore : f.store v.node s = .ok t) (h : Collects fs t ms u) : Collects (f :: fs) s ((f.name, v) :: ms) u
  | leftOut {f : Field σ} {fs : List (Field σ)} {s t : σ} {ms : List (String × Value)} (h : Collects fs s ms t) :
      Collects (f :: fs) s ms t

/-- Members in the order of the fields fill the draft. -/
theorem Collects.fills {fields fs : List (Field σ)} {s t : σ} {ms : List (String × Value)} (h : Collects fs s ms t)
    (hsub : fs ⊆ fields) : Fills fields s (Value.memberNodes ms) t := by
  induction h with
  | done => exact .done
  | given hstore _ ih =>
    obtain ⟨hf, hsub⟩ := List.cons_subset.mp hsub
    exact .member hf hstore (ih hsub)
  | leftOut _ ih => exact ih (List.cons_subset.mp hsub).2

/-- The names of the members are names of the fields, in their order. -/
theorem Collects.sublist {fs : List (Field σ)} {s t : σ} {ms : List (String × Value)} (h : Collects fs s ms t) :
    ((Value.memberNodes ms).map Prod.fst).Sublist (fs.map fun f => some f.name) := by
  induction h with
  | done => exact .slnil
  | given _ _ ih => exact ih.cons_cons _
  | leftOut _ ih => exact ih.cons _

/-- A record reads an object that gives some of its fields in order. -/
theorem Record.decoder_of_collects (r : Record σ α) (hnames : (r.fields.map Field.name).Nodup) {s : σ}
    {ms : List (String × Value)} (h : Collects r.fields r.start ms s) :
    r.decoder (Value.object ms).node = r.finish s := by
  have hfields : (r.fields.map fun f => some f.name).Nodup := by
    have h := hnames.map fun _ _ => Option.some.inj
    rwa [List.map_map] at h
  have hnodup := hfields.sublist h.sublist
  obtain ⟨_, -, hread⟩ := readMembers_start hnames (h.fills (List.Subset.refl _)) hnodup
  have hread : r.readMembers [] r.start (Value.memberNodes ms) = .ok s := by simpa [readMembers] using hread []
  simp only [Value.node, decoder, hread, if_true]

namespace Collects

variable {fs : List (Field σ)} {s t : σ} {ms : List (String × Value)} {name : String} {needed : Bool}
  {d : Decoder α} {json : α → Value}

/-- A member that is always given. -/
theorem member {set : α → σ → σ} (hd : d.Inverts json) (a : α) (h : Collects fs (set a s) ms t) :
    Collects (.of name needed d set :: fs) s ((name, json a) :: ms) t :=
  .given (by simp only [Field.of, hd a]; rfl) h

/-- A member that is left out when there is nothing to give. The draft says so already. -/
theorem ifGiven {set : Option α → σ → σ} (hd : d.Inverts json) (hjson : ∀ a, (json a).node ≠ .null) (o : Option α)
    (hs : set none s = s) (h : Collects fs (set o s) ms t) :
    Collects (.of name needed (Decoder.optional d) set :: fs) s (memberIfGiven name json o ++ ms) t := by
  cases o with
  | none => exact .leftOut (hs ▸ h)
  | some a =>
    have hread : Decoder.optional d (json a).node = .ok (some a) := by
      rw [Decoder.optional, hd a]
      · rfl
      · exact hjson a
    exact .given (by simp only [Field.of, hread]; rfl) h

/-- A flag that is left out unless it is raised. The draft says so already. -/
theorem ifRaised {set : Bool → σ → σ} (b : Bool) (hs : set false s = s) (h : Collects fs (set b s) ms t) :
    Collects (.of name needed Decoder.flag set :: fs) s ((if b then [(name, .bool true)] else []) ++ ms) t := by
  cases b with
  | false => exact .leftOut (hs ▸ h)
  | true => exact .member Decoder.flag_inverts true h

end Collects

/-! ### Texts -/

/-- A text that is written from a value is read to its end. -/
theorem Decoder.Inverts.ofText {d : Decoder α} {json : α → Value} (hd : d.Inverts json) (a : α) :
    d.ofText (json a).text = .ok a := by
  rw [d.ofText_of_text (Grammar.text_compact _), hd a]

end Json

open Json

/-! ### Names -/

theorem Variant.decoder_inverts : Variant.decoder.Inverts Variant.json := fun v => by
  cases v <;> rfl

theorem BirdMode.decoder_inverts : BirdMode.decoder.Inverts BirdMode.json := fun m => by
  cases m <;> rfl

/-! ### Entries -/

theorem StateEntry.decoder_inverts : StateEntry.decoder.Inverts StateEntry.json := fun e =>
  StateEntry.record.decoder_of_collects (by decide) <|
    .member Decoder.byte_inverts e.level <| .member Decoder.byte_inverts e.position <|
      .member Variant.decoder_inverts e.variant .done

theorem EndpointPair.decoder_inverts : EndpointPair.decoder.Inverts EndpointPair.json := fun e =>
  EndpointPair.record.decoder_of_collects (by decide) <|
    .member Decoder.text_inverts e.source <| .member Decoder.text_inverts e.target .done

theorem TransitionEntry.decoder_inverts : TransitionEntry.decoder.Inverts TransitionEntry.json := fun e => by
  have hjson : e.json = .object
      (("from", .string e.source) :: ("to", .string e.target) :: (memberIfGiven "label" .string e.label ++ [])) := by
    simp [TransitionEntry.json]
  rw [hjson]
  exact TransitionEntry.record.decoder_of_collects (by decide) <|
    .member Decoder.text_inverts e.source <| .member Decoder.text_inverts e.target <|
      .ifGiven Decoder.text_inverts (fun _ => nofun) e.label rfl .done

/-- The members of a bird entry that are left out are a flag that is not raised and values that are not given. -/
theorem BirdEntry.decoder_inverts : BirdEntry.decoder.Inverts BirdEntry.json := fun e => by
  have hjson : e.json = .object
      (("state", .string e.state) :: ((if e.clear then [("clear", .bool true)] else []) ++
        (memberIfGiven "level" byteJson e.level ++ (memberIfGiven "position" byteJson e.position ++
          (memberIfGiven "mode" BirdMode.json e.mode ++ []))))) := by
    simp [BirdEntry.json]
  rw [hjson]
  exact BirdEntry.record.decoder_of_collects (by decide) <|
    .member Decoder.text_inverts e.state <| .ifRaised e.clear rfl <|
      .ifGiven Decoder.byte_inverts (fun _ => nofun) e.level rfl <|
        .ifGiven Decoder.byte_inverts (fun _ => nofun) e.position rfl <|
          .ifGiven BirdMode.decoder_inverts (fun _ => nofun) e.mode rfl .done

/-! ### Documents -/

namespace Document

theorem decoder_inverts : decoder.Inverts json := fun d =>
  record.decoder_of_collects (by decide) <|
    .member (Decoder.list_inverts Variant.decoder_inverts) d.variants <|
      .member (Decoder.list_inverts StateEntry.decoder_inverts) d.states <|
        .member (Decoder.list_inverts BirdEntry.decoder_inverts) d.birds <|
          .member (Decoder.list_inverts TransitionEntry.decoder_inverts) d.transitions <|
            .member (Decoder.list_inverts EndpointPair.decoder_inverts) d.removeTransitions <|
              .member (Decoder.list_inverts Decoder.text_inverts) d.removeStates .done

/-- A document that is written as compact JSON and read again is the same document. -/
theorem ofText_text (d : Document) : ofText d.text = .ok d := decoder_inverts.ofText d

/-- The bytes of a text are read as the text is. -/
theorem ofBytes_toUTF8 (s : String) : ofBytes s.toUTF8 = ofText s := by
  have hvalid : String.fromUTF8? s.toUTF8 = some s := by
    simp only [String.fromUTF8?, Option.dite_none_right_eq_some, Option.some.injEq]
    exact ⟨s.isValidUTF8, rfl⟩
  rw [ofBytes, hvalid]

end Document

end BirdBoard
