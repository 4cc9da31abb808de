import Mathlib.Data.List.TakeWhile
import BirdBoard.Json.Decoder

/-! # The grammar of JSON

  JSON as a grammar, and the scanners of strings and numbers against it.

  - Each part of the grammar relates a text to the text that stands behind the part: `Value cs n rest` says that `cs`
    begins with a value of the tree `n` and goes on with `rest`. `Text s n` says that the whole of `s` is one value
    with blanks around it.
  - The scan of a string is its grammar (`scanString_eq_some_iff`).
  - A number is scanned as far as it goes, so it needs to know what follows it (`scan_complete`, `Literal.Ends`), and
    nothing else is scanned as a number (`scan_sound`).
-/

namespace BirdBoard.Json

/-- Whether a text does not go on with a number that ends where it begins. -/
def Literal.Ends (rest : List Char) : Prop := ∀ c ∈ rest.head?, c.isDigit = false ∧ c ≠ '.' ∧ c ≠ 'e' ∧ c ≠ 'E'

namespace Grammar

/-! ### Blanks, strings and numbers -/

/-- The text behind some of the blanks at the front. -/
inductive Blanks : List Char → List Char → Prop where
  | done {cs : List Char} : Blanks cs cs
  | more {c : Char} {cs rest : List Char} (hc : isSpace c) (h : Blanks cs rest) : Blanks (c :: cs) rest

/-- The pieces of a string up to its closing quote. -/
inductive Pieces : List Char → List Piece → List Char → Prop where
  /-- The closing quote. -/
  | close {rest : List Char} : Pieces ('"' :: rest) [] rest
  /-- A character that stands for itself: no control character, no quote and no backslash. -/
  | raw {c : Char} {cs rest : List Char} {ps : List Piece} (hcontrol : 0x20 ≤ c.toNat) (hquote : c ≠ '"')
      (hescape : c ≠ '\\') (h : Pieces cs ps rest) : Pieces (c :: cs) (.char c :: ps) rest
  /-- A backslash and a letter. -/
  | short {e c : Char} {cs rest : List Char} {ps : List Piece} (he : escaped? e = some c) (h : Pieces cs ps rest) :
      Pieces ('\\' :: e :: cs) (.char c :: ps) rest
  /-- A backslash, the letter u and four hexadecimal digits. -/
  | unit {a b c d : Char} {u : Nat} {cs rest : List Char} {ps : List Piece} (hu : hexUnit? a b c d = some u)
      (h : Pieces cs ps rest) : Pieces ('\\' :: 'u' :: a :: b :: c :: d :: cs) (.unit u :: ps) rest

/-- A string, with its text unless it holds an unpaired surrogate. -/
inductive Str : List Char → Option String → List Char → Prop where
  | quoted {cs rest : List Char} {ps : List Piece} (h : Pieces cs ps rest) :
      Str ('"' :: cs) ((joinPieces ps).map String.ofList) rest

/-- One digit or more. -/
def Digits (ds : List Char) : Prop := ds ≠ [] ∧ ∀ d ∈ ds, d.isDigit

/-- The point of a number and the digits behind it, if they are there. -/
inductive Fraction : List Char → Option (List Char) → List Char → Prop where
  | none {rest : List Char} : Fraction rest none rest
  | some {ds rest : List Char} (h : Digits ds) : Fraction ('.' :: (ds ++ rest)) (some ds) rest

/-- The sign of an exponent, if it is there. -/
inductive Sign : List Char → Bool → List Char → Prop where
  | none {rest : List Char} : Sign rest false rest
  | plus {rest : List Char} : Sign ('+' :: rest) false rest
  | minus {rest : List Char} : Sign ('-' :: rest) true rest

/-- The exponent of a number, if it is there. -/
inductive Exponent : List Char → Option (Bool × List Char) → List Char → Prop where
  | none {rest : List Char} : Exponent rest none rest
  | some {e : Char} {cs ds rest : List Char} {negative : Bool} (he : e = 'e' ∨ e = 'E')
      (hsign : Sign cs negative (ds ++ rest)) (h : Digits ds) : Exponent (e :: cs) (some (negative, ds)) rest

/-- A number without its sign. A zero at the front stands alone. -/
inductive Unsigned : List Char → Bool → Literal → List Char → Prop where
  | mk {negative : Bool} {whole cs₁ cs₂ rest : List Char} {fraction : Option (List Char)}
      {exponent : Option (Bool × List Char)} (hwhole : Digits whole) (hzero : whole.head? = some '0' → whole = ['0'])
      (hfraction : Fraction cs₁ fraction cs₂) (hexponent : Exponent cs₂ exponent rest) :
      Unsigned (whole ++ cs₁) negative { negative, whole, fraction, exponent } rest

/-- A number. -/
inductive Number : List Char → Literal → List Char → Prop where
  | positive {cs rest : List Char} {l : Literal} (h : Unsigned cs false l rest) : Number cs l rest
  | negative {cs rest : List Char} {l : Literal} (h : Unsigned cs true l rest) : Number ('-' :: cs) l rest

/-! ### Values -/

mutual

/-- A value. -/
inductive Value : List Char → Node → List Char → Prop where
  | null {rest : List Char} : Value ('n' :: 'u' :: 'l' :: 'l' :: rest) .null rest
  | isTrue {rest : List Char} : Value ('t' :: 'r' :: 'u' :: 'e' :: rest) (.bool true) rest
  | isFalse {rest : List Char} : Value ('f' :: 'a' :: 'l' :: 's' :: 'e' :: rest) (.bool false) rest
  | number {cs rest : List Char} {l : Literal} (h : Number cs l rest) : Value cs (.number l) rest
  | string {cs rest : List Char} {text : Option String} (h : Str cs text rest) : Value cs (.string text) rest
  | emptyArray {cs rest : List Char} (h : Blanks cs (']' :: rest)) : Value ('[' :: cs) (.array [] true) rest
  | array {cs rest : List Char} {items : List Node} (h : Items cs items rest) :
      Value ('[' :: cs) (.array items true) rest
  | emptyObject {cs rest : List Char} (h : Blanks cs ('\x7d' :: rest)) : Value ('\x7b' :: cs) (.object [] true) rest
  | object {cs rest : List Char} {members : List (Option String × Node)} (h : Members cs members rest) :
      Value ('\x7b' :: cs) (.object members true) rest

/-- The items of a list, and its end. -/
inductive Items : List Char → List Node → List Char → Prop where
  | last {cs cs₁ cs₂ rest : List Char} {item : Node} (h₁ : Blanks cs cs₁) (hitem : Value cs₁ item cs₂)
      (h₂ : Blanks cs₂ (']' :: rest)) : Items cs [item] rest
  | more {cs cs₁ cs₂ cs₃ rest : List Char} {item : Node} {items : List Node} (h₁ : Blanks cs cs₁)
      (hitem : Value cs₁ item cs₂) (h₂ : Blanks cs₂ (',' :: cs₃)) (hitems : Items cs₃ items rest) :
      Items cs (item :: items) rest

/-- The members of an object, and its end. -/
inductive Members : List Char → List (Option String × Node) → List Char → Prop where
  | last {cs cs₁ cs₂ cs₃ cs₄ cs₅ rest : List Char} {name : Option String} {value : Node} (h₁ : Blanks cs cs₁)
      (hname : Str cs₁ name cs₂) (h₂ : Blanks cs₂ (':' :: cs₃)) (h₃ : Blanks cs₃ cs₄) (hvalue : Value cs₄ value cs₅)
      (h₅ : Blanks cs₅ ('\x7d' :: rest)) : Members cs [(name, value)] rest
  | more {cs cs₁ cs₂ cs₃ cs₄ cs₅ cs₆ rest : List Char} {name : Option String} {value : Node}
      {members : List (Option String × Node)} (h₁ : Blanks cs cs₁) (hname : Str cs₁ name cs₂)
      (h₂ : Blanks cs₂ (':' :: cs₃)) (h₃ : Blanks cs₃ cs₄) (hvalue : Value cs₄ value cs₅)
      (h₅ : Blanks cs₅ (',' :: cs₆)) (hmembers : Members cs₆ members rest) :
      Members cs ((name, value) :: members) rest

end

/-- A whole text: one value, with blanks around it. -/
def Text (s : String) (n : Node) : Prop :=
  ∃ cs₁ cs₂, Blanks s.toList cs₁ ∧ Value cs₁ n cs₂ ∧ Blanks cs₂ []

/-! ### Blanks -/

theorem Blanks.skipSpace_eq {cs rest : List Char} (h : Blanks cs rest) : skipSpace cs = skipSpace rest := by
  induction h with
  | done => rfl
  | more hc _ ih => rw [← ih, skipSpace, List.dropWhile_cons_of_pos hc, skipSpace]

theorem blanks_skipSpace (cs : List Char) : Blanks cs (skipSpace cs) := by
  induction cs with
  | nil => exact .done
  | cons c cs ih =>
    by_cases hc : isSpace c
    · rw [skipSpace, List.dropWhile_cons_of_pos hc]
      exact .more hc ih
    · rw [skipSpace, List.dropWhile_cons_of_neg hc]
      exact .done

theorem skipSpace_cons {c : Char} (h : isSpace c = false) (cs : List Char) : skipSpace (c :: cs) = c :: cs := by
  simp [skipSpace, h]

theorem Blanks.skipSpace_cons {cs rest : List Char} {c : Char} (h : Blanks cs (c :: rest)) (hc : isSpace c = false) :
    skipSpace cs = c :: rest := by
  rw [h.skipSpace_eq, Grammar.skipSpace_cons hc]

theorem Blanks.trans {cs cs' rest : List Char} (h : Blanks cs cs') (h' : Blanks cs' rest) : Blanks cs rest := by
  induction h with
  | done => exact h'
  | more hc _ ih => exact .more hc (ih h')

theorem Blanks.length_le {cs rest : List Char} (h : Blanks cs rest) : rest.length ≤ cs.length := by
  induction h with
  | done => exact Nat.le_refl _
  | more _ _ ih => exact Nat.le_succ_of_le ih

/-- Blanks alone are the blanks before the end. -/
theorem blanks_nil_iff {cs : List Char} : Blanks cs [] ↔ skipSpace cs = [] := by
  constructor
  · intro h
    rw [h.skipSpace_eq]
    rfl
  · intro h
    rw [← h]
    exact blanks_skipSpace cs

/-! ### Strings -/

/-- The scan of the pieces of a string is their grammar. -/
theorem scanPieces_eq_some_iff {cs rest : List Char} {ps : List Piece} :
    scanPieces cs = some (ps, rest) ↔ Pieces cs ps rest := by
  constructor
  · intro h
    fun_induction scanPieces cs generalizing ps rest with
    | case1 => cases h
    | case2 => cases h; exact .close
    | case3 a b c d cs u ps' rest' hrest hu ih => cases h; exact .unit hu (ih hrest)
    | case4 => cases h
    | case5 e cs _ c ps' rest' hrest he ih => cases h; exact .short he (ih hrest)
    | case6 => cases h
    | case7 => cases h
    | case8 c cs hquote _ _ hplain ps' rest' hrest ih =>
      cases h
      simp only [Bool.or_eq_true, decide_eq_true_eq, beq_iff_eq, not_or, Nat.not_lt] at hplain
      exact .raw hplain.1 hquote hplain.2 (ih hrest)
    | case9 => cases h
  · intro h
    induction h with
    | close => rfl
    | @raw c cs rest ps hcontrol hquote hescape _ ih =>
      have hplain : (decide (c.toNat < 0x20) || c == '\\') = false := by
        simp [hescape, Nat.not_lt.mpr hcontrol]
      rw [scanPieces, hplain, ih]
      · rfl
      all_goals simp [hquote, hescape]
    | @short e c cs rest ps he _ ih =>
      have hu : e ≠ 'u' := by
        rintro rfl
        cases he
      rw [scanPieces, he, ih]
      intro _ _ _ _ _ heq
      exact absurd heq hu
    | unit hu _ ih => rw [scanPieces, hu, ih]

theorem scanString_eq_some_iff {cs rest : List Char} {text : Option String} :
    scanString cs = some (text, rest) ↔ Str ('"' :: cs) text rest := by
  constructor
  · intro h
    unfold scanString at h
    split at h
    · next ps rest' hps =>
      cases h
      exact .quoted (scanPieces_eq_some_iff.mp hps)
    · cases h
  · rintro ⟨h⟩
    rw [scanString, scanPieces_eq_some_iff.mpr h]

/-! ### Numbers -/

/-- Whether a text begins with no digit. -/
def EndsDigits (rest : List Char) : Prop := ∀ c ∈ rest.head?, c.isDigit = false

/-- A run of digits is taken off as far as it goes. -/
theorem scanDigits_append {ds rest : List Char} (hds : ∀ d ∈ ds, d.isDigit) (hrest : EndsDigits rest) :
    Literal.scanDigits (ds ++ rest) = (ds, rest) := by
  simp only [Literal.scanDigits, List.takeWhile_append_of_pos hds, List.dropWhile_append_of_pos hds]
  cases rest with
  | nil => simp
  | cons c rest => simp [hrest c rfl]

theorem scanDigits_sound {cs ds rest : List Char} (h : Literal.scanDigits cs = (ds, rest)) :
    cs = ds ++ rest ∧ ∀ d ∈ ds, d.isDigit := by
  cases h
  exact ⟨List.takeWhile_append_dropWhile.symm, fun _ => List.mem_takeWhile_imp⟩

theorem scanWhole_append {whole rest : List Char} (hwhole : Digits whole)
    (hzero : whole.head? = some '0' → whole = ['0']) (hrest : EndsDigits rest) :
    Literal.scanWhole (whole ++ rest) = some (whole, rest) := by
  rw [Literal.scanWhole, scanDigits_append hwhole.2 hrest]
  split
  · next heq => exact absurd (Prod.mk.inj heq).1 hwhole.1
  · next heq =>
    obtain ⟨rfl, -⟩ := Prod.mk.inj heq
    cases hzero rfl
  · next heq => rw [heq]

theorem scanWhole_sound {cs whole rest : List Char} (h : Literal.scanWhole cs = some (whole, rest)) :
    cs = whole ++ rest ∧ Digits whole ∧ (whole.head? = some '0' → whole = ['0']) := by
  unfold Literal.scanWhole at h
  split at h
  · cases h
  · cases h
  · next hne hzero heq =>
    cases h
    obtain ⟨hcs, hdigits⟩ := scanDigits_sound heq
    refine ⟨hcs, ⟨hne, hdigits⟩, ?_⟩
    intro hhead
    match whole, hhead with
    | [_], rfl => rfl
    | _ :: d :: ds, rfl => exact (hzero d ds rfl).elim

theorem scanFraction_complete {cs rest : List Char} {fraction : Option (List Char)} (h : Fraction cs fraction rest)
    (hrest : ∀ c ∈ rest.head?, c.isDigit = false ∧ c ≠ '.') : Literal.scanFraction cs = some (fraction, rest) := by
  cases h with
  | none =>
    cases cs with
    | nil => rfl
    | cons c cs =>
      rw [Literal.scanFraction]
      intro _ heq
      exact (hrest c rfl).2 (List.cons.inj heq).1
  | @some ds _ hds =>
    rw [Literal.scanFraction, scanDigits_append hds.2 fun c hc => (hrest c hc).1]
    split
    · next heq => exact absurd (Prod.mk.inj heq).1 hds.1
    · next heq => rw [(Prod.mk.inj heq).1, (Prod.mk.inj heq).2]

theorem scanFraction_sound {cs rest : List Char} {fraction : Option (List Char)}
    (h : Literal.scanFraction cs = some (fraction, rest)) : Fraction cs fraction rest := by
  unfold Literal.scanFraction at h
  split at h
  · next cs =>
    split at h
    · cases h
    · next ds rest' hne heq =>
      cases h
      obtain ⟨rfl, hdigits⟩ := scanDigits_sound heq
      exact .some ⟨hne, hdigits⟩
  · cases h
    exact .none

theorem scanSign_complete {cs ds rest : List Char} {negative : Bool} (h : Sign cs negative (ds ++ rest))
    (hds : Digits ds) : Literal.scanSign cs = (negative, ds ++ rest) := by
  cases h with
  | none =>
    match ds, hds with
    | d :: ds, ⟨_, hdigits⟩ =>
      have hd := hdigits d List.mem_cons_self
      rw [List.cons_append, Literal.scanSign]
      all_goals
        intro _ heq
        obtain ⟨rfl, -⟩ := List.cons.inj heq
        cases hd
  | plus => rfl
  | minus => rfl

theorem scanSign_sound (cs : List Char) : Sign cs (Literal.scanSign cs).1 (Literal.scanSign cs).2 := by
  unfold Literal.scanSign
  split
  · exact .plus
  · exact .minus
  · exact .none

theorem scanExponent_complete {cs rest : List Char} {exponent : Option (Bool × List Char)}
    (h : Exponent cs exponent rest) (hrest : Literal.Ends rest) : Literal.scanExponent cs = some (exponent, rest) := by
  cases h with
  | none =>
    cases cs with
    | nil => rfl
    | cons c cs => simp [Literal.scanExponent, hrest c rfl]
  | @some e cs ds _ negative he hsign hds =>
    have hmark : (e == 'e' || e == 'E') = true := by simpa using he
    rw [Literal.scanExponent, if_pos hmark, scanSign_complete hsign hds]
    simp only [scanDigits_append hds.2 fun c hc => (hrest c hc).1]
    split
    · next heq => exact absurd (Prod.mk.inj heq).1 hds.1
    · next heq => rw [(Prod.mk.inj heq).1, (Prod.mk.inj heq).2]

theorem scanExponent_sound {cs rest : List Char} {exponent : Option (Bool × List Char)}
    (h : Literal.scanExponent cs = some (exponent, rest)) : Exponent cs exponent rest := by
  unfold Literal.scanExponent at h
  split at h
  · next e cs =>
    split at h
    · next hmark =>
      have hsign := scanSign_sound cs
      dsimp only at h
      split at h
      · cases h
      · next ds rest' hne heq =>
        cases h
        obtain ⟨hcs, hdigits⟩ := scanDigits_sound heq
        exact .some (by simpa using hmark) (hcs ▸ hsign) ⟨hne, hdigits⟩
    · cases h
      exact .none
  · cases h
    exact .none

/-- Neither a digit nor a point stands behind the fraction. -/
theorem head_exponent {cs rest : List Char} {exponent : Option (Bool × List Char)} (h : Exponent cs exponent rest)
    (hrest : Literal.Ends rest) : ∀ c ∈ cs.head?, c.isDigit = false ∧ c ≠ '.' := by
  intro c hc
  cases h with
  | none => exact ⟨(hrest c hc).1, (hrest c hc).2.1⟩
  | some he _ _ =>
    obtain rfl := Option.some.inj hc
    rcases he with rfl | rfl <;> decide

/-- No digit stands behind the digits before the point. -/
theorem endsDigits_fraction {cs rest : List Char} {fraction : Option (List Char)} (h : Fraction cs fraction rest)
    (hrest : EndsDigits rest) : EndsDigits cs := by
  cases h with
  | none => exact hrest
  | some _ =>
    intro c hc
    obtain rfl := Option.some.inj hc
    rfl

theorem scanMinus_of_digits {ds rest : List Char} (hds : Digits ds) :
    Literal.scanMinus (ds ++ rest) = (false, ds ++ rest) := by
  match ds, hds with
  | d :: ds, ⟨_, hdigits⟩ =>
    have hd := hdigits d List.mem_cons_self
    rw [List.cons_append, Literal.scanMinus]
    intro _ heq
    obtain ⟨rfl, -⟩ := List.cons.inj heq
    cases hd

/-- A number is scanned as far as it goes. -/
theorem scan_complete {cs rest : List Char} {l : Literal} (h : Number cs l rest) (hrest : Literal.Ends rest) :
    Literal.scan cs = some (l, rest) := by
  have hunsigned {cs₀ cs : List Char} {negative : Bool} (hminus : Literal.scanMinus cs₀ = (negative, cs))
      (h : Unsigned cs negative l rest) : Literal.scan cs₀ = some (l, rest) := by
    obtain ⟨hwhole, hzero, hfraction, hexponent⟩ := h
    have hbehind := head_exponent hexponent hrest
    have hdigits := endsDigits_fraction hfraction fun c hc => (hbehind c hc).1
    simp [Literal.scan, hminus, scanWhole_append hwhole hzero hdigits, scanFraction_complete hfraction hbehind,
      scanExponent_complete hexponent hrest]
  cases h with
  | positive h =>
    have hminus : Literal.scanMinus cs = (false, cs) := by
      obtain ⟨hwhole, -, -, -⟩ := h
      exact scanMinus_of_digits hwhole
    exact hunsigned hminus h
  | negative h => exact hunsigned rfl h

theorem scan_sound {cs rest : List Char} {l : Literal} (h : Literal.scan cs = some (l, rest)) : Number cs l rest := by
  have hunsigned {cs : List Char} {negative : Bool} {w : List Char × List Char} {f : Option (List Char) × List Char}
      {e : Option (Bool × List Char) × List Char} (hw : Literal.scanWhole cs = some w)
      (hf : Literal.scanFraction w.2 = some f) (he : Literal.scanExponent f.2 = some e)  :
      Unsigned cs negative ⟨negative, w.1, f.1, e.1⟩ e.2 := by
    obtain ⟨hcs, hwhole, hzero⟩ := scanWhole_sound hw
    rw [hcs]
    exact .mk hwhole hzero (scanFraction_sound hf) (scanExponent_sound he)
  simp only [Literal.scan, Option.bind_eq_bind, Option.bind_eq_some_iff] at h
  obtain ⟨w, hw, f, hf, e, he, h⟩ := h
  obtain ⟨rfl, rfl⟩ := Prod.mk.inj (Option.some.inj h)
  unfold Literal.scanMinus at hw ⊢
  split at hw
  · exact .negative (hunsigned hw hf he)
  · exact .positive (hunsigned hw hf he)

end Grammar

end BirdBoard.Json
