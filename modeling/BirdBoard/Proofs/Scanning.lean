import Mathlib.Data.List.Induction
import Mathlib.Data.List.TakeWhile
import BirdBoard.Proofs.Labels

/-! # Scanning texts

  What is found in a text by going over its characters.

  - A scan for a mark stops at its first occurrence (`takeWhile_mark`, `eq_append_of_dropWhile_mark`).
  - `Text.Trimmed` says what it is to trim a text; there is one way to do it, and `Text.trim` does it.
  - `Numeral` is the grammar of numbers: a digit, or a numeral with one more digit behind it. A run of characters is
    read as a byte exactly if it is a numeral of it (`Text.byte?_eq_some_iff_numeral`).
-/

namespace BirdBoard

/-! ### Marks that are found by scanning -/

section marks

variable {α : Type} [DecidableEq α] {mark : α} {xs ys cs : List α}

/-- A scan for a mark stops at its first occurrence. -/
theorem takeWhile_mark (h : mark ∉ xs) : (xs ++ mark :: ys).takeWhile (· != mark) = xs := by
  have hpass : ∀ x ∈ xs, (x != mark) = true := fun x hx => bne_iff_ne.mpr fun e => h (e ▸ hx)
  rw [List.takeWhile_append_of_pos hpass, List.takeWhile_cons_of_neg (by simp), List.append_nil]

theorem dropWhile_mark (h : mark ∉ xs) : (xs ++ mark :: ys).dropWhile (· != mark) = mark :: ys := by
  have hpass : ∀ x ∈ xs, (x != mark) = true := fun x hx => bne_iff_ne.mpr fun e => h (e ▸ hx)
  rw [List.dropWhile_append_of_pos hpass, List.dropWhile_cons_of_neg (by simp)]

/-- Where a scan stops stands the mark, and it is not found before. -/
theorem eq_append_of_dropWhile_mark {c : α} (h : cs.dropWhile (· != mark) = c :: ys) :
    cs = cs.takeWhile (· != mark) ++ mark :: ys ∧ mark ∉ cs.takeWhile (· != mark) := by
  have hstop := List.head?_dropWhile_not (· != mark) cs
  rw [h] at hstop
  obtain rfl : c = mark := by simpa using hstop
  refine ⟨by rw [← h, List.takeWhile_append_dropWhile], fun hmem => ?_⟩
  simpa using List.mem_takeWhile_imp hmem

end marks

/-! ### Trimming -/

namespace Text

/-- The second text is the first one without the blanks at its two ends. -/
structure Trimmed (s t : String) : Prop where
  /-- Blanks alone are missing. -/
  around : ∃ before behind, s = before ++ t ++ behind ∧
    (∀ c ∈ before.toList, isBlank c) ∧ ∀ c ∈ behind.toList, isBlank c
  /-- What is left begins with no blank. -/
  head : ∀ c ∈ t.toList.head?, isBlank c = false
  /-- Nor does it end with one. -/
  last : ∀ c ∈ t.toList.getLast?, isBlank c = false

theorem dropWhile_isBlank_of_head {cs : List Char} (h : ∀ c ∈ cs.head?, isBlank c = false) :
    cs.dropWhile isBlank = cs := by
  cases cs with
  | nil => rfl
  | cons c cs => rw [List.dropWhile_cons_of_neg (by simp [h c rfl])]

/-- What is left of a text begins with no blank. -/
theorem head_dropWhile_isBlank (cs : List Char) : ∀ c ∈ (cs.dropWhile isBlank).head?, isBlank c = false := by
  intro c hc
  have hstop := List.head?_dropWhile_not isBlank cs
  rw [hc] at hstop
  exact hstop

/-- Trimming drops the blanks at the two ends and nothing else. -/
theorem trimmed_trim (s : String) : Trimmed s (trim s) where
  around := by
    let front := s.toList.takeWhile isBlank
    let rest := s.toList.dropWhile isBlank
    refine ⟨String.ofList front, String.ofList (rest.reverse.takeWhile isBlank).reverse, ?_, ?_, ?_⟩
    · apply String.toList_inj.mp
      simp only [String.toList_append, String.toList_ofList, trim, trimChars, List.append_assoc]
      rw [← List.reverse_append, List.takeWhile_append_dropWhile, List.reverse_reverse]
      exact List.takeWhile_append_dropWhile.symm
    · intro c hc
      exact List.mem_takeWhile_imp (by simpa using hc)
    · intro c hc
      exact List.mem_takeWhile_imp (by simpa using hc)
  head := by
    intro c hc
    -- What is left begins as the text does behind its leading blanks.
    have hrest : s.toList.dropWhile isBlank =
        (trim s).toList ++ ((s.toList.dropWhile isBlank).reverse.takeWhile isBlank).reverse := by
      rw [trim, String.toList_ofList, trimChars, ← List.reverse_append, List.takeWhile_append_dropWhile,
        List.reverse_reverse]
    exact head_dropWhile_isBlank s.toList c (by rw [hrest, List.head?_append, hc]; rfl)
  last := by
    intro c hc
    rw [trim, String.toList_ofList, trimChars, List.getLast?_reverse] at hc
    exact head_dropWhile_isBlank _ c hc

/-- There is one way to trim a text. -/
theorem Trimmed.trim_eq {s t : String} (h : Trimmed s t) : trim s = t := by
  obtain ⟨before, behind, rfl, hbefore, hbehind⟩ := h.around
  apply String.toList_inj.mp
  simp only [trim, String.toList_ofList, trimChars, String.toList_append, List.append_assoc]
  rw [List.dropWhile_append_of_pos hbefore]
  by_cases ht : t.toList = []
  · have hall : behind.toList.dropWhile isBlank = [] := List.dropWhile_eq_nil_iff.mpr hbehind
    simp [ht, hall]
  · have hfront : ∀ c ∈ (t.toList ++ behind.toList).head?, isBlank c = false := by
      rw [List.head?_append_of_ne_nil _ ht]
      exact h.head
    have hback : ∀ c ∈ t.toList.reverse.head?, isBlank c = false := by
      rw [List.head?_reverse]
      exact h.last
    rw [dropWhile_isBlank_of_head hfront, List.reverse_append,
      List.dropWhile_append_of_pos fun c hc => hbehind c (List.mem_reverse.mp hc),
      dropWhile_isBlank_of_head hback, List.reverse_reverse]

/-- A text without blanks is what is left when it stands between blanks. -/
theorem trim_between {before t behind : String} (hbefore : ∀ c ∈ before.toList, isBlank c)
    (ht : ∀ c ∈ t.toList, isBlank c = false) (hbehind : ∀ c ∈ behind.toList, isBlank c) :
    trim (before ++ t ++ behind) = t :=
  Trimmed.trim_eq ⟨⟨before, behind, rfl, hbefore, hbehind⟩, fun c hc => ht c (List.mem_of_mem_head? hc),
    fun c hc => ht c (List.mem_of_mem_getLast? hc)⟩

/-- In front of a text without blanks only the leading blanks are dropped. -/
theorem trim_append {t : String} (ht : ∀ c ∈ t.toList, isBlank c = false) (hne : t.toList ≠ []) (s : String) :
    trim (s ++ t) = String.ofList (s.toList.dropWhile isBlank) ++ t := by
  refine Trimmed.trim_eq ⟨⟨String.ofList (s.toList.takeWhile isBlank), "", ?_, ?_, by simp⟩, ?_, ?_⟩
  · apply String.toList_inj.mp
    simp only [String.toList_append, String.toList_ofList, String.toList_empty, List.append_nil]
    rw [← List.append_assoc, List.takeWhile_append_dropWhile]
  · intro c hc
    exact List.mem_takeWhile_imp (by simpa using hc)
  · intro c hc
    rw [String.toList_append, String.toList_ofList] at hc
    by_cases hs : s.toList.dropWhile isBlank = []
    · rw [hs, List.nil_append] at hc
      exact ht c (List.mem_of_mem_head? hc)
    · rw [List.head?_append_of_ne_nil _ hs] at hc
      exact head_dropWhile_isBlank _ c hc
  · intro c hc
    rw [String.toList_append, List.getLast?_append_of_ne_nil _ hne] at hc
    exact ht c (List.mem_of_mem_getLast? hc)

/-- Trimming does not mind leading blanks that have been dropped before. -/
theorem trim_dropBlanks (s : String) : trim (String.ofList (s.toList.dropWhile isBlank)) = trim s := by
  rw [trim, String.toList_ofList, trimChars, dropWhile_isBlank_of_head (head_dropWhile_isBlank _)]
  rfl

end Text

/-! ### Numerals -/

/-- The decimal numerals and their values. Any number of zeros may stand in front. -/
inductive Numeral : List Char → Nat → Prop where
  /-- A single digit. -/
  | digit {d : Nat} (hd : d < 10) : Numeral [Nat.digitChar d] d
  /-- A numeral with one more digit behind it. -/
  | snoc {cs : List Char} {n d : Nat} (h : Numeral cs n) (hd : d < 10) :
      Numeral (cs ++ [Nat.digitChar d]) (10 * n + d)

namespace Numeral

variable {cs : List Char} {n : Nat}

/-- Numerals hold digits alone. -/
theorem isDigit_of_mem (h : Numeral cs n) {c : Char} (hc : c ∈ cs) : c.isDigit := by
  induction h with
  | digit hd => simpa [Nat.isDigit_digitChar, List.mem_singleton.mp hc] using hd
  | snoc _ hd ih =>
    rcases List.mem_append.mp hc with hc | hc
    · exact ih hc
    · simpa [Nat.isDigit_digitChar, List.mem_singleton.mp hc] using hd

theorem ne_nil (h : Numeral cs n) : cs ≠ [] := by
  cases h <;> simp

theorem notMem (h : Numeral cs n) {c : Char} (hc : c.isDigit = false) : c ∉ cs := by
  intro hmem
  rw [h.isDigit_of_mem hmem] at hc
  cases hc

/-- A zero in front changes nothing. -/
theorem zero_cons (h : Numeral cs n) : Numeral ('0' :: cs) n := by
  induction h with
  | @digit d hd =>
    have hzero : Numeral ['0'] 0 := digit (d := 0) (by decide)
    have htwo : Numeral ['0', Nat.digitChar d] (10 * 0 + d) := hzero.snoc hd
    rwa [Nat.mul_zero, Nat.zero_add] at htwo
  | snoc _ hd ih => exact ih.snoc hd

/-- Nor do several. -/
theorem zeros_append (h : Numeral cs n) (i : Nat) : Numeral (List.replicate i '0' ++ cs) n := by
  induction i with
  | zero => exact h
  | succ i ih => exact ih.zero_cons

/-- The decimal text of a number is a numeral of it. -/
theorem natText (n : Nat) : Numeral (toString n).toList n := by
  rw [Nat.toString_eq_repr, Nat.toList_repr]
  induction n using Nat.strongRecOn with
  | _ n ih =>
    by_cases hn : n < 10
    · rw [Nat.toDigits_of_lt_base hn]
      exact digit hn
    · rw [Nat.toDigits_of_base_le (by decide) (by omega)]
      have hlast : n % 10 < 10 := Nat.mod_lt n (by decide)
      have hsnoc := (ih (n / 10) (by omega)).snoc hlast
      rwa [Nat.div_add_mod] at hsnoc

end Numeral

namespace Text

/-- A digit is the character of a number below ten, and its value is that number. -/
theorem exists_digitChar {c : Char} (h : c.isDigit) : ∃ d < 10, c = Nat.digitChar d := by
  have hrange : 48 ≤ c.toNat ∧ c.toNat ≤ 57 := by
    simpa [Char.isDigit, UInt32.le_iff_toNat_le] using h
  have hall : ∀ d < 10, Nat.digitChar d = Char.ofNat (48 + d) := by decide
  refine ⟨c.toNat - 48, by omega, ?_⟩
  rw [hall _ (by omega), Nat.add_sub_cancel' hrange.1, Char.ofNat_toNat]

theorem digitValue_digitChar : ∀ d < 10, digitValue (Nat.digitChar d) = d := by
  decide

theorem digitsValue_concat (cs : List Char) (c : Char) :
    digitsValue (cs ++ [c]) = 10 * digitsValue cs + digitValue c := by
  simp [digitsValue, List.foldl_append]

/-- A numeral has the value of its digits. -/
theorem digitsValue_of_numeral {cs : List Char} {n : Nat} (h : Numeral cs n) : digitsValue cs = n := by
  induction h with
  | digit hd => simpa [digitsValue] using digitValue_digitChar _ hd
  | snoc _ hd ih => rw [digitsValue_concat, digitValue_digitChar _ hd, ih]

/-- A run of digits is a numeral. -/
theorem numeral_of_isDigit {cs : List Char} (hne : cs ≠ []) (hdigits : ∀ c ∈ cs, c.isDigit) :
    Numeral cs (digitsValue cs) := by
  induction cs using List.reverseRecOn with
  | nil => exact absurd rfl hne
  | append_singleton cs c ih =>
    obtain ⟨d, hd, rfl⟩ := exists_digitChar (hdigits c (by simp))
    rw [digitsValue_concat, digitValue_digitChar d hd]
    by_cases hcs : cs = []
    · subst hcs
      simpa [digitsValue] using Numeral.digit hd
    · exact .snoc (ih hcs fun c hc => hdigits c (List.mem_append_left _ hc)) hd

/-- A run is read as the number of which it is a numeral. -/
theorem decimal?_eq_some_iff {cs : List Char} {n : Nat} : decimal? cs = some n ↔ Numeral cs n := by
  constructor
  · intro h
    obtain ⟨⟨hne, hdigits⟩, rfl⟩ : (cs ≠ [] ∧ ∀ c ∈ cs, c.isDigit) ∧ digitsValue cs = n := by
      simpa [decimal?] using h
    exact numeral_of_isDigit hne hdigits
  · intro h
    have hdigits : cs.all Char.isDigit := List.all_eq_true.mpr fun _ => h.isDigit_of_mem
    simp [decimal?, h.ne_nil, hdigits, digitsValue_of_numeral h]

/-- A run is read as a byte exactly if it is a numeral of it. -/
theorem byte?_eq_some_iff_numeral {cs : List Char} {b : UInt8} : byte? cs = some b ↔ Numeral cs b.toNat := by
  rw [byte?_eq_some_iff, decimal?_eq_some_iff]

end Text

end BirdBoard
