import Std.Data.String.ToNat
import Mathlib.Data.List.Basic
import BirdBoard.StateKey

/-! # What labels are made of

  The texts of coordinates and keys, seen as lists of characters.

  - `append_mark_inj` parses: two texts that run to the same mark agree before it and behind it.
  - Numbers are runs of digits, and short and full labels hold digits and a few marks (`mem_shortLabel`,
    `mem_fullLabel`), so a character outside these sets can end or split them.
  - Different keys have different short labels (`shortLabel_injective`), and each label reads as its key
    (`ofLabel_shortLabel`).
-/

namespace BirdBoard

/-! ### Marks -/

/-- The first occurrence of a mark splits a text in one way only. -/
theorem append_mark_inj {α : Type} {mark : α} {xs ys as bs : List α} (hx : mark ∉ xs) (hy : mark ∉ ys) :
    xs ++ mark :: as = ys ++ mark :: bs ↔ xs = ys ∧ as = bs := by
  induction xs generalizing ys with
  | nil =>
    cases ys with
    | nil => simp
    | cons y ys =>
      have : mark ≠ y := fun e => hy (e ▸ List.mem_cons_self)
      simp [this]
  | cons x xs ih =>
    have hx' : mark ∉ xs := fun h => hx (List.mem_cons_of_mem _ h)
    cases ys with
    | nil =>
      have : x ≠ mark := fun e => hx (e ▸ List.mem_cons_self)
      simp [this]
    | cons y ys =>
      have hy' : mark ∉ ys := fun h => hy (List.mem_cons_of_mem _ h)
      simp [ih hx' hy', and_assoc]

/-- So does the first occurrence of a separator whose first character is found in neither text before it. -/
theorem append_separator_inj {s s' t t' sep : String} {mark : Char} {cs : List Char} (hsep : sep.toList = mark :: cs)
    (hs : mark ∉ s.toList) (hs' : mark ∉ s'.toList) : s ++ (sep ++ t) = s' ++ (sep ++ t') ↔ s = s' ∧ t = t' := by
  constructor
  · intro h
    have hchars := congrArg String.toList h
    simp only [String.toList_append, hsep, List.cons_append] at hchars
    obtain ⟨hbefore, hbehind⟩ := (append_mark_inj hs hs').mp hchars
    exact ⟨String.toList_inj.mp hbefore, String.toList_inj.mp (List.append_cancel_left hbehind)⟩
  · rintro ⟨rfl, rfl⟩
    rfl

/-! ### Numbers -/

/-- The decimal text of a number is a run of digits. -/
theorem isDigit_of_mem_natText {n : Nat} {c : Char} (h : c ∈ (toString n).toList) : c.isDigit := by
  rw [Nat.toString_eq_repr, Nat.toList_repr] at h
  exact Nat.isDigit_of_mem_toDigits (by decide) (by decide) h

theorem notMem_natText {c : Char} (hc : c.isDigit = false) (n : Nat) : c ∉ (toString n).toList := by
  intro h
  rw [isDigit_of_mem_natText h] at hc
  cases hc

theorem natText_inj {m n : Nat} : toString m = toString n ↔ m = n := Nat.repr_inj

theorem Level.isDigit_of_mem_text {l : Level} {c : Char} (h : c ∈ l.text.toList) : c.isDigit :=
  isDigit_of_mem_natText h

theorem Position.isDigit_of_mem_text {p : Position} {c : Char} (h : c ∈ p.text.toList) : c.isDigit :=
  isDigit_of_mem_natText h

theorem Level.text_injective {l l' : Level} (h : l.text = l'.text) : l = l' := by
  cases l
  cases l'
  simpa using natText_inj.mp h

theorem Position.text_injective {p p' : Position} (h : p.text = p'.text) : p = p' := by
  cases p
  cases p'
  simpa using natText_inj.mp h

/-! ### Variants -/

theorem Variant.name_injective {v w : Variant} (h : v.name = w.name) : v = w := by
  revert h
  cases v <;> cases w <;> decide

theorem Variant.labelPrefix_injective {v w : Variant} (h : v.labelPrefix = w.labelPrefix) : v = w := by
  revert h
  cases v <;> cases w <;> decide

/-- A label prefix is empty or one of the two overlay marks. -/
theorem Variant.mem_labelPrefix {v : Variant} {c : Char} (h : c ∈ v.labelPrefix.toList) : c = 'ζ' ∨ c = 'η' := by
  cases v
  · simp [labelPrefix, isBase, base] at h
  · exact .inl (by simpa [labelPrefix, isBase, base, name] using h)
  · exact .inr (by simpa [labelPrefix, isBase, base, name] using h)

/-! ### Labels -/

namespace StateKey

/-- A short label holds digits, the letters `L` and `P`, and the overlay marks. -/
theorem mem_shortLabel {k : StateKey} {c : Char} (h : c ∈ k.shortLabel.toList) :
    c.isDigit ∨ c ∈ ['L', 'P', 'ζ', 'η'] := by
  simp only [shortLabel, String.toList_append, List.mem_append] at h
  rcases h with (((h | h) | h) | h) | h
  · rcases Variant.mem_labelPrefix h with rfl | rfl <;> simp
  · simp_all
  · exact .inl (Level.isDigit_of_mem_text h)
  · simp_all
  · exact .inl (Position.isDigit_of_mem_text h)

/-- A full label moreover holds blanks and brackets. -/
theorem mem_fullLabel {k : StateKey} {c : Char} (h : c ∈ k.fullLabel.toList) :
    c.isDigit ∨ c ∈ ['L', 'P', ' ', '[', ']', 'ζ', 'η'] := by
  have hdisplay (h : c ∈ k.displayLabel.toList) : c.isDigit ∨ c ∈ ['L', 'P', ' ', '[', ']', 'ζ', 'η'] := by
    simp only [displayLabel, String.toList_append, List.mem_append] at h
    rcases h with ((h | h) | h) | h
    · simp_all
    · exact .inl (Level.isDigit_of_mem_text h)
    · rcases (by simpa using h : c = ' ' ∨ c = 'P') with rfl | rfl <;> simp
    · exact .inl (Position.isDigit_of_mem_text h)
  unfold fullLabel at h
  split at h
  · exact hdisplay h
  · next hv =>
    have hname : k.variant.name = k.variant.labelPrefix := by simp [Variant.labelPrefix, hv]
    simp only [String.toList_append, List.mem_append, hname] at h
    rcases h with ((h | h) | h) | h
    · exact hdisplay h
    · rcases (by simpa using h : c = ' ' ∨ c = '[') with rfl | rfl <;> simp
    · rcases Variant.mem_labelPrefix h with rfl | rfl <;> simp
    · simp_all

/-- Different keys have different short labels. -/
theorem shortLabel_injective {k j : StateKey} (h : k.shortLabel = j.shortLabel) : k = j := by
  simp only [shortLabel, String.append_assoc] at h
  -- The letter `L` ends the prefix, and the letter `P` ends the level.
  have hmark (v : Variant) : 'L' ∉ v.labelPrefix.toList := fun h => by
    rcases Variant.mem_labelPrefix h with h | h <;> cases h
  have hlevel (l : Level) : 'P' ∉ l.text.toList := fun h => by
    cases Level.isDigit_of_mem_text h
  obtain ⟨hvariant, hcell⟩ := (append_separator_inj rfl (hmark _) (hmark _)).mp h
  obtain ⟨hl, hp⟩ := (append_separator_inj rfl (hlevel _) (hlevel _)).mp hcell
  cases k
  cases j
  rw [mk.injEq]
  exact ⟨Variant.labelPrefix_injective hvariant, Level.text_injective hl, Position.text_injective hp⟩

end StateKey

/-! ### Reading labels back -/

namespace Text

theorem isBlank_of_isDigit {c : Char} (h : c.isDigit) : isBlank c = false := by
  have hrange : 48 ≤ c.toNat ∧ c.toNat ≤ 57 := by
    simpa [Char.isDigit, UInt32.le_iff_toNat_le] using h
  simp only [isBlank, inRanges, whiteSpace, List.any_cons, List.any_nil, Bool.or_false, Bool.or_eq_false_iff,
    Bool.and_eq_false_iff, decide_eq_false_iff_not]
  omega

/-- Trimming leaves a text without blanks as it is. -/
theorem trimChars_of_notBlank {cs : List Char} (h : ∀ c ∈ cs, isBlank c = false) : trimChars cs = cs := by
  have hdrop {ds : List Char} (hd : ∀ c ∈ ds, isBlank c = false) : ds.dropWhile isBlank = ds := by
    cases ds with
    | nil => rfl
    | cons d ds => rw [List.dropWhile_cons, hd d List.mem_cons_self, if_neg Bool.false_ne_true]
  rw [trimChars, hdrop h, hdrop fun c hc => h c (List.mem_reverse.mp hc), List.reverse_reverse]

end Text

theorem Level.byte?_text (l : Level) : Text.byte? l.text.toList = some l.toByte := by
  have hall : ∀ l ∈ Level.all, Text.byte? l.text.toList = some l.toByte := by decide
  exact hall l l.mem_all

theorem Position.byte?_text (p : Position) : Text.byte? p.text.toList = some p.toByte := by
  have hall : ∀ p ∈ Position.all, Text.byte? p.text.toList = some p.toByte := by decide
  exact hall p p.mem_all

namespace StateKey

/-- The raw bytes of a key are those of a key. -/
theorem ofBytes_toByte (k : StateKey) : ofBytes k.level.toByte k.position.toByte k.variant = .ok k := by
  rw [ofBytes, Level.ofByte_toByte, Position.ofByte_toByte]
  rfl

theorem splitVariant_labelPrefix (v : Variant) (cs : List Char) :
    splitVariant (v.labelPrefix.toList ++ 'L' :: cs) = (v, 'L' :: cs) := by
  cases v <;> rfl

theorem labelNumbers?_text (l : Level) (p : Position) :
    labelNumbers? ('L' :: (l.text.toList ++ 'P' :: p.text.toList)) = some (l.toByte, p.toByte) := by
  have hdigits : ∀ c ∈ l.text.toList, (c != 'P') = true := by
    intro c hc
    have hdigit := Level.isDigit_of_mem_text hc
    by_cases hP : c = 'P'
    · subst hP
      cases hdigit
    · simpa using hP
  rw [labelNumbers?, List.takeWhile_append_of_pos hdigits, List.dropWhile_append_of_pos hdigits]
  simp [Level.byte?_text, Position.byte?_text]

/-- The short label of a key reads as the key. -/
theorem ofLabel_shortLabel (k : StateKey) : ofLabel k.shortLabel = .ok k := by
  have hchars : k.shortLabel.toList =
      k.variant.labelPrefix.toList ++ 'L' :: (k.level.text.toList ++ 'P' :: k.position.text.toList) := by
    simp [shortLabel]
  have hblank : ∀ c ∈ k.shortLabel.toList, Text.isBlank c = false := by
    intro c hc
    rcases mem_shortLabel hc with hdigit | hmark
    · exact Text.isBlank_of_isDigit hdigit
    · rcases (by simpa using hmark : c = 'L' ∨ c = 'P' ∨ c = 'ζ' ∨ c = 'η') with rfl | rfl | rfl | rfl <;> decide
  have htrim : Text.trimChars k.shortLabel.toList =
      k.variant.labelPrefix.toList ++ 'L' :: (k.level.text.toList ++ 'P' :: k.position.text.toList) := by
    rw [Text.trimChars_of_notBlank hblank, hchars]
  simp only [ofLabel, htrim, splitVariant_labelPrefix, labelNumbers?_text, ofBytes_toByte]

end StateKey

end BirdBoard
