import BirdBoard.Proofs.Scanning

/-! # Texts that read as keys

  Which texts the two readers of keys accept, and what they say to every other text.

  - `LabelShape` is the shape of a short label and `DashedShape` that of a dashed key. A text without the shape is
    malformed; what has the shape is judged by the ranges of its numbers.
  - A text splits into the parts of its shape in one way: a short label at its first `P`, a dashed key at its last two
    dashes.
  - Main results: `StateKey.ofLabel_grammar` and `StateKey.ofDashed_grammar` tell which texts are read as which key, and
    how each of the others is refused.
-/

namespace BirdBoard

/-! ### Variants -/

namespace Variant

/-- The name of a variant names it. -/
theorem ofText_name (v : Variant) : ofText v.name = .ok v := by
  cases v <;> decide

/-- A text that names no variant is a fault of the coordinate space. -/
theorem kind_of_ofText {w : String} {f : Fault} (h : ofText w = .error f) : f.kind = .coordinate := by
  unfold ofText at h
  split at h <;> cases h
  rfl

/-- Blanks in front of the name of a variant do not count. -/
theorem ofText_dropBlanks (v : String) :
    ofText (String.ofList (v.toList.dropWhile Text.isBlank)) = ofText v := by
  rw [ofText, Text.trim_dropBlanks, ofText]

end Variant

/-! ### The ranges of a key -/

namespace StateKey

/-- A raw key is accepted as the key with its variant and its numbers. -/
theorem ofBytes_eq_ok_iff {l p : UInt8} {v : Variant} {k : StateKey} :
    ofBytes l p v = .ok k ↔ v = k.variant ∧ l.toNat = k.level.val ∧ p.toNat = k.position.val := by
  rw [← Level.ofByte_eq_ok_iff, ← Position.ofByte_eq_ok_iff, ofBytes]
  obtain ⟨w, lev, pos⟩ := k
  cases hl : Level.ofByte l with
  | error f => simp [bind, Except.bind]
  | ok lev' =>
    cases hp : Position.ofByte p with
    | error f => simp [bind, Except.bind]
    | ok pos' => simp [bind, Except.bind, pure, Except.pure]

/-- A level outside the board is refused first. -/
theorem ofBytes_levelOutside {l : UInt8} (h : ¬ l.toNat ≤ 4) (p : UInt8) (v : Variant) :
    ofBytes l p v = .error (.levelOutside l) := by
  have hl : Level.ofByte l = .error (.levelOutside l) := dif_neg h
  rw [ofBytes, hl]
  rfl

/-- Behind a level on the board, a position outside it is refused. -/
theorem ofBytes_positionOutside {l p : UInt8} (hl : l.toNat ≤ 4) (h : ¬ (13 ≤ p.toNat ∧ p.toNat ≤ 18)) (v : Variant) :
    ofBytes l p v = .error (.positionOutside p) := by
  have hl : Level.ofByte l = .ok ⟨l.toNat, hl⟩ := dif_pos hl
  have hp : Position.ofByte p = .error (.positionOutside p) := dif_neg h
  rw [ofBytes, hl, hp]
  rfl

/-- So what is outside the board is refused, and the level is judged before the position. -/
theorem ofBytes_outside {l p : UInt8} (h : ¬ (l.toNat ≤ 4 ∧ 13 ≤ p.toNat ∧ p.toNat ≤ 18)) (v : Variant) :
    ofBytes l p v = .error (if l.toNat ≤ 4 then .positionOutside p else .levelOutside l) := by
  by_cases hl : l.toNat ≤ 4
  · rw [if_pos hl]
    exact ofBytes_positionOutside hl (fun hp => h ⟨hl, hp⟩) v
  · rw [if_neg hl]
    exact ofBytes_levelOutside hl p v

/-- Only the ranges are left to be judged. -/
theorem ofBytes_isOk_iff {l p : UInt8} {v : Variant} :
    (ofBytes l p v).isOk ↔ l.toNat ≤ 4 ∧ 13 ≤ p.toNat ∧ p.toNat ≤ 18 := by
  by_cases h : l.toNat ≤ 4 ∧ 13 ≤ p.toNat ∧ p.toNat ≤ 18
  · have hok : ofBytes l p v = .ok ⟨v, ⟨l.toNat, h.1⟩, ⟨p.toNat, h.2.1, h.2.2⟩⟩ := ofBytes_eq_ok_iff.mpr ⟨rfl, rfl, rfl⟩
    rw [hok]
    exact iff_of_true rfl h
  · rw [ofBytes_outside h]
    exact iff_of_false nofun h

/-- A fault of a raw key is one of the coordinate space. -/
theorem kind_of_ofBytes {l p : UInt8} {v : Variant} {f : Fault} (h : ofBytes l p v = .error f) :
    f.kind = .coordinate := by
  have houtside : ¬ (l.toNat ≤ 4 ∧ 13 ≤ p.toNat ∧ p.toNat ≤ 18) := by
    rw [← ofBytes_isOk_iff (v := v), h]
    exact nofun
  obtain rfl := Except.error.inj ((ofBytes_outside houtside v).symm.trans h)
  split <;> rfl

/-! ### Short labels -/

/-- The shape of a short label: an overlay mark or nothing, then `L` and a numeral, then `P` and a numeral. -/
def LabelShape (t : String) (v : Variant) (level position : Nat) : Prop :=
  ∃ ls ps, Numeral ls level ∧ Numeral ps position ∧
    t.toList = v.labelPrefix.toList ++ 'L' :: (ls ++ 'P' :: ps)

/-- The numbers of a label are read exactly behind their letters. -/
theorem labelNumbers?_eq_some_iff {cs : List Char} {l p : UInt8} :
    labelNumbers? cs = some (l, p) ↔
      ∃ ls ps, Numeral ls l.toNat ∧ Numeral ps p.toNat ∧ cs = 'L' :: (ls ++ 'P' :: ps) := by
  constructor
  · intro h
    unfold labelNumbers? at h
    split at h
    · next rest =>
      split at h
      · next c position hstop =>
        split at h
        · next l' p' hl hp =>
          obtain ⟨rfl, rfl⟩ : l' = l ∧ p' = p := by simpa using h
          obtain ⟨hrest, _⟩ := eq_append_of_dropWhile_mark hstop
          exact ⟨_, _, Text.byte?_eq_some_iff_numeral.mp hl, Text.byte?_eq_some_iff_numeral.mp hp,
            congrArg ('L' :: ·) hrest⟩
        · cases h
      · cases h
    · cases h
  · rintro ⟨ls, ps, hl, hp, rfl⟩
    have hmark : 'P' ∉ ls := hl.notMem (by decide)
    simp only [labelNumbers?, takeWhile_mark hmark, dropWhile_mark hmark, Text.byte?_eq_some_iff_numeral.mpr hl,
      Text.byte?_eq_some_iff_numeral.mpr hp]

/-- What is split off a label is the prefix of the variant. -/
theorem eq_append_of_splitVariant {cs rest : List Char} {v : Variant} (h : splitVariant cs = (v, rest)) :
    cs = v.labelPrefix.toList ++ rest := by
  unfold splitVariant at h
  split at h <;> obtain ⟨rfl, rfl⟩ := Prod.mk.inj h <;> rfl

/-- A text with the shape of a label is judged by the ranges of its numbers. -/
theorem ofLabel_of_shape {s : String} {v : Variant} {l p : UInt8}
    (h : LabelShape (Text.trim s) v l.toNat p.toNat) : ofLabel s = ofBytes l p v := by
  obtain ⟨ls, ps, hl, hp, ht⟩ := h
  have hnumbers : labelNumbers? ('L' :: (ls ++ 'P' :: ps)) = some (l, p) :=
    labelNumbers?_eq_some_iff.mpr ⟨ls, ps, hl, hp, rfl⟩
  have htrim : Text.trimChars s.toList = v.labelPrefix.toList ++ 'L' :: (ls ++ 'P' :: ps) := by
    simpa [Text.trim] using ht
  simp only [ofLabel, htrim, splitVariant_labelPrefix, hnumbers]

/-- Every other text is malformed. -/
theorem ofLabel_of_no_shape {s : String}
    (h : ¬ ∃ (v : Variant) (l p : UInt8), LabelShape (Text.trim s) v l.toNat p.toNat) :
    ofLabel s = .error (.malformedLabel (Text.trim s)) := by
  cases hsplit : splitVariant (Text.trimChars s.toList) with
  | mk v rest =>
    cases hnumbers : labelNumbers? rest with
    | none => simp only [ofLabel, hsplit, hnumbers, Text.trim]
    | some numbers =>
      obtain ⟨ls, ps, hl, hp, rfl⟩ := labelNumbers?_eq_some_iff.mp hnumbers
      refine absurd ⟨v, numbers.1, numbers.2, ls, ps, hl, hp, ?_⟩ h
      rw [Text.trim, String.toList_ofList]
      exact eq_append_of_splitVariant hsplit

/-- A text with the shape of a label holds no blank. -/
theorem LabelShape.notBlank {t : String} {v : Variant} {level position : Nat} (h : LabelShape t v level position) :
    ∀ c ∈ t.toList, Text.isBlank c = false := by
  obtain ⟨ls, ps, hl, hp, ht⟩ := h
  intro c hc
  simp only [ht, List.mem_append, List.mem_cons] at hc
  rcases hc with hc | rfl | hc | rfl | hc
  · rcases Variant.mem_labelPrefix hc with rfl | rfl <;> decide
  · decide
  · exact Text.isBlank_of_isDigit (hl.isDigit_of_mem hc)
  · decide
  · exact Text.isBlank_of_isDigit (hp.isDigit_of_mem hc)

/-- A label reads as a key exactly if it has the shape of a label with the variant and the numbers of the key. -/
theorem ofLabel_eq_ok_iff {s : String} {k : StateKey} :
    ofLabel s = .ok k ↔ LabelShape (Text.trim s) k.variant k.level.val k.position.val := by
  constructor
  · intro h
    by_cases hshape : ∃ (v : Variant) (l p : UInt8), LabelShape (Text.trim s) v l.toNat p.toNat
    · obtain ⟨v, l, p, hshape⟩ := hshape
      rw [ofLabel_of_shape hshape, ofBytes_eq_ok_iff] at h
      obtain ⟨rfl, hl, hp⟩ := h
      rwa [hl, hp] at hshape
    · rw [ofLabel_of_no_shape hshape] at h
      cases h
  · intro h
    rw [← Level.ofByte_eq_ok_iff.mp k.level.ofByte_toByte, ← Position.ofByte_eq_ok_iff.mp k.position.ofByte_toByte] at h
    rw [ofLabel_of_shape h, ofBytes_toByte]

/-- The short label of a key with zeros in front of its level and of its position. -/
def paddedLabel (k : StateKey) (i j : Nat) : String :=
  k.variant.labelPrefix ++ "L" ++ (String.ofList (List.replicate i '0') ++ k.level.text) ++
    "P" ++ (String.ofList (List.replicate j '0') ++ k.position.text)

/-- Without such zeros it is the short label. -/
theorem paddedLabel_zero (k : StateKey) : k.paddedLabel 0 0 = k.shortLabel := by
  simp [paddedLabel, shortLabel]

theorem labelShape_paddedLabel (k : StateKey) (i j : Nat) :
    LabelShape (k.paddedLabel i j) k.variant k.level.val k.position.val :=
  ⟨_, _, (Numeral.natText k.level.val).zeros_append i, (Numeral.natText k.position.val).zeros_append j, by
    simp [paddedLabel, Level.text, Position.text]⟩

/-- **What short labels are.** A text reads as a key exactly if, without the blanks around it, it is an overlay mark or
nothing, `L` and a numeral, `P` and a numeral, and these are the variant, the level and the position of the key. In a
text of this shape, with numbers that fit into bytes, a level outside the board is reported first and else the position
outside it; a text of any other shape is malformed. So the short label of a key reads as the key whatever blanks stand
around it and whatever zeros stand in front of its numbers. -/
theorem ofLabel_grammar :
    (∀ s, Text.Trimmed s (Text.trim s) ∧
      (∀ k, ofLabel s = .ok k ↔ LabelShape (Text.trim s) k.variant k.level.val k.position.val) ∧
      (∀ v (l p : UInt8), LabelShape (Text.trim s) v l.toNat p.toNat →
        ¬ (l.toNat ≤ 4 ∧ 13 ≤ p.toNat ∧ p.toNat ≤ 18) →
          ∃ f, ofLabel s = .error f ∧ f.kind = .coordinate ∧
            f = if l.toNat ≤ 4 then .positionOutside p else .levelOutside l) ∧
      ((¬ ∃ (v : Variant) (l p : UInt8), LabelShape (Text.trim s) v l.toNat p.toNat) →
        ∃ f, ofLabel s = .error f ∧ f.kind = .validation ∧ f = .malformedLabel (Text.trim s))) ∧
    ∀ (k : StateKey) (before behind : String) (i j : Nat), k.paddedLabel 0 0 = k.shortLabel ∧
      ((∀ c ∈ before.toList, Text.isBlank c) → (∀ c ∈ behind.toList, Text.isBlank c) →
        ofLabel (before ++ k.paddedLabel i j ++ behind) = .ok k) := by
  refine ⟨fun s => ⟨Text.trimmed_trim s, fun k => ofLabel_eq_ok_iff, ?_, ?_⟩, ?_⟩
  · intro v l p hshape houtside
    have hrefused := ofBytes_outside houtside v
    rw [ofLabel_of_shape hshape]
    exact ⟨_, hrefused, kind_of_ofBytes hrefused, rfl⟩
  · intro hshape
    exact ⟨.malformedLabel (Text.trim s), ofLabel_of_no_shape hshape, rfl, rfl⟩
  · intro k before behind i j
    refine ⟨k.paddedLabel_zero, fun hbefore hbehind => ?_⟩
    have hshape := k.labelShape_paddedLabel i j
    rw [ofLabel_eq_ok_iff, Text.trim_between hbefore hshape.notBlank hbehind]
    exact hshape

/-- A label with blanks around it and zeros in front of its numbers is read. Where both numbers are outside the board,
the level is reported. -/
theorem ofLabel_grammar_padded :
    ofLabel "\u2003ζL0002P015\n" = .ok ⟨.zeta, ⟨2, by decide⟩, ⟨15, by decide, by decide⟩⟩ ∧
      ∃ f, ofLabel "L9P012" = .error f ∧ f.kind = .coordinate ∧ f = .levelOutside 9 := by
  constructor
  · let k : StateKey := ⟨.zeta, ⟨2, by decide⟩, ⟨15, by decide, by decide⟩⟩
    have htext : "\u2003" ++ k.paddedLabel 3 1 ++ "\n" = "\u2003ζL0002P015\n" := by decide +kernel
    rw [← htext]
    have hbefore : ∀ c ∈ "\u2003".toList, Text.isBlank c := List.all_eq_true.mp (by decide)
    have hbehind : ∀ c ∈ "\n".toList, Text.isBlank c := List.all_eq_true.mp (by decide)
    exact (ofLabel_grammar.2 k "\u2003" "\n" 3 1).2 hbefore hbehind
  · have hshape : LabelShape (Text.trim "L9P012") .normal (9 : UInt8).toNat (12 : UInt8).toNat :=
      ⟨['9'], ['0', '1', '2'], .natText 9, (Numeral.natText 12).zero_cons, by decide⟩
    exact (ofLabel_grammar.1 "L9P012").2.2.1 .normal 9 12 hshape (by decide)

/-! ### Dashed keys -/

/-- The shape of a dashed key: a text, a dash, a field, a dash and a field, where neither field holds a dash. -/
def DashedShape (t before : String) (level position : List Char) : Prop :=
  t.toList = before.toList ++ '-' :: (level ++ '-' :: position) ∧ '-' ∉ level ∧ '-' ∉ position

/-- A text is split exactly at its last dash. -/
theorem splitLastDash?_eq_some_iff {cs before behind : List Char} :
    splitLastDash? cs = some (before, behind) ↔ cs = before ++ '-' :: behind ∧ '-' ∉ behind := by
  constructor
  · intro h
    unfold splitLastDash? at h
    split at h
    · next c rest hstop =>
      obtain ⟨hbefore, hbehind⟩ : rest.reverse = before ∧ (cs.reverse.takeWhile (· != '-')).reverse = behind := by
        simpa using h
      obtain ⟨hcs, hmark⟩ := eq_append_of_dropWhile_mark hstop
      have hsplit := congrArg List.reverse hcs
      rw [List.reverse_reverse, List.reverse_append, List.reverse_cons, List.append_assoc, hbefore, hbehind] at hsplit
      exact ⟨hsplit, by simpa [← hbehind] using hmark⟩
    · cases h
  · rintro ⟨rfl, hmark⟩
    have hscan : (before ++ '-' :: behind).reverse = behind.reverse ++ '-' :: before.reverse := by simp
    have hmark : '-' ∉ behind.reverse := by simpa using hmark
    simp only [splitLastDash?, hscan, dropWhile_mark hmark, takeWhile_mark hmark, List.reverse_reverse]

/-- A text that holds a dash has a last one. -/
theorem exists_splitLastDash? {cs : List Char} (h : '-' ∈ cs) :
    ∃ before behind, splitLastDash? cs = some (before, behind) := by
  unfold splitLastDash?
  split
  · exact ⟨_, _, rfl⟩
  · next hnone =>
    have hpass := List.dropWhile_eq_nil_iff.mp hnone '-' (List.mem_reverse.mpr h)
    simp at hpass

/-- Two fields can be split off exactly if there are two dashes. -/
theorem exists_dashedShape_iff {t : String} :
    (∃ w ls ps, DashedShape t w ls ps) ↔ 2 ≤ t.toList.count '-' := by
  constructor
  · rintro ⟨w, ls, ps, ht, -, -⟩
    rw [ht]
    simp only [List.count_append, List.count_cons_self]
    omega
  · intro h
    have hlast : '-' ∈ t.toList := List.count_pos_iff.mp (by omega)
    obtain ⟨rest, ps, hps⟩ := exists_splitLastDash? hlast
    obtain ⟨ht, hmark⟩ := splitLastDash?_eq_some_iff.mp hps
    have hnext : '-' ∈ rest := by
      rw [ht, List.count_append, List.count_cons_self, List.count_eq_zero_of_not_mem hmark] at h
      exact List.count_pos_iff.mp (by omega)
    obtain ⟨w, ls, hls⟩ := exists_splitLastDash? hnext
    obtain ⟨rfl, hmark'⟩ := splitLastDash?_eq_some_iff.mp hls
    exact ⟨String.ofList w, ls, ps, by simpa using ht, hmark', hmark⟩

/-- A dashed key has one shape only. -/
theorem DashedShape.unique {t w w' : String} {ls ls' ps ps' : List Char} (h : DashedShape t w ls ps)
    (h' : DashedShape t w' ls' ps') : w = w' ∧ ls = ls' ∧ ps = ps' := by
  have hlast {w : String} {ls ps : List Char} (h : DashedShape t w ls ps) :
      splitLastDash? t.toList = some (w.toList ++ '-' :: ls, ps) :=
    splitLastDash?_eq_some_iff.mpr ⟨by simpa using h.1, h.2.2⟩
  have hnext {w : String} {ls ps : List Char} (h : DashedShape t w ls ps) :
      splitLastDash? (w.toList ++ '-' :: ls) = some (w.toList, ls) :=
    splitLastDash?_eq_some_iff.mpr ⟨rfl, h.2.1⟩
  obtain ⟨hrest, hps⟩ := Prod.mk.inj (Option.some.inj ((hlast h).symm.trans (hlast h')))
  have hsecond := hnext h
  rw [hrest, hnext h'] at hsecond
  obtain ⟨hw, hls⟩ := Prod.mk.inj (Option.some.inj hsecond)
  exact ⟨String.toList_inj.mp hw.symm, hls.symm, hps⟩

/-- The parts of a dashed key are the text and the bytes of its shape. -/
theorem dashedParts?_eq_some_iff {t : String} {w : List Char} {l p : UInt8} :
    dashedParts? t.toList = some (w, l, p) ↔
      ∃ ls ps, DashedShape t (String.ofList w) ls ps ∧ Numeral ls l.toNat ∧ Numeral ps p.toNat := by
  simp only [← Text.byte?_eq_some_iff_numeral]
  constructor
  · intro h
    simp only [dashedParts?, bind, Option.bind_eq_some_iff, Prod.exists, pure, Option.some.injEq,
      Prod.mk.injEq] at h
    obtain ⟨rest, ps, hps, w', ls, hls, l', hl, p', hp, rfl, rfl, rfl⟩ := h
    obtain ⟨ht, hmark⟩ := splitLastDash?_eq_some_iff.mp hps
    obtain ⟨rfl, hmark'⟩ := splitLastDash?_eq_some_iff.mp hls
    exact ⟨ls, ps, ⟨by simpa using ht, hmark', hmark⟩, hl, hp⟩
  · rintro ⟨ls, ps, ⟨ht, hmark', hmark⟩, hl, hp⟩
    have hps : splitLastDash? t.toList = some (w ++ '-' :: ls, ps) :=
      splitLastDash?_eq_some_iff.mpr ⟨by simpa using ht, hmark⟩
    have hls : splitLastDash? (w ++ '-' :: ls) = some (w, ls) := splitLastDash?_eq_some_iff.mpr ⟨rfl, hmark'⟩
    simp [dashedParts?, hps, hls, hl, hp]

/-- A text with the shape of a dashed key and with fields that are numerals of bytes is judged by its variant and by the
ranges of its numbers. -/
theorem ofDashed_of_shape {s w : String} {ls ps : List Char} {l p : UInt8} (h : DashedShape (Text.trim s) w ls ps)
    (hl : Numeral ls l.toNat) (hp : Numeral ps p.toNat) : ofDashed s = (Variant.ofText w).bind (ofBytes l p) := by
  have hparts : dashedParts? (Text.trimChars s.toList) = some (w.toList, l, p) := by
    have := dashedParts?_eq_some_iff.mpr ⟨ls, ps, by rwa [String.ofList_toList], hl, hp⟩
    rwa [Text.trim, String.toList_ofList] at this
  simp only [ofDashed, hparts, String.ofList_toList]
  rfl

/-- Every other text is malformed. -/
theorem ofDashed_of_no_shape {s : String}
    (h : ¬ ∃ w ls ps, DashedShape (Text.trim s) w ls ps ∧
      (∃ l : UInt8, Numeral ls l.toNat) ∧ ∃ p : UInt8, Numeral ps p.toNat) :
    ofDashed s = .error (.malformedKey s) := by
  cases hparts : dashedParts? (Text.trimChars s.toList) with
  | none => simp only [ofDashed, hparts]
  | some parts =>
    obtain ⟨w, l, p⟩ := parts
    have ht : (Text.trim s).toList = Text.trimChars s.toList := by rw [Text.trim, String.toList_ofList]
    rw [← ht] at hparts
    obtain ⟨ls, ps, hshape, hl, hp⟩ := dashedParts?_eq_some_iff.mp hparts
    exact absurd ⟨_, ls, ps, hshape, ⟨l, hl⟩, ⟨p, hp⟩⟩ h

/-! ### What a dashed key is judged by -/

/-- Every fault of the coordinates of a key is one of the coordinate space. -/
theorem kind_of_bind_ofBytes {w : String} {l p : UInt8} {f : Fault}
    (h : (Variant.ofText w).bind (ofBytes l p) = .error f) : f.kind = .coordinate := by
  cases hv : Variant.ofText w with
  | error g =>
    obtain rfl : g = f := by simpa [hv, Except.bind] using h
    exact Variant.kind_of_ofText hv
  | ok v =>
    rw [hv] at h
    exact kind_of_ofBytes h

theorem bind_ofBytes_eq_ok_iff {w : String} {l p : UInt8} {k : StateKey} :
    (Variant.ofText w).bind (ofBytes l p) = .ok k ↔
      Variant.ofText w = .ok k.variant ∧ l.toNat = k.level.val ∧ p.toNat = k.position.val := by
  cases hv : Variant.ofText w with
  | error f => simp [Except.bind]
  | ok v => simp only [Except.bind, ofBytes_eq_ok_iff, Except.ok.injEq]

/-- A triple is valid if its level and its position are on the board and its text names a variant. -/
theorem isValidTriple_iff {w : String} {l p : UInt8} :
    isValidTriple l p w ↔
      (∃ v, Variant.ofText w = .ok v) ∧ l.toNat ≤ 4 ∧ 13 ≤ p.toNat ∧ p.toNat ≤ 18 := by
  have hranges (v : Variant) :
      (ofBytes l p v).isOk = ((Level.ofByte l).isOk && (Position.ofByte p).isOk) := by
    rw [ofBytes]
    cases Level.ofByte l <;> cases Position.ofByte p <;> rfl
  rw [isValidTriple, ← hranges .normal, Bool.and_eq_true, ofBytes_isOk_iff, and_comm]
  cases Variant.ofText w <;> simp [Except.isOk, Except.toBool]

/-- Then its parts make a key. -/
theorem isOk_bind_ofBytes_iff {w : String} {l p : UInt8} :
    ((Variant.ofText w).bind (ofBytes l p)).isOk ↔ isValidTriple l p w := by
  rw [isValidTriple_iff]
  cases Variant.ofText w with
  | error f => simp [Except.bind, Except.isOk, Except.toBool]
  | ok v => simp [Except.bind, ofBytes_isOk_iff]

/-- Otherwise a fault of the coordinate space is found. -/
theorem bind_ofBytes_coordinate_iff {w : String} {l p : UInt8} :
    (∃ f, (Variant.ofText w).bind (ofBytes l p) = .error f ∧ f.kind = .coordinate) ↔ ¬ isValidTriple l p w := by
  rw [← isOk_bind_ofBytes_iff]
  cases hjudged : (Variant.ofText w).bind (ofBytes l p) with
  | error f => simp [kind_of_bind_ofBytes hjudged, Except.isOk, Except.toBool]
  | ok k => simp [Except.isOk, Except.toBool]

/-- A text is malformed exactly if it has too few dashes or a field that is no numeral of a byte. -/
theorem ofDashed_validation_iff {s : String} :
    (∃ f, ofDashed s = .error f ∧ f.kind = .validation) ↔
      (Text.trim s).toList.count '-' < 2 ∨
        ∃ w ls ps, DashedShape (Text.trim s) w ls ps ∧
          ¬ ((∃ l : UInt8, Numeral ls l.toNat) ∧ ∃ p : UInt8, Numeral ps p.toNat) := by
  constructor
  · rintro ⟨f, hf, hkind⟩
    by_contra hnot
    obtain ⟨hcount, hfields⟩ := not_or.mp hnot
    obtain ⟨w, ls, ps, hshape⟩ := exists_dashedShape_iff.mpr (Nat.le_of_not_lt hcount)
    have hbytes : (∃ l : UInt8, Numeral ls l.toNat) ∧ ∃ p : UInt8, Numeral ps p.toNat := by
      by_contra hbytes
      exact hfields ⟨w, ls, ps, hshape, hbytes⟩
    -- What has the shape is judged by its coordinates, and these faults are of another kind.
    obtain ⟨⟨l, hl⟩, p, hp⟩ := hbytes
    rw [ofDashed_of_shape hshape hl hp] at hf
    rw [kind_of_bind_ofBytes hf] at hkind
    cases hkind
  · intro h
    refine ⟨.malformedKey s, ofDashed_of_no_shape ?_, rfl⟩
    rintro ⟨w, ls, ps, hshape, hl, hp⟩
    rcases h with hcount | ⟨w', ls', ps', hshape', hnot⟩
    · have htwo := exists_dashedShape_iff.mp ⟨w, ls, ps, hshape⟩
      omega
    · obtain ⟨-, rfl, rfl⟩ := hshape.unique hshape'
      exact hnot ⟨hl, hp⟩

/-- The text of a triple, less the blanks in front of it, has the shape of a dashed key. -/
theorem dashedShape_triple (v : String) (l p : Nat) :
    DashedShape (Text.trim (v ++ "-" ++ toString l ++ "-" ++ toString p))
      (String.ofList (v.toList.dropWhile Text.isBlank)) (toString l).toList (toString p).toList := by
  have hdash {n : Nat} : '-' ∉ (toString n).toList := notMem_natText (by decide) n
  have hblank : ∀ c ∈ ("-" ++ toString l ++ "-" ++ toString p).toList, Text.isBlank c = false := by
    intro c hc
    simp only [String.toList_append, List.mem_append] at hc
    rcases hc with ((hc | hc) | hc) | hc
    · rw [List.mem_singleton.mp hc]
      decide
    · exact Text.isBlank_of_isDigit (isDigit_of_mem_natText hc)
    · rw [List.mem_singleton.mp hc]
      decide
    · exact Text.isBlank_of_isDigit (isDigit_of_mem_natText hc)
  have hassoc : v ++ "-" ++ toString l ++ "-" ++ toString p = v ++ ("-" ++ toString l ++ "-" ++ toString p) := by
    simp only [String.append_assoc]
  refine ⟨?_, hdash, hdash⟩
  rw [hassoc, Text.trim_append hblank (by simp) v]
  simp only [String.toList_append, List.append_assoc]
  rfl

/-- The text of a triple is read as its parts are checked. -/
theorem ofDashed_triple (v : String) (l p : UInt8) :
    ofDashed (v ++ "-" ++ toString l.toNat ++ "-" ++ toString p.toNat) = (Variant.ofText v).bind (ofBytes l p) := by
  rw [ofDashed_of_shape (dashedShape_triple v l.toNat p.toNat) (.natText _) (.natText _), Variant.ofText_dropBlanks]

/-- **What dashed keys are.** Let a text be taken without the blanks around it. It is malformed exactly if it has fewer
than two dashes, or if one of the two fields behind its last dashes is not the numeral of a byte. Otherwise let `w` be
the text before these fields. The variant that `w` names is judged first, then the level, then the position: a fault of
the coordinate space is reported exactly if `w` names no variant or a number is outside the board, and else the text
reads as the key with these three. So the text of a triple is read exactly if the triple is valid, and then as the
triple is checked; and what is written for a key is read as the key. -/
theorem ofDashed_grammar :
    (∀ s, Text.Trimmed s (Text.trim s) ∧
      ((∃ f, ofDashed s = .error f ∧ f.kind = .validation) ↔
        (Text.trim s).toList.count '-' < 2 ∨
          ∃ w ls ps, DashedShape (Text.trim s) w ls ps ∧
            ¬ ((∃ l : UInt8, Numeral ls l.toNat) ∧ ∃ p : UInt8, Numeral ps p.toNat)) ∧
      ∀ w ls ps (l p : UInt8), DashedShape (Text.trim s) w ls ps → Numeral ls l.toNat → Numeral ps p.toNat →
        ((∃ f, ofDashed s = .error f ∧ f.kind = .coordinate) ↔
          (∃ f, Variant.ofText w = .error f) ∨ ¬ l.toNat ≤ 4 ∨ ¬ (13 ≤ p.toNat ∧ p.toNat ≤ 18)) ∧
        (∀ f, Variant.ofText w = .error f → ofDashed s = .error f) ∧
        (∀ v, Variant.ofText w = .ok v →
          (¬ l.toNat ≤ 4 → ofDashed s = .error (.levelOutside l)) ∧
          (l.toNat ≤ 4 → ¬ (13 ≤ p.toNat ∧ p.toNat ≤ 18) → ofDashed s = .error (.positionOutside p))) ∧
        ∀ k, ofDashed s = .ok k ↔
          Variant.ofText w = .ok k.variant ∧ l.toNat = k.level.val ∧ p.toNat = k.position.val) ∧
    (∀ v (l p : UInt8),
      ((ofDashed (v ++ "-" ++ toString l.toNat ++ "-" ++ toString p.toNat)).isOk ↔ isValidTriple l p v) ∧
      ∀ w, Variant.ofText v = .ok w →
        ofDashed (v ++ "-" ++ toString l.toNat ++ "-" ++ toString p.toNat) = ofBytes l p w) ∧
    ∀ k : StateKey, ofDashed k.dashed = .ok k := by
  refine ⟨fun s => ⟨Text.trimmed_trim s, ofDashed_validation_iff, ?_⟩, ?_, ?_⟩
  · intro w ls ps l p hshape hl hp
    rw [ofDashed_of_shape hshape hl hp]
    refine ⟨?_, fun f hf => by rw [hf]; rfl, fun v hv => ⟨fun hlevel => ?_, fun hlevel hposition => ?_⟩,
      fun k => bind_ofBytes_eq_ok_iff⟩
    · rw [bind_ofBytes_coordinate_iff, isValidTriple_iff, not_and_or, not_and_or]
      cases Variant.ofText w <;> simp
    · rw [hv]
      exact ofBytes_levelOutside hlevel p v
    · rw [hv]
      exact ofBytes_positionOutside hlevel hposition v
  · intro v l p
    rw [ofDashed_triple]
    refine ⟨isOk_bind_ofBytes_iff, fun w hw => ?_⟩
    rw [hw]
    rfl
  · intro k
    have hl := Level.ofByte_eq_ok_iff.mp k.level.ofByte_toByte
    have hp := Position.ofByte_eq_ok_iff.mp k.position.ofByte_toByte
    have htext : k.dashed = k.variant.name ++ "-" ++ toString k.level.toByte.toNat ++ "-" ++
        toString k.position.toByte.toNat := by
      rw [hl, hp]
      rfl
    rw [htext, ofDashed_triple, bind_ofBytes_eq_ok_iff]
    exact ⟨Variant.ofText_name _, hl, hp⟩

/-- The variant may be any text: if it names none, this is reported before the level outside the board. -/
theorem ofDashed_grammar_dashes :
    ofDashed " a-b-9-015 " = .error (.unknownVariant "a-b") ∧
      ofDashed " zeta-9-015 " = .error (.levelOutside 9) := by
  have hl : Numeral ['9'] (9 : UInt8).toNat := .natText 9
  have hp : Numeral ['0', '1', '5'] (15 : UInt8).toNat := (Numeral.natText 15).zero_cons
  have hunknown : DashedShape (Text.trim " a-b-9-015 ") "a-b" ['9'] ['0', '1', '5'] :=
    ⟨by decide, by decide, by decide⟩
  have hknown : DashedShape (Text.trim " zeta-9-015 ") "zeta" ['9'] ['0', '1', '5'] :=
    ⟨by decide, by decide, by decide⟩
  constructor
  · exact ((ofDashed_grammar.1 " a-b-9-015 ").2.2 _ _ _ 9 15 hunknown hl hp).2.1 _ (by decide)
  · exact (((ofDashed_grammar.1 " zeta-9-015 ").2.2 _ _ _ 9 15 hknown hl hp).2.2.1 .zeta (by decide)).1 (by decide)

end StateKey

end BirdBoard
