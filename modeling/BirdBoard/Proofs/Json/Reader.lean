import BirdBoard.Proofs.Json.Grammar

/-! # The reader reads what the grammar derives

  - The reader accepts what the grammar derives (`readValue_of_value`, with fuel for two steps a character) and nothing
    else (`Sound`). So a text has one reading at most (`Text.unique`).
  - Typed data is read off a text exactly if the text is JSON and its tree is the data (`Decoder.ofText_eq_ok_iff`).
-/

namespace BirdBoard.Json

namespace Grammar

/-! ### Lengths and heads -/

theorem Pieces.length_le {cs rest : List Char} {ps : List Piece} (h : Pieces cs ps rest) :
    rest.length ≤ cs.length := by
  induction h with
  | close => simp
  | raw _ _ _ _ ih => exact Nat.le_succ_of_le ih
  | short _ _ ih => simp only [List.length_cons]; omega
  | unit _ _ ih => simp only [List.length_cons]; omega

theorem Str.length_le {cs rest : List Char} {text : Option String} (h : Str cs text rest) :
    rest.length ≤ cs.length := by
  obtain ⟨h⟩ := h
  exact Nat.le_succ_of_le h.length_le

theorem Number.length_le {cs rest : List Char} {l : Literal} (h : Number cs l rest) : rest.length ≤ cs.length := by
  have hfraction {cs rest : List Char} {fraction : Option (List Char)} (h : Fraction cs fraction rest) :
      rest.length ≤ cs.length := by
    cases h with
    | none => exact Nat.le_refl _
    | some => simp only [List.length_cons, List.length_append]; omega
  have hexponent {cs rest : List Char} {exponent : Option (Bool × List Char)} (h : Exponent cs exponent rest) :
      rest.length ≤ cs.length := by
    rcases h with _ | ⟨_, hsign, _⟩
    · exact Nat.le_refl _
    · cases hsign <;> simp only [List.length_cons, List.length_append] <;> omega
  have hunsigned {cs rest : List Char} {negative : Bool} (h : Unsigned cs negative l rest) :
      rest.length ≤ cs.length := by
    obtain ⟨_, _, hf, he⟩ := h
    have := hfraction hf
    have := hexponent he
    simp only [List.length_append]
    omega
  cases h with
  | positive h => exact hunsigned h
  | negative h => exact Nat.le_succ_of_le (hunsigned h)

mutual

theorem Value.length_le {cs rest : List Char} {n : Node} (h : Value cs n rest) : rest.length ≤ cs.length := by
  match h with
  | .null => exact Nat.le_add_right _ 4
  | .isTrue => exact Nat.le_add_right _ 4
  | .isFalse => exact Nat.le_add_right _ 5
  | .number h => exact h.length_le
  | .string h => exact h.length_le
  | .emptyArray h | .emptyObject h =>
    have := h.length_le
    simp only [List.length_cons] at this ⊢
    omega
  | .array h => exact Nat.le_succ_of_le h.length_le
  | .object h => exact Nat.le_succ_of_le h.length_le

theorem Items.length_le {cs rest : List Char} {items : List Node} (h : Items cs items rest) :
    rest.length ≤ cs.length := by
  match h with
  | .last h₁ hitem h₂ =>
    have := h₁.length_le
    have := hitem.length_le
    have := h₂.length_le
    simp only [List.length_cons] at *
    omega
  | .more h₁ hitem h₂ hitems =>
    have := h₁.length_le
    have := hitem.length_le
    have := h₂.length_le
    have := hitems.length_le
    simp only [List.length_cons] at *
    omega

theorem Members.length_le {cs rest : List Char} {members : List (Option String × Node)}
    (h : Members cs members rest) : rest.length ≤ cs.length := by
  match h with
  | .last h₁ hname h₂ h₃ hvalue h₅ =>
    have := h₁.length_le
    have := hname.length_le
    have := h₂.length_le
    have := h₃.length_le
    have := hvalue.length_le
    have := h₅.length_le
    simp only [List.length_cons] at *
    omega
  | .more h₁ hname h₂ h₃ hvalue h₅ hmembers =>
    have := h₁.length_le
    have := hname.length_le
    have := h₂.length_le
    have := h₃.length_le
    have := hvalue.length_le
    have := h₅.length_le
    have := hmembers.length_le
    simp only [List.length_cons] at *
    omega

end

/-- The value of a member is no longer than the member and what follows it. -/
theorem member_length_le {cs cs₁ cs₂ cs₃ cs₄ : List Char} {name : Option String} (h₁ : Blanks cs cs₁)
    (hname : Str cs₁ name cs₂) (h₂ : Blanks cs₂ (':' :: cs₃)) (h₃ : Blanks cs₃ cs₄) : cs₄.length ≤ cs.length := by
  have := h₁.length_le
  have := hname.length_le
  have := h₂.length_le
  have := h₃.length_le
  simp only [List.length_cons] at *
  omega

theorem Number.head {cs rest : List Char} {l : Literal} (h : Number cs l rest) :
    ∃ c cs', cs = c :: cs' ∧ (c.isDigit ∨ c = '-') := by
  cases h with
  | positive h =>
    obtain ⟨⟨hne, hdigits⟩, -, -, -⟩ := h
    obtain ⟨d, ds, rfl⟩ := List.exists_cons_of_ne_nil hne
    exact ⟨d, _, List.cons_append, .inl (hdigits d List.mem_cons_self)⟩
  | negative h => exact ⟨_, _, rfl, .inr rfl⟩

theorem ne_of_isDigit {d c : Char} (hd : d.isDigit) (hc : ¬ c.isDigit) : d ≠ c := fun h => hc (h ▸ hd)

/-- What a number begins with begins nothing else. -/
theorem ne_of_number {c m : Char} (hc : c.isDigit ∨ c = '-') (hm : ¬ m.isDigit) (hminus : m ≠ '-') : c ≠ m := by
  rcases hc with hc | rfl
  · exact ne_of_isDigit hc hm
  · exact hminus.symm

theorem isSpace_of_number {c : Char} (hc : c.isDigit ∨ c = '-') : isSpace c = false := by
  simp only [isSpace, Bool.or_eq_false_iff, beq_eq_false_iff_ne]
  exact ⟨⟨⟨ne_of_number hc (by decide) (by decide), ne_of_number hc (by decide) (by decide)⟩,
    ne_of_number hc (by decide) (by decide)⟩, ne_of_number hc (by decide) (by decide)⟩

/-- A value begins neither with a blank nor with the end of a list. -/
theorem Value.head {cs rest : List Char} {n : Node} (h : Value cs n rest) :
    ∃ c cs', cs = c :: cs' ∧ isSpace c = false ∧ c ≠ ']' := by
  cases h with
  | number h =>
    obtain ⟨c, cs', hcs, hc⟩ := h.head
    exact ⟨c, cs', hcs, isSpace_of_number hc, ne_of_number hc (by decide) (by decide)⟩
  | string h =>
    obtain ⟨h⟩ := h
    exact ⟨_, _, rfl, by decide, by decide⟩
  | _ => exact ⟨_, _, rfl, by decide, by decide⟩

/-- Blanks do not go on with a number. -/
theorem Blanks.ends {cs rest : List Char} (h : Blanks cs rest) (hrest : Literal.Ends rest) : Literal.Ends cs := by
  cases h with
  | done => exact hrest
  | @more c cs _ hc h =>
    intro c' hc'
    obtain rfl := Option.some.inj hc'
    have hspace : c = ' ' ∨ c = '\n' ∨ c = '\t' ∨ c = '\r' := by simpa [isSpace, or_assoc] using hc
    rcases hspace with rfl | rfl | rfl | rfl <;> decide

theorem ends_nil : Literal.Ends [] := by simp [Literal.Ends]

theorem ends_comma (cs : List Char) : Literal.Ends (',' :: cs) := by simp [Literal.Ends]

theorem ends_bracket (cs : List Char) : Literal.Ends (']' :: cs) := by simp [Literal.Ends]

theorem ends_brace (cs : List Char) : Literal.Ends ('\x7d' :: cs) := by simp [Literal.Ends]

/-! ### The reader accepts what the grammar derives -/

theorem readValue_blanks {cs rest : List Char} (h : Blanks cs rest) (fuel : Nat) :
    Node.readValue fuel cs = Node.readValue fuel rest := by
  cases fuel with
  | zero => rfl
  | succ fuel => rw [Node.readValue, Node.readValue, h.skipSpace_eq]

theorem readItems_blanks {cs rest : List Char} (h : Blanks cs rest) (fuel : Nat) :
    Node.readItems fuel cs = Node.readItems fuel rest := by
  cases fuel with
  | zero => rfl
  | succ fuel => rw [Node.readItems, Node.readItems, readValue_blanks h]

theorem readMembers_blanks {cs rest : List Char} (h : Blanks cs rest) (fuel : Nat) :
    Node.readMembers fuel cs = Node.readMembers fuel rest := by
  cases fuel with
  | zero => rfl
  | succ fuel => rw [Node.readMembers, Node.readMembers, h.skipSpace_eq]

theorem readValue_number {cs rest : List Char} {l : Literal} (h : Number cs l rest) (hrest : Literal.Ends rest)
    (fuel : Nat) : Node.readValue (fuel + 1) cs = (.number l, some rest) := by
  have hscan := scan_complete h hrest
  obtain ⟨c, cs', rfl, hc⟩ := h.head
  rw [Node.readValue, skipSpace_cons (isSpace_of_number hc)]
  -- No other value begins like a number.
  split
  case h_4 =>
    rw [Node.readAtom, Node.readNumber, hscan] <;>
      exact fun _ heq => ne_of_number hc (by decide) (by decide) (List.cons.inj heq).1
  all_goals
    next heq => exact absurd (List.cons.inj heq).1 (ne_of_number hc (by decide) (by decide))

theorem readValue_string {cs rest : List Char} {text : Option String} (h : Str cs text rest) (fuel : Nat) :
    Node.readValue (fuel + 1) cs = (.string text, some rest) := by
  obtain ⟨h⟩ := h
  rw [Node.readValue, skipSpace_cons (by decide)]
  simp only [Node.readString, scanString_eq_some_iff.mpr (.quoted h)]

/-- The items of a list begin with no end of a list. -/
theorem Items.head {cs rest : List Char} {items : List Node} (h : Items cs items rest) :
    ∃ c cs', skipSpace cs = c :: cs' ∧ c ≠ ']' := by
  have hfirst {cs cs₁ cs₂ : List Char} {item : Node} (h₁ : Blanks cs cs₁) (hitem : Value cs₁ item cs₂) :
      ∃ c cs', skipSpace cs = c :: cs' ∧ c ≠ ']' := by
    obtain ⟨c, cs', rfl, hspace, hc⟩ := hitem.head
    exact ⟨c, cs', h₁.skipSpace_cons hspace, hc⟩
  cases h with
  | last h₁ hitem _ => exact hfirst h₁ hitem
  | more h₁ hitem _ _ => exact hfirst h₁ hitem

/-- The members of an object begin with a name. -/
theorem Members.head {cs rest : List Char} {members : List (Option String × Node)} (h : Members cs members rest) :
    ∃ cs', skipSpace cs = '"' :: cs' := by
  have hfirst {cs cs₁ cs₂ : List Char} {name : Option String} (h₁ : Blanks cs cs₁) (hname : Str cs₁ name cs₂) :
      ∃ cs', skipSpace cs = '"' :: cs' := by
    obtain ⟨hname⟩ := hname
    exact ⟨_, h₁.skipSpace_cons (by decide)⟩
  cases h with
  | last h₁ hname _ _ _ _ => exact hfirst h₁ hname
  | more h₁ hname _ _ _ _ _ => exact hfirst h₁ hname

-- The induction is on the derivation. The fuel pays for two steps a character, one into a list and one into its item.
mutual

/-- With fuel for two steps a character, a value is read up to what stands behind it. -/
theorem readValue_of_value {cs rest : List Char} {n : Node} (h : Value cs n rest) (hrest : Literal.Ends rest)
    {fuel : Nat} (hfuel : 2 * cs.length ≤ fuel) : Node.readValue fuel cs = (n, some rest) := by
  have hpos : 0 < fuel := by
    obtain ⟨c, cs', rfl, -⟩ := h.head
    simp only [List.length_cons] at hfuel
    omega
  obtain ⟨fuel, rfl⟩ := Nat.exists_eq_add_one.mpr hpos
  match h with
  | .null => rfl
  | .isTrue => rfl
  | .isFalse => rfl
  | .number h => exact readValue_number h hrest fuel
  | .string h => exact readValue_string h fuel
  | .emptyArray h =>
    rw [Node.readValue, skipSpace_cons (by decide)]
    simp only [h.skipSpace_cons (c := ']') (by decide)]
  | @Value.array cs _ _ h =>
    obtain ⟨c, cs', hcs, hc⟩ := h.head
    simp only [List.length_cons] at hfuel
    obtain ⟨fuel, rfl⟩ := Nat.exists_eq_add_one.mpr (show 0 < fuel by omega)
    have hitems := readItems_of_items h (show 2 * cs.length ≤ fuel by omega)
    rw [readItems_blanks (blanks_skipSpace cs), hcs] at hitems
    rw [Node.readValue, skipSpace_cons (by decide)]
    simp only [hcs]
    split
    · next heq => exact absurd (List.cons.inj heq).1 hc
    · rw [hitems]
  | .emptyObject h =>
    rw [Node.readValue, skipSpace_cons (by decide)]
    simp only [h.skipSpace_cons (c := '\x7d') (by decide)]
  | @Value.object cs _ _ h =>
    obtain ⟨cs', hcs⟩ := h.head
    simp only [List.length_cons] at hfuel
    obtain ⟨fuel, rfl⟩ := Nat.exists_eq_add_one.mpr (show 0 < fuel by omega)
    have hmembers := readMembers_of_members h (show 2 * cs.length ≤ fuel by omega)
    rw [readMembers_blanks (blanks_skipSpace cs), hcs] at hmembers
    rw [Node.readValue, skipSpace_cons (by decide)]
    simp only [hcs]
    split
    · next heq => exact absurd (List.cons.inj heq).1 (by decide)
    · rw [hmembers]

theorem readItems_of_items {cs rest : List Char} {items : List Node} (h : Items cs items rest) {fuel : Nat}
    (hfuel : 2 * cs.length ≤ fuel) : Node.readItems (fuel + 1) cs = ((items, true), some rest) := by
  match h with
  | .last h₁ hitem h₂ =>
    have hle := h₁.length_le
    have hread := readValue_of_value hitem (h₂.ends (ends_bracket _)) (show _ ≤ fuel by omega)
    rw [readItems_blanks h₁, Node.readItems, hread]
    simp only [h₂.skipSpace_cons (c := ']') (by decide)]
  | .more h₁ hitem h₂ hitems =>
    have hle := h₁.length_le
    have hle' := hitem.length_le
    have hle'' := h₂.length_le
    simp only [List.length_cons] at hle''
    have hread := readValue_of_value hitem (h₂.ends (ends_comma _)) (show _ ≤ fuel by omega)
    obtain ⟨fuel, rfl⟩ := Nat.exists_eq_add_one.mpr (show 0 < fuel by omega)
    have hrest := readItems_of_items hitems (show _ ≤ fuel by omega)
    rw [readItems_blanks h₁, Node.readItems, hread]
    simp only [h₂.skipSpace_cons (c := ',') (by decide), hrest]

theorem readMembers_of_members {cs rest : List Char} {members : List (Option String × Node)}
    (h : Members cs members rest) {fuel : Nat} (hfuel : 2 * cs.length ≤ fuel) :
    Node.readMembers (fuel + 1) cs = ((members, true), some rest) := by
  match h with
  | .last h₁ hname h₂ h₃ hvalue h₅ =>
    have hlength : 2 * _ ≤ fuel := Nat.le_trans (Nat.mul_le_mul_left 2 (member_length_le h₁ hname h₂ h₃)) hfuel
    have hread := readValue_of_value hvalue (h₅.ends (ends_brace _)) hlength
    rw [← readValue_blanks h₃] at hread
    obtain ⟨hname⟩ := hname
    rw [readMembers_blanks h₁, Node.readMembers, skipSpace_cons (by decide)]
    simp only [scanString_eq_some_iff.mpr (.quoted hname), h₂.skipSpace_cons (c := ':') (by decide), hread,
      h₅.skipSpace_cons (c := '\x7d') (by decide)]
  | .more h₁ hname h₂ h₃ hvalue h₅ hmembers =>
    have hle := member_length_le h₁ hname h₂ h₃
    have hle' := hvalue.length_le
    have hle'' := h₅.length_le
    simp only [List.length_cons] at hle''
    have hread := readValue_of_value hvalue (h₅.ends (ends_comma _)) (show _ ≤ fuel by omega)
    obtain ⟨fuel, rfl⟩ := Nat.exists_eq_add_one.mpr (show 0 < fuel by omega)
    have hrest := readMembers_of_members hmembers (show _ ≤ fuel by omega)
    rw [← readValue_blanks h₃] at hread
    obtain ⟨hname⟩ := hname
    rw [readMembers_blanks h₁, Node.readMembers, skipSpace_cons (by decide)]
    simp only [scanString_eq_some_iff.mpr (.quoted hname), h₂.skipSpace_cons (c := ':') (by decide), hread,
      h₅.skipSpace_cons (c := ',') (by decide), hrest]

end

/-! ### The reader accepts nothing else -/

theorem readAtom_sound {cs rest : List Char} {n : Node} (h : Node.readAtom cs = (n, some rest)) : Value cs n rest := by
  unfold Node.readAtom at h
  split at h
  · cases h
    exact .null
  · cases h
    exact .isTrue
  · cases h
    exact .isFalse
  · unfold Node.readNumber at h
    split at h
    · next hscan =>
      cases h
      exact .number (scan_sound hscan)
    · cases h

theorem readString_sound {cs rest : List Char} {n : Node} (h : Node.readString cs = (n, some rest)) :
    Value ('"' :: cs) n rest := by
  unfold Node.readString at h
  split at h
  · next hscan =>
    cases h
    exact .string (scanString_eq_some_iff.mp hscan)
  · cases h

/-- What is read off the front of a text with the text behind it is what the grammar derives. -/
structure Sound (fuel : Nat) : Prop where
  value : ∀ {cs rest n}, Node.readValue fuel cs = (n, some rest) → ∃ cs', Blanks cs cs' ∧ Value cs' n rest
  items : ∀ {cs rest items closed}, Node.readItems fuel cs = ((items, closed), some rest) →
    closed = true ∧ Items cs items rest
  members : ∀ {cs rest members closed}, Node.readMembers fuel cs = ((members, closed), some rest) →
    closed = true ∧ Members cs members rest

theorem Items.of_blanks {cs cs' rest : List Char} {items : List Node} (h : Blanks cs cs')
    (hitems : Items cs' items rest) : Items cs items rest := by
  cases hitems with
  | last h₁ hitem h₂ => exact .last (h.trans h₁) hitem h₂
  | more h₁ hitem h₂ hitems => exact .more (h.trans h₁) hitem h₂ hitems

theorem Members.of_blanks {cs cs' rest : List Char} {members : List (Option String × Node)} (h : Blanks cs cs')
    (hmembers : Members cs' members rest) : Members cs members rest := by
  cases hmembers with
  | last h₁ hname h₂ h₃ hvalue h₅ => exact .last (h.trans h₁) hname h₂ h₃ hvalue h₅
  | more h₁ hname h₂ h₃ hvalue h₅ hmembers => exact .more (h.trans h₁) hname h₂ h₃ hvalue h₅ hmembers

-- Every branch of the reader that gives a text behind a value is one rule of the grammar.
theorem sound (fuel : Nat) : Sound fuel := by
  induction fuel with
  | zero =>
    refine ⟨?_, ?_, ?_⟩
    · intro _ _ _ h; cases h
    · intro _ _ _ _ h; cases h
    · intro _ _ _ _ h; cases h
  | succ fuel ih =>
    refine ⟨?_, ?_, ?_⟩
    · intro cs rest n h
      have hblanks := blanks_skipSpace cs
      refine ⟨skipSpace cs, hblanks, ?_⟩
      rw [Node.readValue] at h
      split at h
      · next heq =>
        rw [heq]
        exact readString_sound h
      · next cs₁ heq =>
        rw [heq]
        have hblanks₁ := blanks_skipSpace cs₁
        split at h
        · next cs₂ heq₁ =>
          cases h
          exact .emptyArray (heq₁ ▸ hblanks₁)
        · generalize hread : Node.readItems fuel (skipSpace cs₁) = step at h
          obtain ⟨⟨items, closed⟩, rest'⟩ := step
          cases h
          obtain ⟨rfl, hitems⟩ := ih.items hread
          exact .array (hitems.of_blanks hblanks₁)
      · next cs₁ heq =>
        rw [heq]
        have hblanks₁ := blanks_skipSpace cs₁
        split at h
        · next cs₂ heq₁ =>
          cases h
          exact .emptyObject (heq₁ ▸ hblanks₁)
        · generalize hread : Node.readMembers fuel (skipSpace cs₁) = step at h
          obtain ⟨⟨members, closed⟩, rest'⟩ := step
          cases h
          obtain ⟨rfl, hmembers⟩ := ih.members hread
          exact .object (hmembers.of_blanks hblanks₁)
      · exact readAtom_sound h
    · intro cs rest items closed h
      rw [Node.readItems] at h
      split at h
      · cases h
      · next item rest₁ hread =>
        obtain ⟨cs', h₁, hitem⟩ := ih.value hread
        have h₂ := blanks_skipSpace rest₁
        split at h
        · next rest₂ heq =>
          generalize hread₂ : Node.readItems fuel rest₂ = step at h
          obtain ⟨⟨items, closed⟩, rest'⟩ := step
          cases h
          obtain ⟨rfl, hitems⟩ := ih.items hread₂
          exact ⟨rfl, .more h₁ hitem (heq ▸ h₂) hitems⟩
        · next heq =>
          cases h
          exact ⟨rfl, .last h₁ hitem (heq ▸ h₂)⟩
        · cases h
    · intro cs rest members closed h
      have h₁ := blanks_skipSpace cs
      rw [Node.readMembers] at h
      split at h
      · next cs₁ heq =>
        rw [heq] at h₁
        split at h
        · cases h
        · next name cs₂ hscan =>
          have hname := scanString_eq_some_iff.mp hscan
          have h₂ := blanks_skipSpace cs₂
          split at h
          · next cs₃ heq₂ =>
            rw [heq₂] at h₂
            split at h
            · cases h
            · next value cs₅ hread =>
              obtain ⟨cs₄, h₃, hvalue⟩ := ih.value hread
              have h₅ := blanks_skipSpace cs₅
              split at h
              · next cs₆ heq₅ =>
                generalize hread₂ : Node.readMembers fuel cs₆ = step at h
                obtain ⟨⟨members, closed⟩, rest'⟩ := step
                cases h
                obtain ⟨rfl, hmembers⟩ := ih.members hread₂
                exact ⟨rfl, .more h₁ hname h₂ h₃ hvalue (heq₅ ▸ h₅) hmembers⟩
              · next heq₅ =>
                cases h
                exact ⟨rfl, .last h₁ hname h₂ h₃ hvalue (heq₅ ▸ h₅)⟩
              · cases h
          · cases h
      · cases h

/-! ### Whole texts -/

/-- The front of a text is read exactly as the grammar derives it, if nothing behind it goes on with a number. -/
theorem read_of_value {cs cs' rest : List Char} {n : Node} (hblanks : Blanks cs cs') (h : Value cs' n rest)
    (hrest : Literal.Ends rest) : Node.read cs = (n, some rest) := by
  have hle := hblanks.length_le
  rw [Node.read, readValue_blanks hblanks]
  exact readValue_of_value h hrest (by omega)

theorem text_iff {s : String} {n : Node} :
    Text s n ↔ ∃ rest, Node.read s.toList = (n, some rest) ∧ skipSpace rest = [] := by
  constructor
  · rintro ⟨cs₁, cs₂, h₁, hvalue, h₂⟩
    exact ⟨cs₂, read_of_value h₁ hvalue (h₂.ends ends_nil), blanks_nil_iff.mp h₂⟩
  · rintro ⟨rest, hread, hrest⟩
    obtain ⟨cs₁, h₁, hvalue⟩ := (sound _).value hread
    exact ⟨cs₁, rest, h₁, hvalue, blanks_nil_iff.mpr hrest⟩

/-- A text has one reading. -/
theorem Text.unique {s : String} {n n' : Node} (h : Text s n) (h' : Text s n') : n = n' := by
  obtain ⟨rest, hread, -⟩ := text_iff.mp h
  obtain ⟨rest', hread', -⟩ := text_iff.mp h'
  exact (Prod.mk.inj (hread.symm.trans hread')).1

end Grammar

open Grammar

/-- A text that is JSON is read as its tree is. -/
theorem Decoder.ofText_of_text {α : Type} (d : Decoder α) {s : String} {n : Node} (h : Text s n) :
    d.ofText s = d n := by
  obtain ⟨rest, hread, hrest⟩ := text_iff.mp h
  rw [Decoder.ofText, Decoder.ofChars, hread]
  dsimp only
  split
  · next herror => exact herror.symm
  · next a hok => rw [Option.any_some, hrest, List.isEmpty_nil, if_pos rfl, hok]

/-- Typed data is read off a text exactly if the text is JSON and its tree is the data. -/
theorem Decoder.ofText_eq_ok_iff {α : Type} (d : Decoder α) {s : String} {a : α} :
    d.ofText s = .ok a ↔ ∃ n, Text s n ∧ d n = .ok a := by
  constructor
  · intro h
    generalize hread : Node.read s.toList = step at h
    obtain ⟨n, rest⟩ := step
    rw [Decoder.ofText, Decoder.ofChars, hread] at h
    dsimp only at h
    split at h
    · cases h
    · next b hb =>
      split at h
      · next hrest =>
        cases h
        obtain ⟨rest, rfl, hrest⟩ := (Option.any_eq_true _ _).mp hrest
        exact ⟨n, text_iff.mpr ⟨rest, hread, List.isEmpty_iff.mp hrest⟩, hb⟩
      · cases h
  · rintro ⟨n, htext, hn⟩
    rw [d.ofText_of_text htext, hn]

end BirdBoard.Json
