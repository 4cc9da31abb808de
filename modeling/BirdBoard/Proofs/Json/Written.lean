import BirdBoard.Json.Value
import BirdBoard.Proofs.Json.Reader

/-! # Reading written texts

  Both texts of a JSON value, the compact and the pretty one, are JSON, and their tree is that of the value.

  - Strings: a character is escaped to one piece, and the piece stands for the character whatever follows it
    (`exists_piece`). So a string comes back as it was, of whatever characters it is made (`str_stringText`).
  - Numbers: the digits of a number are a whole literal (`number_natText`).
  - Values: `Value.node` is the tree of a value. By induction on the value, its compact text is derived with no blanks
    (`value_compact`), and its pretty text with blanks where a line ends (`value_pretty`).
-/

namespace BirdBoard.Json

/-! ### Strings -/

/-- Whether a piece stands for a character by itself, whatever pieces follow it. -/
def Piece.Spells (p : Piece) (c : Char) : Prop := ∀ ps, joinPieces (p :: ps) = (joinPieces ps).map (c :: ·)

theorem Piece.char_spells (c : Char) : (Piece.char c).Spells c := fun ps => by
  rw [joinPieces]

/-- The unit of a control character is no half of a pair. -/
theorem Piece.unit_spells {c : Char} (h : c.toNat < 0x20) : (Piece.unit c.toNat).Spells c := by
  have hleading : isLeading c.toNat = false := by simp [isLeading]; omega
  have htrailing : isTrailing c.toNat = false := by simp [isTrailing]; omega
  rintro (_ | ⟨_ | _, _⟩) <;> simp [joinPieces, hleading, htrailing]

/-- The two last digits of the escape of a control character give its number. -/
theorem hexUnit?_hexDigit :
    ∀ n < 0x20, hexUnit? '0' '0' (Value.hexDigit (n / 16)) (Value.hexDigit (n % 16)) = some n := by
  decide

/-- The three ways in which a character stands in a string. -/
theorem escapeChar_cases (c : Char) :
    (∃ e, escaped? e = some c ∧ Value.escapeChar c = ['\\', e]) ∨
    (c.toNat < 0x20 ∧
      Value.escapeChar c = ['\\', 'u', '0', '0', Value.hexDigit (c.toNat / 16), Value.hexDigit (c.toNat % 16)]) ∨
    (c ≠ '"' ∧ c ≠ '\\' ∧ ¬ c.toNat < 0x20 ∧ Value.escapeChar c = [c]) := by
  by_cases hshort : c ∈ ['"', '\\', '\x08', '\x0c', '\n', '\r', '\t']
  · left
    simp only [List.mem_cons, List.not_mem_nil, or_false] at hshort
    rcases hshort with rfl | rfl | rfl | rfl | rfl | rfl | rfl <;> refine ⟨_, ?_, rfl⟩ <;> rfl
  · right
    simp only [List.mem_cons, List.not_mem_nil, or_false, not_or] at hshort
    by_cases hcontrol : c.toNat < 0x20 <;> simp [Value.escapeChar, hshort, hcontrol]

/-- An escaped character is one piece, and the piece stands for the character. -/
theorem exists_piece (c : Char) : ∃ p : Piece, p.Spells c ∧
    ∀ {cs ps rest}, Grammar.Pieces cs ps rest → Grammar.Pieces (Value.escapeChar c ++ cs) (p :: ps) rest := by
  obtain ⟨e, he, h⟩ | ⟨hcontrol, h⟩ | ⟨hquote, hescape, hcontrol, h⟩ := escapeChar_cases c <;> rw [h]
  · exact ⟨.char c, Piece.char_spells c, .short he⟩
  · exact ⟨.unit c.toNat, Piece.unit_spells hcontrol, .unit (hexUnit?_hexDigit _ hcontrol)⟩
  · exact ⟨.char c, Piece.char_spells c, .raw (Nat.not_lt.mp hcontrol) hquote hescape⟩

/-- An escaped text goes up to its closing quote, and its pieces give it back. -/
theorem pieces_escaped (text rest : List Char) : ∃ ps, joinPieces ps = some text ∧
    Grammar.Pieces (text.flatMap Value.escapeChar ++ '"' :: rest) ps rest := by
  induction text with
  | nil => exact ⟨[], by rw [joinPieces], .close⟩
  | cons c text ih =>
    obtain ⟨ps, htext, hps⟩ := ih
    obtain ⟨p, hspells, hp⟩ := exists_piece c
    refine ⟨p :: ps, by simp [hspells ps, htext], ?_⟩
    rw [List.flatMap_cons, List.append_assoc]
    exact hp hps

/-- A string is read back, whatever its characters are. -/
theorem str_stringText (s : String) (rest : List Char) : Grammar.Str (Value.stringText s ++ rest) (some s) rest := by
  obtain ⟨ps, hs, hps⟩ := pieces_escaped s.toList rest
  have htext : (joinPieces ps).map String.ofList = some s := by simp [hs]
  rw [Value.stringText, List.cons_append, List.append_assoc, List.singleton_append, ← htext]
  exact .quoted hps

/-! ### Numbers -/

/-- The digits of a number begin with a zero only if there is no other digit. -/
theorem toDigits_eq_zero_cons {n : Nat} {ds : List Char} (h : Nat.toDigits 10 n = '0' :: ds) : ds = [] := by
  induction n using Nat.strongRecOn generalizing ds with
  | ind n ih =>
    by_cases hn : n < 10
    · rw [Nat.toDigits_of_lt_base hn] at h
      exact (List.cons.inj h).2.symm
    · rw [Nat.toDigits_of_base_le (by decide) (by omega)] at h
      -- The digits of the tenth begin with the zero too, so they are that zero, and the tenth is zero.
      obtain ⟨d, ds', htenth⟩ := List.exists_cons_of_ne_nil (Nat.toDigits_ne_nil (n := n / 10) (b := 10))
      rw [htenth] at h
      obtain rfl := (List.cons.inj h).1
      have hvalue : Nat.ofDigitChars 10 (Nat.toDigits 10 (n / 10)) 0 = n / 10 :=
        Nat.ofDigitChars_toDigits (by decide) (by decide)
      rw [htenth, ih (n / 10) (by omega) htenth] at hvalue
      have hzero : Nat.ofDigitChars 10 ['0'] 0 = 0 := rfl
      omega

namespace Literal

/-- The literal of a number: its digits. -/
def ofNat (n : Nat) : Literal := { negative := false, whole := Value.natText n, fraction := none, exponent := none }

/-- The literal of a number that fits into 64 bits is that number. -/
theorem number?_ofNat {n : Nat} (h : n < wordSize) : (ofNat n).number? = some (.integer n) := by
  have hvalue : Text.digitsValue (Value.natText n) = n := Nat.ofDigitChars_toDigits (by decide) (by decide)
  simp [number?, ofNat, hvalue, h]

/-- No two numbers have the same digits. -/
theorem ofNat_injective : Function.Injective ofNat := by
  intro m n h
  have hvalue (k : Nat) : Nat.ofDigitChars 10 (Value.natText k) 0 = k :=
    Nat.ofDigitChars_toDigits (by decide) (by decide)
  rw [← hvalue m, ← hvalue n, (Literal.mk.inj h).2.1]

end Literal

/-- The digits of a number are its literal. -/
theorem number_natText (n : Nat) (rest : List Char) :
    Grammar.Number (Value.natText n ++ rest) (.ofNat n) rest := by
  have hdigits : ∀ d ∈ Value.natText n, d.isDigit := fun _ => Nat.isDigit_of_mem_toDigits (by decide) (by decide)
  refine .positive (.mk ⟨Nat.toDigits_ne_nil, hdigits⟩ ?_ .none .none)
  intro hhead
  obtain ⟨ds, hds⟩ := List.head?_eq_some_iff.mp hhead
  rw [hds, toDigits_eq_zero_cons hds]

/-! ### Trees of values -/

namespace Value

mutual

/-- The tree of a value. -/
def node : Value → Node
  | null => .null
  | bool b => .bool b
  | nat n => .number (.ofNat n)
  | string s => .string (some s)
  | array vs => .array (nodes vs) true
  | object ms => .object (memberNodes ms) true

/-- The trees of the items of a list. -/
def nodes : List Value → List Node
  | [] => []
  | v :: vs => node v :: nodes vs

/-- The trees of the members of an object, with their names. -/
def memberNodes : List (String × Value) → List (Option String × Node)
  | [] => []
  | (k, v) :: ms => (some k, node v) :: memberNodes ms

end

end Value

namespace Grammar

/-! ### The compact text -/

-- The induction is on the value, its items and its members together. What stands behind the first item of a list, or
-- the first member of an object, is a list of its own.
mutual

/-- The compact text of a value is derived as its tree, whatever stands behind it. -/
theorem value_compact (v : Json.Value) (rest : List Char) : Value (v.compact ++ rest) v.node rest := by
  match v with
  | .null => exact .null
  | .bool true => exact .isTrue
  | .bool false => exact .isFalse
  | .nat n => exact .number (number_natText n rest)
  | .string s => exact .string (str_stringText s rest)
  | .array [] => exact .emptyArray .done
  | .array (v :: vs) =>
    rw [Json.Value.compact, List.cons_append, List.append_assoc]
    exact .array (items_compact vs .done (value_compact v _))
  | .object [] => exact .emptyObject .done
  | .object ((k, v) :: ms) =>
    rw [Json.Value.compact, List.cons_append, List.append_assoc, List.cons_append, List.append_assoc]
    exact .object (members_compact ms .done (str_stringText k _) .done .done (value_compact v _))

theorem items_compact (vs : List Json.Value) {cs cs₁ rest : List Char} {item : Node} (h₁ : Blanks cs cs₁)
    (hitem : Value cs₁ item (Json.Value.compactItems vs ++ rest)) :
    Items cs (item :: Json.Value.nodes vs) rest := by
  match vs with
  | [] => exact .last h₁ hitem .done
  | v :: vs =>
    rw [Json.Value.compactItems, List.cons_append, List.append_assoc] at hitem
    exact .more h₁ hitem .done (items_compact vs .done (value_compact v _))

theorem members_compact (ms : List (String × Json.Value)) {cs cs₁ cs₂ cs₃ cs₄ rest : List Char}
    {name : Option String} {value : Node} (h₁ : Blanks cs cs₁) (hname : Str cs₁ name cs₂)
    (h₂ : Blanks cs₂ (':' :: cs₃)) (h₃ : Blanks cs₃ cs₄)
    (hvalue : Value cs₄ value (Json.Value.compactMembers ms ++ rest)) :
    Members cs ((name, value) :: Json.Value.memberNodes ms) rest := by
  match ms with
  | [] => exact .last h₁ hname h₂ h₃ hvalue .done
  | (k, v) :: ms =>
    rw [Json.Value.compactMembers, List.cons_append, List.append_assoc, List.cons_append, List.append_assoc] at hvalue
    exact .more h₁ hname h₂ h₃ hvalue .done
      (members_compact ms .done (str_stringText k _) .done .done (value_compact v _))

end

/-- The compact text of a value is a whole text. -/
theorem text_compact (v : Json.Value) : Text v.text v.node := by
  refine ⟨v.compact, [], ?_, ?_, .done⟩
  · rw [Json.Value.text, String.toList_ofList]
    exact .done
  · simpa using value_compact v []

/-! ### The pretty text -/

/-- The end of a line and the indent of the next one are blanks. -/
theorem blanks_newLine (depth : Nat) (rest : List Char) : Blanks (Json.Value.newLine depth ++ rest) rest := by
  have hindent (k : Nat) : Blanks (List.replicate k ' ' ++ rest) rest := by
    induction k with
    | zero => exact .done
    | succ k ih => exact .more (by decide) ih
  exact .more (by decide) (hindent _)

mutual

/-- The pretty text of a value is derived as its tree, at any depth and whatever stands behind it. -/
theorem value_pretty (depth : Nat) (v : Json.Value) (rest : List Char) :
    Value (v.pretty depth ++ rest) v.node rest := by
  match v with
  | .null => exact .null
  | .bool true => exact .isTrue
  | .bool false => exact .isFalse
  | .nat n => exact .number (number_natText n rest)
  | .string s => exact .string (str_stringText s rest)
  | .array [] => exact .emptyArray .done
  | .array (v :: vs) =>
    simp only [Json.Value.pretty, List.cons_append, List.append_assoc]
    exact .array (items_pretty depth vs (blanks_newLine _ _) (value_pretty _ v _))
  | .object [] => exact .emptyObject .done
  | .object ((k, v) :: ms) =>
    simp only [Json.Value.pretty, List.cons_append, List.append_assoc]
    exact .object (members_pretty depth ms (blanks_newLine _ _) (str_stringText k _) .done
      (.more (by decide) .done) (value_pretty _ v _))

theorem items_pretty (depth : Nat) (vs : List Json.Value) {cs cs₁ rest : List Char} {item : Node} (h₁ : Blanks cs cs₁)
    (hitem : Value cs₁ item (Json.Value.prettyItems depth vs ++ rest)) :
    Items cs (item :: Json.Value.nodes vs) rest := by
  match vs with
  | [] =>
    rw [Json.Value.prettyItems, List.append_assoc] at hitem
    exact .last h₁ hitem (blanks_newLine _ _)
  | v :: vs =>
    simp only [Json.Value.prettyItems, List.cons_append, List.append_assoc] at hitem
    exact .more h₁ hitem .done (items_pretty depth vs (blanks_newLine _ _) (value_pretty _ v _))

theorem members_pretty (depth : Nat) (ms : List (String × Json.Value)) {cs cs₁ cs₂ cs₃ cs₄ rest : List Char}
    {name : Option String} {value : Node} (h₁ : Blanks cs cs₁) (hname : Str cs₁ name cs₂)
    (h₂ : Blanks cs₂ (':' :: cs₃)) (h₃ : Blanks cs₃ cs₄)
    (hvalue : Value cs₄ value (Json.Value.prettyMembers depth ms ++ rest)) :
    Members cs ((name, value) :: Json.Value.memberNodes ms) rest := by
  match ms with
  | [] =>
    rw [Json.Value.prettyMembers, List.append_assoc] at hvalue
    exact .last h₁ hname h₂ h₃ hvalue (blanks_newLine _ _)
  | (k, v) :: ms =>
    simp only [Json.Value.prettyMembers, List.cons_append, List.append_assoc] at hvalue
    exact .more h₁ hname h₂ h₃ hvalue .done
      (members_pretty depth ms (blanks_newLine _ _) (str_stringText k _) .done (.more (by decide) .done)
        (value_pretty _ v _))

end

end Grammar

end BirdBoard.Json
