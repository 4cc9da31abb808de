import BirdBoard.Proofs.SwitchNotes

/-! # Comments and braces of the stylesheet

  A single stray mark would make a browser drop every rule behind it, so the text is scanned as a browser scans it.

  - `Stylesheet.scan` reads a text from left to right. It follows comments and counts the braces outside of them, and it
    gives up at the first mark that is out of place or nested too deep.
  - `Passes` says how a piece of text takes the scan from one place to another whatever stands behind it, so pieces are
    put together to lines, lines to blocks, and blocks to the text (`Passes.append`, `passes_flatMap`).
  - Labels, names and numbers hold no mark at all (`Unmarked`). So every block before the keyframes takes the scan from
    the start to the start and never opens a second brace; the keyframes open two.
  - `Stylesheet.scan_compile` is the result, for every registry and any edges.
-/

namespace BirdBoard

namespace Stylesheet

/-! ### The scan -/

/-- Where a scan stands. -/
structure Place where
  /-- Whether it is inside a comment. -/
  inComment : Bool
  /-- The number of open braces. -/
  depth : Nat
  deriving DecidableEq, Repr

/-- Outside of comments with no brace open. -/
def Place.start : Place := ⟨false, 0⟩

/-- Scans a text. A comment runs from its opening mark to the next closing mark, and braces count outside of comments
only. The scan gives nothing if a comment holds a second opening mark, if a brace closes that is not open, or if more
braces than the limit are open at once. -/
def scan (limit : Nat) : Place → List Char → Option Place
  | p, [] => some p
  | ⟨true, d⟩, '*' :: '/' :: cs => scan limit ⟨false, d⟩ cs
  | ⟨true, _⟩, '/' :: '*' :: _ => none
  | ⟨true, d⟩, _ :: cs => scan limit ⟨true, d⟩ cs
  | ⟨false, d⟩, '/' :: '*' :: cs => scan limit ⟨true, d⟩ cs
  | ⟨false, d⟩, '\x7b' :: cs => if d < limit then scan limit ⟨false, d + 1⟩ cs else none
  | ⟨false, 0⟩, '\x7d' :: _ => none
  | ⟨false, d + 1⟩, '\x7d' :: cs => scan limit ⟨false, d⟩ cs
  | ⟨false, d⟩, _ :: cs => scan limit ⟨false, d⟩ cs

variable {limit : Nat} {p q r : Place}

/-- A higher limit stops no scan. -/
theorem scan_mono {limit' : Nat} (hle : limit ≤ limit') {cs : List Char} (h : scan limit p cs = some q) :
    scan limit' p cs = some q := by
  fun_induction scan limit p cs <;> simp_all [scan]
  omega

-- Keyframes hold nested braces, so one level stops at them. The brace in the comment counts for neither scan.
example : scan 1 .start "/*\x7b*/k\x7b0%\x7b\x7d\x7d".toList = none ∧
    scan 2 .start "/*\x7b*/k\x7b0%\x7b\x7d\x7d".toList = some .start := by decide

/-- Every prefix of a scanned text is scanned, and never are more braces open than the limit. -/
theorem exists_scan_take {cs : List Char} (h : scan limit p cs = some q) (hp : p.depth ≤ limit) (n : Nat) :
    ∃ r, scan limit p (cs.take n) = some r ∧ r.depth ≤ limit := by
  -- A prefix that ends within a mark ends with a character that the scan skips.
  fun_induction scan limit p cs generalizing n with
  | case1 p => exact ⟨p, by simp [scan], hp⟩
  | case2 d cs ih =>
    match n with
    | 0 => exact ⟨⟨true, d⟩, by simp [scan], hp⟩
    | 1 => exact ⟨⟨true, d⟩, by simp [scan], hp⟩
    | n + 2 => exact ih h hp n
  | case3 => cases h
  | case4 d c cs hclose hopen ih =>
    match n with
    | 0 => exact ⟨⟨true, d⟩, by simp [scan], hp⟩
    | n + 1 =>
      have hskip : scan limit ⟨true, d⟩ (c :: cs.take n) = scan limit ⟨true, d⟩ (cs.take n) := by
        rw [scan]
        · intro rest hc hrest
          exact hclose (rest ++ cs.drop n) hc (by rw [← List.cons_append, ← hrest, List.take_append_drop])
        · intro rest hc hrest
          exact hopen (rest ++ cs.drop n) hc (by rw [← List.cons_append, ← hrest, List.take_append_drop])
      rw [List.take_succ_cons, hskip]
      exact ih h hp n
  | case5 d cs ih =>
    match n with
    | 0 => exact ⟨⟨false, d⟩, by simp [scan], hp⟩
    | 1 => exact ⟨⟨false, d⟩, by simp [scan], hp⟩
    | n + 2 => exact ih h hp n
  | case6 d cs hlt ih =>
    match n with
    | 0 => exact ⟨⟨false, d⟩, by simp [scan], hp⟩
    | n + 1 =>
      rw [List.take_succ_cons, scan, if_pos hlt]
      exact ih h hlt n
  | case7 => cases h
  | case8 => cases h
  | case9 d cs ih =>
    match n with
    | 0 => exact ⟨⟨false, d + 1⟩, by simp [scan], hp⟩
    | n + 1 =>
      rw [List.take_succ_cons, scan]
      exact ih h (Nat.le_of_succ_le hp) n
  | case10 d c cs hopen hbrace hnone hclose ih =>
    match n with
    | 0 => exact ⟨⟨false, d⟩, by simp [scan], hp⟩
    | n + 1 =>
      have hskip : scan limit ⟨false, d⟩ (c :: cs.take n) = scan limit ⟨false, d⟩ (cs.take n) := by
        rw [scan]
        · intro rest hc hrest
          exact hopen (rest ++ cs.drop n) hc (by rw [← List.cons_append, ← hrest, List.take_append_drop])
        · exact hbrace
        · exact hnone
        · exact hclose
      rw [List.take_succ_cons, hskip]
      exact ih h hp n

/-- Whether a text takes the scan from one place to another, whatever stands behind it. -/
def Passes (limit : Nat) (p q : Place) (s : String) : Prop :=
  ∀ rest, scan limit p (s.toList ++ rest) = scan limit q rest

theorem Passes.append {s t : String} (hs : Passes limit p q s) (ht : Passes limit q r t) :
    Passes limit p r (s ++ t) := by
  intro rest
  rw [String.toList_append, List.append_assoc, hs, ht]

/-- A closed text is scanned character by character; its characters are at hand without decoding it. -/
theorem passes_literal {cs : List Char} (h : ∀ rest, scan limit p (cs ++ rest) = scan limit q rest) :
    Passes limit p q (String.ofList cs) := by
  intro rest
  rw [String.toList_ofList, h]

theorem Passes.scan_eq {s : String} (h : Passes limit p q s) : scan limit p s.toList = some q := by
  have hnil := h []
  rw [List.append_nil] at hnil
  rw [hnil, scan]

/-- A line is passed with its newline. -/
theorem Passes.cons {x : String} {xs : List String} (hx : Passes limit p q (x ++ "\n"))
    (hxs : Passes limit q r (unlines xs)) : Passes limit p r (unlines (x :: xs)) := by
  rw [unlines_cons, ← String.append_assoc]
  exact hx.append hxs

theorem passes_nil : Passes limit p p (unlines []) := fun _ => rfl

/-- Lines that each lead back to where they began do so together. -/
theorem passes_unlines {xs : List String} (h : ∀ x ∈ xs, Passes limit p p (x ++ "\n")) :
    Passes limit p p (unlines xs) := by
  induction xs with
  | nil => exact passes_nil
  | cons x xs ih => exact (h x List.mem_cons_self).cons (ih fun y hy => h y (List.mem_cons_of_mem _ hy))

/-- So do blocks. -/
theorem passes_flatMap {α : Type} {block : α → List String} {as : List α}
    (h : ∀ a ∈ as, Passes limit p p (unlines (block a))) : Passes limit p p (unlines (as.flatMap block)) := by
  induction as with
  | nil => exact passes_nil
  | cons a as ih =>
    rw [List.flatMap_cons, unlines_append]
    exact (h a List.mem_cons_self).append (ih fun b hb => h b (List.mem_cons_of_mem _ hb))

/-! ### Texts without marks -/

/-- The characters of the marks. -/
def marks : List Char := ['/', '*', '\x7b', '\x7d']

/-- A text that holds no character of a mark. -/
abbrev Unmarked : String → Prop := MadeOf fun c : Char => c ∉ marks

theorem scan_cons_of_notMem {c : Char} (hc : c ∉ marks) (cs : List Char) :
    scan limit p (c :: cs) = scan limit p cs := by
  simp only [marks, List.mem_cons, List.not_mem_nil, or_false, not_or] at hc
  obtain ⟨_ | _, d⟩ := p <;> rw [scan] <;> simp_all

/-- Nothing happens in a text without marks. -/
theorem Unmarked.passes {s : String} (h : Unmarked s) : Passes limit p p s := by
  intro rest
  have hchars (cs : List Char) (hcs : ∀ c ∈ cs, c ∉ marks) : scan limit p (cs ++ rest) = scan limit p rest := by
    induction cs with
    | nil => rfl
    | cons c cs ih =>
      rw [List.cons_append, scan_cons_of_notMem (hcs c List.mem_cons_self)]
      exact ih fun d hd => hcs d (List.mem_cons_of_mem _ hd)
  exact hchars s.toList h

theorem unmarked_of_isDigit (c : Char) (h : c.isDigit) : c ∉ marks := by
  intro hmem
  simp only [marks, List.mem_cons, List.not_mem_nil, or_false] at hmem
  rcases hmem with rfl | rfl | rfl | rfl <;> exact absurd h (by decide)

theorem unmarked_natText (n : Nat) : Unmarked (toString n) := madeOf_natText unmarked_of_isDigit n

theorem unmarked_levelText (l : Level) : Unmarked l.text := unmarked_natText _

theorem unmarked_positionText (p : Position) : Unmarked p.text := unmarked_natText _

theorem unmarked_variantName (v : Variant) : Unmarked v.name := by
  cases v <;> exact madeOf_literal (by decide)

theorem unmarked_fullLabel (k : StateKey) : Unmarked k.fullLabel :=
  madeOf_fullLabel unmarked_of_isDigit (madeOf_literal (by decide)) k

theorem unmarked_shortLabel (k : StateKey) : Unmarked k.shortLabel :=
  madeOf_shortLabel unmarked_of_isDigit (madeOf_literal (by decide)) k

theorem unmarked_banner : Unmarked banner := madeOf_banner (by decide)

/-! ### Lines -/

theorem passes_newline : Passes limit p p "\n" := Unmarked.passes (madeOf_literal (by decide))

/-- A line without marks leaves the scan where it is. -/
theorem passes_unmarkedLine {s : String} (h : Unmarked s) : Passes limit p p (s ++ "\n") :=
  h.passes.append passes_newline

/-- So does a closed one. -/
theorem passes_literalLine {cs : List Char} (h : cs.Forall (· ∉ marks)) :
    Passes limit p p (String.ofList cs ++ "\n") := passes_unmarkedLine (madeOf_literal h)

/-- A comment on one line leaves the scan where it is if there is no mark in it. -/
theorem passes_commentLine {body : String} {d : Nat} (h : Unmarked body) :
    Passes limit ⟨false, d⟩ ⟨false, d⟩ ("/* " ++ body ++ " */" ++ "\n") := by
  have hopen : Passes limit ⟨false, d⟩ ⟨true, d⟩ "/* " := passes_literal fun _ => rfl
  have hclose : Passes limit ⟨true, d⟩ ⟨false, d⟩ " */" := passes_literal fun _ => rfl
  exact ((hopen.append h.passes).append hclose).append passes_newline

/-! ### Blocks -/

/-- The header is one comment, over several lines. -/
theorem passes_header (s : Summary) : Passes (limit + 1) .start .start (unlines (header s)) := by
  have hfirst : Passes (limit + 1) .start ⟨true, 0⟩ ("/* " ++ banner ++ "\n") :=
    .append (.append (passes_literal fun _ => rfl) unmarked_banner.passes) passes_newline
  have hcounts : Passes (limit + 1) ⟨true, 0⟩ ⟨true, 0⟩
      ("   States met vogel: " ++ toString s.birdStates ++ " / " ++ toString s.states ++ "\n") := by
    -- The slash between the counts is followed by a blank, so it is no part of a mark.
    have hslash : Passes (limit + 1) ⟨true, 0⟩ ⟨true, 0⟩ " / " := passes_literal fun _ => rfl
    have hname : Unmarked "   States met vogel: " := madeOf_literal (by decide)
    exact (((hname.passes.append (unmarked_natText _).passes).append hslash).append (unmarked_natText _).passes).append
      passes_newline
  have hedges : Unmarked ("   Transitions: " ++ toString s.transitions) :=
    madeOf_append.mpr ⟨madeOf_literal (by decide), unmarked_natText _⟩
  have hlast : Passes (limit + 1) ⟨true, 0⟩ .start ("   " ++ banner ++ " */" ++ "\n") :=
    .append (.append (.append (passes_literal fun _ => rfl) unmarked_banner.passes) (passes_literal fun _ => rfl))
      passes_newline
  exact hfirst.cons <| .cons (passes_literalLine (by decide)) <| .cons (passes_literalLine (by decide)) <|
    hcounts.cons <| .cons (passes_unmarkedLine hedges) <| hlast.cons <|
      .cons (passes_literalLine (by decide)) passes_nil

/-- The scaffolding opens and closes its braces on one line each. -/
theorem passes_scaffolding : Passes (limit + 1) .start .start (unlines scaffolding) := by
  have hlines : ∀ x ∈ scaffolding, Passes (limit + 1) .start .start x := by
    simp only [scaffolding, List.forall_mem_cons]
    and_intros
    all_goals first | exact passes_literal fun _ => rfl | exact List.forall_mem_nil _
  exact passes_unlines fun x hx => (hlines x hx).append passes_newline

/-- A bird rule is a comment and one pair of braces. -/
theorem passes_cellRule (k : StateKey) (l : Level) (p : Position) (g : Bool) :
    Passes (limit + 1) .start .start (unlines (cellRule k l p g)) := by
  have hcomment : Unmarked (k.fullLabel ++ " → vogel op L" ++ l.text ++ " P" ++ p.text ++ " " ++
      (if g then "⚠ GEVAAR" else "")) := by
    have hmark : Unmarked (if g then "⚠ GEVAAR" else "") := by cases g <;> exact madeOf_literal (by decide)
    simp only [madeOf_append, unmarked_fullLabel, unmarked_levelText, unmarked_positionText, hmark, and_true, true_and]
    and_intros
    all_goals exact madeOf_literal (by decide)
  have hselector : Passes (limit + 1) .start ⟨false, 1⟩ (selector k ++ "\n") := by
    have hnames : Unmarked ("#level-" ++ k.level.text ++ ":checked ~ #pos-" ++ k.position.text ++
        ":checked ~ #var-" ++ k.variant.name) := by
      simp only [madeOf_append, unmarked_levelText, unmarked_positionText, unmarked_variantName, and_true]
      and_intros
      all_goals exact madeOf_literal (by decide)
    exact (hnames.passes.append (passes_literal fun _ => rfl)).append passes_newline
  have hcolumn : Unmarked ("  grid-column: " ++ toString p.gridColumn ++ ";") :=
    madeOf_append.mpr ⟨madeOf_append.mpr ⟨madeOf_literal (by decide), unmarked_natText _⟩, madeOf_literal (by decide)⟩
  have hrow : Unmarked ("  grid-row: " ++ toString l.gridRow ++ ";") :=
    madeOf_append.mpr ⟨madeOf_append.mpr ⟨madeOf_literal (by decide), unmarked_natText _⟩, madeOf_literal (by decide)⟩
  have hclose : Passes (limit + 1) ⟨false, 1⟩ .start (unlines ["\x7d", ""]) := by
    have hbrace : Passes (limit + 1) ⟨false, 1⟩ .start "\x7d" := passes_literal fun _ => rfl
    exact .cons (hbrace.append passes_newline) <| .cons (passes_literalLine trivial) passes_nil
  have hbehind : Passes (limit + 1) ⟨false, 1⟩ .start
      (unlines ((if g then ["  animation: bird-grab 0.3s ease-in-out;"] else []) ++ ["\x7d", ""])) := by
    cases g with
    | false => exact hclose
    | true => exact .cons (passes_literalLine (by decide)) hclose
  have hline : "/* " ++ k.fullLabel ++ " → vogel op L" ++ l.text ++ " P" ++ p.text ++ " " ++
        (if g then "⚠ GEVAAR" else "") ++ " */" =
      "/* " ++ (k.fullLabel ++ " → vogel op L" ++ l.text ++ " P" ++ p.text ++ " " ++
        (if g then "⚠ GEVAAR" else "")) ++ " */" := by
    simp only [String.append_assoc]
  show Passes (limit + 1) .start .start (unlines (_ :: _ :: _ :: _ :: _ :: _))
  rw [hline]
  exact .cons (passes_commentLine hcomment) <| hselector.cons <| .cons (passes_literalLine (by decide)) <|
    .cons (passes_unmarkedLine hcolumn) <| .cons (passes_unmarkedLine hrow) hbehind

/-- A note is two comments. -/
theorem passes_note (id : TransitionId) : Passes (limit + 1) .start .start (unlines (note id)) := by
  have hlabels : Unmarked (id.source.shortLabel ++ " ⟳ " ++ id.target.shortLabel ++ " — onzichtbaar voor speler") := by
    simp only [madeOf_append, unmarked_shortLabel, and_true, true_and]
    exact ⟨madeOf_literal (by decide), madeOf_literal (by decide)⟩
  have hnames : Unmarked ("Label verandert variant-radio van \"" ++ id.source.variant.name ++ "\" naar \"" ++
      id.target.variant.name ++ "\"") := by
    simp only [madeOf_append, unmarked_variantName, and_true]
    exact ⟨⟨madeOf_literal (by decide), madeOf_literal (by decide)⟩, madeOf_literal (by decide)⟩
  have hnote : note id =
      ["/* " ++ (id.source.shortLabel ++ " ⟳ " ++ id.target.shortLabel ++ " — onzichtbaar voor speler") ++ " */",
        "/* " ++ ("Label verandert variant-radio van \"" ++ id.source.variant.name ++ "\" naar \"" ++
          id.target.variant.name ++ "\"") ++ " */",
        ""] := by
    have hlabelsEnd : " — onzichtbaar voor speler" ++ " */" = " — onzichtbaar voor speler */" :=
      String.ofList_append.symm
    have hnamesBegin : "/* " ++ "Label verandert variant-radio van \"" = "/* Label verandert variant-radio van \"" :=
      String.ofList_append.symm
    have hnamesEnd : "\"" ++ " */" = "\" */" := String.ofList_append.symm
    simp only [note, String.append_assoc, hlabelsEnd, hnamesEnd, ← hnamesBegin]
  rw [hnote]
  exact .cons (passes_commentLine hlabels) <| .cons (passes_commentLine hnames) <|
    .cons (passes_literalLine trivial) passes_nil

variable (reg : Registry) (ts : TransitionSet)

theorem passes_opening (edges : Nat) : Passes (limit + 1) .start .start (unlines (opening reg edges)) := by
  have hrules : Passes (limit + 1) .start .start (unlines (reg.withBird.flatMap birdRule)) := by
    apply passes_flatMap
    intro s _
    unfold birdRule
    split
    · exact passes_cellRule _ _ _ _
    · exact passes_nil
  rw [opening, unlines_append, unlines_append]
  exact ((passes_header _).append passes_scaffolding).append hrules

theorem passes_notes : Passes (limit + 1) .start .start (unlines (notes reg ts)) := by
  rw [notes_eq_notable]
  split
  · exact passes_nil
  · have hheading : Passes (limit + 1) .start .start notesHeading := passes_literal fun _ => rfl
    exact (hheading.append passes_newline).cons (passes_flatMap fun id _ => passes_note id)

/-! ### The whole text -/

/-- The keyframes as they stand in the text. -/
def keyframesText : String :=
  "@keyframes bird-grab \x7b\n  0% \x7b transform: scale(1); \x7d\n" ++
    "  50% \x7b transform: scale(1.3) translateY(10px); \x7d\n  100% \x7b transform: scale(1); \x7d\n\x7d\n"

/-- The keyframes open two braces. -/
theorem passes_keyframesText : Passes 2 .start .start keyframesText :=
  Passes.append (q := ⟨false, 1⟩) (passes_literal fun _ => rfl) (passes_literal fun _ => rfl)

theorem scan_one_keyframesText : scan 1 .start keyframesText.toList = none := by
  -- The second brace is in the first half of the text.
  have hstop {cs : List Char} (h : ∀ rest, scan 1 .start (cs ++ rest) = none) (t : String) :
      scan 1 .start (String.ofList cs ++ t).toList = none := by
    rw [String.toList_append, String.toList_ofList, h]
  exact hstop (fun _ => rfl) _

/-- The keyframes begin with their only at sign. -/
theorem exists_toList_keyframesText : ∃ rest, keyframesText.toList = '@' :: rest ∧ '@' ∉ rest := by
  have hhalves {cs ds : List Char} (hcs : '@' ∉ cs) (hds : '@' ∉ ds) :
      ∃ rest, (String.ofList ('@' :: cs) ++ String.ofList ds).toList = '@' :: rest ∧ '@' ∉ rest := by
    refine ⟨cs ++ ds, ?_, ?_⟩
    · rw [String.toList_append, String.toList_ofList, String.toList_ofList, List.cons_append]
    · simp only [List.mem_append, hcs, hds, or_self, not_false_eq_true]
  exact hhalves (by decide) (by decide)

theorem mem_unlines {c : Char} {xs : List String} (h : c ∈ (unlines xs).toList) :
    c = '\n' ∨ ∃ x ∈ xs, c ∈ x.toList := by
  induction xs with
  | nil => cases h
  | cons x xs ih =>
    rw [unlines_cons, String.toList_append, String.toList_append, List.mem_append, List.mem_append] at h
    rcases h with h | h | h
    · exact .inr ⟨x, List.mem_cons_self, h⟩
    · exact .inl (by simpa using h)
    · rcases ih h with hnewline | ⟨y, hy, hmem⟩
      · exact .inl hnewline
      · exact .inr ⟨y, List.mem_cons_of_mem _ hy, hmem⟩

/-- There is no at sign before the keyframes. -/
theorem at_notMem_front : '@' ∉ (unlines (opening reg ts.size ++ notes reg ts)).toList := by
  intro h
  obtain hnewline | ⟨x, hx, hmem⟩ := mem_unlines h
  · exact absurd hnewline (by decide)
  · rcases List.mem_append.mp hx with hx | hx
    · exact (lettered_opening reg _ x hx).notMem (by decide) hmem
    · exact notMem_notes reg ts (by decide) (by decide) x hx hmem

/-- A text that begins with a mark and holds it nowhere else ends a longer text in one place. -/
theorem append_eq_append_mark_iff {α : Type} [DecidableEq α] {mark : α} {front rest before behind : List α}
    (hfront : mark ∉ front) (hrest : mark ∉ rest) :
    front ++ mark :: rest = before ++ mark :: behind ↔ before = front ∧ behind = rest := by
  constructor
  · intro h
    have hcount := congrArg (List.count mark) h
    have hbefore : mark ∉ before := by
      rw [← List.count_eq_zero]
      simp only [List.count_append, List.count_cons_self, List.count_eq_zero_of_not_mem hfront,
        List.count_eq_zero_of_not_mem hrest] at hcount
      omega
    obtain ⟨hsame, hbehind⟩ := (append_mark_inj hfront hbefore).mp h
    exact ⟨hsame.symm, hbehind.symm⟩
  · rintro ⟨rfl, rfl⟩
    rfl

/-- **The stylesheet is lexically well formed.** Whatever states and edges it is made of, and whatever the labels of the
edges are, a scan with two levels of braces runs from the start to the start: no comment holds a second opening mark, no
brace closes that is not open, and at the end no comment and no brace is open. The text is a front that gets along with
one level, and the keyframes, which do not. So at no place of the front are two braces open. The keyframes end the text
and begin nowhere else. -/
theorem scan_compile :
    scan 2 .start (compile reg ts).toList = some .start ∧
    ∃ front : String, compile reg ts = front ++ keyframesText ∧
      scan 1 .start front.toList = some .start ∧ scan 1 .start keyframesText.toList = none ∧
      (∀ n, ∃ p, scan 2 .start ((compile reg ts).toList.take n) = some p ∧ p.depth ≤ 2 ∧
        (p.depth = 2 → front.toList.length < n)) ∧
      ∀ before behind, (compile reg ts).toList = before ++ "@keyframes bird-grab".toList ++ behind ↔
        before = front.toList ∧ keyframesText.toList = "@keyframes bird-grab".toList ++ behind := by
  have hfront (limit : Nat) : Passes (limit + 1) .start .start (unlines (opening reg ts.size ++ notes reg ts)) := by
    rw [unlines_append]
    exact (passes_opening reg _).append (passes_notes reg ts)
  have hkeyframes : unlines keyframes = keyframesText := by decide +kernel
  have htext : compile reg ts = unlines (opening reg ts.size ++ notes reg ts) ++ keyframesText := by
    rw [compile, lines_eq, unlines_append, hkeyframes]
  have hscan : scan 2 .start (compile reg ts).toList = some .start := by
    rw [htext]
    exact ((hfront 1).append passes_keyframesText).scan_eq
  refine ⟨hscan, _, htext, (hfront 0).scan_eq, scan_one_keyframesText, ?_, ?_⟩
  · intro n
    obtain ⟨p, hp, hdepth⟩ := exists_scan_take hscan (by decide) n
    refine ⟨p, hp, hdepth, ?_⟩
    intro htwo
    by_contra hle
    -- A prefix of the front is scanned with one level, so the scan with two is no different.
    obtain ⟨p', hp', hdepth'⟩ := exists_scan_take (hfront 0).scan_eq (by decide) n
    rw [htext, String.toList_append, List.take_append_of_le_length (Nat.le_of_not_lt hle),
      scan_mono (by decide) hp'] at hp
    obtain rfl := Option.some.inj hp
    omega
  · intro before behind
    have hfirst : "@keyframes bird-grab".toList = '@' :: "keyframes bird-grab".toList := rfl
    obtain ⟨rest, hkeyframes, hrest⟩ := exists_toList_keyframesText
    rw [htext, String.toList_append, hkeyframes, hfirst, List.append_assoc, List.cons_append,
      append_eq_append_mark_iff (at_notMem_front reg ts) hrest, List.cons.injEq, eq_comm (a := rest)]
    simp

end Stylesheet

end BirdBoard
