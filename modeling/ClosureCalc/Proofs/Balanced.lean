/-
Texts that wait for nothing.

The verdict on a text that is being typed looks at characters, and the parser looks at
tokens. Both skip the same layout, and the characters of a token count for the
balance what the token counts for the tally. So the balance of a text that is
parsed is settled, and a bracket that matches none spoils every longer text.

* `endsInComment`: whether a text ends inside a comment; `Mismatched`: a closing
  bracket outside comments is not that of the innermost open one.
* `Balance.readAll_append`, `Balance.readAll_eq_none_iff`: the balance of a text in two
  parts, and of a text that is mismatched.
* `Balance.tally`: what a balance says of tokens; `Balance.Counts`: characters that
  count what tokens count, those of one token (`Balance.counts_first`) and of some
  (`Cursor.Reads.counts`).
* `verdict_is_sound`: what is parsed is complete, and what is mismatched is the
  beginning of no program.
-/
import ClosureCalc.Proofs.InStep
import ClosureCalc.Proofs.Nesting

namespace ClosureCalc

/-! ### Comments -/

/-- Whether there is a comment behind a character, if there is one in front of it or
not. -/
def commentStep (inComment : Bool) (c : Char) : Bool :=
  !(c == '\n' || c == '\r') && (inComment || c == commentMark)

/-- Whether a text ends inside a comment. -/
def endsInComment (text : List Char) : Bool := text.foldl commentStep false

/-- **A bracket that matches none**: outside comments a text has a closing bracket
that is not that of the innermost open one. -/
def Mismatched (text : List Char) : Prop :=
  ∃ before c behind k b, text = before ++ c :: behind ∧ endsInComment before = false ∧
    Bracket.closing? c = some k ∧ Balance.readAll false before Balance.zero = some b ∧
    b.opened.head? ≠ some k

namespace Balance

/-! ### One character after the other -/

/-- The balance behind a character, where comments and line breaks do not count. -/
def step (inComment : Bool) (b : Balance) (c : Char) : Option Balance :=
  if c == '\n' || c == '\r' || inComment || c == commentMark then some b else b.read c

/-- The first character of a text, and the rest. -/
lemma readAll_cons (inComment : Bool) (c : Char) (rest : List Char) (b : Balance) :
    readAll inComment (c :: rest) b =
      (b.step inComment c).bind (readAll (commentStep inComment c) rest) := by
  rw [readAll]
  by_cases hbreak : (c == '\n' || c == '\r') = true
  · simp [step, commentStep, hbreak]
  · by_cases hcomment : (inComment || c == commentMark) = true
    · simp [step, commentStep, hbreak, hcomment]
    · simp [step, commentStep, hbreak, hcomment]

/-- The balance of a text in two parts. -/
lemma readAll_append (inComment : Bool) (u v : List Char) (b : Balance) :
    readAll inComment (u ++ v) b =
      (readAll inComment u b).bind (readAll (u.foldl commentStep inComment) v) := by
  induction u generalizing inComment b with
  | nil => rfl
  | cons c u ih =>
    rw [List.cons_append, readAll_cons, readAll_cons, Option.bind_assoc]
    exact Option.bind_congr fun b' _ => ih _ b'

/-- A character outside comments is refused if it closes a bracket that is not the
innermost one. -/
lemma read_eq_none_iff {b : Balance} {c : Char} :
    b.read c = none ↔ ∃ k, Bracket.closing? c = some k ∧ b.opened.head? ≠ some k := by
  rw [read, Option.map_eq_none_iff, brackets]
  by_cases hopen : c = '(' ∨ c = '\x7b'
  · rcases hopen with rfl | rfl <;> simp [Bracket.opening?, Bracket.closing?]
  · have hnone : Bracket.opening? c = none := by
      simp only [not_or] at hopen
      simp [Bracket.opening?, hopen]
    rw [hnone]
    cases Bracket.closing? c <;> simp

/-- No bracket begins or ends a comment. -/
lemma step_of_closing {b : Balance} {c : Char} {k : Bracket} (h : Bracket.closing? c = some k) :
    b.step false c = b.read c := by
  have hc : c = ')' ∨ c = '\x7d' := by
    by_contra hne
    simp only [not_or] at hne
    simp [Bracket.closing?, hne] at h
  rcases hc with rfl | rfl <;> rfl

/-- A text without a balance has a first character that is refused. -/
lemma exists_of_readAll_eq_none {inComment : Bool} {text : List Char} {b : Balance}
    (h : readAll inComment text b = none) :
    ∃ before c behind b', text = before ++ c :: behind ∧
      before.foldl commentStep inComment = false ∧ readAll inComment before b = some b' ∧
      b'.read c = none := by
  induction text generalizing inComment b with
  | nil => cases h
  | cons c rest ih =>
    rw [readAll_cons] at h
    cases hstep : b.step inComment c with
    | none =>
      rw [step] at hstep
      split at hstep
      · cases hstep
      · rename_i hcount
        simp only [Bool.or_eq_true, not_or, Bool.not_eq_true] at hcount
        exact ⟨[], c, rest, b, rfl, hcount.1.2, rfl, hstep⟩
    | some b₁ =>
      rw [hstep, Option.bind_some] at h
      obtain ⟨before, d, behind, b', rfl, hcomment, hbefore, hread⟩ := ih h
      refine ⟨c :: before, d, behind, b', rfl, hcomment, ?_, hread⟩
      rw [readAll_cons, hstep, Option.bind_some, hbefore]

/-- **A text has no balance** where it is mismatched, and only there. -/
lemma readAll_eq_none_iff {text : List Char} :
    readAll false text zero = none ↔ Mismatched text := by
  constructor
  · intro h
    obtain ⟨before, c, behind, b, htext, hcomment, hbefore, hread⟩ := exists_of_readAll_eq_none h
    obtain ⟨k, hclose, hhead⟩ := read_eq_none_iff.1 hread
    exact ⟨before, c, behind, k, b, htext, hcomment, hclose, hbefore, hhead⟩
  · rintro ⟨before, c, behind, k, b, rfl, hcomment, hclose, hbefore, hhead⟩
    have hread : b.read c = none := read_eq_none_iff.2 ⟨k, hclose, hhead⟩
    rw [endsInComment] at hcomment
    rw [readAll_append, hbefore, hcomment, Option.bind_some, readAll_cons, step_of_closing hclose,
      hread, Option.bind_none]

/-! ### Layout -/

/-- A blank outside comments counts for nothing. -/
lemma step_of_isBlank {inComment : Bool} {b : Balance} {c : Char} (h : isBlank c = true) :
    b.step inComment c = some b := by
  rcases isBlank_iff.1 h with rfl | rfl | rfl | rfl <;> cases inComment <;> rfl

/-- **Layout counts for nothing.** -/
lemma readAll_layout (inComment : Bool) (text : List Char) (b : Balance) :
    readAll inComment text b = readAll false (text.drop (layout inComment text)) b := by
  induction text generalizing inComment with
  | nil => rfl
  | cons c rest ih =>
    rw [layout]
    by_cases hbreak : (c == '\n' || c == '\r') = true
    · rw [readAll, if_pos hbreak, if_pos hbreak, ih, List.drop_succ_cons]
    · rw [if_neg hbreak]
      by_cases hcomment : (inComment || c == commentMark) = true
      · rw [readAll, if_neg hbreak, if_pos hcomment, if_pos hcomment, ih, List.drop_succ_cons]
      · rw [if_neg hcomment]
        rw [Bool.or_eq_true, not_or, Bool.not_eq_true, Bool.not_eq_true] at hcomment
        obtain ⟨rfl, hmark⟩ := hcomment
        split
        · rename_i hblank
          have hout : commentStep false c = false := by simp [commentStep, hmark]
          rw [readAll_cons, step_of_isBlank hblank, hout, Option.bind_some, ih,
            List.drop_succ_cons]
        · rfl

/-! ### Characters that are only seen -/

/-- A visible character that is no bracket, no bar and no beginning of a comment. -/
structure IsPlain (c : Char) : Prop where
  opening : Bracket.opening? c = none
  closing : Bracket.closing? c = none
  ne_bar : c ≠ '|'
  ne_mark : c ≠ commentMark
  visible : isWhiteSpace c = false

lemma IsPlain.step {c : Char} (h : IsPlain c) (b : Balance) :
    b.step false c = some ⟨b.opened, b.bars, some c⟩ := by
  have hfeed : c ≠ '\n' := by
    rintro rfl
    exact absurd h.visible (by decide)
  have hreturn : c ≠ '\r' := by
    rintro rfl
    exact absurd h.visible (by decide)
  simp [Balance.step, read, brackets, hfeed, hreturn, h.opening, h.closing, h.ne_bar, h.ne_mark,
    h.visible]

lemma IsPlain.commentStep {c : Char} (h : IsPlain c) : commentStep false c = false := by
  simp [ClosureCalc.commentStep, h.ne_mark]

/-- Behind plain characters the last one is the last visible one. -/
lemma readAll_plain {w : List Char} (hw : ∀ c ∈ w, IsPlain c) (rest : List Char) (b : Balance) :
    readAll false (w ++ rest) b = readAll false rest ⟨b.opened, b.bars, w.getLast?.or b.last⟩ := by
  induction w generalizing b with
  | nil => rfl
  | cons c w ih =>
    obtain ⟨hc, hw⟩ := List.forall_mem_cons.1 hw
    rw [List.cons_append, readAll_cons, hc.step, hc.commentStep, Option.bind_some, ih hw,
      List.getLast?_cons]
    cases w.getLast? <;> rfl

/-- Names are made of letters, digits and two marks. -/
lemma toNat_of_isNamePart {c : Char} (h : isNamePart c = true) :
    (48 ≤ c.toNat ∧ c.toNat ≤ 57) ∨ (65 ≤ c.toNat ∧ c.toNat ≤ 90) ∨
      (97 ≤ c.toNat ∧ c.toNat ≤ 122) ∨ c.toNat = 95 ∨ c.toNat = 36 := by
  delta isNamePart isNameStart Char.isAlpha Char.isUpper Char.isLower Char.isDigit at h
  simp only [Bool.or_eq_true, Bool.and_eq_true, decide_eq_true_eq, beq_iff_eq, ge_iff_le,
    UInt32.le_iff_toNat_le, Char.toNat_val, Char.reduceToNat] at h
  rcases h with (((h | h) | rfl) | rfl) | h
  · exact .inr (.inl h)
  · exact .inr (.inr (.inl h))
  · decide
  · decide
  · exact .inl h

/-- The characters of names differ from all those for which `isNamePart` fails. -/
lemma ne_of_isNamePart {c d : Char} (h : isNamePart c = true) (hd : isNamePart d = false) :
    c ≠ d := by
  rintro rfl
  rw [h] at hd
  cases hd

lemma isPlain_of_isNamePart {c : Char} (h : isNamePart c = true) : IsPlain c where
  opening := by
    rw [Bracket.opening?, if_neg (ne_of_isNamePart h rfl), if_neg (ne_of_isNamePart h rfl)]
  closing := by
    rw [Bracket.closing?, if_neg (ne_of_isNamePart h rfl), if_neg (ne_of_isNamePart h rfl)]
  ne_bar := ne_of_isNamePart h rfl
  ne_mark := ne_of_isNamePart h rfl
  visible := by
    have hc := toNat_of_isNamePart h
    simp only [isWhiteSpace, Bool.or_eq_false_iff, Bool.and_eq_false_iff, decide_eq_false_iff_not,
      beq_eq_false_iff_ne]
    omega

/-- The characters that ask for an operand. -/
lemma isDangling_iff {c : Char} : isDangling c = true ↔
    c = '+' ∨ c = '-' ∨ c = '*' ∨ c = '/' ∨ c = '=' ∨ c = ',' := by
  simp [isDangling, or_assoc]

lemma isDangling_of_isNamePart {c : Char} (h : isNamePart c = true) : isDangling c = false := by
  refine Bool.eq_false_iff.2 fun hc => ?_
  rcases isDangling_iff.1 hc with rfl | rfl | rfl | rfl | rfl | rfl <;> cases h

/-! ### Numerals -/

/-- The characters of a numeral are digits, the point, and those of an exponent. -/
lemma isPlain_of_move {p q : Numeral.Phase} {c : Char} (h : p.move c = .go q) : IsPlain c := by
  have hc : c.isDigit = true ∨ c = 'e' ∨ c = 'E' ∨ c = '.' ∨ c = '+' ∨ c = '-' := by
    by_contra hne
    simp only [not_or] at hne
    simp [Numeral.Phase.move, hne] at h
  have hpoint : IsPlain '.' := ⟨rfl, rfl, by decide, by decide, by decide⟩
  have hplus : IsPlain '+' := ⟨rfl, rfl, by decide, by decide, by decide⟩
  have hminus : IsPlain '-' := ⟨rfl, rfl, by decide, by decide, by decide⟩
  rcases hc with hdigit | rfl | rfl | rfl | rfl | rfl
  · exact isPlain_of_isNamePart (by simp [isNamePart, hdigit])
  · exact isPlain_of_isNamePart rfl
  · exact isPlain_of_isNamePart rfl
  · exact hpoint
  · exact hplus
  · exact hminus

/-- Only the sign of an exponent asks for something behind it. -/
lemma isDangling_of_move {p q : Numeral.Phase} {c : Char} (h : p.move c = .go q)
    (hq : q.isOpen = false) : isDangling c = false := by
  refine Bool.eq_false_iff.2 fun hc => ?_
  rcases isDangling_iff.1 hc with rfl | rfl | rfl | rfl | rfl | rfl <;> cases p <;> cases h <;>
    cases hq

lemma isPlain_of_scan {rest w : List Char} {p q : Numeral.Phase}
    (h : Numeral.scan p (w ++ rest) = (w.length, .ok q)) (hq : q.isOpen = false) :
    (∀ c ∈ w, IsPlain c) ∧ ∀ c ∈ w.getLast?, isDangling c = false := by
  induction w generalizing p with
  | nil => simp
  | cons c w ih =>
    rw [List.cons_append, Numeral.scan] at h
    split at h
    · rename_i q' hmove
      simp only [Prod.mk.injEq, List.length_cons, Nat.add_right_cancel_iff] at h
      obtain ⟨hplain, hlast⟩ := ih (Prod.ext h.1 h.2)
      refine ⟨List.forall_mem_cons.2 ⟨isPlain_of_move hmove, hplain⟩, ?_⟩
      cases w with
      | nil =>
        obtain ⟨hend, -⟩ := Numeral.scan_eq_zero_iff.1 (Prod.ext h.1 h.2)
        simpa using isDangling_of_move hmove (hend ▸ hq)
      | cons d w => simpa using hlast
    · simp at h
    · simp at h

/-- A numeral that has a value is not open at its end. -/
lemma isOpen_of_read {text : List Char} {n : Nat} {value : Float} {q : Numeral.Phase}
    (h : Numeral.read text = (n, .ok value)) (hscan : Numeral.scan .whole text = (n, .ok q)) :
    q.isOpen = false := by
  rw [Numeral.read, hscan] at h
  refine Bool.eq_false_iff.2 fun hq => ?_
  simp [hq] at h

/-! ### Tokens -/

/-- What a balance says of tokens. -/
def tally (b : Balance) : Tally := ⟨b.opened, b.bars, b.last.any isDangling⟩

/-- Characters that count for a balance what tokens count for a tally. -/
def Counts (text rest : List Char) (b : Balance) (t : Tally) : Prop :=
  ∃ b', readAll false text b = readAll false rest b' ∧ b'.tally = t

variable {b : Balance} {t : Tally} {rest : List Char}

/-- A word or a numeral. -/
lemma counts_plain {w : List Char} (hw : w ≠ []) (hplain : ∀ c ∈ w, IsPlain c)
    (hlast : ∀ c ∈ w.getLast?, isDangling c = false) :
    Counts (w ++ rest) rest b ⟨b.opened, b.bars, false⟩ := by
  refine ⟨_, readAll_plain hplain rest b, ?_⟩
  rw [List.getLast?_eq_some_getLast hw] at hlast ⊢
  simpa [tally] using hlast

/-- The spelling of a symbol. -/
lemma counts_symbol {s : Symbol} (ht : b.tally.symbol s = some t) :
    Counts (s.spelling ++ rest) rest b t := by
  cases s with
  | leftParen =>
    cases ht
    exact ⟨⟨.paren :: b.opened, b.bars, some '('⟩, rfl, rfl⟩
  | leftBrace =>
    cases ht
    exact ⟨⟨.brace :: b.opened, b.bars, some '\x7b'⟩, rfl, rfl⟩
  | rightParen =>
    obtain ⟨hhead, rfl⟩ := Tally.close_eq_some_iff.1 ht
    replace hhead : b.opened.head? = some .paren := hhead
    refine ⟨⟨b.opened.tail, b.bars, some ')'⟩, ?_, rfl⟩
    simp [Symbol.spelling, readAll_cons, step, read, brackets, Bracket.opening?, Bracket.closing?,
      hhead, commentStep, commentMark, isWhiteSpace]
  | rightBrace =>
    obtain ⟨hhead, rfl⟩ := Tally.close_eq_some_iff.1 ht
    replace hhead : b.opened.head? = some .brace := hhead
    refine ⟨⟨b.opened.tail, b.bars, some '\x7d'⟩, ?_, rfl⟩
    simp [Symbol.spelling, readAll_cons, step, read, brackets, Bracket.opening?, Bracket.closing?,
      hhead, commentStep, commentMark, isWhiteSpace]
  | bar =>
    cases ht
    exact ⟨⟨b.opened, b.bars + 1, some '|'⟩, rfl, rfl⟩
  | doubleStar =>
    cases ht
    exact ⟨⟨b.opened, b.bars, some '*'⟩, rfl, rfl⟩
  | _ =>
    cases ht
    exact ⟨⟨b.opened, b.bars, some _⟩, rfl, rfl⟩

/-- **The characters of a token** count what the token counts. -/
lemma counts_first {c : Char} {cs : List Char} {kind : Token.Kind}
    (h : Lexeme.first c (cs ++ rest) = ⟨cs.length + 1, .ok kind⟩)
    (ht : b.tally.take kind = some t) : Counts (c :: cs ++ rest) rest b t := by
  unfold Lexeme.first at h
  split at h
  · obtain ⟨value, hvalue, rfl⟩ := Lexeme.numeral_eq_iff.1 h
    obtain ⟨q, hscan⟩ := Numeral.scan_of_read hvalue
    obtain ⟨hplain, hlast⟩ := isPlain_of_scan (w := c :: cs) hscan (isOpen_of_read hvalue hscan)
    cases ht
    exact counts_plain (List.cons_ne_nil c cs) hplain hlast
  · split at h
    · rw [Lexeme.word, ← List.cons_append] at h
      have hsize : ((c :: cs ++ rest).takeWhile isNamePart).length = (c :: cs).length :=
        (Lexeme.mk.inj h).1
      have hword := takeWhile_append_of_length hsize
      have hpart : ∀ d ∈ c :: cs, isNamePart d = true := fun d hd =>
        List.mem_takeWhile_imp (hword ▸ hd)
      have hkind : b.tally.take kind = some ⟨b.opened, b.bars, false⟩ := by
        obtain rfl := Except.ok.inj (Lexeme.mk.inj h).2
        rw [Lexeme.ofWord]
        split <;> rfl
      rw [hkind] at ht
      cases ht
      exact counts_plain (List.cons_ne_nil c cs)
        (fun d hd => isPlain_of_isNamePart (hpart d hd))
        (fun d hd => isDangling_of_isNamePart (hpart d (List.mem_of_mem_getLast? hd)))
    · split at h
      · rename_i s hs
        obtain ⟨hsize, hout⟩ := Lexeme.mk.inj h
        obtain rfl := Except.ok.inj hout
        rw [← List.cons_append] at hs
        have hspelling := (Symbol.first?_append (.inl rfl) hs hsize).2
        rw [hspelling]
        exact counts_symbol ht
      · obtain rfl := Except.ok.inj (Lexeme.mk.inj h).2
        cases ht

end Balance

/-- **The characters of tokens** count what the tokens count. -/
lemma Cursor.Reads.counts {cur mid : Cursor} {ts : List Token} (h : cur.Reads ts mid)
    {b : Balance} {t : Tally} (ht : b.tally.behind ts = some t) :
    Balance.Counts cur.rest mid.rest b t := by
  induction h generalizing b with
  | nil =>
    cases ht
    exact ⟨b, rfl, rfl⟩
  | cons hscan hkind _ ih =>
    rw [Tally.behind_cons, Option.bind_eq_some_iff] at ht
    obtain ⟨t₁, htok, hts⟩ := ht
    obtain ⟨l, c, cs, hrest, hlayout, -, hfirst⟩ := Cursor.exists_of_scan hscan hkind
    obtain ⟨b₁, hread, rfl⟩ := Balance.counts_first hfirst htok
    obtain ⟨b', hread', hb'⟩ := ih hts
    refine ⟨b', ?_, hb'⟩
    rw [Balance.readAll_layout, hlayout, hrest, List.drop_left]
    exact hread.trans hread'

/-- **The balance of a text that is parsed** is settled. -/
lemma readAll_of_parse {source : String} {p : Program} (h : parse source = .ok p) :
    ∃ b, Balance.readAll false source.toList Balance.zero = some b ∧ b.isSettled = true := by
  obtain ⟨-, ts, eof, mid, fin, hts, hscan, heof, hseq⟩ := sequence_of_parse h
  obtain ⟨pairs, hbehind⟩ := hseq.behind_zero
  obtain ⟨b, hread, hb⟩ := hts.counts (b := Balance.zero) hbehind
  have hend : Balance.readAll false mid.rest b = some b := by
    have hrest := (Cursor.eq_skipLayout_of_end hscan heof).1
    rw [Cursor.skipLayout, Cursor.rest_advanceBy] at hrest
    rw [Balance.readAll_layout, hrest]
    rfl
  refine ⟨b, hread.trans hend, ?_⟩
  simp only [Balance.tally, Tally.mk.injEq] at hb
  simp [Balance.isSettled, hb]

/-- **The verdict is sound.** What is parsed is complete, so that it is not held back.
What is mismatched is handed over at once, and rightly so, since nothing behind it
makes a program of it. -/
theorem verdict_is_sound (source : String) :
    (∀ p, parse source = .ok p → isComplete source = true) ∧
      (Balance.readAll false source.toList Balance.zero = none ↔ Mismatched source.toList) ∧
      (Mismatched source.toList → isComplete source = true ∧
        ∀ more, ∃ e, parse (source ++ more) = .error e) := by
  refine ⟨fun p hp => ?_, Balance.readAll_eq_none_iff, fun hm => ⟨?_, fun more => ?_⟩⟩
  · obtain ⟨b, hread, hsettled⟩ := readAll_of_parse hp
    simp [isComplete, hread, hsettled]
  · simp [isComplete, Balance.readAll_eq_none_iff.2 hm]
  · cases hparse : parse (source ++ more) with
    | error e => exact ⟨e, rfl⟩
    | ok p =>
      obtain ⟨b, hread, -⟩ := readAll_of_parse hparse
      rw [String.toList_append, Balance.readAll_append, Balance.readAll_eq_none_iff.2 hm] at hread
      cases hread

/-- A program with a bracket in a comment, and a brace where a parenthesis is open. -/
theorem verdict_is_sound_brace :
    (∃ p, parse "f(|x|, 2 # )\n)" = .ok p) ∧ isComplete "f(|x|, 2 # )\n)" = true ∧
      Mismatched "(1 \x7d".toList ∧ isComplete "(1 \x7d" = true ∧
      ∀ more, ∃ e, parse ("(1 \x7d" ++ more) = .error e := by
  have hparsed : (parse "f(|x|, 2 # )\n)").toBool = true := by decide +kernel
  have hm : Mismatched "(1 \x7d".toList :=
    ⟨['(', '1', ' '], '\x7d', [], .brace, ⟨[.paren], 0, some '1'⟩, by decide, by decide, rfl,
      by decide, by decide⟩
  obtain ⟨hcomplete, hmore⟩ := (verdict_is_sound "(1 \x7d").2.2 hm
  cases hp : parse "f(|x|, 2 # )\n)" with
  | error e =>
    rw [hp] at hparsed
    cases hparsed
  | ok p => exact ⟨⟨p, rfl⟩, (verdict_is_sound _).1 p hp, hm, hcomplete, hmore⟩

end ClosureCalc
