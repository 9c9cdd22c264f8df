/-
Tokens written as words.

A name, a number, a keyword or a symbol is written as a word. Words with a blank
in front of each are read one by one as the tokens that they spell, all on one
line.

* `Token.Kind.SpelledBy`: a word is read as a token of some kind.
* `Cursor.Spells`: the text behind a cursor has tokens of some kinds, up to its
  end, all on one line.
* `spells_words`, `spells_intercalate`: words between blanks spell their tokens.
-/
import ClosureCalc.Proofs.Lexing
import Mathlib.Data.List.Forall2

namespace ClosureCalc

/-- **A word spells a token**: symbols and keywords are spelled as they are, a
name spells itself unless it is a keyword, and a number is spelled by every
numeral that is read as this number. -/
inductive Token.Kind.SpelledBy : Token.Kind → String → Prop where
  | symbol (s : Symbol) : SpelledBy (.symbol s) (String.ofList s.spelling)
  | keyword (k : Keyword) : SpelledBy (.keyword k) (String.ofList k.spelling)
  | name {name : String} {c : Char} {cs : List Char} (hname : name.toList = c :: cs)
      (hstart : isNameStart c = true) (hparts : ∀ d ∈ cs, isNamePart d = true)
      (hword : Keyword.ofWord? (c :: cs) = none) : SpelledBy (.identifier name) name
  | number {value : Float} {word : String} {c : Char} {cs : List Char}
      (hword : word.toList = c :: cs) (hstart : (c.isDigit || c == '.') = true)
      (hread : Numeral.read (c :: cs) = ((c :: cs).length, .ok value)) :
      SpelledBy (.number value) word

namespace Lexeme

/-- A character that begins a name begins no numeral. -/
lemma not_numeral_of_isNameStart {c : Char} (h : isNameStart c = true) :
    (c.isDigit || c == '.') = false := by
  have hpoint : c ≠ '.' := by
    rintro rfl
    cases h
  have hdigit : c.isDigit = false := by
    delta isNameStart Char.isAlpha Char.isUpper Char.isLower at h
    simp only [Bool.or_eq_true, Bool.and_eq_true, decide_eq_true_eq, beq_iff_eq,
      UInt32.le_iff_toNat_le] at h
    simp only [Char.isDigit, Bool.and_eq_false_iff, decide_eq_false_iff_not,
      UInt32.le_iff_toNat_le]
    rcases h with ((h | h) | rfl) | rfl
    · simp at h ⊢
      omega
    · simp at h ⊢
      omega
    · decide
    · decide
  simp [hdigit, hpoint]

/-- A character for which `p` holds begins no layout, if `p` does not hold of
those that do. -/
lemma begins_no_layout {p : Char → Bool} {c : Char} (hc : p c = true)
    (hp : ∀ b, isBlank b = true ∨ b = commentMark → p b = false) :
    isBlank c = false ∧ c ≠ commentMark := by
  constructor
  · refine Bool.eq_false_iff.2 fun hb => ?_
    rw [hp c (.inl hb)] at hc
    cases hc
  · intro hm
    rw [hp c (.inr hm)] at hc
    cases hc

lemma first_keyword (k : Keyword) : ∃ c cs, k.spelling = c :: cs ∧ isNameStart c = true ∧
    first c cs = ⟨cs.length + 1, .ok (.keyword k)⟩ := by
  cases k
  · exact ⟨_, _, rfl, by decide, rfl⟩
  · exact ⟨_, _, rfl, by decide, rfl⟩
  · exact ⟨_, _, rfl, by decide, rfl⟩

lemma first_symbol (s : Symbol) : ∃ c cs, s.spelling = c :: cs ∧ isBlank c = false ∧
    c ≠ commentMark ∧ first c cs = ⟨cs.length + 1, .ok (.symbol s)⟩ := by
  cases s <;> exact ⟨_, _, rfl, by decide, by decide, rfl⟩

lemma first_name {c : Char} {cs : List Char} (hstart : isNameStart c = true)
    (hparts : ∀ d ∈ cs, isNamePart d = true) (hword : Keyword.ofWord? (c :: cs) = none) :
    first c cs = ⟨cs.length + 1, .ok (.identifier (String.ofList (c :: cs)))⟩ := by
  have hpart : isNamePart c = true := by rw [isNamePart, hstart, Bool.true_or]
  have hall : (c :: cs).takeWhile isNamePart = c :: cs := by
    rw [List.takeWhile_cons_of_pos hpart, List.takeWhile_eq_self_iff.2 hparts]
  rw [first, if_neg (by rw [not_numeral_of_isNameStart hstart]; simp), if_pos hstart, word, hall,
    ofWord, hword]
  rfl

/-- **A word that spells a token** is read as this token. -/
lemma first_of_spelledBy {kind : Token.Kind} {word : String} (h : kind.SpelledBy word) :
    ∃ c cs, word.toList = c :: cs ∧ isBlank c = false ∧ c ≠ commentMark ∧
      first c cs = ⟨cs.length + 1, .ok kind⟩ := by
  have hnamed : ∀ b, isBlank b = true ∨ b = commentMark → isNameStart b = false := by
    rintro b (hb | rfl)
    · rcases isBlank_iff.1 hb with rfl | rfl | rfl | rfl <;> decide
    · decide
  have hnumeral : ∀ b : Char, isBlank b = true ∨ b = commentMark →
      (b.isDigit || b == '.') = false := by
    rintro b (hb | rfl)
    · rcases isBlank_iff.1 hb with rfl | rfl | rfl | rfl <;> decide
    · decide
  cases h with
  | symbol s =>
    obtain ⟨c, cs, hs, hblank, hmark, hfirst⟩ := first_symbol s
    exact ⟨c, cs, by rw [String.toList_ofList, hs], hblank, hmark, hfirst⟩
  | keyword k =>
    obtain ⟨c, cs, hk, hstart, hfirst⟩ := first_keyword k
    obtain ⟨hblank, hmark⟩ := begins_no_layout hstart hnamed
    exact ⟨c, cs, by rw [String.toList_ofList, hk], hblank, hmark, hfirst⟩
  | @name _ c cs hname hstart hparts hword =>
    obtain ⟨hblank, hmark⟩ := begins_no_layout hstart hnamed
    refine ⟨c, cs, hname, hblank, hmark, ?_⟩
    rw [first_name hstart hparts hword, ← hname, String.ofList_toList]
  | @number value _ c cs hword hstart hread =>
    obtain ⟨hblank, hmark⟩ := begins_no_layout (p := fun c => c.isDigit || c == '.') hstart hnumeral
    refine ⟨c, cs, hword, hblank, hmark, ?_⟩
    rw [first, if_pos hstart]
    exact numeral_eq_iff.2 ⟨value, hread, rfl⟩

end Lexeme

/-- No word spells the end of the text. -/
lemma Token.Kind.SpelledBy.ne_endOfInput {kind : Token.Kind} {word : String}
    (h : kind.SpelledBy word) : kind ≠ .endOfInput := by
  rintro rfl
  cases h

/-! ### Words -/

namespace Cursor

/-- **The text behind a cursor spells tokens** of some kinds, up to its end, all
on one line. -/
def Spells (cur : Cursor) (kinds : List Token.Kind) (line : Nat) : Prop :=
  ∃ ts mid eof fin, cur.Reads ts mid ∧ mid.scan = .ok eof fin ∧ eof.kind = .endOfInput ∧
    ts.map Token.kind = kinds ∧ ∀ tok ∈ ts ++ [eof], tok.pos.line = line

lemma Spells.of_scan_eq {cur cur' : Cursor} {kinds : List Token.Kind} {line : Nat}
    (hscan : cur.scan = cur'.scan) (h : cur'.Spells kinds line) : cur.Spells kinds line := by
  obtain ⟨ts, mid, eof, fin, hts, hend, heof, hkinds, hline⟩ := h
  cases hts with
  | nil => exact ⟨[], cur, eof, fin, .nil cur, hscan.trans hend, heof, hkinds, hline⟩
  | cons hfirst hkind hrest =>
    exact ⟨_, mid, eof, fin, .cons (hscan.trans hfirst) hkind hrest, hend, heof, hkinds, hline⟩

lemma spells_nil (p : Position) : (⟨[], p⟩ : Cursor).Spells [] p.line := by
  refine ⟨[], _, _, _, .nil _, rfl, rfl, rfl, fun tok htok => ?_⟩
  rw [List.mem_singleton.1 htok]
  rfl

/-- A word behind at most one blank, in front of a blank or the end. -/
lemma scan_word {kind : Token.Kind} {word : String} (h : kind.SpelledBy word) {l rest : List Char}
    (hl : l = [] ∨ l = [' ']) (hrest : Cut [] rest) (p : Position) :
    ∃ q q', (⟨l ++ (word.toList ++ rest), p⟩ : Cursor).scan = .ok ⟨kind, q⟩ ⟨rest, q'⟩ ∧
      q.line = p.line ∧ q'.line = p.line := by
  obtain ⟨c, cs, hword, hblank, hmark, hfirst⟩ := Lexeme.first_of_spelledBy h
  have hfirst' : Lexeme.first c (cs ++ []) = ⟨cs.length + 1, .ok kind⟩ := by
    rwa [List.append_nil]
  have hrest' := Lexeme.first_append hrest hfirst'
  have hblanks := Lexeme.isBlank_of_first hblank hfirst'
  have hzero : layout false (c :: (cs ++ rest)) = 0 := by
    simp_all [layout, isBlank]
  have hlayout : layout false (l ++ c :: (cs ++ rest)) = l.length := by
    rcases hl with rfl | rfl
    · exact hzero
    · rw [List.singleton_append, layout_cons]
      exact congrArg Nat.succ hzero
  have hscan := scan_eq p hlayout hrest'
  have hline : (p.across l (some c)).line = p.line := by
    rcases hl with rfl | rfl <;> rfl
  rw [hword, List.cons_append]
  refine ⟨_, _, hscan, hline, ?_⟩
  rw [Position.across_of_not_blank hblanks]
  exact hline

/-- The text of some words, each with a blank in front of it. -/
def spaced (words : List String) : List Char := words.flatMap fun word => ' ' :: word.toList

lemma cut_spaced (words : List String) : Cut [] (spaced words) := by
  cases words with
  | nil => exact .inl rfl
  | cons word words => exact .inr ⟨' ', rfl, rfl⟩

/-- A word in front of others. -/
lemma Spells.cons {kind : Token.Kind} {kinds : List Token.Kind} {word : String}
    (h : kind.SpelledBy word) {l rest : List Char} (hl : l = [] ∨ l = [' ']) (hrest : Cut [] rest)
    {p : Position} (hlater : ∀ q : Position, (⟨rest, q⟩ : Cursor).Spells kinds q.line) :
    (⟨l ++ (word.toList ++ rest), p⟩ : Cursor).Spells (kind :: kinds) p.line := by
  obtain ⟨q, q', hscan, hq, hq'⟩ := scan_word h hl hrest p
  obtain ⟨ts, mid, eof, fin, hts, hend, heof, hkinds, hline⟩ := hlater q'
  refine ⟨⟨kind, q⟩ :: ts, mid, eof, fin, .cons hscan h.ne_endOfInput hts, hend, heof, ?_, ?_⟩
  · rw [List.map_cons, hkinds]
  · intro tok htok
    rcases List.mem_cons.1 htok with rfl | htok
    · exact hq
    · rw [hline tok htok, hq']

/-- **Words with blanks in front** spell their tokens. -/
lemma spells_spaced {kinds : List Token.Kind} {words : List String}
    (h : List.Forall₂ Token.Kind.SpelledBy kinds words) (p : Position) :
    (⟨spaced words, p⟩ : Cursor).Spells kinds p.line := by
  induction h generalizing p with
  | nil => exact spells_nil p
  | @cons kind word kinds words hword _ ih =>
    have hcons := Spells.cons (p := p) hword (.inr rfl) (cut_spaced words) ih
    simpa [spaced] using hcons

lemma toList_intercalate_blank (word : String) (words : List String) :
    (" ".intercalate (word :: words)).toList = word.toList ++ spaced words := by
  rw [String.toList_intercalate]
  induction words generalizing word with
  | nil => simp [spaced]
  | cons next words ih =>
    rw [List.map_cons, List.map_cons, List.intercalate_cons_cons, ← List.map_cons, ih]
    simp [spaced]

/-- **Words between blanks** spell their tokens. -/
lemma spells_intercalate {kinds : List Token.Kind} {words : List String}
    (h : List.Forall₂ Token.Kind.SpelledBy kinds words) :
    (ofString (" ".intercalate words)).Spells kinds 1 := by
  cases h with
  | nil => exact spells_nil Position.start
  | @cons kind word kinds words hword hwords =>
    rw [ofString, toList_intercalate_blank]
    exact Spells.cons (p := Position.start) hword (.inl rfl) (cut_spaced words)
      (spells_spaced hwords)

end Cursor

end ClosureCalc
