/-
Numerals and their faults.

A numeral consists of digits, of a point with more digits, and of an exponent with an
optional sign, where each part may be missing and each row of digits may be empty. The
lexer takes the longest such text. What it says of this text depends on the parts of it
and on the next character.

* `Numeral.Parts`: a numeral taken apart; `Numeral.Parts.complaint?`: what is wrong with
  it, and where; `Numeral.Parts.decimal`, `Numeral.Parts.value`: what it denotes, exactly
  and as a floating-point number.
* `IsNumeral`, `Numeral.Parts.IsLongestIn`: a text of this shape, and the longest one at
  the beginning of a text.
* `Numeral.Path`: characters that lead from one phase of reading to another;
  `Numeral.path_iff`: from the beginning these are the numerals.
* `Numeral.exists_scan`: reading takes the longest numeral.
* `Numeral.Parts.rational_decimal`, `Numeral.Parts.value?_text`: the decimal is the
  number that the digits write at their places, and its value is what is read.
* `numeral_verdict`: what is said of a numeral, at every place of every text.
-/
import ClosureCalc.Proofs.Whereabouts
import Mathlib.Data.List.Induction
import Mathlib.Data.Nat.Digits.Defs
import Mathlib.Tactic.FieldSimp
import Mathlib.Tactic.Ring

namespace ClosureCalc

/-- The rational number that a decimal stands for. -/
def Decimal.rational (d : Decimal) : ℚ := d.coefficient * 10 ^ d.exponent

namespace Numeral

/-! ### The parts of a numeral -/

/-- The number that a row of digits writes in base ten. -/
def numberOf (digits : List Char) : Nat :=
  Nat.ofDigits 10 (digits.reverse.map fun c => c.toNat - '0'.toNat)

/-- **An exponent**: its mark, its sign if there is one, and its digits. -/
structure Exponent where
  mark : Char
  sign : Option Char
  digits : List Char
  mark_eq : mark = 'e' ∨ mark = 'E'
  sign_eq : ∀ c ∈ sign, c = '+' ∨ c = '-'
  isDigit_digits : ∀ c ∈ digits, c.isDigit = true

/-- **A numeral taken apart**: digits, the digits behind the point if there is a point,
and the exponent if there is one. -/
structure Parts where
  whole : List Char
  fraction : Option (List Char)
  exponent : Option Exponent
  isDigit_whole : ∀ c ∈ whole, c.isDigit = true
  isDigit_fraction : ∀ digits ∈ fraction, ∀ c ∈ digits, c.isDigit = true

namespace Exponent

/-- The characters of an exponent. -/
def text (e : Exponent) : List Char := e.mark :: (e.sign.toList ++ e.digits)

/-- The number that an exponent writes. -/
def value (e : Exponent) : Int :=
  if e.sign = some '-' then -numberOf e.digits else numberOf e.digits

end Exponent

namespace Parts

/-- The characters of a numeral. -/
def text (w : Parts) : List Char :=
  w.whole ++ (w.fraction.elim [] ('.' :: ·) ++ w.exponent.elim [] Exponent.text)

/-- The digits behind the point. -/
def places (w : Parts) : List Char := w.fraction.getD []

/-- The power of ten by which the number is moved. -/
def power (w : Parts) : Int := w.exponent.elim 0 Exponent.value

/-- The rational number that a numeral denotes: the digits at their places, moved by the
exponent. -/
def rational (w : Parts) : ℚ :=
  (numberOf w.whole + numberOf w.places / 10 ^ w.places.length) * 10 ^ w.power

/-- **The decimal that a numeral denotes**: all digits, and the power of ten of the last
of them. -/
def decimal (w : Parts) : Decimal :=
  ⟨numberOf (w.whole ++ w.places), w.power - w.places.length⟩

/-- **The floating-point number that a numeral denotes**: that of the decimal, as a literal
with its coefficient and exponent has it. -/
def value (w : Parts) : Float :=
  Float.ofScientific w.decimal.coefficient (decide (w.decimal.exponent < 0))
    w.decimal.exponent.natAbs

/-- **What is wrong with a numeral** from `first` to `last` in front of a character, and
the place that is named for it. -/
def complaint? (w : Parts) (next : Option Char) (first last : Position) :
    Option (String × Position) :=
  if w.exponent.isSome ∧ (next = some 'e' ∨ next = some 'E') then
    some ("Exponent already set", last)
  else if w.exponent.isSome ∧ next = some '.' then
    some ("Exponent set, decimal cannot be used", last)
  else if w.fraction.isSome ∧ w.exponent.isNone ∧ next = some '.' then
    some ("Decimal already set", last)
  else if w.exponent.any (·.digits.isEmpty) then
    some ("Number cannot end with exponent", last)
  else if w.whole = [] ∧ w.places = [] then
    some ("Invalid number literal '" ++ String.ofList w.text ++ "'", first)
  else none

end Parts

end Numeral

open Numeral

/-- **A text that is a numeral**, whether it denotes a number or not. -/
def IsNumeral (text : List Char) : Prop := ∃ w : Parts, w.text = text

/-- **The longest numeral** at the beginning of a text. -/
def Numeral.Parts.IsLongestIn (w : Parts) (text : List Char) : Prop :=
  w.text <+: text ∧ ∀ v, IsNumeral v → v <+: text → v.length ≤ w.text.length

namespace Numeral

/-! ### Paths -/

/-- Characters that lead from one phase of reading to another. -/
inductive Path : Phase → List Char → Phase → Prop where
  | nil (p : Phase) : Path p [] p
  | cons {p q r : Phase} {c : Char} {w : List Char} (hmove : p.move c = .go q)
      (hrest : Path q w r) : Path p (c :: w) r

section Path

variable {p q r : Phase} {c : Char} {u v w : List Char}

lemma Path.append (h : Path p u q) (h' : Path q v r) : Path p (u ++ v) r := by
  induction h with
  | nil => exact h'
  | cons hmove _ ih => exact .cons hmove (ih h')

/-- The last character of a path. -/
lemma Path.concat_cases (h : Path p (u ++ [c]) r) : ∃ q, Path p u q ∧ q.move c = .go r := by
  induction u generalizing p with
  | nil =>
    cases h with
    | cons hmove hrest =>
      cases hrest
      exact ⟨p, .nil p, hmove⟩
  | cons d u ih =>
    cases h with
    | cons hmove hrest =>
      obtain ⟨q, hpath, hlast⟩ := ih hrest
      exact ⟨q, .cons hmove hpath, hlast⟩

/-- A path that cannot go on is the longest one at the beginning of its text. -/
lemma Path.length_le (h : Path p w q) {behind : List Char}
    (hstop : ∀ c ∈ behind.head?, ∀ r, q.move c ≠ .go r) (hv : Path p v r)
    (hinitial : v <+: w ++ behind) : v.length ≤ w.length := by
  induction h generalizing v with
  | nil p =>
    cases hv with
    | nil => exact Nat.le_refl 0
    | @cons _ q _ c v hmove hrest =>
      obtain ⟨rest, hrest⟩ := hinitial
      exact absurd hmove (hstop c (by rw [← List.nil_append behind, ← hrest]; rfl) q)
  | @cons p q _ c w hmove _ ih =>
    cases hv with
    | nil => exact Nat.zero_le _
    | @cons _ q' _ d v hmove' hrest' =>
      rw [List.cons_append, List.cons_prefix_cons] at hinitial
      obtain ⟨rfl, hinitial⟩ := hinitial
      rw [hmove] at hmove'
      cases hmove'
      exact Nat.succ_le_succ (ih hstop hrest' hinitial)

/-- Digits lead to the phase behind a digit. -/
lemma path_digits (hw : ∀ c ∈ w, c.isDigit = true) (hp : p.digit = p) : Path p w p := by
  induction w with
  | nil => exact .nil p
  | cons c w ih =>
    obtain ⟨hc, hw⟩ := List.forall_mem_cons.1 hw
    refine .cons ?_ (ih hw)
    rw [Phase.move, if_pos hc, hp]

/-- What reading does with the next character, if it goes no further. -/
def endingOf (p : Phase) (next : Option Char) : Except LexFault Phase :=
  match next.map p.move with
  | some (.fail fault) => .error fault
  | _ => .ok p

/-- **Reading takes the longest path.** -/
lemma exists_path (p : Phase) (text : List Char) :
    ∃ w behind q, text = w ++ behind ∧ Path p w q ∧
      scan p text = (w.length, endingOf q behind.head?) ∧
      ∀ c ∈ behind.head?, ∀ r, q.move c ≠ .go r := by
  induction text generalizing p with
  | nil => exact ⟨[], [], p, rfl, .nil p, rfl, by simp⟩
  | cons c rest ih =>
    rw [scan]
    cases hmove : p.move c with
    | go q =>
      obtain ⟨w, behind, r, rfl, hpath, hscan, hstop⟩ := ih q
      refine ⟨c :: w, behind, r, rfl, .cons hmove hpath, ?_, hstop⟩
      simp only [hscan, List.length_cons]
    | fail fault =>
      refine ⟨[], c :: rest, p, rfl, .nil p, ?_, ?_⟩
      · simp [endingOf, hmove]
      · simp [hmove]
    | stop =>
      refine ⟨[], c :: rest, p, rfl, .nil p, ?_, ?_⟩
      · simp [endingOf, hmove]
      · simp [hmove]

end Path

/-! ### The phase at the end of a numeral -/

/-- The phase behind an exponent. -/
def Exponent.phase (e : Exponent) : Phase :=
  if e.digits ≠ [] then .exponent else if e.sign.isSome then .signed else .mark

/-- The phase behind a numeral. -/
def Parts.phase (w : Parts) : Phase :=
  match w.exponent with
  | some e => e.phase
  | none => if w.fraction.isSome then .fraction else .whole

/-- The phase of reading tells whether there is an exponent. -/
lemma Exponent.isExponent_phase (e : Exponent) : e.phase.isExponent = true := by
  unfold Exponent.phase
  split
  · rfl
  · split <;> rfl

lemma Parts.isExponent_phase (w : Parts) : w.phase.isExponent = w.exponent.isSome := by
  unfold Parts.phase
  cases w.exponent with
  | some e => exact e.isExponent_phase
  | none => cases w.fraction <;> rfl

/-- What a character does to a numeral that goes on with it. -/
lemma Phase.move_go_cases {p q : Phase} {c : Char} (h : p.move c = .go q) :
    c.isDigit = true ∧ q = p.digit ∨
      (c = 'e' ∨ c = 'E') ∧ p.isExponent = false ∧ q = .mark ∨
      c = '.' ∧ p = .whole ∧ q = .fraction ∨
      (c = '+' ∨ c = '-') ∧ p = .mark ∧ q = .signed := by
  unfold move at h
  split at h
  · rename_i hdigit
    cases h
    exact .inl ⟨hdigit, rfl⟩
  split at h
  · rename_i hmark
    split at h
    · cases h
    · rename_i hexp
      cases h
      exact .inr (.inl ⟨hmark, Bool.eq_false_iff.2 hexp, rfl⟩)
  split at h
  · rename_i hpoint
    split at h
    · cases h
    · split at h
      · cases h
      · rename_i hexp hfraction
        cases h
        refine .inr (.inr (.inl ⟨hpoint, ?_, rfl⟩))
        cases p with
        | whole => rfl
        | fraction => exact absurd rfl hfraction
        | _ => exact absurd rfl hexp
  split at h
  · rename_i hsign
    cases h
    exact .inr (.inr (.inr ⟨hsign.1, hsign.2, rfl⟩))
  · cases h

/-- An exponent is read behind digits with or without a point. -/
lemma Exponent.path_text (e : Exponent) {p : Phase} (hp : p.isExponent = false) :
    Path p e.text e.phase := by
  obtain ⟨mark, sign, digits, hmark, hsign, hdigits⟩ := e
  have hfirst : p.move mark = .go .mark := by
    rcases hmark with rfl | rfl <;> simp [Phase.move, hp]
  -- the digits of an exponent are read behind its mark and behind its sign
  have hrest : ∀ q : Phase, q.digit = .exponent →
      Path q digits (if digits ≠ [] then .exponent else q) := by
    intro q hq
    cases digits with
    | nil => exact .nil q
    | cons c digits =>
      obtain ⟨hc, hdigits⟩ := List.forall_mem_cons.1 hdigits
      refine .cons ?_ (path_digits hdigits rfl)
      rw [Phase.move, if_pos hc, hq, if_pos (List.cons_ne_nil c digits)]
  refine .cons hfirst ?_
  cases sign with
  | none => exact hrest .mark rfl
  | some s =>
    have hs : Phase.mark.move s = .go .signed := by
      rcases hsign s rfl with rfl | rfl <;> rfl
    exact .cons hs (hrest .signed rfl)

/-- **A numeral is read** from the beginning to its end. -/
lemma Parts.path_text (w : Parts) : Path .whole w.text w.phase := by
  obtain ⟨whole, fraction, exponent, hwhole, hfraction⟩ := w
  have hpoint : Path .whole (whole ++ fraction.elim [] ('.' :: ·))
      (if fraction.isSome then .fraction else .whole) := by
    refine (path_digits hwhole rfl).append ?_
    cases fraction with
    | none => exact .nil _
    | some digits => exact .cons rfl (path_digits (hfraction digits rfl) rfl)
  rw [text, ← List.append_assoc]
  refine hpoint.append ?_
  cases exponent with
  | none => exact .nil _
  | some e =>
    refine e.path_text ?_
    cases fraction <;> rfl

/-- Digits and one more digit. -/
lemma isDigit_concat {digits : List Char} (h : ∀ d ∈ digits, d.isDigit = true) {c : Char}
    (hc : c.isDigit = true) : ∀ d ∈ digits ++ [c], d.isDigit = true :=
  List.forall_mem_append.2 ⟨h, by simpa using hc⟩

/-- An exponent with one more digit. -/
lemma Exponent.exists_digit (e : Exponent) {c : Char} (hc : c.isDigit = true) :
    ∃ e' : Exponent, e'.text = e.text ++ [c] ∧ e'.phase = .exponent := by
  have hdigits := isDigit_concat e.isDigit_digits hc
  refine ⟨⟨e.mark, e.sign, e.digits ++ [c], e.mark_eq, e.sign_eq, hdigits⟩, ?_, ?_⟩
  · simp [text]
  · simp [phase]

/-- An exponent with its sign, which stands directly behind its mark. -/
lemma Exponent.exists_sign (e : Exponent) (h : e.phase = .mark) {c : Char}
    (hc : c = '+' ∨ c = '-') : ∃ e' : Exponent, e'.text = e.text ++ [c] ∧ e'.phase = .signed := by
  obtain ⟨mark, sign, digits, hmark, hsign, hdigits⟩ := e
  cases digits with
  | cons d digits => cases h
  | nil =>
    cases sign with
    | some s => cases h
    | none => exact ⟨⟨mark, some c, [], hmark, by simpa using hc, hdigits⟩, rfl, rfl⟩

/-- A numeral with one more digit, in the last of its parts. -/
lemma Parts.exists_digit (w : Parts) {c : Char} (hc : c.isDigit = true) :
    ∃ w' : Parts, w'.text = w.text ++ [c] ∧ w'.phase = w.phase.digit := by
  obtain ⟨whole, fraction, exponent, hwhole, hfraction⟩ := w
  cases exponent with
  | some e =>
    obtain ⟨e', htext, hphase⟩ := e.exists_digit hc
    refine ⟨⟨whole, fraction, some e', hwhole, hfraction⟩, by simp [text, htext], ?_⟩
    change e'.phase = e.phase.digit
    rw [hphase, Phase.digit, if_pos e.isExponent_phase]
  | none =>
    cases fraction with
    | some digits =>
      refine ⟨⟨whole, some (digits ++ [c]), none, hwhole, ?_⟩, by simp [text], rfl⟩
      rintro _ ⟨⟩
      exact isDigit_concat (hfraction digits rfl) hc
    | none =>
      exact ⟨⟨whole ++ [c], none, none, isDigit_concat hwhole hc, hfraction⟩, by simp [text], rfl⟩

/-- A numeral with one more character, if it goes on with it. -/
lemma Parts.exists_push (w : Parts) {c : Char} {q : Phase} (h : w.phase.move c = .go q) :
    ∃ w' : Parts, w'.text = w.text ++ [c] ∧ w'.phase = q := by
  have hexponent := w.isExponent_phase
  rcases Phase.move_go_cases h with ⟨hc, rfl⟩ | ⟨hc, hphase, rfl⟩ | ⟨rfl, hphase, rfl⟩ |
    ⟨hc, hphase, rfl⟩
  · exact w.exists_digit hc
  all_goals obtain ⟨whole, fraction, exponent, hwhole, hfraction⟩ := w
  all_goals rw [hphase] at hexponent
  · -- the mark of an exponent
    obtain rfl : exponent = none := by simpa using hexponent.symm
    exact ⟨⟨whole, fraction, some ⟨c, none, [], hc, by simp, by simp⟩, hwhole, hfraction⟩,
      by simp [text, Exponent.text], rfl⟩
  · -- the point
    obtain rfl : exponent = none := by simpa [Phase.isExponent] using hexponent.symm
    cases fraction with
    | some digits => cases hphase
    | none => exact ⟨⟨whole, some [], none, hwhole, by simp⟩, by simp [text], rfl⟩
  · -- the sign of an exponent
    obtain ⟨e, rfl⟩ := Option.isSome_iff_exists.1 hexponent.symm
    obtain ⟨e', htext, he'⟩ := e.exists_sign hphase hc
    exact ⟨⟨whole, fraction, some e', hwhole, hfraction⟩, by simp [text, htext], he'⟩

/-- **From the beginning the paths are the numerals.** -/
lemma path_iff {w : List Char} {q : Phase} :
    Path .whole w q ↔ ∃ parts : Parts, parts.text = w ∧ parts.phase = q := by
  constructor
  · intro h
    induction w using List.reverseRecOn generalizing q with
    | nil =>
      cases h
      exact ⟨⟨[], none, none, by simp, by simp⟩, rfl, rfl⟩
    | append_singleton w c ih =>
      obtain ⟨p, hpath, hmove⟩ := h.concat_cases
      obtain ⟨parts, rfl, rfl⟩ := ih hpath
      exact parts.exists_push hmove
  · rintro ⟨parts, rfl, rfl⟩
    exact parts.path_text

/-- **Reading takes the longest numeral** at the beginning of a text. -/
lemma exists_scan (text : List Char) :
    ∃ (w : Parts) (behind : List Char), text = w.text ++ behind ∧ w.IsLongestIn text ∧
      scan .whole text = (w.text.length, endingOf w.phase behind.head?) ∧
      ∀ c ∈ behind.head?, ∀ r, w.phase.move c ≠ .go r := by
  obtain ⟨w, behind, q, rfl, hpath, hscan, hstop⟩ := exists_path .whole text
  obtain ⟨parts, rfl, rfl⟩ := path_iff.1 hpath
  refine ⟨parts, behind, rfl, ⟨List.prefix_append _ _, ?_⟩, hscan, hstop⟩
  rintro _ ⟨v, rfl⟩ hinitial
  exact hpath.length_le hstop v.path_text hinitial

/-! ### Faults -/

namespace Parts

/-- The fault of a numeral in front of a character. -/
def fault? (w : Parts) (next : Option Char) : Option LexFault :=
  if w.exponent.isSome ∧ (next = some 'e' ∨ next = some 'E') then some .exponentTwice
  else if w.exponent.isSome ∧ next = some '.' then some .pointInExponent
  else if w.fraction.isSome ∧ w.exponent.isNone ∧ next = some '.' then some .pointTwice
  else if w.exponent.any (·.digits.isEmpty) then some .openExponent
  else if w.whole = [] ∧ w.places = [] then some (.invalidNumeral (String.ofList w.text))
  else none

/-- A complaint words a fault and names its place. -/
lemma complaint?_eq (w : Parts) (next : Option Char) (first last : Position) :
    w.complaint? next first last =
      (w.fault? next).map fun fault =>
        (fault.message, if fault.isAtStart then first else last) := by
  unfold complaint? fault?
  split_ifs <;> rfl

/-- An exponent is open as long as it has no digit. -/
lemma isOpen_phase (w : Parts) : w.phase.isOpen = w.exponent.any (·.digits.isEmpty) := by
  unfold phase
  cases w.exponent with
  | none => cases w.fraction <;> rfl
  | some e =>
    change e.phase.isOpen = e.digits.isEmpty
    rw [Exponent.phase]
    cases e.digits with
    | nil => cases e.sign <;> rfl
    | cons c digits => rfl

/-- Behind the point is a numeral with a point and without an exponent. -/
lemma phase_eq_fraction_iff (w : Parts) :
    w.phase = .fraction ↔ w.fraction.isSome ∧ w.exponent.isNone := by
  unfold phase
  cases w.exponent with
  | none => cases w.fraction <;> simp
  | some e =>
    have hne : e.phase ≠ .fraction := by
      intro h
      have hexp := e.isExponent_phase
      rw [h] at hexp
      cases hexp
    simpa using hne

end Parts

/-- **The next character**, if reading goes no further, is a fault if it would begin a
second exponent or a second point, or a point in the exponent. -/
lemma endingOf_eq {p : Phase} {next : Option Char} (hstop : ∀ c ∈ next, ∀ r, p.move c ≠ .go r) :
    endingOf p next =
      if p.isExponent ∧ (next = some 'e' ∨ next = some 'E') then .error .exponentTwice
      else if p.isExponent ∧ next = some '.' then .error .pointInExponent
      else if p = .fraction ∧ next = some '.' then .error .pointTwice
      else .ok p := by
  cases next with
  | none => simp [endingOf]
  | some c =>
    have hgo := hstop c rfl
    have hdigit : ¬ c.isDigit = true := fun hc => hgo p.digit (if_pos hc)
    rw [Phase.move, if_neg hdigit] at hgo
    rw [endingOf, Option.map_some, Phase.move, if_neg hdigit]
    simp only [Option.some.injEq]
    by_cases hmark : c = 'e' ∨ c = 'E'
    · rw [if_pos hmark] at hgo ⊢
      have hexp : p.isExponent = true := by
        by_contra hexp
        exact hgo .mark (if_neg hexp)
      rw [if_pos hexp, if_pos ⟨hexp, hmark⟩]
    rw [if_neg hmark] at hgo ⊢
    by_cases hpoint : c = '.'
    · rw [if_pos hpoint] at hgo ⊢
      subst hpoint
      by_cases hexp : p.isExponent = true
      · simp only [hexp, hmark, if_true, and_true, and_false, if_false]
      rw [if_neg hexp] at hgo ⊢
      have hfraction : p = .fraction := by
        by_contra hfraction
        exact hgo .fraction (if_neg hfraction)
      subst hfraction
      rfl
    · rw [if_neg hpoint] at hgo ⊢
      have hsign : ¬ ((c = '+' ∨ c = '-') ∧ p = .mark) := fun hsign => hgo .signed (if_pos hsign)
      simp only [hsign, hmark, hpoint, and_false, if_false]

/-! ### Values -/

/-- The number of two rows of digits, one behind the other. -/
lemma numberOf_append (u v : List Char) :
    numberOf (u ++ v) = numberOf u * 10 ^ v.length + numberOf v := by
  simp only [numberOf, List.reverse_append, List.map_append, Nat.ofDigits_append, List.length_map,
    List.length_reverse]
  ring

/-- Digits are read from the first to the last. -/
lemma natOfDigits_eq (digits : List Char) : natOfDigits digits = numberOf digits := by
  induction digits using List.reverseRecOn with
  | nil => rfl
  | append_singleton digits c ih =>
    have hlast : natOfDigits (digits ++ [c]) = 10 * natOfDigits digits + (c.toNat - '0'.toNat) := by
      simp [natOfDigits, List.foldl_append]
    have hc : numberOf [c] = c.toNat - '0'.toNat := by simp [numberOf]
    rw [hlast, ih, numberOf_append, hc, List.length_singleton, pow_one, Nat.mul_comm]

/-- **The decimal is the number that the numeral denotes.** -/
lemma Parts.rational_decimal (w : Parts) :
    w.decimal.rational = w.rational := by
  have hten : (10 : ℚ) ≠ 0 := by norm_num
  rw [Decimal.rational, decimal, rational, numberOf_append, zpow_sub₀ hten, zpow_natCast]
  push_cast
  field_simp

/-- No digit is a point or the mark of an exponent. -/
lemma of_isDigit {c : Char} (h : c.isDigit = true) : (!isMark c) = true ∧ (c != '.') = true := by
  have hne : ∀ d : Char, d.isDigit = false → c ≠ d := by
    rintro d hd rfl
    rw [h] at hd
    cases hd
  simp [isMark, hne 'e' rfl, hne 'E' rfl, hne '.' rfl]

/-- A row of characters ends in front of one of another kind. -/
lemma span_eq {p : Char → Bool} {row rest : List Char} (hrow : ∀ c ∈ row, p c = true)
    (hrest : ∀ c ∈ rest.head?, p c = false) :
    (row ++ rest).takeWhile p = row ∧ (row ++ rest).dropWhile p = rest := by
  rw [List.takeWhile_append_of_pos hrow, List.dropWhile_append_of_pos hrow,
    takeWhile_eq_nil.2 hrest, List.append_nil]
  refine ⟨rfl, ?_⟩
  cases rest with
  | nil => rfl
  | cons c rest => exact List.dropWhile_cons_of_neg (by simp [hrest c rfl])

namespace Parts

/-- A numeral without its exponent. -/
def front (w : Parts) : List Char := w.whole ++ w.fraction.elim [] ('.' :: ·)

/-- The mark of the exponent is the first one. -/
lemma span_text (w : Parts) :
    w.text.takeWhile (!isMark ·) = w.front ∧
      w.text.dropWhile (!isMark ·) = w.exponent.elim [] Exponent.text := by
  rw [text, ← List.append_assoc]
  refine span_eq (fun c hc => ?_) fun c hc => ?_
  · rcases List.mem_append.1 hc with hc | hc
    · exact (of_isDigit (w.isDigit_whole c hc)).1
    · cases hfraction : w.fraction with
      | none =>
        rw [hfraction] at hc
        cases hc
      | some digits =>
        rw [hfraction] at hc
        rcases List.mem_cons.1 hc with rfl | hc
        · rfl
        · exact (of_isDigit (w.isDigit_fraction digits hfraction c hc)).1
  · cases hexp : w.exponent with
    | none =>
      rw [hexp] at hc
      cases hc
    | some e =>
      rw [hexp] at hc
      cases hc
      rcases e.mark_eq with hmark | hmark <;> simp [isMark, hmark]

/-- The point is the first one. -/
lemma span_front (w : Parts) :
    w.front.takeWhile (· != '.') = w.whole ∧
      w.front.dropWhile (· != '.') = w.fraction.elim [] ('.' :: ·) := by
  refine span_eq (fun c hc => (of_isDigit (w.isDigit_whole c hc)).2) fun c hc => ?_
  cases hfraction : w.fraction with
  | none =>
    rw [hfraction] at hc
    cases hc
  | some digits =>
    rw [hfraction] at hc
    cases hc
    rfl

/-- Digits without a sign. -/
lemma intOfDigits_of_isDigit {digits : List Char} (h : ∀ c ∈ digits, c.isDigit = true) :
    intOfDigits digits = natOfDigits digits := by
  unfold intOfDigits
  split
  · exact absurd (h '-' List.mem_cons_self) (by decide)
  · exact absurd (h '+' List.mem_cons_self) (by decide)
  · rfl

/-- The sign of an exponent is read with its digits. -/
lemma intOfDigits_exponent (w : Parts) :
    intOfDigits ((w.exponent.elim [] Exponent.text).drop 1) = w.power := by
  rw [power]
  cases w.exponent with
  | none => rfl
  | some e =>
    change intOfDigits (e.sign.toList ++ e.digits) = e.value
    rw [Exponent.value, ← natOfDigits_eq]
    cases hsign : e.sign with
    | some s =>
      rcases e.sign_eq s hsign with rfl | rfl
      · rfl
      · rfl
    | none => exact intOfDigits_of_isDigit e.isDigit_digits

/-- The digits that are read are those of the parts. -/
lemma digits_text (w : Parts) :
    wholePart w.text = w.whole ∧ fractionPart w.text = w.places := by
  rw [wholePart, fractionPart, w.span_text.1, w.span_front.1, w.span_front.2, places]
  refine ⟨rfl, ?_⟩
  cases w.fraction <;> rfl

/-- **The value that is read** is that of the parts, if there is a digit. -/
lemma value?_text (w : Parts) :
    value? w.text = if w.whole = [] ∧ w.places = [] then none else some w.value := by
  have hdecimal : Numeral.decimal w.text = w.decimal := by
    rw [Numeral.decimal, w.digits_text.1, w.digits_text.2, exponentPart, w.span_text.2,
      natOfDigits_eq, intOfDigits_exponent, decimal]
  rw [value?, w.digits_text.1, w.digits_text.2, hdecimal]
  simp only [Bool.and_eq_true, List.isEmpty_iff, Decimal.toFloat, value]

end Parts

/-- **What is read at the beginning of a text**: the longest numeral, with its fault or its
value. -/
lemma exists_read (text : List Char) :
    ∃ (w : Parts) (behind : List Char), text = w.text ++ behind ∧ w.IsLongestIn text ∧
      read text = (w.text.length,
        match w.fault? behind.head? with
        | some fault => .error fault
        | none => .ok w.value) := by
  obtain ⟨w, behind, htext, hlongest, hscan, hstop⟩ := exists_scan text
  refine ⟨w, behind, htext, hlongest, ?_⟩
  have htake : text.take w.text.length = w.text := by rw [htext, List.take_left]
  have hending := endingOf_eq hstop
  simp only [w.isExponent_phase, w.phase_eq_fraction_iff, and_assoc] at hending
  rw [read, hscan, hending, Parts.fault?]
  split_ifs with htwice hpoint hpoints hopen hdigits
  · rfl
  · rfl
  · rfl
  · simp only [w.isOpen_phase, hopen, if_true]
  · simp only [w.isOpen_phase, hopen, htake, w.value?_text, hdigits]
    rfl
  · simp only [w.isOpen_phase, hopen, htake, w.value?_text, if_neg hdigits]
    rfl

/-! ### The text of a numeral -/

/-- The characters that numerals are made of. -/
lemma Path.isDigit_or {p q : Phase} {w : List Char} (h : Path p w q) :
    ∀ c ∈ w, c.isDigit = true ∨ c ∈ ['e', 'E', '.', '+', '-'] := by
  induction h with
  | nil => simp
  | cons hmove _ ih =>
    refine List.forall_mem_cons.2 ⟨?_, ih⟩
    rcases Phase.move_go_cases hmove with ⟨hc, -⟩ | ⟨rfl | rfl, -⟩ | ⟨rfl, -⟩ | ⟨rfl | rfl, -⟩
    · exact .inl hc
    all_goals exact .inr (by decide)

/-- A numeral has no blanks, and each of its characters is one byte. -/
lemma Parts.of_mem_text (w : Parts) : ∀ c ∈ w.text, isBlank c = false ∧ c.utf8Size = 1 := by
  intro c hc
  rcases w.path_text.isDigit_or c hc with hdigit | hmem
  · refine ⟨Bool.eq_false_iff.2 fun hblank => ?_, ?_⟩
    · have hpart := isNamePart_of_isBlank hblank
      simp [isNamePart, hdigit] at hpart
    · rw [Char.isDigit, Bool.and_eq_true, decide_eq_true_eq, decide_eq_true_eq] at hdigit
      exact Char.utf8Size_eq_one_iff.2 (UInt32.le_trans hdigit.2 (by decide))
  · simp only [List.mem_cons, List.not_mem_nil, or_false] at hmem
    rcases hmem with rfl | rfl | rfl | rfl | rfl <;> exact ⟨rfl, rfl⟩

end Numeral

/-- A text of characters of one byte has as many bytes as characters. -/
lemma utf8Len_eq_length {text : List Char} (h : ∀ c ∈ text, c.utf8Size = 1) :
    String.utf8Len text = text.length := by
  induction text with
  | nil => rfl
  | cons c text ih =>
    obtain ⟨hc, htext⟩ := List.forall_mem_cons.1 h
    rw [String.utf8Len_cons, hc, ih htext, List.length_cons]

/-- A cursor that is moved over a numeral. -/
lemma Cursor.advanceBy_numeral (w : Parts) (behind : List Char) (p : Position) :
    advanceBy w.text.length ⟨w.text ++ behind, p⟩ =
      ⟨behind, ⟨p.offset + w.text.length, p.line, p.column + w.text.length⟩⟩ := by
  have hblanks : ∀ c ∈ w.text, isBlank c = false := fun c hc => (w.of_mem_text c hc).1
  rw [advanceBy_append, Position.across_of_not_blank hblanks,
    utf8Len_eq_length fun c hc => (w.of_mem_text c hc).2]

/-- **What is said of a numeral** that a cursor is in front of, with a text behind it.
Reading stops behind the numeral, with the complaint about it, or else with the number
that it denotes. -/
def Cursor.Judges (cur : Cursor) (w : Parts) (behind : List Char) : Prop :=
  let first := cur.skipLayout.pos
  let last : Position := ⟨first.offset + w.text.length, first.line, first.column + w.text.length⟩
  match w.complaint? behind.head? first last with
  | some (message, place) => ∃ e : Error, cur.scan = .error e ⟨behind, last⟩ ∧
      e.kind = .lex ∧ e.message = message ∧ e.pos? = some place
  | none => cur.scan = .ok ⟨.number w.value, first⟩ ⟨behind, last⟩

/-- **The verdict on a numeral.** A token that begins with a digit or a point is read as
the longest numeral from there on, with or without a fault, and reading stops behind it.
If a second exponent or a second point would follow, or a point in the exponent, that is
the fault, at the end of the numeral. Otherwise it is an exponent without digits, at the
end, or a numeral without digits in front of the exponent, at its beginning. Otherwise
the numeral is a token with the number that it denotes. -/
theorem numeral_verdict {cur : Cursor} {c : Char} {rest : List Char}
    (hrest : cur.skipLayout.rest = c :: rest) (hc : c.isDigit = true ∨ c = '.') :
    ∃ (w : Parts) (behind : List Char), c :: rest = w.text ++ behind ∧
      w.IsLongestIn (c :: rest) ∧ w.decimal.rational = w.rational ∧ cur.Judges w behind := by
  obtain ⟨w, behind, htext, hlongest, hread⟩ := exists_read (c :: rest)
  refine ⟨w, behind, htext, hlongest, w.rational_decimal, ?_⟩
  have hskip : cur.skipLayout = ⟨w.text ++ behind, cur.skipLayout.pos⟩ := by rw [← htext, ← hrest]
  have hfirst : Lexeme.first c rest = Lexeme.numeral (c :: rest) := if_pos (by simpa using hc)
  have hlast := Cursor.advanceBy_numeral w behind cur.skipLayout.pos
  rw [← hskip] at hlast
  rw [Cursor.Judges, w.complaint?_eq, Cursor.scan]
  simp only [hrest, hfirst, Lexeme.numeral, hread, hlast]
  cases w.fault? behind.head? with
  | none => rfl
  | some fault => exact ⟨_, rfl, rfl, rfl, rfl⟩

/-- A numeral behind a comment, with a point behind its exponent, and one without a fault. -/
theorem numeral_verdict_point :
    let source := "# 1.\n\t.5E+03.x"
    ((∃ (w : Parts) (behind : List Char), ".5E+03.x".toList = w.text ++ behind ∧
      w.IsLongestIn ".5E+03.x".toList ∧ w.decimal.rational = w.rational ∧
      (Cursor.ofString source).Judges w behind) ∧
      tokenize source = .error (.lex .pointInExponent ⟨12, 2, 8⟩)) ∧
    (∃ (w : Parts) (behind : List Char), "12.5e-1".toList = w.text ++ behind ∧
      w.IsLongestIn "12.5e-1".toList ∧ w.decimal.rational = w.rational ∧
      (Cursor.ofString "12.5e-1").Judges w behind) ∧
      tokenize "12.5e-1" =
        .ok [⟨.number 1.25, Position.start⟩, ⟨.endOfInput, ⟨7, 1, 8⟩⟩] := by
  intro source
  have hskip : (Cursor.ofString source).skipLayout.rest = '.' :: "5E+03.x".toList := by
    decide +kernel
  have hnone : (Cursor.ofString "12.5e-1").skipLayout.rest = '1' :: "2.5e-1".toList := by
    decide +kernel
  exact ⟨⟨numeral_verdict hskip (.inr rfl), by decide +kernel⟩,
    numeral_verdict hnone (.inl rfl), by decide +kernel⟩

end ClosureCalc
