/-
Numerals: digits with at most one point and at most one exponent.

* `Phase`: how far a numeral has been read; `Phase.move` says what one more
  character does.
* `scan`: the length of the text that belongs to the numeral, and the phase
  it ends in or the fault that ends it.
* `value?`: the number denoted by a numeral, if it has a digit before the
  exponent.
* `read`: both together, as a lexeme.
-/
import ClosureCalc.Error

namespace ClosureCalc

namespace Numeral

/-- How far a numeral has been read. -/
inductive Phase where
  /-- Digits in front of a point. -/
  | whole
  /-- Behind the point. -/
  | fraction
  /-- Directly behind the exponent mark. -/
  | mark
  /-- Directly behind the sign of the exponent. -/
  | signed
  /-- Digits of the exponent. -/
  | exponent
deriving DecidableEq, Inhabited, Repr

/-- What a character does to a numeral. -/
inductive Move where
  | go (next : Phase)
  | fail (fault : LexFault)
  | stop
deriving DecidableEq, Inhabited, Repr

namespace Phase

/-- Whether the exponent mark has been read. -/
def isExponent : Phase → Bool
  | mark => true
  | signed => true
  | exponent => true
  | _ => false

/-- Whether a digit is still due. -/
def isOpen : Phase → Bool
  | mark => true
  | signed => true
  | _ => false

/-- The phase behind one more digit. -/
def digit (p : Phase) : Phase := if p.isExponent then exponent else p

/-- What one more character does. -/
def move (p : Phase) (c : Char) : Move :=
  if c.isDigit then .go p.digit
  else if c = 'e' ∨ c = 'E' then
    if p.isExponent then .fail .exponentTwice else .go mark
  else if c = '.' then
    if p.isExponent then .fail .pointInExponent
    else if p = fraction then .fail .pointTwice
    else .go fraction
  else if (c = '+' ∨ c = '-') ∧ p = mark then .go signed
  else .stop

end Phase

/-- The length of the text that continues a numeral in phase `p`, and the
phase at its end or the fault that ends it. -/
def scan (p : Phase) : List Char → Nat × Except LexFault Phase
  | [] => (0, .ok p)
  | c :: rest =>
    match p.move c with
    | .go q =>
      let (n, ending) := scan q rest
      (n + 1, ending)
    | .fail fault => (0, .error fault)
    | .stop => (0, .ok p)

theorem scan_le_length (p : Phase) (text : List Char) :
    (scan p text).1 ≤ text.length := by
  induction text generalizing p with
  | nil => exact Nat.le_refl 0
  | cons c rest ih =>
    unfold scan
    split
    · exact Nat.succ_le_succ (ih _)
    · exact Nat.zero_le _
    · exact Nat.zero_le _

/-- A digit or a point belongs to the numeral that it begins. -/
theorem scan_whole_pos {c : Char} (rest : List Char)
    (h : (c.isDigit || c == '.') = true) : 0 < (scan .whole (c :: rest)).1 := by
  have hmove : ∃ q, Phase.whole.move c = .go q := by
    unfold Phase.move
    split
    · exact ⟨_, rfl⟩
    · rename_i hc
      obtain rfl : c = '.' := by simpa [hc] using h
      exact ⟨.fraction, rfl⟩
  obtain ⟨q, hq⟩ := hmove
  simp [scan, hq]

/-! ### The number denoted -/

/-- The number written by a row of digits. -/
def natOfDigits (digits : List Char) : Nat :=
  digits.foldl (fun n c => 10 * n + (c.toNat - '0'.toNat)) 0

/-- The number written by digits with an optional sign. -/
def intOfDigits : List Char → Int
  | '-' :: digits => -natOfDigits digits
  | '+' :: digits => natOfDigits digits
  | digits => natOfDigits digits

/-- Whether a character marks the exponent. -/
def isMark (c : Char) : Bool := c == 'e' || c == 'E'

/-- The digits in front of the point. -/
def wholePart (w : List Char) : List Char :=
  (w.takeWhile (!isMark ·)).takeWhile (· != '.')

/-- The digits between the point and the exponent. -/
def fractionPart (w : List Char) : List Char :=
  ((w.takeWhile (!isMark ·)).dropWhile (· != '.')).drop 1

/-- The exponent with its sign, without the mark. -/
def exponentPart (w : List Char) : List Char := (w.dropWhile (!isMark ·)).drop 1

/-- The decimal denoted by a numeral: the digits around the point, moved by
the exponent. -/
def decimal (w : List Char) : Decimal :=
  ⟨natOfDigits (wholePart w ++ fractionPart w),
    intOfDigits (exponentPart w) - (fractionPart w).length⟩

/-- The number denoted by a numeral, if there is a digit in front of the
exponent. -/
def value? (w : List Char) : Option Float :=
  if (wholePart w).isEmpty && (fractionPart w).isEmpty then none
  else some (decimal w).toFloat

/-- Reads the numeral at the beginning of a text: its length, and its number
or its fault. -/
def read (text : List Char) : Nat × Except LexFault Float :=
  let (n, ending) := scan .whole text
  match ending with
  | .error fault => (n, .error fault)
  | .ok p =>
    if p.isOpen then (n, .error .openExponent)
    else
      match value? (text.take n) with
      | some value => (n, .ok value)
      | none => (n, .error (.invalidNumeral (String.ofList (text.take n))))

/-- Reading takes what belongs to the numeral, with or without a fault. -/
theorem size_read (text : List Char) : (read text).1 = (scan .whole text).1 := by
  unfold read
  cases hs : (scan .whole text).2 with
  | error fault => simp [hs]
  | ok p =>
    simp only [hs]
    split
    · rfl
    · split <;> rfl

end Numeral

end ClosureCalc
