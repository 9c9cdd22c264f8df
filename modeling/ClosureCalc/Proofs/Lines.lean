/-
The lines of a text.

A line feed, a carriage return, or a carriage return with a line feed behind it
is one line break. Lines are counted here by splitting the text, while a cursor
counts them character by character with a look at the next one.

* `lines`, `breaks`: the lines of a text, and the number of its line breaks;
  `firstLine`, `lastLine`: its first and its last line.
* `SplitsPair`: a place between a carriage return and its line feed.
* `lines_append`: the lines of two texts, one behind the other.
* `Position.line_column_across`: a cursor that is moved counts the lines, and the
  characters of the last one.
* `Excerpt.line_append`: the line that is shown around a place.
-/
import ClosureCalc.Proofs.Lexing

namespace ClosureCalc

open Excerpt

/-! ### Line breaks -/

/-- The lines of a text. A carriage return and the line feed behind it are one
line break. -/
def lines : List Char → List (List Char)
  | [] => [[]]
  | '\r' :: '\n' :: rest => [] :: lines rest
  | c :: rest => if isBreak c then [] :: lines rest else (lines rest).modifyHead (c :: ·)

/-- The number of line breaks in a text. -/
def breaks : List Char → Nat
  | [] => 0
  | '\r' :: '\n' :: rest => breaks rest + 1
  | c :: rest => if isBreak c then breaks rest + 1 else breaks rest

/-- What stands in front of the first line break. -/
def firstLine (text : List Char) : List Char := (lines text).headD []

/-- What stands behind the last line break. -/
def lastLine (text : List Char) : List Char := (lines text).getLastD []

/-- Between some text and the next character a line break is split in two. -/
def SplitsPair (before : List Char) (next : Option Char) : Prop :=
  before.getLast? = some '\r' ∧ next = some '\n'

/-- A character further in front does not matter. -/
lemma SplitsPair.cons {before : List Char} {next : Option Char} (h : SplitsPair before next)
    (c : Char) : SplitsPair (c :: before) next := by
  refine ⟨?_, h.2⟩
  rw [List.getLast?_cons, h.1]
  rfl

/-- There is one line more than there are line breaks. -/
lemma length_lines (text : List Char) : (lines text).length = breaks text + 1 := by
  fun_induction lines text with
  | case1 => rfl
  | case2 rest ih => simp [breaks, ih]
  | case3 c rest hpair hc ih => simp [breaks, hc, ih]
  | case4 c rest hpair hc ih => simp [breaks, hc, ih]

lemma lines_ne_nil (text : List Char) : lines text ≠ [] := by
  intro h
  have hlength := length_lines text
  simp [h] at hlength

section Cons

variable {c : Char} {rest : List Char}

/-- A line break is a line feed, or a carriage return without one behind it. -/
lemma lines_cons_of_break (hc : isBreak c = true)
    (hpair : ∀ more, c = '\r' → rest = '\n' :: more → False) :
    lines (c :: rest) = [] :: lines rest := by
  rw [lines, if_pos hc]
  exact hpair

lemma lines_cons_of_not_break (hc : isBreak c = false) :
    lines (c :: rest) = (lines rest).modifyHead (c :: ·) := by
  rw [lines, hc]
  · rfl
  · rintro more rfl rfl
    cases hc

end Cons

/-- A text without line breaks is one line. -/
lemma lines_eq_singleton {text : List Char} (h : breaks text = 0) : lines text = [text] := by
  fun_induction lines text with
  | case1 => rfl
  | case2 rest ih => simp [breaks] at h
  | case3 c rest hpair hc ih => simp [breaks, hc] at h
  | case4 c rest hpair hc ih =>
    have hrest : breaks rest = 0 := by simpa [breaks, hc] using h
    simp [ih hrest]

lemma lastLine_eq_self {text : List Char} (h : breaks text = 0) : lastLine text = text := by
  simp [lastLine, lines_eq_singleton h]

/-- What stands in front of a line break does not belong to the last line. -/
lemma lastLine_of_lines {text rest : List Char} (h : lines text = [] :: lines rest) :
    lastLine text = lastLine rest := by
  obtain ⟨first, more, hrest⟩ := List.exists_cons_of_ne_nil (lines_ne_nil rest)
  simp [lastLine, h, hrest]

/-- With a line break there is a second line. -/
lemma exists_lines_eq_cons_cons {text : List Char} (h : breaks text ≠ 0) :
    ∃ first second more, lines text = first :: second :: more := by
  have hlength := length_lines text
  rcases hlines : lines text with - | ⟨first, - | ⟨second, more⟩⟩
  · exact absurd hlines (lines_ne_nil text)
  · simp [hlines] at hlength
    omega
  · exact ⟨first, second, more, rfl⟩

/-- A character belongs to the last line if no line break comes behind it. -/
lemma lastLine_cons {c : Char} {rest : List Char} (hc : isBreak c = false) :
    lastLine (c :: rest) = if breaks rest = 0 then c :: rest else lastLine rest := by
  rw [lastLine, lines_cons_of_not_break hc]
  split
  · rename_i h
    simp [lines_eq_singleton h]
  · rename_i h
    obtain ⟨first, second, more, hrest⟩ := exists_lines_eq_cons_cons h
    simp [lastLine, hrest]

/-- The lines of two texts, one behind the other. The last line of the first goes on with
the first line of the second. -/
lemma lines_append {before behind : List Char} (h : ¬ SplitsPair before behind.head?) :
    lines (before ++ behind) =
      (lines before).dropLast ++ (lastLine before ++ firstLine behind) :: (lines behind).tail := by
  fun_induction lines before with
  | case1 =>
    obtain ⟨first, more, hrest⟩ := List.exists_cons_of_ne_nil (lines_ne_nil behind)
    simp [lastLine, firstLine, lines, hrest]
  | case2 rest ih =>
    have hlines := ih fun hs => h ((hs.cons _).cons _)
    have hne := lines_ne_nil rest
    have hlast : lastLine ('\r' :: '\n' :: rest) = lastLine rest := lastLine_of_lines rfl
    rw [List.cons_append, List.cons_append, lines, hlines, hlast,
      List.dropLast_cons_of_ne_nil hne, List.cons_append]
  | case3 c rest hpair hc ih =>
    have hlines := ih fun hs => h (hs.cons c)
    have hne := lines_ne_nil rest
    have hbefore := lines_cons_of_break hc hpair
    have hboth : lines (c :: (rest ++ behind)) = [] :: lines (rest ++ behind) := by
      refine lines_cons_of_break hc fun more hcr hlf => ?_
      cases rest with
      | nil => exact h ⟨by rw [hcr]; rfl, by rw [List.nil_append] at hlf; rw [hlf]; rfl⟩
      | cons d rest =>
        obtain ⟨rfl, -⟩ := List.cons.inj hlf
        exact hpair rest hcr rfl
    rw [List.cons_append, hboth, hlines, lastLine_of_lines hbefore,
      List.dropLast_cons_of_ne_nil hne, List.cons_append]
  | case4 c rest hpair hc ih =>
    have hc : isBreak c = false := Bool.eq_false_iff.2 hc
    have hlines := ih fun hs => h (hs.cons c)
    rw [List.cons_append, lines_cons_of_not_break hc, hlines, lastLine_cons hc]
    split
    · rename_i hrest
      simp [lines_eq_singleton hrest, lastLine_eq_self hrest]
    · rename_i hrest
      obtain ⟨first, second, more, hl⟩ := exists_lines_eq_cons_cons hrest
      simp [hl]

/-! ### Places -/

namespace Position

lemma endsLine_of_not_break {c : Char} (h : isBreak c = false) (next : Option Char) :
    endsLine c next = false := by
  rw [isBreak, Bool.or_eq_false_iff] at h
  simp [endsLine, h]

/-- The place behind a line break that is complete. -/
lemma after_of_break {c : Char} {next : Option Char} (hc : isBreak c = true)
    (h : ¬ SplitsPair [c] next) (p : Position) :
    p.after c next = ⟨p.offset + c.utf8Size, p.line + 1, 1⟩ := by
  have hends : endsLine c next = true := by
    rw [isBreak, Bool.or_eq_true, beq_iff_eq, beq_iff_eq] at hc
    rcases hc with rfl | rfl
    · rfl
    · simpa [endsLine, SplitsPair] using h
  rw [after, if_pos hends]

/-- **A cursor counts the lines** of a text that it is moved over, and the
characters behind the last line break. -/
lemma line_column_across {text : List Char} {next : Option Char} (h : ¬ SplitsPair text next)
    (p : Position) : (p.across text next).line = p.line + breaks text ∧
      (p.across text next).column =
        if breaks text = 0 then p.column + text.length else (lastLine text).length + 1 := by
  -- behind a line break the column is the length of the last line
  have hnew : ∀ rest, (if breaks rest = 0 then 1 + rest.length else (lastLine rest).length + 1) =
      (lastLine rest).length + 1 := by
    intro rest
    split
    · rename_i hrest
      rw [lastLine_eq_self hrest, Nat.add_comm]
    · rfl
  fun_induction breaks text generalizing p with
  | case1 => simp [across]
  | case2 rest ih =>
    have hrest : ¬ SplitsPair rest next := fun hs => h ((hs.cons _).cons _)
    have hlast : lastLine ('\r' :: '\n' :: rest) = lastLine rest := lastLine_of_lines rfl
    have hfeed : ∀ q : Position, q.after '\n' (rest.head?.or next) =
        ⟨q.offset + '\n'.utf8Size, q.line + 1, 1⟩ :=
      after_of_break rfl (by simp [SplitsPair])
    obtain ⟨hline, hcolumn⟩ := ih hrest
      ((p.after '\r' (('\n' :: rest).head?.or next)).after '\n' (rest.head?.or next))
    rw [across, across, hline, hcolumn, hfeed, hnew, hlast]
    exact ⟨Nat.add_right_comm _ 1 _, rfl⟩
  | case3 c rest hpair hc ih =>
    have hrest : ¬ SplitsPair rest next := fun hs => h (hs.cons c)
    have hnext : ¬ SplitsPair [c] (rest.head?.or next) := by
      rintro ⟨hcr, hlf⟩
      cases rest with
      | nil => exact h ⟨hcr, hlf⟩
      | cons d rest =>
        obtain rfl : d = '\n' := by simpa using hlf
        exact hpair rest (by simpa using hcr) rfl
    have hlast := lastLine_of_lines (lines_cons_of_break hc hpair)
    obtain ⟨hline, hcolumn⟩ := ih hrest (p.after c (rest.head?.or next))
    rw [across, hline, hcolumn, after_of_break hc hnext, hnew, hlast]
    exact ⟨Nat.add_right_comm _ 1 _, rfl⟩
  | case4 c rest hpair hc ih =>
    have hc : isBreak c = false := Bool.eq_false_iff.2 hc
    have hrest : ¬ SplitsPair rest next := fun hs => h (hs.cons c)
    obtain ⟨hline, hcolumn⟩ := ih hrest (p.after c (rest.head?.or next))
    have hafter : p.after c (rest.head?.or next) =
        ⟨p.offset + c.utf8Size, p.line, p.column + 1⟩ := by
      rw [after, endsLine_of_not_break hc]
      rfl
    rw [across, hline, hcolumn, hafter, lastLine_cons hc]
    refine ⟨rfl, ?_⟩
    split
    · rw [List.length_cons, Nat.add_assoc, Nat.add_comm 1]
    · rfl

end Position

/-! ### The line around a place -/

namespace Excerpt

/-- The first line ends in front of the first character that ends lines. -/
lemma untilBreak_eq_firstLine (text : List Char) : untilBreak text = firstLine text := by
  fun_induction lines text with
  | case1 => rfl
  | case2 rest ih => rfl
  | case3 c rest hpair hc ih =>
    rw [firstLine, lines_cons_of_break hc hpair, untilBreak,
      List.takeWhile_cons_of_neg (by simp [hc])]
    rfl
  | case4 c rest hpair hc ih =>
    have hc : isBreak c = false := Bool.eq_false_iff.2 hc
    obtain ⟨first, more, hrest⟩ := List.exists_cons_of_ne_nil (lines_ne_nil rest)
    rw [firstLine, hrest] at ih
    rw [firstLine, lines_cons_of_not_break hc, hrest, untilBreak,
      List.takeWhile_cons_of_pos (by simp [hc])]
    exact congrArg (c :: ·) ih

/-- A character that ends lines hides what is behind it. -/
lemma untilBreak_append_cons {c : Char} (hc : isBreak c = true) (text rest : List Char) :
    untilBreak (text ++ c :: rest) = untilBreak text := by
  rw [untilBreak, List.takeWhile_append, List.takeWhile_cons_of_neg (by simp [hc])]
  split
  · rename_i h
    rw [List.append_nil]
    exact ((List.takeWhile_prefix _).eq_of_length h).symm
  · rfl

lemma breaks_eq_zero_iff (text : List Char) : breaks text = 0 ↔ ∀ c ∈ text, isBreak c = false := by
  fun_induction breaks text with
  | case1 => simp
  | case2 rest ih => simp [isBreak]
  | case3 c rest hpair hc ih => simp [hc]
  | case4 c rest hpair hc ih => simp [ih, hc]

/-- The last line begins behind the last character that ends lines. -/
lemma reverse_untilBreak_reverse (text : List Char) :
    (untilBreak text.reverse).reverse = lastLine text := by
  fun_induction lines text with
  | case1 => rfl
  | case2 rest ih =>
    have hlast : lastLine ('\r' :: '\n' :: rest) = lastLine rest := lastLine_of_lines rfl
    have htext : ('\r' :: '\n' :: rest).reverse = rest.reverse ++ '\n' :: ['\r'] := by simp
    rw [htext, untilBreak_append_cons rfl, ih, hlast]
  | case3 c rest hpair hc ih =>
    rw [List.reverse_cons, untilBreak_append_cons hc, ih,
      lastLine_of_lines (lines_cons_of_break hc hpair)]
  | case4 c rest hpair hc ih =>
    have hc : isBreak c = false := Bool.eq_false_iff.2 hc
    have hall : breaks rest = 0 ↔
        (rest.reverse.takeWhile (!isBreak ·)).length = rest.reverse.length := by
      rw [breaks_eq_zero_iff]
      have hself : rest.reverse.takeWhile (!isBreak ·) = rest.reverse ↔
          ∀ c ∈ rest, isBreak c = false := by simp
      rw [← hself]
      exact ⟨congrArg List.length, (List.takeWhile_prefix _).eq_of_length⟩
    rw [List.reverse_cons, lastLine_cons hc, ← ih, untilBreak, List.takeWhile_append]
    by_cases hrest : breaks rest = 0
    · rw [if_pos hrest, if_pos (hall.1 hrest), List.takeWhile_cons_of_pos (by simp [hc])]
      simp
    · rw [if_neg hrest, if_neg fun hlength => hrest (hall.2 hlength)]
      rfl

/-- A text is split behind its first characters. -/
lemma splitAtByte_utf8Len (before behind : List Char) :
    splitAtByte (String.utf8Len before) (before ++ behind) = (before, behind) := by
  induction before with
  | nil =>
    cases behind with
    | nil => rfl
    | cons c rest => exact if_neg (Nat.not_le.2 c.utf8Size_pos)
  | cons c before ih =>
    rw [List.cons_append, splitAtByte, String.utf8Len_cons, if_pos (Nat.le_add_left _ _),
      Nat.add_sub_cancel, ih]

/-- **The line that is shown** around a place consists of what stands on the last
line in front of it and what stands on the first line behind it. -/
lemma line_append (before behind : List Char) :
    line (String.utf8Len before) (String.ofList (before ++ behind)) =
      String.ofList (lastLine before ++ firstLine behind) := by
  rw [line, String.toList_ofList, splitAtByte_utf8Len]
  change String.ofList ((untilBreak before.reverse).reverse ++ untilBreak behind) = _
  rw [reverse_untilBreak_reverse, untilBreak_eq_firstLine]

end Excerpt

end ClosureCalc
