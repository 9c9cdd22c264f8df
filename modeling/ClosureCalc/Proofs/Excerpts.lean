/-
Lines that are cut out of a source.

The line around a byte offset is found character by character. Here it is found by byte
offsets. The given offset is moved back until it is a boundary between characters; from
there the nearest line breaks are searched for on both sides, and what stands between them
is cut out. A text can only be cut at boundaries, so each cut could fail.

* `slice?`: the text between two boundaries.
* `stepBack`: the nearest boundary that is not behind an offset.
* `lastBreak?`, `firstBreak?`: where the nearest line breaks begin.
* `Cutout`, `cutOut?`: a line with its offsets, and how they are found.
* `Cutout.Fits`: the line that a source has around an offset.
* `excerpts_fit`: what is shown is the line that is cut out.
-/
import ClosureCalc.Proofs.Highlighting
import Mathlib.Order.Bounds.Basic

namespace ClosureCalc

namespace Excerpt

/-! ### Cutting a text -/

/-- An offset is a boundary between characters if none is cut in two there, in the encoded
text. -/
def IsBoundary (source : String) (i : Nat) : Prop := String.Pos.Raw.IsValid source ⟨i⟩

instance (source : String) (i : Nat) : Decidable (IsBoundary source i) :=
  inferInstanceAs (Decidable (String.Pos.Raw.IsValid source ⟨i⟩))

/-- The text between two byte offsets. There is none if one of them is no boundary, or if
the second one is in front of the first. -/
def slice? (source : String) (start stop : Nat) : Option String :=
  if start ≤ stop ∧ IsBoundary source start ∧ IsBoundary source stop then
    some (String.Pos.Raw.extract source ⟨start⟩ ⟨stop⟩)
  else none

/-- The nearest boundary that is not behind an offset. -/
def stepBack (source : String) : Nat → Nat
  | 0 => 0
  | n + 1 => if IsBoundary source (n + 1) then n + 1 else stepBack source n

/-- Where the first line break of a text begins. -/
def firstBreak? : List Char → Option Nat
  | [] => none
  | c :: rest => if isBreak c then some 0 else (firstBreak? rest).map (· + c.utf8Size)

/-- Where the last line break of a text begins. -/
def lastBreak? : List Char → Option Nat
  | [] => none
  | c :: rest =>
    match lastBreak? rest with
    | some i => some (i + c.utf8Size)
    | none => if isBreak c then some 0 else none

/-- A line of a source, with the offsets between which it stands and the one that it was
found from. -/
structure Cutout where
  start : Nat
  cursor : Nat
  stop : Nat
  line : String
deriving DecidableEq, Inhabited

/-- The line around a byte offset, if it can be cut out. -/
def cutOut? (offset : Nat) (source : String) : Option Cutout := do
  let cursor := stepBack source (min offset source.utf8ByteSize)
  let before ← slice? source 0 cursor
  let start := (lastBreak? before.toList).elim 0 (· + 1)
  let behind ← slice? source cursor source.utf8ByteSize
  let stop := (firstBreak? behind.toList).elim source.utf8ByteSize (cursor + ·)
  return ⟨start, cursor, stop, ← slice? source start stop⟩

/-- The boundaries that are not behind an offset. -/
def boundariesTo (source : String) (n : Nat) : Set Nat := {i | IsBoundary source i ∧ i ≤ n}

/-- **The line that a source has around an offset.** It was found from the greatest boundary
that is neither behind the offset nor behind the end. -/
structure Cutout.Fits (cut : Cutout) (offset : Nat) (source : String) : Prop where
  cursor : IsGreatest (boundariesTo source (min offset source.utf8ByteSize)) cut.cursor
  start_le : cut.start ≤ cut.cursor
  le_stop : cut.cursor ≤ cut.stop
  slice : IsSlice source.toList cut.start cut.stop cut.line.toList
  no_break : ∀ c ∈ cut.line.toList, isBreak c = false
  front : cut.start = 0 ∨
    ∃ c, isBreak c = true ∧ IsSlice source.toList (cut.start - 1) cut.start [c]
  back : cut.stop = source.utf8ByteSize ∨
    ∃ c, isBreak c = true ∧ IsSlice source.toList cut.stop (cut.stop + 1) [c]

section Boundaries

variable {source : String} {before part behind : List Char} {n : Nat}

lemma isBoundary_iff {i : Nat} : IsBoundary source i ↔
    ∃ before behind, source.toList = before ++ behind ∧ String.utf8Len before = i := by
  rw [IsBoundary, String.Pos.Raw.isValid_iff_exists_append]
  constructor
  · rintro ⟨s, t, rfl, hi⟩
    refine ⟨s.toList, t.toList, String.toList_append, ?_⟩
    rw [← String.utf8ByteSize_ofList, String.ofList_toList]
    exact (congrArg String.Pos.Raw.byteIdx hi).symm
  · rintro ⟨before, behind, hsource, rfl⟩
    refine ⟨String.ofList before, String.ofList behind, ?_, ?_⟩
    · rw [← String.ofList_append, ← hsource, String.ofList_toList]
    · rw [String.rawEndPos, String.utf8ByteSize_ofList]

lemma utf8ByteSize_eq (hsource : source.toList = before) :
    source.utf8ByteSize = String.utf8Len before := by
  rw [← hsource, ← String.utf8ByteSize_ofList, String.ofList_toList]

/-- A text is cut at boundaries. -/
lemma slice?_eq (hsource : source.toList = before ++ (part ++ behind)) :
    slice? source (String.utf8Len before) (String.utf8Len before + String.utf8Len part) =
      some (String.ofList part) := by
  have hstart : IsBoundary source (String.utf8Len before) :=
    isBoundary_iff.2 ⟨before, part ++ behind, hsource, rfl⟩
  have hstop : IsBoundary source (String.utf8Len before + String.utf8Len part) :=
    isBoundary_iff.2 ⟨before ++ part, behind, by rw [hsource, List.append_assoc],
      String.utf8Len_append before part⟩
  obtain rfl : source = String.ofList (before ++ part ++ behind) := by
    rw [List.append_assoc, ← hsource, String.ofList_toList]
  rw [slice?, if_pos ⟨Nat.le_add_right _ _, hstart, hstop⟩, String.extract_of_valid]

lemma isGreatest_stepBack (source : String) (n : Nat) :
    IsGreatest (boundariesTo source n) (stepBack source n) := by
  induction n with
  | zero =>
    have hzero : IsBoundary source 0 := isBoundary_iff.2 ⟨[], source.toList, rfl, rfl⟩
    exact ⟨⟨hzero, le_rfl⟩, fun i hi => hi.2⟩
  | succ n ih =>
    obtain ⟨⟨hmem, hle⟩, hub⟩ := ih
    rw [stepBack]
    split
    · rename_i hn
      exact ⟨⟨hn, le_rfl⟩, fun i hi => hi.2⟩
    · rename_i hn
      refine ⟨⟨hmem, Nat.le_succ_of_le hle⟩, fun i hi => hub ⟨hi.1, ?_⟩⟩
      refine Nat.le_of_lt_succ (lt_of_le_of_ne hi.2 ?_)
      rintro rfl
      exact hn hi.1

lemma utf8Len_splitAtByte_le (n : Nat) (text : List Char) :
    String.utf8Len (splitAtByte n text).1 ≤ n := by
  induction text generalizing n with
  | nil => exact Nat.zero_le n
  | cons c rest ih =>
    rw [splitAtByte]
    split
    · rename_i hc
      have hrest := ih (n - c.utf8Size)
      change String.utf8Len (c :: (splitAtByte (n - c.utf8Size) rest).1) ≤ n
      rw [String.utf8Len_cons]
      omega
    · exact Nat.zero_le n

lemma utf8Len_le_splitAtByte (h : String.utf8Len before ≤ n) :
    String.utf8Len before ≤ String.utf8Len (splitAtByte n (before ++ behind)).1 := by
  induction before generalizing n with
  | nil => exact Nat.zero_le _
  | cons c before ih =>
    rw [String.utf8Len_cons] at h
    rw [List.cons_append, splitAtByte, if_pos (by omega)]
    have hrest := ih (n := n - c.utf8Size) (by omega)
    change _ ≤ String.utf8Len (c :: (splitAtByte (n - c.utf8Size) (before ++ behind)).1)
    rw [String.utf8Len_cons, String.utf8Len_cons]
    omega

/-- **A text is split at the greatest boundary** that is not behind the offset. -/
lemma isGreatest_splitAtByte (source : String) (n : Nat) :
    IsGreatest (boundariesTo source n) (String.utf8Len (splitAtByte n source.toList).1) := by
  refine ⟨⟨isBoundary_iff.2 ⟨_, _, (splitAtByte_append n _).symm, rfl⟩,
    utf8Len_splitAtByte_le n _⟩, fun i hi => ?_⟩
  obtain ⟨hboundary, hle⟩ := hi
  obtain ⟨before, behind, hsource, rfl⟩ := isBoundary_iff.1 hboundary
  rw [hsource]
  exact utf8Len_le_splitAtByte hle

/-- No boundary is behind the end. -/
lemma boundariesTo_min (source : String) (n : Nat) :
    boundariesTo source (min n source.utf8ByteSize) = boundariesTo source n := by
  ext i
  refine and_congr_right fun hi => ⟨fun hle => hle.trans (min_le_left _ _), fun hle => ?_⟩
  exact le_min hle hi.le_utf8ByteSize

/-- A text is split where an offset is moved back to. -/
lemma stepBack_min (source : String) (n : Nat) :
    stepBack source (min n source.utf8ByteSize) =
      String.utf8Len (splitAtByte n source.toList).1 := by
  have hback := isGreatest_stepBack source (min n source.utf8ByteSize)
  rw [boundariesTo_min] at hback
  exact hback.unique (isGreatest_splitAtByte source n)

end Boundaries

/-! ### Searching for line breaks -/

section Breaks

variable {c : Char} {text front back left right : List Char}

/-- The characters that separate lines are one byte long. -/
lemma utf8Len_of_isBreak (hc : isBreak c = true) : String.utf8Len [c] = 1 := by
  rw [isBreak, Bool.or_eq_true, beq_iff_eq, beq_iff_eq] at hc
  rcases hc with rfl | rfl <;> rfl

lemma firstBreak?_eq_none (h : ∀ c ∈ text, isBreak c = false) : firstBreak? text = none := by
  induction text with
  | nil => rfl
  | cons c rest ih =>
    obtain ⟨hc, hrest⟩ := List.forall_mem_cons.1 h
    rw [firstBreak?, hc, ih hrest]
    rfl

lemma firstBreak?_append_cons (h : ∀ c ∈ right, isBreak c = false) (hc : isBreak c = true)
    (back : List Char) : firstBreak? (right ++ c :: back) = some (String.utf8Len right) := by
  induction right with
  | nil => exact if_pos hc
  | cons d right ih =>
    obtain ⟨hd, hright⟩ := List.forall_mem_cons.1 h
    rw [List.cons_append, firstBreak?, hd, ih hright]
    rfl

lemma lastBreak?_eq_none (h : ∀ c ∈ text, isBreak c = false) : lastBreak? text = none := by
  induction text with
  | nil => rfl
  | cons c rest ih =>
    obtain ⟨hc, hrest⟩ := List.forall_mem_cons.1 h
    rw [lastBreak?, ih hrest, hc]
    rfl

lemma lastBreak?_append_cons (hc : isBreak c = true) (h : ∀ c ∈ left, isBreak c = false)
    (front : List Char) : lastBreak? (front ++ c :: left) = some (String.utf8Len front) := by
  induction front with
  | nil =>
    rw [List.nil_append, lastBreak?, lastBreak?_eq_none h]
    exact if_pos hc
  | cons d front ih =>
    rw [List.cons_append, lastBreak?, ih]
    rfl

/-- A text goes on behind its first line only with a line break. -/
lemma exists_untilBreak_append (text : List Char) :
    ∃ back, text = untilBreak text ++ back ∧
      (back = [] ∨ ∃ c rest, isBreak c = true ∧ back = c :: rest) := by
  refine ⟨text.dropWhile (!isBreak ·), List.takeWhile_append_dropWhile.symm, ?_⟩
  rcases hback : text.dropWhile (!isBreak ·) with _ | ⟨c, rest⟩
  · exact .inl rfl
  · have hhead := List.head?_dropWhile_not (!isBreak ·) text
    rw [hback] at hhead
    exact .inr ⟨c, rest, by simpa using hhead, rfl⟩

lemma not_isBreak_of_mem_untilBreak (h : c ∈ untilBreak text) : isBreak c = false := by
  simpa using List.mem_takeWhile_imp h

end Breaks

/-- **The line around a place in a text**, with what stands in front of the place and behind
it. The line is taken apart at the place, and the rest of the text at the ends of the line. -/
structure LineAround (before behind front left right back : List Char) : Prop where
  before : before = front ++ left
  behind : behind = right ++ back
  left : ∀ c ∈ left, isBreak c = false
  right : ∀ c ∈ right, isBreak c = false
  front : front = [] ∨ ∃ init c, isBreak c = true ∧ front = init ++ [c]
  back : back = [] ∨ ∃ c rest, isBreak c = true ∧ back = c :: rest

lemma exists_lineAround (before behind : List Char) : ∃ front back,
    LineAround before behind front (untilBreak before.reverse).reverse (untilBreak behind)
      back := by
  obtain ⟨front, hbefore, hfront⟩ := exists_untilBreak_append before.reverse
  obtain ⟨back, hbehind, hback⟩ := exists_untilBreak_append behind
  refine ⟨front.reverse, back, ⟨?_, hbehind, fun c hc => ?_, fun c hc => ?_, ?_, hback⟩⟩
  · rw [← List.reverse_append, ← hbefore, List.reverse_reverse]
  · exact not_isBreak_of_mem_untilBreak (List.mem_reverse.1 hc)
  · exact not_isBreak_of_mem_untilBreak hc
  · rcases hfront with rfl | ⟨c, rest, hc, rfl⟩
    · exact .inl rfl
    · exact .inr ⟨rest.reverse, c, hc, List.reverse_cons⟩

namespace LineAround

variable {before behind front left right back : List Char} {source : String} {offset : Nat}

/-- The line begins behind the last line break, or at the beginning of the text. -/
lemma start_eq (h : LineAround before behind front left right back) :
    (lastBreak? before).elim 0 (· + 1) = String.utf8Len front := by
  rcases h.front with hfront | ⟨init, c, hc, hfront⟩
  · rw [h.before, hfront, List.nil_append, lastBreak?_eq_none h.left]
    rfl
  · rw [h.before, hfront, List.append_assoc, List.singleton_append,
      lastBreak?_append_cons hc h.left, String.utf8Len_append, utf8Len_of_isBreak hc]
    rfl

/-- The line ends in front of the next line break, or at the end of the text. -/
lemma stop_eq (h : LineAround before behind front left right back) (cursor : Nat) :
    (firstBreak? behind).elim (cursor + String.utf8Len behind) (cursor + ·) =
      cursor + String.utf8Len right := by
  rcases h.back with hback | ⟨c, rest, hc, hback⟩
  · rw [h.behind, hback, List.append_nil, firstBreak?_eq_none h.right]
    rfl
  · rw [h.behind, hback, firstBreak?_append_cons h.right hc]
    rfl

variable (h : LineAround before behind front left right back)
  (hsource : source.toList = before ++ behind)

include h hsource

lemma toList_eq : source.toList = front ++ ((left ++ right) ++ back) := by
  rw [hsource, h.before, h.behind]
  simp only [List.append_assoc]

/-- No cut fails, and the line is cut out. -/
lemma cutOut?_eq
    (hcursor : stepBack source (min offset source.utf8ByteSize) = String.utf8Len before) :
    cutOut? offset source =
      some ⟨String.utf8Len front, String.utf8Len before,
        String.utf8Len before + String.utf8Len right, String.ofList (left ++ right)⟩ := by
  have hsize : source.utf8ByteSize = String.utf8Len before + String.utf8Len behind := by
    rw [utf8ByteSize_eq hsource, String.utf8Len_append]
  have hbefore : slice? source 0 (String.utf8Len before) = some (String.ofList before) := by
    have hall : source.toList = [] ++ (before ++ behind) := hsource
    have hslice := slice?_eq hall
    rwa [String.utf8Len_nil, Nat.zero_add] at hslice
  have hbehind : slice? source (String.utf8Len before) source.utf8ByteSize =
      some (String.ofList behind) := by
    have hall : source.toList = before ++ (behind ++ []) := by rw [hsource, List.append_nil]
    rw [hsize]
    exact slice?_eq hall
  have hline : slice? source (String.utf8Len front)
      (String.utf8Len before + String.utf8Len right) = some (String.ofList (left ++ right)) := by
    rw [h.before, String.utf8Len_append, Nat.add_assoc, ← String.utf8Len_append]
    exact slice?_eq (h.toList_eq hsource)
  rw [cutOut?, hcursor, hbefore, hbehind]
  simp only [Option.bind_eq_bind, Option.bind_some, String.toList_ofList, h.start_eq, hsize,
    h.stop_eq, hline]
  rfl

/-- In front of the line there is nothing, or a line break. -/
lemma break_before : String.utf8Len front = 0 ∨ ∃ c, isBreak c = true ∧
    IsSlice source.toList (String.utf8Len front - 1) (String.utf8Len front) [c] := by
  rcases h.front with rfl | ⟨init, c, hc, hfront⟩
  · exact .inl rfl
  · have hstart : String.utf8Len front = String.utf8Len init + 1 := by
      rw [hfront, String.utf8Len_append, utf8Len_of_isBreak hc]
    refine .inr ⟨c, hc, init, (left ++ right) ++ back, ?_, ?_, ?_⟩
    · rw [h.toList_eq hsource, hfront, List.append_assoc]
    · rw [hstart, Nat.add_sub_cancel]
    · rw [utf8Len_of_isBreak hc, hstart, Nat.add_sub_cancel]

/-- Behind the line there is nothing, or a line break. -/
lemma break_behind : String.utf8Len before + String.utf8Len right = source.utf8ByteSize ∨
    ∃ c, isBreak c = true ∧ IsSlice source.toList (String.utf8Len before + String.utf8Len right)
      (String.utf8Len before + String.utf8Len right + 1) [c] := by
  have hstop : String.utf8Len before + String.utf8Len right =
      String.utf8Len (front ++ (left ++ right)) := by
    rw [h.before]
    simp only [String.utf8Len_append, Nat.add_assoc]
  rcases h.back with hback | ⟨c, rest, hc, hback⟩
  · refine .inl (hstop.trans (utf8ByteSize_eq ?_).symm)
    rw [h.toList_eq hsource, hback, List.append_nil]
  · refine .inr ⟨c, hc, front ++ (left ++ right), rest, ?_, hstop, ?_⟩
    · rw [h.toList_eq hsource, hback]
      simp only [List.append_assoc, List.singleton_append]
    · rw [utf8Len_of_isBreak hc]

/-- The line that is cut out is the one that the source has there. -/
lemma fits (hcursor : stepBack source (min offset source.utf8ByteSize) = String.utf8Len before) :
    Cutout.Fits ⟨String.utf8Len front, String.utf8Len before,
      String.utf8Len before + String.utf8Len right, String.ofList (left ++ right)⟩
      offset source where
  cursor := hcursor ▸ isGreatest_stepBack source _
  start_le := by
    rw [h.before, String.utf8Len_append]
    exact Nat.le_add_right _ _
  le_stop := Nat.le_add_right _ _
  slice := by
    refine ⟨front, back, ?_, rfl, ?_⟩
    · rw [String.toList_ofList, h.toList_eq hsource]
    · simp only [String.toList_ofList, h.before, String.utf8Len_append, Nat.add_assoc]
  no_break c hc := by
    rw [String.toList_ofList, List.mem_append] at hc
    exact hc.elim (h.left c) (h.right c)
  front := h.break_before hsource
  back := h.break_behind hsource

end LineAround

/-- The line that is shown can be cut out. -/
lemma exists_cutOut? (offset : Nat) (source : String) :
    ∃ cut, cutOut? offset source = some cut ∧ cut.Fits offset source ∧
      line offset source = cut.line := by
  obtain ⟨before, behind, hsplit⟩ : ∃ before behind,
      splitAtByte offset source.toList = (before, behind) := ⟨_, _, rfl⟩
  have hsource : source.toList = before ++ behind := by
    rw [← splitAtByte_append offset source.toList, hsplit]
  have hcursor := stepBack_min source offset
  rw [hsplit] at hcursor
  obtain ⟨front, back, haround⟩ := exists_lineAround before behind
  refine ⟨_, haround.cutOut?_eq hsource hcursor, haround.fits hsource hcursor, ?_⟩
  rw [line, hsplit]

/-- **Excerpts fit.** Whatever the place is, also one behind the end of the source or inside a
character, the source is only cut at boundaries between characters. The line that is cut out
stands around the greatest boundary that is not behind the place, from the line break in
front of it to the one behind it. This line is shown, and the caret below it stands behind
as many blanks as there are columns in front of the place. -/
theorem excerpts_fit (message : String) (pos : Position) (source : String) :
    ∃ cut, cutOut? pos.offset source = some cut ∧ cut.Fits pos.offset source ∧
      render message pos source =
        "[ERROR] " ++ message ++ ":\n" ++ cut.line ++ "\n" ++
          String.ofList (List.replicate (pos.column - 1) ' ') ++ "^ On line " ++
          pos.line.repr ++ ", column " ++ pos.column.repr ++ "\n" := by
  obtain ⟨cut, hcut, hfits, hline⟩ := exists_cutOut? pos.offset source
  refine ⟨cut, hcut, hfits, ?_⟩
  rw [← hline]
  rfl

end Excerpt

end ClosureCalc
