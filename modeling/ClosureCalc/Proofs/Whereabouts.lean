/-
Where the lexer says that things are.

The lexer moves over whole layouts and whole lexemes. A lexeme has no blanks,
and behind layout there is no more of it, so the lexer never stops between a
carriage return and its line feed, also not after an error.

* `Lexeme.first_untilBlank`: a lexeme depends only on what stands in front of
  the next blank.
* `Position.Marks`: the place between two parts of a text.
* `Cursor.Passed`, `Cursor.Rests`: a cursor that was moved over the beginning of
  a text, and one that splits no line break there.
* `Lexer.Call`, `Lexer.reports`: sequences of calls, and all places they report.
* `reports_marks`: every reported place is right, and the line shown for it is
  the line with its number.
-/
import ClosureCalc.Proofs.Lines

namespace ClosureCalc

/-! ### Lexemes end in front of blanks -/

/-- The characters in front of the first blank. -/
def untilBlank (text : List Char) : List Char := text.takeWhile (!isBlank ·)

section UntilBlank

variable {c : Char} {rest : List Char}

lemma untilBlank_cons (hc : isBlank c = false) : untilBlank (c :: rest) = c :: untilBlank rest :=
  List.takeWhile_cons_of_pos (by simp [hc])

lemma untilBlank_cons_of_blank (hc : isBlank c = true) : untilBlank (c :: rest) = [] :=
  List.takeWhile_cons_of_neg (by simp [hc])

lemma untilBlank_prefix (text : List Char) : untilBlank text <+: text :=
  List.takeWhile_prefix _

lemma isBlank_of_mem_untilBlank {text : List Char} (h : c ∈ untilBlank text) :
    isBlank c = false := by
  simpa using List.mem_takeWhile_imp h

/-- A run of characters that are no blanks ends in front of the first blank. -/
lemma takeWhile_untilBlank {p : Char → Bool} (hp : ∀ b, isBlank b = true → p b = false)
    (text : List Char) : (untilBlank text).takeWhile p = text.takeWhile p := by
  rw [untilBlank, List.takeWhile_takeWhile]
  congr 1
  funext b
  cases hb : isBlank b with
  | false => simp
  | true => simp [hp b hb]

end UntilBlank

namespace Numeral

lemma scan_untilBlank (p : Phase) (text : List Char) : scan p (untilBlank text) = scan p text := by
  induction text generalizing p with
  | nil => rfl
  | cons c rest ih =>
    cases hc : isBlank c with
    | true =>
      rw [untilBlank_cons_of_blank hc, scan, scan, move_of_isBlank p hc]
    | false =>
      rw [untilBlank_cons hc, scan, scan]
      cases p.move c with
      | go q => simp only [ih]
      | fail fault => rfl
      | stop => rfl

lemma read_untilBlank (text : List Char) : read (untilBlank text) = read text := by
  have hle := scan_le_length .whole (untilBlank text)
  rw [scan_untilBlank] at hle
  obtain ⟨rest, hrest⟩ := untilBlank_prefix text
  have htake : (untilBlank text).take (scan .whole text).1 = text.take (scan .whole text).1 := by
    rw [← List.take_append_of_le_length hle, hrest]
  rw [read, read, scan_untilBlank]
  simp only [htake]

end Numeral

/-- A symbol has no blanks. -/
lemma Symbol.isBlank_of_mem_spelling (s : Symbol) : ∀ c ∈ s.spelling, isBlank c = false := by
  have hall : s.spelling.all (! isBlank ·) = true := by cases s <;> decide
  simpa using hall

/-- A text without blanks stands in front of a text if it stands in front of its
first blank. -/
lemma isPrefixOf_untilBlank {w : List Char} (hw : ∀ c ∈ w, isBlank c = false) (text : List Char) :
    w.isPrefixOf (untilBlank text) = w.isPrefixOf text := by
  induction w generalizing text with
  | nil => simp
  | cons d w ih =>
    obtain ⟨hd, hw⟩ := List.forall_mem_cons.1 hw
    cases text with
    | nil => rfl
    | cons c rest =>
      cases hc : isBlank c with
      | true =>
        have hne : d ≠ c := by
          rintro rfl
          rw [hd] at hc
          cases hc
        simp [untilBlank_cons_of_blank hc, List.isPrefixOf, hne]
      | false => rw [untilBlank_cons hc, List.isPrefixOf, List.isPrefixOf, ih hw]

lemma Symbol.first?_untilBlank (text : List Char) : first? (untilBlank text) = first? text := by
  rw [first?, first?]
  congr 1
  funext s
  exact isPrefixOf_untilBlank s.isBlank_of_mem_spelling text

namespace Lexeme

/-- **A lexeme does not look beyond a blank.** -/
lemma first_untilBlank {c : Char} (hc : isBlank c = false) (rest : List Char) :
    first c (untilBlank rest) = first c rest := by
  have hname := takeWhile_untilBlank (fun _ => isNamePart_of_isBlank) (c :: rest)
  rw [first, first, ← untilBlank_cons hc, numeral, numeral, Numeral.read_untilBlank, word, word,
    hname, Symbol.first?_untilBlank]

/-- A lexeme has no blanks, nor has a faulty one. -/
lemma isBlank_of_mem_take {c : Char} (hc : isBlank c = false) (rest : List Char) :
    ∀ d ∈ (c :: rest).take (first c rest).size, isBlank d = false := by
  have hle := size_first_le c (untilBlank rest)
  rw [first_untilBlank hc, ← untilBlank_cons hc] at hle
  obtain ⟨more, hmore⟩ := untilBlank_prefix (c :: rest)
  intro d hd
  rw [← hmore, List.take_append_of_le_length hle] at hd
  exact isBlank_of_mem_untilBlank (List.mem_of_mem_take hd)

end Lexeme

/-! ### Places in a text -/

/-- **The place between two parts of a text**, where no line break is split. The
offset counts the bytes of the first part, the line its line breaks, and the
column the characters behind the last of them; line and column begin at one. -/
structure Position.Marks (p : Position) (before behind : List Char) : Prop where
  whole : ¬ SplitsPair before behind.head?
  offset : p.offset = String.utf8Len before
  line : p.line = breaks before + 1
  column : p.column = (lastLine before).length + 1

/-- A place somewhere in a text. -/
def Position.RightIn (source : List Char) (p : Position) : Prop :=
  ∃ before behind, source = before ++ behind ∧ p.Marks before behind

lemma Position.across_append (p : Position) (u w : List Char) (next : Option Char) :
    p.across (u ++ w) next = (p.across u (w.head?.or next)).across w next := by
  induction u generalizing p with
  | nil => rfl
  | cons c u ih => rw [List.cons_append, across, across, ih, List.head?_append, Option.or_assoc]

/-- A cursor that is moved from the beginning of a text marks its place. -/
lemma Position.marks_across {before behind : List Char} (h : ¬ SplitsPair before behind.head?) :
    (start.across before behind.head?).Marks before behind := by
  obtain ⟨hline, hcolumn⟩ := line_column_across h start
  refine ⟨h, ?_, ?_, ?_⟩
  · rw [offset_across]
    exact Nat.zero_add _
  · rw [hline]
    exact Nat.add_comm _ _
  · rw [hcolumn]
    split
    · rename_i hbreaks
      rw [lastLine_eq_self hbreaks]
      exact Nat.add_comm _ _
    · rfl

/-! ### Scanning -/

namespace Cursor

variable {source before : List Char} {cur : Cursor}

/-- A cursor that was moved over the beginning of a text. -/
structure Passed (source before : List Char) (cur : Cursor) : Prop where
  text : source = before ++ cur.rest
  pos : cur.pos = Position.start.across before cur.rest.head?

/-- A cursor at a place of a text that splits no line break. -/
def Rests (source : List Char) (cur : Cursor) : Prop :=
  ∃ before, cur.Passed source before ∧ ¬ SplitsPair before cur.rest.head?

lemma Rests.rightIn (h : cur.Rests source) : cur.pos.RightIn source := by
  obtain ⟨before, hpassed, hwhole⟩ := h
  refine ⟨before, cur.rest, hpassed.text, ?_⟩
  rw [hpassed.pos]
  exact Position.marks_across hwhole

lemma rests_ofString (source : String) : (ofString source).Rests source.toList :=
  ⟨[], ⟨rfl, rfl⟩, by simp [SplitsPair]⟩

/-- Moving on over `n` characters. -/
lemma Passed.advanceBy (h : cur.Passed source before) {n : Nat} (hn : n ≤ cur.rest.length) :
    (cur.advanceBy n).Passed source (before ++ cur.rest.take n) := by
  obtain ⟨rest, pos⟩ := cur
  obtain ⟨htext, hpos⟩ := h
  dsimp only at htext hpos hn
  subst htext hpos
  have hmove := advanceBy_append (rest.take n) (rest.drop n)
    (Position.start.across before rest.head?)
  have hhead : rest.head? = (rest.take n).head?.or (rest.drop n).head? := by
    rw [← List.head?_append, List.take_append_drop]
  rw [List.length_take_of_le hn, List.take_append_drop] at hmove
  rw [hmove]
  refine ⟨?_, ?_⟩
  · rw [List.append_assoc, List.take_append_drop]
  · rw [Position.across_append, ← hhead]

lemma layout_rest_skipLayout (cur : Cursor) : layout false cur.skipLayout.rest = 0 := by
  rw [Cursor.skipLayout, rest_advanceBy]
  exact layout_drop_layout false cur.rest

/-- Behind layout no line break is split. -/
lemma Passed.skipLayout (h : cur.Passed source before) : cur.skipLayout.Rests source := by
  refine ⟨_, h.advanceBy (layout_le_length false cur.rest), ?_⟩
  rintro ⟨-, hfeed⟩
  obtain ⟨rest, hrest⟩ := List.head?_eq_some_iff.1 hfeed
  have hnone := cur.layout_rest_skipLayout
  rw [hrest] at hnone
  cases hnone

/-- Behind a lexeme no line break is split. -/
lemma Passed.lexeme (h : cur.Passed source before) {c : Char} {rest : List Char}
    (hrest : cur.rest = c :: rest) (hc : isBlank c = false) :
    (cur.advanceBy (Lexeme.first c rest).size).Rests source := by
  have hle := Lexeme.size_first_le c rest
  have hpos := Lexeme.size_first_pos c rest
  have hblanks := Lexeme.isBlank_of_mem_take hc rest
  generalize (Lexeme.first c rest).size = n at hle hpos hblanks
  rw [← hrest] at hle hblanks
  refine ⟨_, h.advanceBy hle, ?_⟩
  rintro ⟨hreturn, -⟩
  have hne : cur.rest.take n ≠ [] := by simp [hrest, hpos.ne']
  rw [List.getLast?_append_of_ne_nil _ hne] at hreturn
  have hblank := hblanks '\r' (List.mem_of_getLast? hreturn)
  cases hblank

/-- The places that scanning one token reports: where the token is or what the
error is about, and where the cursor is then. -/
def Scanned (source : List Char) : EStateM.Result Error Cursor Token → Prop
  | .ok tok cur => tok.pos.RightIn source ∧ cur.Rests source
  | .error e cur => (∀ p ∈ e.pos?, p.RightIn source) ∧ cur.Rests source

/-- **Scanning reports right places**, with or without an error. -/
lemma Rests.scan (h : cur.Rests source) : Scanned source cur.scan := by
  obtain ⟨before, hpassed, -⟩ := h
  have hbegin := hpassed.skipLayout
  have hright := hbegin.rightIn
  rw [Cursor.scan]
  simp only
  split
  · exact ⟨hright, hbegin⟩
  · rename_i c rest hrest
    have hblank : isBlank c = false := isBlank_of_layout (hrest ▸ cur.layout_rest_skipLayout)
    obtain ⟨_, hpassed', -⟩ := hbegin
    have hfinish := hpassed'.lexeme hrest hblank
    split
    · exact ⟨hright, hfinish⟩
    · refine ⟨fun p hp => ?_, hfinish⟩
      obtain rfl := Option.mem_some_iff.1 hp
      split
      · exact hright
      · exact hfinish.rightIn

end Cursor

/-! ### Calls -/

namespace Lexer

/-- The two ways to ask a stream for a token. -/
inductive Call where
  | next | peek
deriving DecidableEq, Inhabited, Repr

/-- Asks for a token. -/
def Call.answer : Call → EStateM Error Lexer Token
  | next => Lexer.next
  | peek => Lexer.peek

/-- **The places that a stream reports** in a sequence of calls, which goes on
after errors: where it stands before and behind each call, and the place of each
token and of each error. -/
def reports : List Call → Lexer → List Position
  | [], lx => [lx.pos]
  | call :: calls, lx =>
    lx.pos ::
      match call.answer lx with
      | .ok tok lx' => tok.pos :: reports calls lx'
      | .error e lx' => e.pos?.toList ++ reports calls lx'

variable {source : List Char} {lx : Lexer}

/-- A stream over a text that has reported right places. -/
structure Rests (source : List Char) (lx : Lexer) : Prop where
  cursor : lx.cursor.Rests source
  peeked : ∀ tok ∈ lx.peeked, tok.pos.RightIn source

/-- The places that a call reports. -/
def Answered (source : List Char) : EStateM.Result Error Lexer Token → Prop
  | .ok tok lx => tok.pos.RightIn source ∧ lx.Rests source
  | .error e lx => (∀ p ∈ e.pos?, p.RightIn source) ∧ lx.Rests source

/-- **A call reports right places.** -/
lemma Rests.answer (h : lx.Rests source) (call : Call) : Answered source (call.answer lx) := by
  have hscan := h.cursor.scan
  cases hpeeked : lx.peeked with
  | some tok =>
    have htok := h.peeked tok hpeeked
    cases call with
    | next =>
      simp only [Call.answer, next, hpeeked]
      exact ⟨htok, h.cursor, by simp⟩
    | peek =>
      simp only [Call.answer, peek, hpeeked]
      exact ⟨htok, h⟩
  | none =>
    cases hres : lx.cursor.scan with
    | ok tok cur =>
      rw [hres] at hscan
      cases call with
      | next =>
        simp only [Call.answer, next, hpeeked, hres]
        exact ⟨hscan.1, hscan.2, by simp⟩
      | peek =>
        simp only [Call.answer, peek, hpeeked, hres]
        refine ⟨hscan.1, hscan.2, fun t ht => ?_⟩
        obtain rfl := Option.mem_some_iff.1 ht
        exact hscan.1
    | error e cur =>
      rw [hres] at hscan
      cases call with
      | next =>
        simp only [Call.answer, next, hpeeked, hres]
        exact ⟨hscan.1, hscan.2, by simp⟩
      | peek =>
        simp only [Call.answer, peek, hpeeked, hres]
        exact ⟨hscan.1, hscan.2, by simp⟩

/-- Sequences of calls report right places. -/
lemma Rests.reports (h : lx.Rests source) (calls : List Call) :
    ∀ p ∈ lx.reports calls, p.RightIn source := by
  induction calls generalizing lx with
  | nil =>
    intro p hp
    obtain rfl := List.mem_singleton.1 hp
    exact h.cursor.rightIn
  | cons call calls ih =>
    have hcall := h.answer call
    intro p hp
    rw [Lexer.reports] at hp
    rcases List.mem_cons.1 hp with rfl | hp
    · exact h.cursor.rightIn
    · cases hres : call.answer lx with
      | ok tok lx' =>
        rw [hres] at hcall hp
        rcases List.mem_cons.1 hp with rfl | hp
        · exact hcall.1
        · exact ih hcall.2 p hp
      | error e lx' =>
        rw [hres] at hcall hp
        rcases List.mem_append.1 hp with hp | hp
        · exact hcall.1 p (Option.mem_toList.1 hp)
        · exact ih hcall.2 p hp

end Lexer

/-! ### What is shown -/

/-- The line with the number of a place is the one around it. -/
lemma Position.Marks.getElem?_lines {p : Position} {before behind : List Char}
    (h : p.Marks before behind) :
    (lines (before ++ behind))[p.line - 1]? = some (lastLine before ++ firstLine behind) := by
  have hlength : (lines before).dropLast.length = p.line - 1 := by
    rw [List.length_dropLast, length_lines, h.line]
  rw [lines_append h.whole, ← hlength, List.getElem?_append_right le_rfl, Nat.sub_self]
  rfl

/-- What is shown for a place: the line around it, and a caret below the first
character behind it. -/
lemma Position.Marks.render {p : Position} {before behind : List Char} (h : p.Marks before behind)
    (message : String) :
    Excerpt.render message p (String.ofList (before ++ behind)) =
      "[ERROR] " ++ message ++ ":\n" ++ String.ofList (lastLine before ++ firstLine behind) ++
        "\n" ++ String.ofList (List.replicate (lastLine before).length ' ') ++ "^ On line " ++
        p.line.repr ++ ", column " ++ p.column.repr ++ "\n" := by
  have hcolumn : p.column - 1 = (lastLine before).length := Nat.sub_eq_of_eq_add h.column
  have hline : Excerpt.line p.offset (String.ofList (before ++ behind)) =
      String.ofList (lastLine before ++ firstLine behind) := by
    rw [h.offset, Excerpt.line_append]
  rw [← hcolumn, ← hline]
  -- the two texts are the same as written; comparing their characters would not end
  unfold Excerpt.render
  with_reducible rfl

/-- **All places are right.** Whatever tokens are asked for, also after errors, each
place that is reported lies between two characters of the text and splits no line
break. Its line counts the line breaks in front of it and its column the
characters behind the last of them. What is shown for it is the line with this
number, with the caret behind as many blanks as there are characters of the line
in front of the place. -/
theorem reports_marks (source : String) (calls : List Lexer.Call) :
    ∀ p ∈ (Lexer.ofString source).reports calls,
      ∃ before behind, source.toList = before ++ behind ∧ p.Marks before behind ∧
        (lines source.toList)[p.line - 1]? = some (lastLine before ++ firstLine behind) ∧
        ∀ message, Excerpt.render message p source =
          "[ERROR] " ++ message ++ ":\n" ++ String.ofList (lastLine before ++ firstLine behind) ++
            "\n" ++ String.ofList (List.replicate (lastLine before).length ' ') ++ "^ On line " ++
            p.line.repr ++ ", column " ++ p.column.repr ++ "\n" := by
  intro p hp
  have hrests : (Lexer.ofString source).Rests source.toList :=
    ⟨Cursor.rests_ofString source, by simp [Lexer.ofString]⟩
  obtain ⟨before, behind, hsource, hmarks⟩ := hrests.reports calls p hp
  refine ⟨before, behind, hsource, hmarks, ?_, fun message => ?_⟩
  · rw [hsource]
    exact hmarks.getElem?_lines
  · have hofList : source = String.ofList (before ++ behind) := by
      rw [← hsource, String.ofList_toList]
    rw [hofList]
    exact hmarks.render message

/-- A number that ends too early, in front of a lone carriage return, and behind a
comment that ends in front of a pair. -/
theorem reports_marks_open_exponent :
    (⟨10, 2, 4⟩ : Position) ∈ (Lexer.ofString "é #c\r\n 1e\r").reports [.next, .peek, .next] ∧
      ∃ before behind, "é #c\r\n 1e\r".toList = before ++ behind ∧
        (⟨10, 2, 4⟩ : Position).Marks before behind ∧
        (lines "é #c\r\n 1e\r".toList)[1]? = some (lastLine before ++ firstLine behind) ∧
        ∀ message, Excerpt.render message ⟨10, 2, 4⟩ "é #c\r\n 1e\r" =
          "[ERROR] " ++ message ++ ":\n" ++ String.ofList (lastLine before ++ firstLine behind) ++
            "\n" ++ String.ofList (List.replicate (lastLine before).length ' ') ++ "^ On line " ++
            (2).repr ++ ", column " ++ (4).repr ++ "\n" := by
  have hmem : (⟨10, 2, 4⟩ : Position) ∈
      (Lexer.ofString "é #c\r\n 1e\r").reports [.next, .peek, .next] := by decide +kernel
  exact ⟨hmem, reports_marks _ _ _ hmem⟩

end ClosureCalc
