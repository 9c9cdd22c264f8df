/-
Line endings.

A text whose lines end with line feeds may as well end them with carriage returns,
alone or with a line feed behind each. All that changes are the offsets of what
stands further behind. Lines and columns stay, and so does what is shown of an error.

* `LineEnding.convert`: a text with other line endings; `lines_convert`: it has the
  same lines.
* `LineEnding.SamePlace`: a place of a text and the place in the converted one.
* `LineEnding.simulation`: the converted text is scanned in step.
* `Store.FreshRoot`: a root frame without declared functions
  (`Store.freshRoot_newRoot`, `Store.freshRoot_standardRoot`).
* `line_endings_are_invisible`: the tokens, the answer and the text of an error are
  the same.
-/
import ClosureCalc.Proofs.InStep

namespace ClosureCalc

/-! ### Converted texts -/

/-- The line endings other than a line feed. -/
inductive LineEnding where
  | returnFeed | loneReturn
deriving DecidableEq, Inhabited, Repr

namespace LineEnding

/-- The characters of a line ending. -/
def spelling : LineEnding → List Char
  | returnFeed => ['\r', '\n']
  | loneReturn => ['\r']

/-- A text in which each line feed is replaced by the line ending. -/
def convert (ending : LineEnding) (text : List Char) : List Char :=
  text.flatMap fun c => if c = '\n' then ending.spelling else [c]

variable (ending : LineEnding) {c : Char} {text rest u v : List Char}

@[simp]
lemma convert_nil : ending.convert [] = [] := rfl

@[simp]
lemma convert_feed (rest : List Char) :
    ending.convert ('\n' :: rest) = ending.spelling ++ ending.convert rest := rfl

lemma convert_cons (hc : c ≠ '\n') (rest : List Char) :
    ending.convert (c :: rest) = c :: ending.convert rest := by
  simp [convert, hc]

lemma convert_append (u v : List Char) :
    ending.convert (u ++ v) = ending.convert u ++ ending.convert v :=
  List.flatMap_append

/-- A text without blanks has no line endings. -/
lemma convert_eq_self (h : ∀ c ∈ text, isBlank c = false) : ending.convert text = text := by
  induction text with
  | nil => rfl
  | cons c rest ih =>
    obtain ⟨hc, hrest⟩ := List.forall_mem_cons.1 h
    have hne : c ≠ '\n' := by
      rintro rfl
      cases hc
    rw [ending.convert_cons hne, ih hrest]

/-- A converted text does not begin with a line feed. -/
lemma head?_convert_ne (text : List Char) : (ending.convert text).head? ≠ some '\n' := by
  cases text with
  | nil => simp
  | cons c rest =>
    by_cases hc : c = '\n'
    · subst hc
      cases ending <;> simp [spelling]
    · simp [ending.convert_cons hc, hc]

/-- In front of a converted text no line break is split. -/
lemma not_splitsPair_convert (before : List Char) (text : List Char) :
    ¬ SplitsPair before (ending.convert text).head? :=
  fun h => ending.head?_convert_ne text h.2

/-- **A converted text has the same lines.** -/
lemma lines_convert (h : '\r' ∉ text) : lines (ending.convert text) = lines text := by
  induction text with
  | nil => rfl
  | cons c rest ih =>
    rw [List.mem_cons, not_or] at h
    have hrest := ih h.2
    by_cases hc : c = '\n'
    · subst hc
      have hfeed : lines ('\n' :: rest) = [] :: lines rest :=
        lines_cons_of_break rfl fun _ hreturn => by cases hreturn
      rw [hfeed, ← hrest, convert_feed]
      cases ending with
      | returnFeed => rfl
      | loneReturn =>
        refine lines_cons_of_break rfl fun more _ hmore => ?_
        exact head?_convert_ne .loneReturn rest (congrArg List.head? hmore)
    · have hbreak : Excerpt.isBreak c = false := by simp [Excerpt.isBreak, hc, Ne.symm h.1]
      rw [ending.convert_cons hc, lines_cons_of_not_break hbreak, lines_cons_of_not_break hbreak,
        hrest]

lemma breaks_convert (h : '\r' ∉ text) : breaks (ending.convert text) = breaks text := by
  have hlength := congrArg List.length (ending.lines_convert h)
  rw [length_lines, length_lines] at hlength
  exact Nat.succ.inj hlength

/-- Layout goes on over the converted layout, and no further. -/
lemma layout_convert (inComment : Bool) (text : List Char) :
    layout inComment (ending.convert text) =
      (ending.convert (text.take (layout inComment text))).length := by
  induction text generalizing inComment with
  | nil => rfl
  | cons c rest ih =>
    by_cases hc : c = '\n'
    · subst hc
      have hfeed : ∀ more, layout inComment ('\n' :: more) = layout false more + 1 := fun _ => rfl
      rw [hfeed, List.take_succ_cons, convert_feed, convert_feed, List.length_append, ← ih]
      cases ending with
      | returnFeed => exact Nat.add_comm _ 2
      | loneReturn => exact Nat.add_comm _ 1
    · rw [ending.convert_cons hc, layout_cons, layout_cons]
      cases layoutStep inComment c with
      | none => rfl
      | some inComment' =>
        change layout inComment' _ + 1 = _
        rw [ih inComment', Option.elim_some, List.take_succ_cons, ending.convert_cons hc]
        rfl

lemma untilBlank_convert (text : List Char) :
    untilBlank (ending.convert text) = untilBlank text := by
  induction text with
  | nil => rfl
  | cons c rest ih =>
    by_cases hc : c = '\n'
    · subst hc
      rw [convert_feed, untilBlank_cons_of_blank rfl]
      cases ending <;> exact untilBlank_cons_of_blank rfl
    · rw [ending.convert_cons hc]
      cases hblank : isBlank c with
      | true => rw [untilBlank_cons_of_blank hblank, untilBlank_cons_of_blank hblank]
      | false => rw [untilBlank_cons hblank, untilBlank_cons hblank, ih]

/-! ### Scanning -/

/-- **A place of a text and the place in the converted one**: in front of the same
character, which may now be one of a line ending. -/
def SamePlace (source : List Char) (p p' : Position) : Prop :=
  ∃ before behind, source = before ++ behind ∧ p.Marks before behind ∧
    p'.Marks (ending.convert before) (ending.convert behind)

/-- Cursors at the same place of a text and of the converted one. -/
def SameCursor (source : List Char) (cur cur' : Cursor) : Prop :=
  cur'.rest = ending.convert cur.rest ∧ ∃ before, cur.Passed source before ∧
    cur'.Passed (ending.convert source) (ending.convert before)

section Places

variable {source : List Char} {p p' : Position} {cur cur' : Cursor} {ending}

/-- Line and column stay. -/
lemma SamePlace.line_column (h : ending.SamePlace source p p') (hsource : '\r' ∉ source) :
    p'.line = p.line ∧ p'.column = p.column := by
  obtain ⟨before, behind, rfl, hp, hp'⟩ := h
  rw [List.mem_append, not_or] at hsource
  constructor
  · rw [hp.line, hp'.line, ending.breaks_convert hsource.1]
  · rw [hp.column, hp'.column, lastLine, lastLine, ending.lines_convert hsource.1]

lemma SameCursor.samePlace (h : ending.SameCursor source cur cur') (hsource : '\r' ∉ source) :
    ending.SamePlace source cur.pos cur'.pos := by
  obtain ⟨hrest, before, hpassed, hpassed'⟩ := h
  refine ⟨before, cur.rest, hpassed.text, ?_, ?_⟩
  · rw [hpassed.pos]
    refine Position.marks_across fun hsplit => hsource ?_
    rw [hpassed.text]
    exact List.mem_append_left _ (List.mem_of_getLast? hsplit.1)
  · rw [hpassed'.pos, hrest]
    exact Position.marks_across (ending.not_splitsPair_convert _ _)

/-- Cursors that are moved over the same characters are at the same place again. -/
lemma SameCursor.advanceBy (h : ending.SameCursor source cur cur') {n : Nat}
    (hn : n ≤ cur.rest.length) :
    ending.SameCursor source (cur.advanceBy n)
      (cur'.advanceBy (ending.convert (cur.rest.take n)).length) := by
  obtain ⟨hrest, before, hpassed, hpassed'⟩ := h
  have hsplit : cur'.rest =
      ending.convert (cur.rest.take n) ++ ending.convert (cur.rest.drop n) := by
    rw [← ending.convert_append, List.take_append_drop, hrest]
  have hn' : (ending.convert (cur.rest.take n)).length ≤ cur'.rest.length := by
    rw [hsplit, List.length_append]
    exact Nat.le_add_right _ _
  have htake : cur'.rest.take (ending.convert (cur.rest.take n)).length =
      ending.convert (cur.rest.take n) := by
    rw [hsplit, List.take_left]
  refine ⟨?_, _, hpassed.advanceBy hn, ?_⟩
  · rw [Cursor.rest_advanceBy, Cursor.rest_advanceBy, hsplit, List.drop_left]
  · have hmove := hpassed'.advanceBy hn'
    rwa [htake, ← ending.convert_append] at hmove

end Places

/-- **A converted text is scanned in step.** -/
lemma simulation {source : List Char} (hsource : '\r' ∉ source) :
    Cursor.Simulation (ending.SamePlace source) (ending.SameCursor source) where
  line hp hq := by rw [(hp.line_column hsource).1, (hq.line_column hsource).1]
  pos h := h.samePlace hsource
  skipLayout := by
    intro cur cur' h
    have hmove := h.advanceBy (layout_le_length false cur.rest)
    rwa [← ending.layout_convert, ← h.1] at hmove
  nil h hrest := by rw [h.1, hrest, convert_nil]
  cons := by
    intro cur cur' c rest h hrest hc
    have hne : c ≠ '\n' := by
      rintro rfl
      cases hc
    refine ⟨ending.convert rest, ?_, ?_, ?_⟩
    · rw [h.1, hrest, ending.convert_cons hne]
    · rw [← Lexeme.first_untilBlank hc, ending.untilBlank_convert, Lexeme.first_untilBlank hc]
    · have hle := Lexeme.size_first_le c rest
      have hmove := h.advanceBy (hrest ▸ hle)
      have hself := ending.convert_eq_self (Lexeme.isBlank_of_mem_take hc rest)
      rwa [hrest, hself, List.length_take_of_le hle] at hmove

/-- A source text with other line endings. -/
def rewrite (source : String) : String := String.ofList (ending.convert source.toList)

lemma ofString_rewrite (source : String) :
    Cursor.ofString (ending.rewrite source) = ⟨ending.convert source.toList, .start⟩ := by
  rw [Cursor.ofString, rewrite, String.toList_ofList]

lemma inStep (source : String) (hsource : '\r' ∉ source.toList) :
    ∃ n, (Cursor.ofString source).InStep (ending.SamePlace source.toList) n
      (Cursor.ofString (ending.rewrite source)) := by
  rw [ending.ofString_rewrite]
  exact (ending.simulation hsource).inStep ⟨rfl, [], ⟨rfl, rfl⟩, ⟨rfl, rfl⟩⟩

lemma pos?_ofError (e : Error) : (Diagnostic.ofError e).pos? = e.pos? := by
  cases e <;> rfl

/-- **The same is shown** of an error, with its line, in both texts. -/
lemma render_eq {source : String} (hsource : '\r' ∉ source.toList) {e e' : Error}
    (hmessage : e'.message = e.message)
    (hpos : Option.Rel (ending.SamePlace source.toList) e.pos? e'.pos?) :
    e'.render (ending.rewrite source) = e.render source := by
  have hexcerpt : ∀ p p', ending.SamePlace source.toList p p' →
      Excerpt.render e.message p' (ending.rewrite source) = Excerpt.render e.message p source := by
    intro p p' hp
    obtain ⟨hline, hcolumn⟩ := hp.line_column hsource
    obtain ⟨before, behind, hsplit, hmarks, hmarks'⟩ := hp
    have hrewrite : ending.rewrite source =
        String.ofList (ending.convert before ++ ending.convert behind) := by
      rw [rewrite, hsplit, ending.convert_append]
    have hself : source = String.ofList (before ++ behind) := by
      rw [← hsplit, String.ofList_toList]
    rw [hsplit, List.mem_append, not_or] at hsource
    rw [hrewrite, hmarks'.render, hself, hmarks.render, hline, hcolumn, lastLine, firstLine,
      ending.lines_convert hsource.1, ending.lines_convert hsource.2]
    rfl
  rw [Error.render, Error.render, Diagnostic.render, Diagnostic.render, pos?_ofError, pos?_ofError]
  generalize e.pos? = found, e'.pos? = found' at hpos
  cases hpos with
  | none => exact hmessage
  | some hp =>
    change Excerpt.render e'.message _ _ = Excerpt.render e.message _ _
    rw [hmessage, hexcerpt _ _ hp]

end LineEnding

/-! ### Fresh roots -/

/-- **A fresh root frame**: nothing is around it, and no function was declared in
it. -/
structure Store.FreshRoot (s : Store) (root : FrameId) : Prop where
  lt : root < s.frames.size
  outer : (s.frame root).outer = []
  slot_lt : ∀ b ∈ (s.frame root).bindings, b.2 < s.slots.size
  no_function : ∀ b ∈ (s.frame root).bindings, ∀ decl closure,
    s.slot b.2 ≠ .function decl closure

namespace Store

variable {s : Store} {root : FrameId}

/-- A new root frame is fresh. -/
lemma freshRoot_newRoot (s : Store) : s.newRoot.2.FreshRoot s.newRoot.1 := by
  have hframe : s.newRoot.2.frame s.newRoot.1 = ⟨[], []⟩ := by
    rw [newRoot, frame_addFrame]
    exact if_pos rfl
  refine ⟨?_, by rw [hframe], by simp [hframe], by simp [hframe]⟩
  simp [newRoot, addFrame]

lemma FreshRoot.bind (h : s.FreshRoot root) (name : String) {v : Value}
    (hv : ∀ decl closure, v ≠ .function decl closure) : (s.bind root name v).FreshRoot root := by
  have hframe := frame_bind s root root name v
  rw [if_pos ⟨rfl, h.lt⟩] at hframe
  refine ⟨by simpa using h.lt, by rw [hframe]; exact h.outer, fun b hb => ?_, fun b hb => ?_⟩
  · rw [hframe] at hb
    rw [size_slots_bind]
    rcases List.mem_append.1 hb with hb | hb
    · exact Nat.lt_succ_of_lt (h.slot_lt b hb)
    · rw [List.mem_singleton.1 hb]
      exact Nat.lt_succ_self _
  · rw [hframe] at hb
    rw [slot_bind]
    split
    · exact hv
    · rename_i hne
      rcases List.mem_append.1 hb with hb | hb
      · exact h.no_function b hb
      · exact absurd (by rw [List.mem_singleton.1 hb]) hne

lemma FreshRoot.declareEach {names : List (String × Value)} (h : s.FreshRoot root)
    (hv : ∀ nv ∈ names, nv.2.Within 0) : (s.declareEach root names).FreshRoot root := by
  induction names generalizing s with
  | nil => exact h
  | cons nv rest ih =>
    obtain ⟨name, v⟩ := nv
    obtain ⟨hhead, hrest⟩ := List.forall_mem_cons.1 hv
    have hno : ∀ decl closure, v ≠ .function decl closure := fun decl closure heq =>
      absurd (hhead decl closure heq) (Nat.not_lt_zero _)
    rw [Store.declareEach, declare]
    split
    · exact ih (h.bind name hno) hrest
    · exact ih h hrest

/-- A root frame with the standard names is fresh. -/
lemma freshRoot_standardRoot (s : Store) : s.standardRoot.2.FreshRoot s.standardRoot.1 := by
  have hnew := s.freshRoot_newRoot
  rw [standardRoot]
  generalize s.newRoot = r at hnew
  obtain ⟨root, store⟩ := r
  have hstandard := hnew.declareEach (within_standardNames root 0)
  simpa only using hstandard

/-- What is in a fresh root frame mirrors itself, wherever programs stand. -/
lemma FreshRoot.mirrors_self (h : s.FreshRoot root) (P : Position → Position → Prop) :
    s.Mirrors (.located P) (PEquiv.single root root) s := by
  have hroot : ∀ f f' : FrameId, f' ∈ PEquiv.single root root f → f = root ∧ f' = root :=
    fun f f' => (PEquiv.mem_single_iff f root f' root).1
  refine ⟨fun f f' hf => ?_, fun f f' hf => ?_, fun f f' hf => ?_, fun _ => rfl⟩
  · obtain ⟨rfl, rfl⟩ := hroot f f' hf
    exact ⟨h.lt, h.lt⟩
  · obtain ⟨rfl, rfl⟩ := hroot f f' hf
    rw [h.outer]
    exact .nil
  · obtain ⟨rfl, rfl⟩ := hroot f f' hf
    refine List.forall₂_same.2 fun b hb => ⟨rfl, h.slot_lt b hb, h.slot_lt b hb, ?_⟩
    have hno := h.no_function b hb
    cases hv : s.slot b.2 with
    | number n => exact .number n
    | function decl closure => exact absurd hv (hno decl closure)
    | builtin b home => exact .builtin (fun _ => trivial) rfl
    | undefined => exact .undefined

end Store

/-! ### What does not change -/

/-- Places with the same line and column. -/
def SameLineColumn (p p' : Position) : Prop := p'.line = p.line ∧ p'.column = p.column

/-- **Line endings are invisible.** Let the lines of a text end with line feeds only,
and replace these by other line endings. Then the tokens have the same kinds, lines
and columns, or the same lexical fault is found at the same line and column. Run in a
fresh root frame, both texts come to the same value and declare the same names, or
stop with errors of the same kind and message at the same line and column, which are
shown as the same text, or at the limit on nested calls. A declared function is the
same value if it is the same with all lines and columns, but not offsets, in it. -/
theorem line_endings_are_invisible (ending : LineEnding) {source : String}
    (hsource : '\r' ∉ source.toList) {s : Store} {root : FrameId} (hroot : s.FreshRoot root)
    (limit : Nat) :
    SameTokens SameLineColumn (tokenize source) (tokenize (ending.rewrite source)) ∧
      SameAnswer SameLineColumn (interpret releaseOnExit limit root source s)
        (interpret releaseOnExit limit root (ending.rewrite source) s) ∧
      ∀ e e' s' t', interpret releaseOnExit limit root source s = .error (.error e) s' →
        interpret releaseOnExit limit root (ending.rewrite source) s = .error (.error e') t' →
        e'.render (ending.rewrite source) = e.render source := by
  obtain ⟨n, hstep⟩ := ending.inStep source hsource
  have hline : ∀ p p', ending.SamePlace source.toList p p' → SameLineColumn p p' :=
    fun p p' hp => hp.line_column hsource
  have hanswer := hstep.parse.sameAnswer (fun _ _ hp => hp) (hroot.mirrors_self _)
    (PEquiv.mem_single root root) limit
  refine ⟨hstep.tokenize.mono hline, hanswer.mono hline, fun e e' s' t' he he' => ?_⟩
  rw [he, he'] at hanswer
  cases hanswer with
  | error _ hmessage hpos => exact ending.render_eq hsource hmessage hpos

/-- An error in the second line of a text, with a comment behind it. -/
theorem line_endings_are_invisible_unknown :
    let source := "func f()\x7b\n return g #é\n\x7d\nf()"
    let converted := "func f()\x7b\r\n return g #é\r\n\x7d\r\nf()"
    let s := (Store.empty ⟨0⟩).standardRoot.2
    let root := (Store.empty ⟨0⟩).standardRoot.1
    LineEnding.returnFeed.rewrite source = converted ∧ '\r' ∉ source.toList ∧ s.FreshRoot root ∧
      SameTokens SameLineColumn (tokenize source) (tokenize converted) ∧
      SameAnswer SameLineColumn (interpret releaseOnExit 10 root source s)
        (interpret releaseOnExit 10 root converted s) ∧
      ∀ e e' s' t', interpret releaseOnExit 10 root source s = .error (.error e) s' →
        interpret releaseOnExit 10 root converted s = .error (.error e') t' →
        e'.render converted = e.render source := by
  intro source converted s root
  have hconverted : LineEnding.returnFeed.rewrite source = converted := by decide +kernel
  have hsource : '\r' ∉ source.toList := by decide +kernel
  have hroot : s.FreshRoot root := Store.freshRoot_standardRoot _
  have hsame := line_endings_are_invisible .returnFeed hsource hroot 10
  rw [hconverted] at hsame
  exact ⟨hconverted, hsource, hroot, hsame⟩

end ClosureCalc
