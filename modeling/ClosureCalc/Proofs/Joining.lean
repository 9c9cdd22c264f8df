/-
Texts that are joined.

Two texts can be joined with a semicolon on a line of its own. It ends a comment and
the last statement of the first text, and is followed by the second text as it
is, further behind. So running the joined text is running one text after the other, as
two units in the same scope.

* `Position.behind`: a place of a text that stands behind another one;
  `Cursor.simulation_behind`: the text is scanned in step there.
* `parse_joined`: the statements of the joined text.
* `RunsThrough`: a unit comes to its end without a `return`.
* `executeUnit_append`: statements that run through, and others behind them.
* `Origin.Moves`: what becomes of a place, if it is one of the second text and if it is
  one of a function in scope.
* `joined_units`: the joined text is run like the two texts.
-/
import ClosureCalc.Proofs.Derives
import ClosureCalc.Proofs.InStep

namespace ClosureCalc

/-! ### Texts behind others -/

/-- The place that a place of a text becomes when the text stands behind another
one that ends its line: the bytes and the lines of the other one are added. -/
def Position.behind (front : List Char) (p : Position) : Position :=
  ⟨p.offset + String.utf8Len front, p.line + breaks front, p.column⟩

/-- A cursor in a text that stands behind another one. -/
def Cursor.behind (front : List Char) (cur : Cursor) : Cursor :=
  ⟨cur.rest, cur.pos.behind front⟩

section Behind

variable {front : List Char}

lemma Position.after_behind (p : Position) (c : Char) (next : Option Char) :
    (p.behind front).after c next = (p.after c next).behind front := by
  unfold Position.after
  split
  · exact congrArg₂ (Position.mk · · 1) (Nat.add_right_comm _ _ _) (Nat.add_right_comm _ _ _)
  · exact congrArg (Position.mk · _ _) (Nat.add_right_comm _ _ _)

lemma Cursor.advanceBy_behind (n : Nat) (cur : Cursor) :
    (cur.behind front).advanceBy n = (cur.advanceBy n).behind front := by
  induction n generalizing cur with
  | zero => rfl
  | succ n ih =>
    have hadvance : (cur.behind front).advance = cur.advance.behind front := by
      obtain ⟨_ | ⟨c, rest⟩, p⟩ := cur
      · rfl
      · exact congrArg (Cursor.mk rest) (p.after_behind c rest.head?)
    rw [Cursor.advanceBy, Cursor.advanceBy, hadvance, ih]

/-- **A text is scanned in step behind another one.** -/
lemma Cursor.simulation_behind (front : List Char) :
    Simulation (fun p p' => p' = p.behind front) (fun cur cur' => cur' = cur.behind front) where
  line := by
    rintro p _ q _ rfl rfl
    exact (Nat.add_right_cancel_iff (n := breaks front)).symm
  pos := by
    rintro cur _ rfl
    rfl
  skipLayout := by
    rintro cur _ rfl
    exact cur.advanceBy_behind _
  nil := by
    rintro cur _ rfl hrest
    exact hrest
  cons := by
    rintro cur _ c rest rfl hrest _
    exact ⟨rest, hrest, rfl, cur.advanceBy_behind _⟩

end Behind

/-! ### The seam -/

/-- Reading tokens of a text keeps a cursor at places of it. -/
lemma Cursor.Reads.rests {source : List Char} {cur mid : Cursor} {ts : List Token}
    (h : cur.Reads ts mid) (hcur : cur.Rests source) : mid.Rests source := by
  induction h with
  | nil => exact hcur
  | cons hscan _ _ ih =>
    have hscanned := hcur.scan
    rw [hscan] at hscanned
    exact ih hscanned.2

/-- What is read from a cursor is read from each other one that goes on with the same
token. -/
lemma Cursor.Reads.of_scan_eq {cur cur' mid fin : Cursor} {us : List Token} {eof : Token}
    (h : cur.Reads us mid) (hend : mid.scan = .ok eof fin) (hcur : cur'.scan = cur.scan) :
    ∃ mid', cur'.Reads us mid' ∧ mid'.scan = .ok eof fin := by
  cases h with
  | nil => exact ⟨cur', .nil cur', hcur.trans hend⟩
  | cons hscan hkind hrest => exact ⟨mid, .cons (hcur.trans hscan) hkind hrest, hend⟩

/-- The characters between two texts that are joined. -/
def seam : List Char := ['\n', ';', '\n']

/-- Behind the seam a line begins. -/
lemma across_seam (text : List Char) (next : Option Char) :
    Position.start.across (text ++ seam) next = Position.start.behind (text ++ seam) := by
  have hsplit : text ++ seam = (text ++ ['\n', ';']) ++ ['\n'] := by simp [seam]
  have hwhole : ¬ SplitsPair (text ++ seam) next := by
    rintro ⟨hreturn, -⟩
    simp [hsplit] at hreturn
  have hlast : lastLine (text ++ seam) = [] := by
    rw [← Excerpt.reverse_untilBreak_reverse, hsplit, List.reverse_append]
    rfl
  obtain ⟨hline, hcolumn⟩ := Position.line_column_across hwhole .start
  have hcolumn : (Position.start.across (text ++ seam) next).column = 1 := by
    rw [hcolumn]
    split
    · rename_i hbreaks
      rw [← lastLine_eq_self hbreaks, hlast]
      rfl
    · rw [hlast]
      rfl
  have hoffset := Position.start.offset_across (text ++ seam) next
  generalize Position.start.across (text ++ seam) next = p at hline hcolumn hoffset
  obtain ⟨offset, line, column⟩ := p
  obtain rfl : offset = _ := hoffset
  obtain rfl : line = _ := hline
  obtain rfl : column = 1 := hcolumn
  rfl

/-- **The seam in front of a text** is read as a semicolon. -/
lemma Cursor.reads_seam {cur fin : Cursor} {eof : Token} (h : cur.scan = .ok eof fin)
    (hkind : eof.kind = .endOfInput) (text : List Char) :
    ∃ semi mid, (⟨cur.rest ++ (seam ++ text), cur.pos⟩ : Cursor).scan = .ok semi mid ∧
      semi.kind = .symbol .semicolon ∧
      mid.scan = (⟨text, cur.pos.across (cur.rest ++ seam) text.head?⟩ : Cursor).scan := by
  have hlayout : layout false (cur.rest ++ []) = cur.rest.length := by
    obtain ⟨hrest, -, -⟩ := Cursor.eq_skipLayout_of_end h hkind
    rw [skipLayout, rest_advanceBy, List.drop_eq_nil_iff] at hrest
    rw [List.append_nil]
    exact le_antisymm (layout_le_length _ _) hrest
  have hbreak := scan_break (';' :: '\n' :: text) cur.pos hlayout
  have hfirst : Lexeme.first ';' ([] ++ '\n' :: text) = ⟨1, .ok (.symbol .semicolon)⟩ := rfl
  have hsemi := scan_eq (l := []) (cur.pos.across (cur.rest ++ ['\n']) (some ';')) rfl hfirst
  refine ⟨_, _, hbreak.trans hsemi, rfl, ?_⟩
  have hempty : layout false ([] ++ []) = ([] : List Char).length := rfl
  have hnext := scan_break text (((cur.pos.across (cur.rest ++ ['\n']) (some ';')).across []
    (some ';')).across [';'] (some '\n')) hempty
  have hsplit : cur.rest ++ seam = (cur.rest ++ ['\n']) ++ ([';'] ++ ['\n']) := by simp [seam]
  have hpos : cur.pos.across (cur.rest ++ seam) text.head? =
      ((cur.pos.across (cur.rest ++ ['\n']) (some ';')).across [';'] (some '\n')).across ['\n']
        text.head? := by
    rw [hsplit, Position.across_append _ (cur.rest ++ ['\n']), Position.across_append _ [';']]
    rfl
  rw [hpos]
  exact hnext

/-! ### Parsing -/

/-- Two texts with a semicolon on a line of its own in between. -/
def joined (a b : String) : String := a ++ "\n;\n" ++ b

lemma toList_joined (a b : String) : (joined a b).toList = a.toList ++ (seam ++ b.toList) := by
  have hseam : "\n;\n".toList = seam := rfl
  rw [joined, String.toList_append, String.toList_append, hseam, List.append_assoc]

/-- The statements of a text, read behind another one. -/
lemma sequence_behind {source : String} {p : Program} (h : parse source = .ok p)
    (front : List Char) :
    ∃ body us mid eof fin, List.Forall₂ (Stmt.Alike fun p p' => p' = p.behind front) p.body body ∧
      ((Cursor.ofString source).behind front).Reads us mid ∧ mid.scan = .ok eof fin ∧
      eof.kind = .endOfInput ∧ Grammar.Sequence us eof body := by
  obtain ⟨n, hstep⟩ := (Cursor.simulation_behind front).inStep
    (rfl : (Cursor.ofString source).behind front = _)
  obtain ⟨hle, -⟩ : n ≤ source.toList.length ∧ n ≤ source.toList.length := hstep.le_length
  have hend : Parser.EndInStep (fun p p' => p' = p.behind front)
      (fun _ => List.Forall₂ (Stmt.Alike fun p p' => p' = p.behind front))
      (Parser.allStatements source (Lexer.ofString source))
      (Parser.allStatements source ⟨(Cursor.ofString source).behind front, none⟩) :=
    hstep.statements (by omega) (by omega)
  rw [parse_eq, Parser.runOn, EStateM.run] at h
  generalize Parser.allStatements source (Lexer.ofString source) = r,
    hres : Parser.allStatements source ⟨(Cursor.ofString source).behind front, none⟩ = r' at h hend
  cases hend with
  | error he => cases h
  | @ok _ _ body _ lx _ _ _ _ _ hbody =>
    cases h
    have hstmt := Grammar.parses_statementWithin (source.toList.length + 2)
    have hout := Grammar.runs_statements hstmt (source.toList.length + 2) _ _
      (.fresh ((Cursor.ofString source).behind front))
    obtain ⟨us, mid, hus, -, eof, fin, hscan, heof, hseq⟩ := hout.value body lx hres
    exact ⟨body, us, mid, eof, fin, hbody, hus, hscan, heof, hseq⟩

/-- **A joined text is parsed** to the statements of the first text, followed by those
of the second one, with their places behind the first text and the seam. -/
lemma parse_joined {a b : String} {p q : Program} (ha : parse a = .ok p) (hb : parse b = .ok q) :
    ∃ body, List.Forall₂ (Stmt.Alike fun p p' => p' = p.behind (a.toList ++ seam)) q.body body ∧
      parse (joined a b) = .ok ⟨.start, p.body ++ body⟩ := by
  obtain ⟨-, ts, eof, mid, fin, hts, hscan, heof, hseq⟩ := sequence_of_parse ha
  obtain ⟨body, us, mid', eof', fin', hbody, hus, hscan', heof', hseq'⟩ :=
    sequence_behind hb (a.toList ++ seam)
  refine ⟨body, hbody, ?_⟩
  obtain ⟨pre, hpre, -, hreplace⟩ := hts.replace
  have hsource : (joined a b).toList = pre ++ (mid.rest ++ (seam ++ b.toList)) := by
    rw [toList_joined, ← List.append_assoc pre, ← hpre]
    rfl
  have hcut : Cut mid.rest (mid.rest ++ (seam ++ b.toList)) := by
    cases mid.rest with
    | nil => exact .inr ⟨'\n', rfl, rfl⟩
    | cons c rest => exact .inl rfl
  have hfirst : (Cursor.ofString (joined a b)).Reads ts
      ⟨mid.rest ++ (seam ++ b.toList), mid.pos⟩ := by
    rw [Cursor.ofString, hsource]
    exact hreplace _ hcut
  -- the second text begins behind the first one and the seam
  obtain ⟨semi, fin'', hsemi, hkind, hnext⟩ := Cursor.reads_seam hscan heof b.toList
  have hpos : mid.pos.across (mid.rest ++ seam) b.toList.head? =
      Position.start.behind (a.toList ++ seam) := by
    obtain ⟨before, hpassed, -⟩ := hfirst.rests (Cursor.rests_ofString _)
    have hbefore : pre = before := List.append_cancel_right (hsource.symm.trans hpassed.text)
    have hmid : mid.pos = Position.start.across pre (mid.rest ++ (seam ++ b.toList)).head? := by
      rw [hbefore]
      exact hpassed.pos
    have hall : a.toList ++ seam = pre ++ (mid.rest ++ seam) := by
      rw [← List.append_assoc, ← hpre]
      rfl
    rw [← across_seam a.toList b.toList.head?, hall, Position.across_append _ pre,
      ← List.head?_append, hmid, List.append_assoc]
  rw [hpos] at hnext
  obtain ⟨last, hsecond, hlast⟩ := hus.of_scan_eq hscan' hnext
  have hall := hfirst.append (.cons hsemi (by rw [hkind]; simp) hsecond)
  exact parse_of_sequence hall hlast heof' (Grammar.Sequence.append hkind hseq' hseq)

/-! ### Running -/

/-- **A program runs through** from one store to another: all its statements are
executed, without an error and without a `return`. -/
def RunsThrough (limit : Nat) (root : FrameId) (p : Program) (s s' : Store) : Prop :=
  executeAll releaseOnExit (call releaseOnExit limit) s.units root p.body s.newUnit.2 =
    .ok .normal s'

instance (limit : Nat) (root : FrameId) (p : Program) (s : Store) :
    Decidable (∃ s', RunsThrough limit root p s s') :=
  match h : executeAll releaseOnExit (call releaseOnExit limit) s.units root p.body s.newUnit.2 with
  | .ok .normal s' => .isTrue ⟨s', h⟩
  | .ok (.returned _) _ => .isFalse fun ⟨_, h'⟩ => by cases h.symm.trans h'
  | .error _ _ => .isFalse fun ⟨_, h'⟩ => by cases h.symm.trans h'

section Statements

variable {exit : ExitRule} {caller : Caller} {unit : Nat} {f : FrameId} {st : Stmt}
variable {rest : List Stmt} {s s' : Store} {last : Option Value}

/-- How a unit goes on whose first statements end in a certain way: with what is
behind them if they run through, and else not at all. -/
def GoesOn (exit : ExitRule) (caller : Caller) (unit : Nat) (f : FrameId) (first : List Stmt)
    (last : Option Value) (s : Store) : EStateM.Result Stop Store Flow → Prop
  | .ok .normal s' => ∃ value, ∀ sts,
      executeUnit exit caller unit f (first ++ sts) last s =
        executeUnit exit caller unit f sts value s'
  | .ok (.returned v) s' => ∀ sts,
      executeUnit exit caller unit f (first ++ sts) last s = .ok (some v) s'
  | .error stop s' => ∀ sts, executeUnit exit caller unit f (first ++ sts) last s = .error stop s'

/-- What comes behind the first statement of a unit. -/
lemma GoesOn.cons {value : Option Value} {r : EStateM.Result Stop Store Flow}
    (hfirst : ∀ sts, executeUnit exit caller unit f (st :: sts) last s =
      executeUnit exit caller unit f sts value s')
    (h : GoesOn exit caller unit f rest value s' r) :
    GoesOn exit caller unit f (st :: rest) last s r := by
  cases r with
  | ok flow s'' =>
    cases flow with
    | normal =>
      obtain ⟨w, hw⟩ := h
      exact ⟨w, fun sts => (hfirst _).trans (hw sts)⟩
    | returned v => exact fun sts => (hfirst _).trans (h sts)
  | error stop s'' => exact fun sts => (hfirst _).trans (h sts)

/-- Statements that do not run through come to the same alone. -/
lemma GoesOn.alone {r : EStateM.Result Stop Store Flow}
    (h : GoesOn exit caller unit f rest last s r) (hr : ∀ s', r ≠ .ok .normal s')
    (sts : List Stmt) :
    executeUnit exit caller unit f (rest ++ sts) last s =
      executeUnit exit caller unit f rest last s := by
  obtain ⟨out, hout⟩ : ∃ out, ∀ sts,
      executeUnit exit caller unit f (rest ++ sts) last s = out := by
    rcases r with ⟨_ | v, s'⟩ | ⟨stop, s'⟩
    · exact absurd rfl (hr s')
    · exact ⟨_, h⟩
    · exact ⟨_, h⟩
  have hself := hout []
  rw [List.append_nil] at hself
  rw [hout, hself]

/-- **The statements of a unit** are executed like other statements, up to the first
that returns. -/
lemma executeUnit_append (exit : ExitRule) (caller : Caller) (unit : Nat) (f : FrameId)
    (first : List Stmt) (last : Option Value) (s : Store) :
    GoesOn exit caller unit f first last s (executeAll exit caller unit f first s) := by
  induction first generalizing last s with
  | nil => exact ⟨last, fun sts => rfl⟩
  | cons st rest ih =>
    by_cases hexpr : ∃ p e, st = .expr p e
    · obtain ⟨p, e, rfl⟩ := hexpr
      rw [executeAll, execute, bind_assoc]
      rcases he : evaluate caller f e s with ⟨v, s'⟩ | ⟨stop, s'⟩
      · rw [Eval.bind_ok he]
        refine (ih (some v) s').cons fun sts => ?_
        rw [executeUnit, Eval.bind_ok he]
      · rw [Eval.bind_error he]
        intro sts
        rw [List.cons_append, executeUnit, Eval.bind_error he]
    · have hne : ∀ p e, st ≠ .expr p e := fun p e he => hexpr ⟨p, e, he⟩
      rw [executeAll]
      rcases hst : execute exit caller unit f st s with ⟨_ | v, s'⟩ | ⟨stop, s'⟩
      · rw [Eval.bind_ok hst]
        refine (ih none s').cons fun sts => ?_
        rw [executeUnit_cons hne, Eval.bind_ok hst]
      · rw [Eval.bind_ok hst]
        intro sts
        rw [List.cons_append, executeUnit_cons hne, Eval.bind_ok hst]
        rfl
      · rw [Eval.bind_error hst]
        intro sts
        rw [List.cons_append, executeUnit_cons hne, Eval.bind_error hst]

end Statements

/-- All places in the functions of a store. -/
def Store.locations (s : Store) : Set Position :=
  {p | ∃ i decl closure, s.slot i = .function decl closure ∧ p ∈ decl.locations}

/-- Where a part of a program comes from that is run in some scope: it is part of a
function that was in scope already, or of the program itself. -/
inductive Origin where
  | earlier
  | own

/-- **What becomes of a place** when the program stands behind another text, by its
origin: a place in a function that was in scope stays, one in the program moves. -/
def Origin.Moves (s : Store) (sts : List Stmt) (front : List Char) : Origin →
    Position → Position → Prop
  | earlier => WithinAnd s.locations fun p p' => p' = p
  | own => WithinAnd {p | p ∈ Stmt.locationsAll sts} fun p p' => p' = p.behind front

/-- The answer of a run that continues a first run in the way of a second one. It
declares the names of both. Its value is the second one, unless the second run has no
statements: then it is still the first one. -/
structure Continues (L : Likeness) (sts : List Stmt) (first : Evaluation)
    (ρ : Renaming) (second whole : Evaluation) : Prop where
  value_nil : sts = [] → whole.value = first.value
  value_cons : sts ≠ [] → Option.Rel (Value.Mirrors L ρ) second.value whole.value
  declared : whole.declared = first.declared ++ second.declared

/-- **Two runs one after the other** and a single one: the answer of the single run is
the one of the first run continued by the one of the second, or the second error, and
the same is in scope then. Frames of `s` keep their numbers. -/
def RunsOn (L : Likeness) (s : Store) (root : FrameId) (sts : List Stmt)
    (first : Evaluation) (second whole : EStateM.Result Stop Store Evaluation) : Prop :=
  ∃ ρ : Renaming, Renaming.below s.frames.size ≤ ρ ∧ root ∈ ρ root ∧
    Eval.EndMirrored L ρ (Continues L sts first) second whole

/-- What was added to a list, and then to the longer one. -/
lemma drop_length_append {α : Type} {as bs cs : List α} (h : as <+: bs) (h' : bs <+: cs) :
    cs.drop as.length = bs.drop as.length ++ cs.drop bs.length := by
  obtain ⟨us, rfl⟩ := h
  obtain ⟨vs, rfl⟩ := h'
  rw [List.drop_left, List.drop_left, List.append_assoc, List.drop_left]

/-- Names of a frame that were there come first. -/
lemma Store.Extends.names_prefix {A : Set FrameId} {s s' : Store} (h : s.Extends A s')
    {g : FrameId} (hg : g < s.frames.size) : s.names g <+: s'.names g :=
  (h.grown g hg).map _

section Programs

variable {limit : Nat} {root : FrameId} {p : Program} {s s' : Store}

/-- A program that does not run through comes to the same with other statements
behind it. -/
lemma runProgram_append_of_not (h : ¬ ∃ s', RunsThrough limit root p s s') (sts : List Stmt) :
    runProgram releaseOnExit limit root ⟨p.pos, p.body ++ sts⟩ s =
      runProgram releaseOnExit limit root p s := by
  have hgoes := executeUnit_append releaseOnExit (call releaseOnExit limit) s.units root p.body none
    s.newUnit.2
  have halone := hgoes.alone (fun s' hs' => h ⟨s', hs'⟩) sts
  rw [runProgram_apply, runProgram_apply, halone]

/-- What comes behind a program that runs through. -/
lemma runProgram_append (h : RunsThrough limit root p s s') :
    ∃ value, runProgram releaseOnExit limit root p s =
        .ok ⟨value, (s'.names root).drop (s.names root).length⟩ s' ∧
      ∀ pos sts, runProgram releaseOnExit limit root ⟨pos, p.body ++ sts⟩ s =
        match executeUnit releaseOnExit (call releaseOnExit limit) s.units root sts value s' with
        | .ok value t => .ok ⟨value, (t.names root).drop (s.names root).length⟩ t
        | .error stop t => .error stop t := by
  have hgoes := executeUnit_append releaseOnExit (call releaseOnExit limit) s.units root p.body none
    s.newUnit.2
  rw [RunsThrough] at h
  rw [h] at hgoes
  obtain ⟨value, hvalue⟩ := hgoes
  have hself := hvalue []
  rw [List.append_nil] at hself
  refine ⟨value, ?_, fun pos sts => ?_⟩
  · rw [runProgram_apply, hself]
    rfl
  · have hrun := runProgram_apply releaseOnExit limit root ⟨pos, p.body ++ sts⟩ s
    rwa [hvalue sts] at hrun

/-- Only the first statement of a unit follows another value. -/
lemma executeUnit_of_ne_nil {exit : ExitRule} {caller : Caller} {unit : Nat} {sts : List Stmt}
    (h : sts ≠ []) (last last' : Option Value) :
    executeUnit exit caller unit root sts last = executeUnit exit caller unit root sts last' := by
  cases sts with
  | nil => exact absurd rfl h
  | cons st rest => cases st <;> rfl

variable {L : Likeness} {sts sts' : List Stmt}

/-- **A program that runs through, and another one behind it**: the two together are
run like one after the other. -/
lemma runsOn_append (hL : L.Sound) (hunits : ∀ unit unit', L.units unit unit')
    (hself : s'.Mirrors L (.below s'.frames.size) s') (hroot : root < s'.frames.size)
    (hnames : s.names root <+: s'.names root) (h : RunsThrough limit root p s s')
    (hsts : L.bodies sts sts') :
    ∃ first, runProgram releaseOnExit limit root p s = .ok first s' ∧
      RunsOn L s' root sts first (runProgram releaseOnExit limit root ⟨.start, sts⟩ s')
        (runProgram releaseOnExit limit root ⟨p.pos, p.body ++ sts'⟩ s) := by
  obtain ⟨value, hfirst, happend⟩ := runProgram_append h
  have hkept : root ∈ Renaming.below s'.frames.size root := Renaming.mem_below.2 ⟨rfl, hroot⟩
  have hmirrors : s'.newUnit.2.Mirrors L (.below s'.frames.size) s' := hself.of_units _ s'.units
  refine ⟨_, hfirst, ?_⟩
  rw [happend]
  by_cases hnil : sts = []
  · subst hnil
    obtain rfl := hL.nil hsts
    refine ⟨_, le_rfl, hkept, .ok hmirrors ⟨fun _ => rfl, fun hne => absurd rfl hne, ?_⟩⟩
    exact drop_length_append hnames List.prefix_rfl
  · have hcall : MirroredCalls L (call releaseOnExit limit) (call releaseOnExit limit) :=
      mirrored_call hL limit
    have hnil' : sts' ≠ [] := by
      obtain ⟨st, rest, rfl⟩ := List.exists_cons_of_ne_nil hnil
      obtain ⟨st', rest', rfl, -⟩ := hL.cons hsts
      exact List.cons_ne_nil _ _
    obtain ⟨ρ, hρ, hend⟩ := mirrored_executeUnit hL hcall (hunits s'.units s.units) hsts hkept
      .none s'.newUnit.2 s' hmirrors
    have hgrows := (affects_executeUnit limit s'.units root sts none s'.newUnit.2).grows
    have hroot' := hρ _ _ hkept
    refine ⟨ρ, hρ, hroot', ?_⟩
    rw [executeUnit_of_ne_nil hnil' value none, runProgram_apply]
    generalize hres : executeUnit releaseOnExit (call releaseOnExit limit) s'.units root sts none
      s'.newUnit.2 = r, executeUnit releaseOnExit (call releaseOnExit limit) s.units root sts' none
      s' = r' at hend
    cases hend with
    | ok hst hvalue =>
      rw [Eval.after_ok hres] at hgrows
      refine .ok hst ⟨fun h => absurd h hnil, fun _ => hvalue, ?_⟩
      dsimp only
      rw [hst.names hroot']
      exact drop_length_append hnames (hgrows.names_prefix hroot)
    | error hst he => exact .error hst he
    | depth hst => exact .depth hst

/-- **A scope mirrors itself** in front of a program that is moved: each place in its
functions stays. -/
lemma Store.WellFormed.mirrors_origin (hs : s.WellFormed) (sts : List Stmt) (front : List Char) :
    s.Mirrors (.oneOf (Origin.Moves s sts front)) (.below s.frames.size) s := by
  refine hs.mirrors_below (fun _ => rfl) (fun i decl closure hv => ?_) trivial
  have hstored : ∀ p ∈ decl.locations, p ∈ s.locations :=
    fun p hp => ⟨i, decl, closure, hv, hp⟩
  have hself := Declaration.Alike.refl (P := fun p p' => p' = p) (fun _ => rfl) decl
  exact ⟨.earlier, hself.within hstored⟩

end Programs

/-- Behind a unit the scope is well formed, and the root frame has kept its names. -/
lemma scope_of_interpret {limit : Nat} {root : FrameId} {source : String} {s s' : Store}
    {answer : Evaluation} (hs : s.WellFormed) (hroot : root < s.frames.size)
    (h : interpret releaseOnExit limit root source s = .ok answer s') :
    s'.WellFormed ∧ root < s'.frames.size ∧ s.names root <+: s'.names root := by
  have hwellFormed : (⟨s, root, 0⟩ : Session).WellFormed := ⟨hs, hroot⟩
  have hafter : ((⟨s, root, 0⟩ : Session).after releaseOnExit limit [source]).store = s' := by
    rw [Session.after, Session.after, Session.store_step, Eval.after_ok h]
  obtain ⟨-, hstore, hlt⟩ := hwellFormed.session limit [source]
  have hgrows := (affects_interpret limit root source s).grows
  rw [hafter] at hstore hlt
  rw [Session.root_after] at hlt
  rw [Eval.after_ok h] at hgrows
  exact ⟨hstore, hlt, hgrows.names_prefix hroot⟩

/-- **A text is run like its pieces**, one after the other. Let two texts be parsed and
joined with a semicolon on a line of its own. The joined text has the statements of
the first one and those of the second one, these with their places further behind.

If the first text does not run through, since it stops with an error or returns, the
joined text does exactly the same. If it runs through, the joined text goes on like
the second one, run in the scope that the first one leaves: with the same value, the
names declared by both, and the same in scope at the end, or with the same error. A place
in a function that was in scope stays then, in an error as in a declaration, and a place
in the second text moves behind the first one. So all places are exactly those of a run
of the moved statements. -/
theorem joined_units {a b : String} {p q : Program} (ha : parse a = .ok p) (hb : parse b = .ok q)
    {s : Store} (hs : s.WellFormed) {root : FrameId} (hroot : root < s.frames.size)
    (limit : Nat) :
    ∃ moved, List.Forall₂ (Stmt.Alike fun u v => v = u.behind (a.toList ++ seam)) q.body moved ∧
      parse (joined a b) = .ok ⟨.start, p.body ++ moved⟩ ∧
      ((¬ ∃ s', RunsThrough limit root p s s') →
        interpret releaseOnExit limit root (joined a b) s =
          interpret releaseOnExit limit root a s) ∧
      ∀ s', RunsThrough limit root p s s' →
        ∃ first, interpret releaseOnExit limit root a s = .ok first s' ∧
          RunsOn (.oneOf (Origin.Moves s' q.body (a.toList ++ seam))) s' root q.body first
            (interpret releaseOnExit limit root b s')
            (interpret releaseOnExit limit root (joined a b) s) ∧
          RunsOn (.located Eq) s' root moved first
            (runProgram releaseOnExit limit root ⟨.start, moved⟩ s')
            (interpret releaseOnExit limit root (joined a b) s) := by
  obtain ⟨moved, hmoved, hjoined⟩ := parse_joined ha hb
  obtain ⟨hpos, -⟩ := sequence_of_parse ha
  obtain ⟨hpos', -⟩ := sequence_of_parse hb
  have hrunA : ∀ s, interpret releaseOnExit limit root a s =
      runProgram releaseOnExit limit root p s := fun s => by rw [interpret, ha]
  have hrunB : ∀ s, interpret releaseOnExit limit root b s =
      runProgram releaseOnExit limit root ⟨.start, q.body⟩ s := fun s => by
    rw [interpret, hb, ← hpos']
  have hrun : ∀ s, interpret releaseOnExit limit root (joined a b) s =
      runProgram releaseOnExit limit root ⟨p.pos, p.body ++ moved⟩ s := fun s => by
    rw [interpret, hjoined, hpos]
  refine ⟨moved, hmoved, hjoined, fun hnot => ?_, fun s' hthrough => ?_⟩
  · rw [hrun, hrunA, runProgram_append_of_not hnot]
  · obtain ⟨value, hfirst, -⟩ := runProgram_append hthrough
    obtain ⟨hs', hroot', hnames⟩ := scope_of_interpret hs hroot ((hrunA s).trans hfirst)
    have hbodies : (Likeness.oneOf (Origin.Moves s' q.body (a.toList ++ seam))).bodies q.body
        moved := ⟨.own, Stmt.Alike.within_all hmoved fun _ hp => hp⟩
    obtain ⟨first, hfirst, hon⟩ := runsOn_append (Likeness.sound_oneOf _) (fun _ _ => trivial)
      (hs'.mirrors_origin _ _) hroot' hnames hthrough hbodies
    obtain ⟨_, hfirst', hself⟩ := runsOn_append (Likeness.sound_located Eq) (fun _ _ => trivial)
      (hs'.mirrors_self fun _ => rfl) hroot' hnames hthrough
      (Stmt.Alike.refl_all (fun _ => rfl) moved)
    rw [hfirst] at hfirst'
    cases hfirst'
    exact ⟨first, (hrunA s).trans hfirst, by rwa [hrunB, hrun], by rwa [hrun]⟩

/-- A declaration with an open comment behind it runs through. The name in the second
line of the other text is not known then. -/
theorem joined_units_unknown :
    let a := "var x #c\r"
    let b := "#\ny"
    let s := Session.bare ⟨0⟩
    ∃ p q s', parse a = .ok p ∧ parse b = .ok q ∧ s.store.WellFormed ∧
      s.root < s.store.frames.size ∧ RunsThrough 10 s.root p s.store s' ∧
      ∃ moved, parse (joined a b) = .ok ⟨.start, p.body ++ moved⟩ ∧
        ∃ first, interpret releaseOnExit 10 s.root a s.store = .ok first s' ∧
          RunsOn (.oneOf (Origin.Moves s' q.body (a.toList ++ seam))) s' s.root q.body first
            (interpret releaseOnExit 10 s.root b s')
            (interpret releaseOnExit 10 s.root (joined a b) s.store) ∧
          RunsOn (.located Eq) s' s.root moved first
            (runProgram releaseOnExit 10 s.root ⟨.start, moved⟩ s')
            (interpret releaseOnExit 10 s.root (joined a b) s.store) := by
  intro a b s
  have hparsed : (parse b).toBool = true := by decide +kernel
  have hthrough : ((parse a).toOption.any fun p =>
      decide (∃ s', RunsThrough 10 s.root p s.store s')) = true := by decide +kernel
  have hs := Session.wellFormed_bare ⟨0⟩
  cases ha : parse a with
  | error e =>
    rw [ha] at hthrough
    cases hthrough
  | ok p =>
    cases hb : parse b with
    | error e =>
      rw [hb] at hparsed
      cases hparsed
    | ok q =>
      rw [ha] at hthrough
      obtain ⟨s', hs'⟩ := of_decide_eq_true hthrough
      obtain ⟨moved, -, hjoined, -, hall⟩ := joined_units ha hb hs.store hs.root_lt 10
      exact ⟨p, q, s', rfl, rfl, hs.store, hs.root_lt, hs', moved, hjoined, hall s' hs'⟩

end ClosureCalc
