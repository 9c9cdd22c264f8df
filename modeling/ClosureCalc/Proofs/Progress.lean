/-
Progress.

Reading moves on, also behind errors. Each token and each lexical error has text of its
own, so a text comes to its end. A reader of the parser that succeeds has taken a token,
and one that fails has taken what it complains about, so a text is read to its end if
the parser is called again after each failure.

* `Lexer.AtEnd`: the end of the text comes next; `Lexer.Takes`: tokens that are taken.
* `Parser.Terminates`: a reader whose budget is never spent.
* `Parser.Call`, `Parser.afterAll`: calls of a parser, and the stream behind them.
* `exists_first`: what leaves less of the text each time is done in the end.
* `Parser.MovesOn`: what holds of a stream; `reading_makes_progress`: it holds behind
  all calls.
-/
import ClosureCalc.Proofs.Halting
import ClosureCalc.Proofs.Lookahead
import ClosureCalc.Proofs.Places
import ClosureCalc.Proofs.Tokenizing

namespace ClosureCalc

/-! ### Scanning -/

namespace Cursor

variable {cur cur' : Cursor}

/-- A token with characters of its own moves the cursor on. -/
lemma offset_lt_of_scan_ok {tok : Token} (h : cur.scan = .ok tok cur')
    (hkind : tok.kind ≠ .endOfInput) : cur.pos.offset < cur'.pos.offset := by
  obtain ⟨hle, htok⟩ := endsBy_of_scan h
  exact hle.trans_lt (htok.lt hkind)

/-- A lexical error moves the cursor on. -/
lemma offset_lt_of_scan_error {e : Error} (h : cur.scan = .error e cur') :
    cur.pos.offset < cur'.pos.offset := by
  simp only [scan] at h
  split at h
  · cases h
  · rename_i c rest hrest
    split at h
    · cases h
    · cases h
      have hskip : cur.pos.offset ≤ cur.skipLayout.pos.offset := cur.offset_le_advanceBy _
      exact hskip.trans_lt (offset_lt_advanceBy (Lexeme.size_first_pos c rest) hrest)

/-- No text comes back. -/
lemma length_rest_le_of_scan_ok {tok : Token} (h : cur.scan = .ok tok cur') :
    cur'.rest.length ≤ cur.rest.length := by
  by_cases hkind : tok.kind = .endOfInput
  · obtain ⟨-, -, rfl⟩ := eq_skipLayout_of_end h hkind
    exact cur.length_rest_skipLayout_le
  · exact (length_rest_lt_of_scan_ok h hkind).le

end Cursor

/-! ### Streams -/

namespace Lexer

/-- The end of the text comes next. -/
def AtEnd (lx : Lexer) : Prop := ∃ tok lx', next lx = .ok tok lx' ∧ tok.kind = .endOfInput

/-- **The tokens `ts` are taken** from a stream by as many calls, and `lx'` is left. The end
of the text is not among them. -/
structure Takes (lx : Lexer) (ts : List Token) (lx' : Lexer) : Prop where
  calls : nextMany ts.length lx = .ok ts lx'
  more : ∀ tok ∈ ts, tok.kind ≠ .endOfInput

/-- The same place in a stream, where the next token may have been looked at. -/
def Looks (lx lx' : Lexer) : Prop := lx' = lx ∨ ∃ tok, peek lx = .ok tok lx'

variable {lx lx' : Lexer} {cur mid fin : Cursor} {ts : List Token} {e : Error}

/-- Taking depends only on where a stream goes on. -/
lemma At.next_eq_fresh (h : lx.At cur) : next lx = next ⟨cur, none⟩ := by
  cases h with
  | fresh => rfl
  | peeked hscan => rw [At.next_eq (.peeked hscan) hscan, At.next_eq (.fresh cur) hscan]

/-- So does looking ahead. -/
lemma At.peek_eq_fresh (h : lx.At cur) : peek lx = peek ⟨cur, none⟩ := by
  cases h with
  | fresh => rfl
  | peeked hscan => rw [At.peek_eq (.peeked hscan) hscan, At.peek_eq (.fresh cur) hscan]

/-- The end of the text comes next where it is scanned. -/
lemma At.atEnd_iff (h : lx.At cur) :
    lx.AtEnd ↔ ∃ tok mid, cur.scan = .ok tok mid ∧ tok.kind = .endOfInput := by
  constructor
  · rintro ⟨tok, lx', hnext, hkind⟩
    rcases hscan : cur.scan with ⟨tok', mid⟩ | ⟨e, mid⟩
    · rw [h.next_eq hscan] at hnext
      cases hnext
      exact ⟨tok, mid, rfl, hkind⟩
    · rw [(h.eq_of_scan_error hscan).1] at hnext
      cases hnext
  · rintro ⟨tok, mid, hscan, hkind⟩
    exact ⟨tok, _, h.next_eq hscan, hkind⟩

/-- Behind a token or an error there is less text, and at the end of the text there is no
more. -/
lemma At.pass (h : lx.At cur) :
    ∃ mid, lx.pass.At mid ∧ mid.rest.length ≤ cur.rest.length ∧
      (¬ lx.AtEnd → mid.rest.length < cur.rest.length) := by
  rcases hscan : cur.scan with ⟨tok, mid⟩ | ⟨e, mid⟩
  · refine ⟨mid, ?_, Cursor.length_rest_le_of_scan_ok hscan, fun hmore => ?_⟩
    · rw [Lexer.pass, h.next_eq hscan]
      exact .fresh mid
    · refine Cursor.length_rest_lt_of_scan_ok hscan fun hend => hmore ?_
      exact h.atEnd_iff.2 ⟨tok, mid, hscan, hend⟩
  · have hlt := Cursor.length_rest_lt_of_scan_error hscan
    refine ⟨mid, ?_, hlt.le, fun _ => hlt⟩
    rw [Lexer.pass, (h.eq_of_scan_error hscan).1]
    exact .fresh mid

lemma At.exists_at_iterate (h : lx.At cur) (j : Nat) : ∃ mid, (Lexer.pass^[j] lx).At mid := by
  induction j with
  | zero => exact ⟨cur, h⟩
  | succ j ih =>
    obtain ⟨mid, hmid⟩ := ih
    obtain ⟨fin, hfin, -, -⟩ := hmid.pass
    rw [Function.iterate_succ_apply']
    exact ⟨fin, hfin⟩

/-- Behind the end of the text it comes again. -/
lemma At.atEnd_pass (h : lx.At cur) (hend : lx.AtEnd) : lx.pass.AtEnd := by
  obtain ⟨tok, mid, hscan, hkind⟩ := h.atEnd_iff.1 hend
  rw [Lexer.pass, h.next_eq hscan]
  exact (At.fresh mid).atEnd_iff.2 ⟨tok, mid, Cursor.scan_of_end hscan hkind, hkind⟩

/-- Taking tokens from a stream that goes on from a cursor. -/
lemma At.takes (h : lx.At cur) (hts : cur.Reads ts mid) :
    ∃ lx', lx.Takes ts lx' ∧ lx'.At mid ∧ (ts ≠ [] → lx' = ⟨mid, none⟩) := by
  cases hts with
  | nil => exact ⟨lx, ⟨rfl, by simp⟩, h, fun hne => absurd rfl hne⟩
  | @cons _ mid' _ tok ts hscan hkind hrest =>
    refine ⟨⟨mid, none⟩, ⟨?_, (Cursor.Reads.cons hscan hkind hrest).ne_endOfInput⟩, .fresh mid,
      fun _ => rfl⟩
    have hmany := nextMany_of_reads hrest (rfl : nextMany 0 ⟨mid, none⟩ = _)
    rw [List.append_nil, Nat.add_zero] at hmany
    rw [List.length_cons, nextMany, Parser.bind_eq_of_ok (h.next_eq hscan),
      Parser.bind_eq_of_ok hmany]
    rfl

/-- A stream behind some tokens is the one that is left when they are taken. -/
lemma At.exists_takes (h : lx.At cur) (hts : cur.Reads ts fin) (hne : ts ≠ []) (h' : lx'.At fin) :
    ∃ mid, lx.Takes ts mid ∧ mid.Looks lx' := by
  obtain ⟨mid, htakes, -, hmid⟩ := h.takes hts
  obtain rfl := hmid hne
  refine ⟨_, htakes, ?_⟩
  cases h' with
  | fresh => exact .inl rfl
  | peeked hscan => exact .inr ⟨_, At.peek_eq (.fresh _) hscan⟩

/-- How a reader fails depends only on where a stream goes on. -/
lemma Stops.of_fresh (h : (Lexer.mk cur none).Stops e lx') (hat : lx.At cur) : lx.Stops e lx' := by
  cases h with
  | lexical h => exact .lexical (hat.next_eq_fresh.trans h)
  | refused fault h => exact .refused fault (hat.next_eq_fresh.trans h)
  | unclosed h hend => exact .unclosed (hat.peek_eq_fresh.trans h) hend

/-- No failure is a spent budget. -/
lemma Stops.ne_internal (h : (Lexer.mk cur none).Stops e lx') (p : Position) :
    e ≠ .internal p := by
  cases h with
  | lexical h =>
    rcases hscan : cur.scan with ⟨tok, mid⟩ | ⟨e', mid⟩
    · rw [At.next_eq (.fresh cur) hscan] at h
      cases h
    · rw [(At.eq_of_scan_error (.fresh cur) hscan).1] at h
      cases h
      obtain ⟨fault, q, rfl⟩ := Cursor.scan_error hscan
      simp
  | refused fault _ => simp
  | unclosed _ _ => simp

/-- A failure has passed what it is about. -/
lemma Stops.exists_at (h : (Lexer.mk cur none).Stops e lx') :
    ∃ mid, lx'.At mid ∧ mid.rest.length ≤ cur.rest.length ∧
      (¬ (Lexer.mk cur none).AtEnd → mid.rest.length < cur.rest.length) := by
  have hpass := At.pass (.fresh cur)
  cases h with
  | lexical h =>
    rw [Lexer.pass, h] at hpass
    exact hpass
  | refused fault h =>
    rw [Lexer.pass, h] at hpass
    exact hpass
  | unclosed h hend =>
    -- the end of the text is left to be taken, so nothing has to get less here
    rcases hscan : cur.scan with ⟨tok, mid⟩ | ⟨e', mid⟩
    · rw [At.peek_eq (.fresh cur) hscan] at h
      cases h
      have hlast := (At.fresh cur).atEnd_iff.2 ⟨_, mid, hscan, hend⟩
      exact ⟨cur, .peeked hscan, le_rfl, absurd hlast⟩
    · rw [(At.eq_of_scan_error (.fresh cur) hscan).2] at h
      cases h

end Lexer

/-- **What leaves less of the text each time** is done after at most as many times as there
are characters. -/
lemma exists_first {step : Lexer → Lexer} {done : Lexer → Prop}
    (hstep : ∀ lx cur, lx.At cur → ¬ done lx →
      ∃ mid, (step lx).At mid ∧ mid.rest.length < cur.rest.length)
    {lx : Lexer} {cur : Cursor} (h : lx.At cur) :
    ∃ k ≤ cur.rest.length, (∀ j < k, ¬ done (step^[j] lx)) ∧ done (step^[k] lx) := by
  induction hlength : cur.rest.length using Nat.strong_induction_on generalizing lx cur with
  | _ length ih =>
    subst hlength
    by_cases hdone : done lx
    · exact ⟨0, Nat.zero_le _, by simp, hdone⟩
    · obtain ⟨mid, hmid, hlt⟩ := hstep lx cur h hdone
      obtain ⟨k, hk, hbefore, hend⟩ := ih _ hlt hmid rfl
      refine ⟨k + 1, by omega, fun j hj => ?_, hend⟩
      cases j with
      | zero => exact hdone
      | succ j => exact hbefore j (Nat.lt_of_succ_lt_succ hj)

/-- **A text comes to its end** by taking tokens and errors, and stays there. -/
lemma Lexer.At.exists_end {lx : Lexer} {cur : Cursor} (h : lx.At cur) :
    ∃ k ≤ cur.rest.length, (∀ j < k, ¬ (Lexer.pass^[j] lx).AtEnd) ∧
      ∀ j, k ≤ j → (Lexer.pass^[j] lx).AtEnd := by
  have hstep : ∀ (lx : Lexer) (cur : Cursor), lx.At cur → ¬ lx.AtEnd →
      ∃ mid, lx.pass.At mid ∧ mid.rest.length < cur.rest.length := fun lx cur h hmore => by
    obtain ⟨mid, hmid, -, hlt⟩ := h.pass
    exact ⟨mid, hmid, hlt hmore⟩
  obtain ⟨k, hk, hbefore, hend⟩ := exists_first hstep h
  refine ⟨k, hk, hbefore, fun j hj => ?_⟩
  induction j, hj using Nat.le_induction with
  | base => exact hend
  | succ j _ ih =>
    obtain ⟨mid, hmid⟩ := h.exists_at_iterate j
    rw [Function.iterate_succ_apply']
    exact hmid.atEnd_pass ih

/-! ### Readers -/

namespace Parser

variable {α : Type} {lx lx' : Lexer} {cur : Cursor}

/-- The stream behind a reader, also if it fails. -/
def behind (x : Parser α) (lx : Lexer) : Lexer :=
  match x lx with
  | .ok _ lx' => lx'
  | .error _ lx' => lx'

/-- A reader succeeds. -/
def Succeeds (x : Parser α) (lx : Lexer) : Prop := ∃ a lx', x lx = .ok a lx'

/-- **A reader terminates**: its budget is not spent, and with every larger one it comes to
the same end. -/
structure Terminates (x : Parser α) (within : Nat → Parser α) (lx : Lexer) : Prop where
  unspent : ∀ p lx', x lx ≠ .error (.internal p) lx'
  same : ∀ n, budget lx ≤ n → within n lx = x lx

/-- **A reader with a budget**: it has one above the number of tokens, and with every such
budget it takes at least `c` tokens or fails. -/
structure Budgeted (x : Parser α) (within : Nat → Parser α) (c : Nat) : Prop where
  eq : ∀ lx, x lx = within (budget lx) lx
  halts : ∀ {n m m' : Nat} {cur : Cursor}, cur.AtMost n → n < m → n < m' →
    Halts cur c (within m) (within m')

namespace Budgeted

variable {x : Parser α} {within : Nat → Parser α} {c : Nat}

lemma halts_at (h : x.Budgeted within c) (hat : lx.At cur) {n : Nat} (hn : budget lx ≤ n) :
    Ends c cur (x lx) ∧ within n lx = x lx := by
  have hlast : lx.cursor.rest.length + 1 < budget lx := Nat.lt_succ_self _
  rw [h.eq]
  exact h.halts hat.atMost hlast (hlast.trans_le hn) lx hat

lemma ends (h : x.Budgeted within c) (hat : lx.At cur) : Ends c cur (x lx) :=
  (h.halts_at hat le_rfl).1

lemma terminates (h : x.Budgeted within c) (hat : lx.At cur) : x.Terminates within lx where
  unspent p lx' hres := by
    have hend := h.ends hat
    rw [hres] at hend
    cases hend with
    | failure _ hstop => exact hstop.ne_internal p rfl
  same _ hn := (h.halts_at hat hn).2

/-- A reader leaves a stream with no more text. -/
lemma exists_at (h : x.Budgeted within c) (hat : lx.At cur) :
    ∃ mid, (behind x lx).At mid ∧ mid.rest.length ≤ cur.rest.length := by
  have hend := h.ends hat
  rw [behind]
  generalize x lx = r at hend
  cases hend with
  | @value a ts fin _ hts hfin _ =>
    have hle := hts.length_add_le
    exact ⟨fin, hfin, by omega⟩
  | failure hts hstop =>
    have hle := hts.length_add_le
    obtain ⟨mid, hmid, hlength, -⟩ := hstop.exists_at
    exact ⟨mid, hmid, by omega⟩

/-- A reader that succeeds has taken tokens. -/
lemma takes (h : x.Budgeted within 1) (hat : lx.At cur) {a : α} (hres : x lx = .ok a lx') :
    ∃ ts mid, ts ≠ [] ∧ lx.Takes ts mid ∧ mid.Looks lx' := by
  have hend := h.ends hat
  rw [hres] at hend
  cases hend with
  | @value _ ts fin _ hts hfin hc =>
    have hne : ts ≠ [] := List.ne_nil_of_length_pos hc
    obtain ⟨mid, htakes, hlooks⟩ := hat.exists_takes hts hne hfin
    exact ⟨ts, mid, hne, htakes, hlooks⟩

end Budgeted

lemma get_bind_eq {k : Lexer → Parser α} : (get >>= k) lx = k lx lx :=
  bind_eq_of_ok rfl

lemma budgeted_expression : expression.Budgeted expressionWithin 1 where
  eq lx := by rw [expression, get_bind_eq]
  halts := halts_expressionWithin

lemma budgeted_statement : statement.Budgeted statementWithin 1 where
  eq lx := by rw [statement, get_bind_eq]
  halts := halts_statementWithin

lemma budgeted_program : program.Budgeted programWithin 0 where
  eq lx := by rw [program, programWithin, get_bind_eq, get_bind_eq]
  halts := halts_programWithin

/-! ### Programs -/

/-- At the end of the text there is a program without statements. -/
lemma program_of_atEnd (hat : lx.At cur) (hend : lx.AtEnd) : program.Succeeds lx := by
  obtain ⟨eof, mid, hscan, hkind⟩ := hat.atEnd_iff.1 hend
  have hnone : Grammar.Sequence [] eof [] := .nil (by simp)
  have hbody : (statements (statementWithin (budget lx)) (budget lx)).Answers [eof]
      (.ok ([], [eof])) :=
    hnone.answers_statements (Grammar.accepts_statementWithin _) hkind (Nat.zero_le _)
      (Nat.succ_pos _)
  obtain ⟨lx', hstatements, -⟩ := hbody lx ⟨cur, hat, Cursor.ahead_single hscan⟩
  refine ⟨⟨lx.pos, []⟩, lx', ?_⟩
  rw [program, get_bind_eq, bind_eq_of_ok hstatements]
  rfl

/-- **A program that fails** has taken tokens, or what it fails at is not the end of the
text. -/
lemma program_failure (hat : lx.At cur) {e : Error} (hres : program lx = .error e lx') :
    ∃ ts mid, cur.Reads ts mid ∧ (Lexer.mk mid none).Stops e lx' ∧
      ((Lexer.mk mid none).AtEnd → ts ≠ []) := by
  have hend := budgeted_program.ends hat
  rw [hres] at hend
  cases hend with
  | @failure _ ts mid _ hts hstop =>
    refine ⟨ts, mid, hts, hstop, ?_⟩
    rintro hmore rfl
    cases hts
    have hend := (Lexer.At.fresh cur).atEnd_iff.1 hmore
    obtain ⟨p, lx₁, hok⟩ := program_of_atEnd hat (hat.atEnd_iff.2 hend)
    rw [hres] at hok
    cases hok

/-- Behind a failure there is less text. -/
lemma exists_at_failure (hat : lx.At cur) (hfail : ¬ program.Succeeds lx) :
    ∃ mid, (behind program lx).At mid ∧ mid.rest.length < cur.rest.length := by
  rcases hres : program lx with ⟨p, lx'⟩ | ⟨e, lx'⟩
  · exact absurd ⟨p, lx', hres⟩ hfail
  · rw [behind, hres]
    obtain ⟨ts, mid, hts, hstop, hmore⟩ := program_failure hat hres
    obtain ⟨fin, hfin, hle, hlt⟩ := hstop.exists_at
    have hlength := hts.length_add_le
    refine ⟨fin, hfin, ?_⟩
    -- at the end of the text it is the tokens in front of it that were taken
    by_cases hend : (Lexer.mk mid none).AtEnd
    · have hpos := List.length_pos_iff.2 (hmore hend)
      change fin.rest.length < cur.rest.length
      omega
    · have hless := hlt hend
      omega

/-! ### Calls -/

/-- What a parser can be asked for: a token, or what one of its readers reads. -/
inductive Call where
  | token (call : Lexer.Call)
  | expression | statement | program
deriving DecidableEq, Inhabited, Repr

/-- The stream behind a call, also if it fails. -/
def Call.after : Call → Lexer → Lexer
  | token call, lx => streamOf (call.answer lx)
  | expression, lx => behind Parser.expression lx
  | statement, lx => behind Parser.statement lx
  | program, lx => behind Parser.program lx

/-- The stream behind calls, one after the other. -/
def afterAll (calls : List Call) (lx : Lexer) : Lexer :=
  calls.foldl (fun lx call => call.after lx) lx

lemma exists_at_answer (hat : lx.At cur) (call : Lexer.Call) :
    ∃ mid, (streamOf (call.answer lx)).At mid ∧ mid.rest.length ≤ cur.rest.length := by
  cases call with
  | next =>
    obtain ⟨mid, hmid, hle, -⟩ := hat.pass
    exact ⟨mid, hmid, hle⟩
  | peek =>
    rw [Lexer.Call.answer]
    rcases hscan : cur.scan with ⟨tok, mid⟩ | ⟨e, mid⟩
    · rw [hat.peek_eq hscan]
      exact ⟨cur, .peeked hscan, le_rfl⟩
    · rw [(hat.eq_of_scan_error hscan).2]
      exact ⟨mid, .fresh mid, (Cursor.length_rest_lt_of_scan_error hscan).le⟩

/-- No call brings text back. -/
lemma exists_at_after (hat : lx.At cur) (call : Call) :
    ∃ mid, (call.after lx).At mid ∧ mid.rest.length ≤ cur.rest.length := by
  cases call with
  | token call => exact exists_at_answer hat call
  | expression => exact budgeted_expression.exists_at hat
  | statement => exact budgeted_statement.exists_at hat
  | program => exact budgeted_program.exists_at hat

lemma exists_at_afterAll (hat : lx.At cur) (calls : List Call) :
    ∃ mid, (afterAll calls lx).At mid ∧ mid.rest.length ≤ cur.rest.length := by
  induction calls generalizing lx cur with
  | nil => exact ⟨cur, hat, le_rfl⟩
  | cons call calls ih =>
    obtain ⟨mid, hmid, hle⟩ := exists_at_after hat call
    obtain ⟨fin, hfin, hle'⟩ := ih hmid
    exact ⟨fin, hfin, hle'.trans hle⟩

/-- **A stream moves on**, with at most `n` characters in front of it. -/
structure MovesOn (n : Nat) (lx : Lexer) : Prop where
  /-- A token that is not the end of the text moves the cursor on. -/
  token : ∀ tok cur, lx.cursor.scan = .ok tok cur → tok.kind ≠ .endOfInput →
    lx.cursor.pos.offset < cur.pos.offset
  /-- So does a lexical error. -/
  error : ∀ e cur, lx.cursor.scan = .error e cur → lx.cursor.pos.offset < cur.pos.offset
  /-- Taking tokens and errors leads to the end of the text, and not beyond it. -/
  ends : ∃ k ≤ n, (∀ j < k, ¬ (Lexer.pass^[j] lx).AtEnd) ∧
    ∀ j, k ≤ j → (Lexer.pass^[j] lx).AtEnd
  expression_terminates : Parser.expression.Terminates expressionWithin lx
  statement_terminates : Parser.statement.Terminates statementWithin lx
  program_terminates : Parser.program.Terminates programWithin lx
  /-- An expression has taken tokens. -/
  expression_takes : ∀ e lx', Parser.expression lx = .ok e lx' →
    ∃ ts mid, ts ≠ [] ∧ lx.Takes ts mid ∧ mid.Looks lx'
  /-- A statement has taken tokens. -/
  statement_takes : ∀ st lx', Parser.statement lx = .ok st lx' →
    ∃ ts mid, ts ≠ [] ∧ lx.Takes ts mid ∧ mid.Looks lx'
  /-- A program that fails has passed tokens or what it fails at, even at the end of the
  text. -/
  program_stops : ∀ e lx', Parser.program lx = .error e lx' →
    ∃ ts mid, lx.Takes ts mid ∧ mid.Stops e lx' ∧ (mid.AtEnd → ts ≠ [])
  /-- If programs are read again after failures, one is read in the end. -/
  program_succeeds : ∃ k ≤ n,
    (∀ j < k, ¬ Parser.program.Succeeds ((behind Parser.program)^[j] lx)) ∧
      Parser.program.Succeeds ((behind Parser.program)^[k] lx)

/-- A stream moves on wherever it goes on. -/
lemma movesOn_of_at (hat : lx.At cur) {n : Nat} (hn : cur.rest.length ≤ n) : MovesOn n lx where
  token _ _ := Cursor.offset_lt_of_scan_ok
  error _ _ := Cursor.offset_lt_of_scan_error
  ends := by
    obtain ⟨k, hk, hend⟩ := hat.exists_end
    exact ⟨k, hk.trans hn, hend⟩
  expression_terminates := budgeted_expression.terminates hat
  statement_terminates := budgeted_statement.terminates hat
  program_terminates := budgeted_program.terminates hat
  expression_takes _ _ := budgeted_expression.takes hat
  statement_takes _ _ := budgeted_statement.takes hat
  program_stops e lx' hres := by
    obtain ⟨ts, mid, hts, hstop, hmore⟩ := program_failure hat hres
    obtain ⟨lx₁, htakes, hmid, -⟩ := hat.takes hts
    refine ⟨ts, lx₁, htakes, hstop.of_fresh hmid, fun hend => hmore ?_⟩
    exact (Lexer.At.fresh mid).atEnd_iff.2 (hmid.atEnd_iff.1 hend)
  program_succeeds := by
    obtain ⟨k, hk, hend⟩ := exists_first (fun _ _ => exists_at_failure) hat
    exact ⟨k, hk.trans hn, hend⟩

end Parser

/-- **Reading makes progress**, whatever a parser was asked for and whether it failed. -/
theorem reading_makes_progress (source : String) (calls : List Parser.Call) :
    Parser.MovesOn source.length (Parser.afterAll calls (Lexer.ofString source)) := by
  obtain ⟨cur, hat, hle⟩ := Parser.exists_at_afterAll (Lexer.at_ofString source) calls
  refine Parser.movesOn_of_at hat (hle.trans ?_)
  change source.toList.length ≤ source.length
  rw [String.length_toList]

/-- The error of a reader that fails, with the place where its stream stands then. -/
def failure? {α : Type} (r : EStateM.Result Error Lexer α) : Option (Error × Position) :=
  match r with
  | .ok _ _ => none
  | .error e lx => some (e, lx.pos)

/-- A name with a parenthesis behind it that was looked at. The parenthesis is refused
without another look at the text, then a brace is, and then there is a numeral that ends too
early. -/
theorem reading_makes_progress_buffered :
    let lx := Parser.afterAll [.expression] (Lexer.ofString "x)(\x7b2e")
    lx.peeked = some ⟨.symbol .rightParen, ⟨1, 1, 2⟩⟩ ∧
      (∃ tok cur, lx.cursor.scan = .ok tok cur ∧ tok.kind ≠ .endOfInput ∧
        lx.cursor.pos.offset < cur.pos.offset) ∧
      (∃ e lx', Parser.program lx = .error e lx' ∧ lx'.pos = lx.pos ∧
        ∃ ts mid, lx.Takes ts mid ∧ mid.Stops e lx' ∧ (mid.AtEnd → ts ≠ [])) ∧
      ∃ k ≤ 6, (∀ j < k, ¬ Parser.program.Succeeds ((Parser.behind Parser.program)^[j] lx)) ∧
        Parser.program.Succeeds ((Parser.behind Parser.program)^[k] lx) := by
  intro lx
  have hmoves : Parser.MovesOn 6 lx := reading_makes_progress "x)(\x7b2e" [.expression]
  have hlx : lx = ⟨⟨['(', '\x7b', '2', 'e'], ⟨2, 1, 3⟩⟩,
      some ⟨.symbol .rightParen, ⟨1, 1, 2⟩⟩⟩ := by decide +kernel
  have hscan : lx.cursor.scan =
      .ok ⟨.symbol .leftParen, ⟨2, 1, 3⟩⟩ ⟨['\x7b', '2', 'e'], ⟨3, 1, 4⟩⟩ := by
    rw [hlx]
    rfl
  have hfailure : failure? (Parser.program lx) =
      some (.parse (.expectedExpression (.symbol .rightParen)) ⟨1, 1, 2⟩, ⟨2, 1, 3⟩) := by
    rw [hlx]
    decide +kernel
  refine ⟨by rw [hlx], ⟨_, _, hscan, by simp, hmoves.token _ _ hscan (by simp)⟩, ?_,
    hmoves.program_succeeds⟩
  rcases hres : Parser.program lx with ⟨p, lx'⟩ | ⟨e, lx'⟩
  · rw [hres] at hfailure
    cases hfailure
  · rw [hres] at hfailure
    have hpos : lx'.pos = ⟨2, 1, 3⟩ := congrArg Prod.snd (Option.some.inj hfailure)
    exact ⟨e, lx', rfl, by rw [hpos, hlx, Lexer.pos], hmoves.program_stops e lx' hres⟩

end ClosureCalc
