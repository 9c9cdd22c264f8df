/-
Readers of a stream of tokens.

A stream is a cursor with at most one token that was looked at, and a reader
sees of it only the tokens that come next. So what a reader does is said with
lists of tokens.

* `Cursor.Reads`: the tokens between two cursors; `Cursor.Ahead`: tokens that
  come next; `Cursor.Fails`: a lexical error behind some tokens.
* `Lexer.At`: a stream that goes on from a cursor.
* `Parser.Answers`: what a reader gives on every stream on which some tokens
  come next, a value or an error, and what comes next then.
* `Parser.Runs`: what holds of the tokens a reader has taken from a cursor on
  if it succeeds, and of the token it refuses. A lexical error is that of the
  text.
-/
import ClosureCalc.Parser
import Mathlib.Tactic.Lemma

namespace ClosureCalc

/-- Some tokens and one behind them, by the first of all. -/
lemma append_cons_eq_headD (ts : List Token) (next : Token) (rest : List Token) :
    ts ++ next :: rest = ts.headD next :: (ts ++ next :: rest).tail := by
  cases ts <;> rfl

/-! ### Tokens from a cursor on -/

/-- The tokens from one cursor to another. The token at the end of the text is
not among them. -/
inductive Cursor.Reads : Cursor → List Token → Cursor → Prop where
  | nil (cur : Cursor) : Reads cur [] cur
  | cons {cur mid fin : Cursor} {tok : Token} {ts : List Token} (hscan : cur.scan = .ok tok mid)
      (hkind : tok.kind ≠ .endOfInput) (hrest : Reads mid ts fin) : Reads cur (tok :: ts) fin

/-- The tokens that come next after a cursor begin with the given ones. -/
def Cursor.Ahead (cur : Cursor) : List Token → Prop
  | [] => True
  | tok :: ts => ∃ mid, cur.scan = .ok tok mid ∧ mid.Ahead ts

/-- Behind some tokens the text has a lexical error. -/
def Cursor.Fails (cur : Cursor) (e : Error) : Prop :=
  ∃ ts mid fin, cur.Reads ts mid ∧ mid.scan = .error e fin

namespace Cursor.Reads

variable {cur mid fin : Cursor} {ts us : List Token} {tok : Token}

lemma single (hscan : cur.scan = .ok tok mid) (hkind : tok.kind ≠ .endOfInput) :
    cur.Reads [tok] mid :=
  .cons hscan hkind (.nil mid)

lemma append (h : cur.Reads ts mid) (h' : mid.Reads us fin) : cur.Reads (ts ++ us) fin := by
  induction h with
  | nil => exact h'
  | cons hscan hkind _ ih => exact .cons hscan hkind (ih h')

/-- An error behind some tokens. -/
lemma fails {e : Error} (h : cur.Reads ts mid) (he : mid.Fails e) : cur.Fails e := by
  obtain ⟨us, mid', fin, hus, hscan⟩ := he
  exact ⟨ts ++ us, mid', fin, h.append hus, hscan⟩

/-- Each token has a character of its own. -/
lemma length_add_le (h : cur.Reads ts fin) : ts.length + fin.rest.length ≤ cur.rest.length := by
  induction h with
  | nil => simp
  | cons hscan hkind _ ih =>
    have hlt := length_rest_lt_of_scan_ok hscan hkind
    rw [List.length_cons]
    omega

lemma ahead (h : cur.Reads ts mid) (hus : mid.Ahead us) : cur.Ahead (ts ++ us) := by
  induction h with
  | nil => exact hus
  | cons hscan _ _ ih => exact ⟨_, hscan, ih hus⟩

/-- What comes next before some tokens are read is the first of them, or else
what comes next behind them. -/
lemma scan_headD {next : Token} (h : cur.Reads ts mid) (hnext : mid.scan = .ok next fin) :
    ∃ fin', cur.scan = .ok (ts.headD next) fin' := by
  cases h with
  | nil => exact ⟨fin, hnext⟩
  | cons hscan _ _ => exact ⟨_, hscan⟩

lemma ne_endOfInput (h : cur.Reads ts fin) : ∀ tok ∈ ts, tok.kind ≠ .endOfInput := by
  induction h with
  | nil => simp
  | cons _ hkind _ ih =>
    intro tok htok
    rcases List.mem_cons.1 htok with rfl | htok
    · exact hkind
    · exact ih tok htok

end Cursor.Reads

lemma Cursor.fails_of_scan {cur fin : Cursor} {e : Error} (h : cur.scan = .error e fin) :
    cur.Fails e :=
  ⟨[], cur, fin, .nil cur, h⟩

lemma Cursor.ahead_single {cur fin : Cursor} {tok : Token} (h : cur.scan = .ok tok fin) :
    cur.Ahead [tok] :=
  ⟨fin, h, trivial⟩

namespace Lexer

/-- A stream that goes on from a cursor, where one token may have been looked
at. -/
inductive At : Lexer → Cursor → Prop where
  | fresh (cur : Cursor) : At ⟨cur, none⟩ cur
  | peeked {cur fin : Cursor} {tok : Token} (hscan : cur.scan = .ok tok fin) :
      At ⟨fin, some tok⟩ cur

/-- The tokens that come next in a stream begin with the given ones. -/
def Ahead (lx : Lexer) (ts : List Token) : Prop := ∃ cur, lx.At cur ∧ cur.Ahead ts

lemma at_ofString (source : String) : (ofString source).At (Cursor.ofString source) := .fresh _

variable {lx : Lexer} {cur mid : Cursor} {tok : Token}

/-- Taking a token depends only on where the stream goes on. -/
lemma At.next_eq (h : lx.At cur) (hscan : cur.scan = .ok tok mid) :
    next lx = .ok tok ⟨mid, none⟩ := by
  cases h with
  | fresh => simp only [next, hscan]
  | peeked hscan' =>
    rw [hscan] at hscan'
    cases hscan'
    rfl

/-- Looking at a token depends only on where the stream goes on. -/
lemma At.peek_eq (h : lx.At cur) (hscan : cur.scan = .ok tok mid) :
    peek lx = .ok tok ⟨mid, some tok⟩ := by
  cases h with
  | fresh => simp only [peek, hscan]
  | peeked hscan' =>
    rw [hscan] at hscan'
    cases hscan'
    rfl

/-- A token that cannot be scanned can be neither taken nor looked at. -/
lemma At.eq_of_scan_error {e : Error} (h : lx.At cur) (hscan : cur.scan = .error e mid) :
    next lx = .error e ⟨mid, none⟩ ∧ peek lx = .error e ⟨mid, none⟩ := by
  cases h with
  | fresh => simp only [next, peek, hscan, and_self]
  | peeked hscan' =>
    rw [hscan] at hscan'
    cases hscan'

end Lexer

/-- Scanning never refuses a token as the parser does. -/
lemma Cursor.scan_error {cur fin : Cursor} {e : Error} (h : cur.scan = .error e fin) :
    ∃ fault p, e = .lex fault p := by
  simp only [scan] at h
  split at h
  · cases h
  · split at h
    · cases h
    · cases h
      exact ⟨_, _, rfl⟩

namespace Parser

section Bind

variable {α β : Type} {x : Parser α} {k : α → Parser β} {lx lx₁ : Lexer}

lemma bind_eq_of_ok {a : α} (hx : x lx = .ok a lx₁) : (x >>= k) lx = k a lx₁ := by
  change EStateM.bind x k lx = _
  rw [EStateM.bind, hx]

lemma bind_eq_of_error {e : Error} (hx : x lx = .error e lx₁) : (x >>= k) lx = .error e lx₁ := by
  change EStateM.bind x k lx = _
  rw [EStateM.bind, hx]

end Bind

/-! ### Answers -/

section Answers

variable {α β : Type} {x : Parser α} {k : α → Parser β} {a : α} {e : Error}
variable {tok : Token} {kind : Token.Kind} {ts us : List Token}
variable {out : Except Error (β × List Token)}

/-- **What a reader answers** on every stream on which the tokens `ts` come
next: an error, or a value together with tokens that come next then. -/
def Answers (x : Parser α) (ts : List Token) (out : Except Error (α × List Token)) : Prop :=
  ∀ lx : Lexer, lx.Ahead ts →
    match out with
    | .ok (a, us) => ∃ lx', x lx = .ok a lx' ∧ lx'.Ahead us
    | .error e => ∃ lx', x lx = .error e lx'

lemma answers_pure : (pure a : Parser α).Answers ts (.ok (a, ts)) :=
  fun lx hlx => ⟨lx, rfl, hlx⟩

lemma answers_next : Answers Lexer.next (tok :: ts) (.ok (tok, ts)) := by
  rintro lx ⟨cur, hat, mid, hscan, hts⟩
  exact ⟨_, hat.next_eq hscan, mid, .fresh mid, hts⟩

lemma answers_peek : Answers Lexer.peek (tok :: ts) (.ok (tok, tok :: ts)) := by
  rintro lx ⟨cur, hat, mid, hscan, hts⟩
  exact ⟨_, hat.peek_eq hscan, cur, .peeked hscan, mid, hscan, hts⟩

lemma answers_refuse (fault : ParseFault) :
    (refuse fault tok : Parser α).Answers ts (.error (.parse fault tok.pos)) :=
  fun lx _ => ⟨lx, rfl⟩

lemma Answers.bind (hx : x.Answers ts (.ok (a, us))) (hk : (k a).Answers us out) :
    (x >>= k).Answers ts out := by
  intro lx hlx
  obtain ⟨mid, hmid, hus⟩ := hx lx hlx
  rw [bind_eq_of_ok hmid]
  exact hk mid hus

lemma Answers.bind_error (hx : x.Answers ts (.error e)) : (x >>= k).Answers ts (.error e) := by
  intro lx hlx
  obtain ⟨mid, hmid⟩ := hx lx hlx
  exact ⟨mid, bind_eq_of_error hmid⟩

lemma answers_isNext (kind : Token.Kind) :
    (isNext kind).Answers (tok :: ts) (.ok (decide (tok.kind = kind), tok :: ts)) :=
  answers_peek.bind answers_pure

/-- A token of the kind that was asked about. -/
lemma answers_isNext_true (h : tok.kind = kind) :
    (isNext kind).Answers (tok :: ts) (.ok (true, tok :: ts)) := by
  rw [← decide_eq_true h]
  exact answers_isNext kind

/-- A token of another kind than the one that was asked about. -/
lemma answers_isNext_false (h : tok.kind ≠ kind) :
    (isNext kind).Answers (tok :: ts) (.ok (false, tok :: ts)) := by
  rw [← decide_eq_false h]
  exact answers_isNext kind

lemma answers_expect {kind : Token.Kind} (h : tok.kind = kind) :
    (expect kind).Answers (tok :: ts) (.ok (tok, ts)) := by
  refine answers_next.bind ?_
  rw [if_pos h]
  exact answers_pure

lemma answers_expect_error {kind : Token.Kind} (h : tok.kind ≠ kind) :
    (expect kind).Answers (tok :: ts) (.error (.parse (.expectedKind kind tok.kind) tok.pos)) := by
  refine answers_next.bind ?_
  rw [if_neg h]
  exact answers_refuse _

lemma answers_expectName (role : NameRole) {name : String} (h : tok.kind = .identifier name) :
    (expectName role).Answers (tok :: ts) (.ok (name, ts)) := by
  refine answers_next.bind ?_
  rw [h]
  exact answers_pure

lemma answers_expectName_error (role : NameRole) (h : ∀ name, tok.kind ≠ .identifier name) :
    (expectName role).Answers (tok :: ts)
      (.error (.parse (.expectedName role tok.kind) tok.pos)) := by
  refine answers_next.bind ?_
  split
  · rename_i name hname
    exact absurd hname (h name)
  · exact answers_refuse _

end Answers

/-! ### Runs -/

section Runs

variable {α β : Type} {cur : Cursor} {Q : α → List Token → Cursor → Prop}
variable {R : β → List Token → Cursor → Prop} {B : List Token → Token → ParseFault → Prop}

/-- What holds of the outcome of a reader that went on from a cursor: `Q` of the
value, the tokens that were taken and the cursor behind them; if a token was
refused, `B` of the tokens that were taken before it, the token and the
fault. A lexical error is the one that the text has there. -/
structure Outcome (r : EStateM.Result Error Lexer α) (cur : Cursor)
    (Q : α → List Token → Cursor → Prop) (B : List Token → Token → ParseFault → Prop) : Prop where
  value : ∀ a lx, r = .ok a lx → ∃ ts fin, cur.Reads ts fin ∧ lx.At fin ∧ Q a ts fin
  fault : ∀ fault p lx, r = .error (.parse fault p) lx →
    ∃ ts mid tok fin, cur.Reads ts mid ∧ mid.scan = .ok tok fin ∧ p = tok.pos ∧ B ts tok fault
  lexical : ∀ fault p lx, r = .error (.lex fault p) lx → cur.Fails (.lex fault p)

/-- **What holds of every run** of a reader from a cursor on. -/
def Runs (x : Parser α) (cur : Cursor) (Q : α → List Token → Cursor → Prop)
    (B : List Token → Token → ParseFault → Prop) : Prop :=
  ∀ lx : Lexer, lx.At cur → Outcome (x lx) cur Q B

/-- A token that cannot be scanned ends the reader. -/
lemma outcome_of_scan_error {e : Error} {mid : Cursor} {lx : Lexer}
    (h : cur.scan = .error e mid) :
    Outcome (.error e lx : EStateM.Result Error Lexer α) cur Q B := by
  obtain ⟨fault, p, rfl⟩ := Cursor.scan_error h
  refine ⟨fun a lx' hres => ?_, fun fault' p' lx' hres => ?_, fun fault' p' lx' hres => ?_⟩
  · cases hres
  · cases hres
  · cases hres
    exact Cursor.fails_of_scan h

/-- What happens behind some tokens happens with these tokens in front. -/
lemma Outcome.behind {r : EStateM.Result Error Lexer β} {ts : List Token} {mid : Cursor}
    (hts : cur.Reads ts mid)
    (h : Outcome r mid (fun b us => R b (ts ++ us)) fun us => B (ts ++ us)) :
    Outcome r cur R B := by
  refine ⟨fun b lx hres => ?_, fun fault p lx hres => ?_, fun fault p lx hres => ?_⟩
  · obtain ⟨us, fin, hus, hfin, hr⟩ := h.value b lx hres
    exact ⟨ts ++ us, fin, hts.append hus, hfin, hr⟩
  · obtain ⟨us, cur', tok, fin, hus, hscan, hp, hfault⟩ := h.fault fault p lx hres
    exact ⟨ts ++ us, cur', tok, fin, hts.append hus, hscan, hp, hfault⟩
  · exact hts.fails (h.lexical fault p lx hres)

lemma runs_pure {a : α} (h : Q a [] cur) : Runs (pure a) cur Q B := by
  intro lx hlx
  refine ⟨fun a' lx' hres => ?_, fun fault p lx' hres => ?_, fun fault p lx' hres => ?_⟩
  · cases hres
    exact ⟨[], cur, .nil cur, hlx, h⟩
  · cases hres
  · cases hres

/-- A spent budget is no concern of the grammar. -/
lemma runs_outOfBudget : Runs outOfBudget cur Q B := by
  intro lx _
  refine ⟨fun a lx' hres => ?_, fun fault p lx' hres => ?_, fun fault p lx' hres => ?_⟩
  · cases hres
  · cases hres
  · cases hres

/-- A token that was looked at is refused. -/
lemma runs_refuse {tok : Token} {fin : Cursor} {fault : ParseFault}
    (hscan : cur.scan = .ok tok fin) (h : B [] tok fault) : Runs (refuse fault tok) cur Q B := by
  intro lx hlx
  refine ⟨fun a lx' hres => ?_, fun fault' p lx' hres => ?_, fun fault' p lx' hres => ?_⟩
  · cases hres
  · cases hres
    exact ⟨[], cur, tok, fin, .nil cur, hscan, rfl, h⟩
  · cases hres

lemma Runs.mono {x : Parser α} {Q' : α → List Token → Cursor → Prop}
    {B' : List Token → Token → ParseFault → Prop} (hx : Runs x cur Q B)
    (hq : ∀ a ts fin, cur.Reads ts fin → Q a ts fin → Q' a ts fin)
    (hb : ∀ ts mid tok fin fault, cur.Reads ts mid → mid.scan = .ok tok fin → B ts tok fault →
      B' ts tok fault) : Runs x cur Q' B' := by
  intro lx hlx
  refine ⟨fun a lx' hres => ?_, fun fault p lx' hres => ?_, fun fault p lx' hres => ?_⟩
  · obtain ⟨ts, fin, hreads, hat, ha⟩ := (hx lx hlx).value a lx' hres
    exact ⟨ts, fin, hreads, hat, hq a ts fin hreads ha⟩
  · obtain ⟨ts, mid, tok, fin, hreads, hscan, hp, hfault⟩ := (hx lx hlx).fault fault p lx' hres
    exact ⟨ts, mid, tok, fin, hreads, hscan, hp, hb ts mid tok fin fault hreads hscan hfault⟩
  · exact (hx lx hlx).lexical fault p lx' hres

/-- What the second of two readers takes comes behind what the first has
taken. -/
lemma Runs.bind {x : Parser α} {k : α → Parser β} (hx : Runs x cur Q B)
    (hk : ∀ a ts mid, cur.Reads ts mid → Q a ts mid →
      Runs (k a) mid (fun b us => R b (ts ++ us)) fun us => B (ts ++ us)) :
    Runs (x >>= k) cur R B := by
  intro lx hlx
  rcases hres : x lx with ⟨a, lx₁⟩ | ⟨e, lx₁⟩
  · obtain ⟨ts, mid, hts, hmid, ha⟩ := (hx lx hlx).value a lx₁ hres
    rw [bind_eq_of_ok hres]
    exact (hk a ts mid hts ha lx₁ hmid).behind hts
  · rw [bind_eq_of_error hres]
    refine ⟨fun b lx' hb => (by cases hb), fun fault p lx' hb => ?_, fun fault p lx' hb => ?_⟩
    · cases hb
      exact (hx lx hlx).fault fault p lx₁ hres
    · cases hb
      exact (hx lx hlx).lexical fault p lx₁ hres

/-- What is done with a token that has been taken: it is refused, or else it
comes in front of what is taken next. -/
inductive Handles (tok : Token) (mid : Cursor) (R : β → List Token → Cursor → Prop)
    (B : List Token → Token → ParseFault → Prop) : Parser β → Prop where
  | refuse (fault : ParseFault) (h : B [] tok fault) : Handles tok mid R B (refuse fault tok)
  | go {y : Parser β} (hkind : tok.kind ≠ .endOfInput)
      (h : Runs y mid (fun b us => R b (tok :: us)) fun us => B (tok :: us)) :
      Handles tok mid R B y

lemma runs_next_bind {k : Token → Parser β}
    (h : ∀ tok mid, cur.scan = .ok tok mid → Handles tok mid R B (k tok)) :
    Runs (Lexer.next >>= k) cur R B := by
  intro lx hlx
  rcases hscan : cur.scan with ⟨tok, mid⟩ | ⟨e, mid⟩
  · rw [bind_eq_of_ok (hlx.next_eq hscan)]
    have hk := h tok mid hscan
    generalize k tok = y at hk
    cases hk with
    | refuse fault hfault =>
      refine ⟨fun b lx' hb => (by cases hb), fun fault' p lx' hb => ?_,
        fun fault' p lx' hb => (by cases hb)⟩
      cases hb
      exact ⟨[], cur, tok, mid, .nil cur, hscan, rfl, hfault⟩
    | go hkind hrun => exact (hrun _ (.fresh mid)).behind (.single hscan hkind)
  · rw [bind_eq_of_error (hlx.eq_of_scan_error hscan).1]
    exact outcome_of_scan_error hscan

/-- A token that is only looked at is still to come. -/
lemma runs_peek_bind {k : Token → Parser β}
    (h : ∀ tok mid, cur.scan = .ok tok mid → Runs (k tok) cur R B) :
    Runs (Lexer.peek >>= k) cur R B := by
  intro lx hlx
  rcases hscan : cur.scan with ⟨tok, mid⟩ | ⟨e, mid⟩
  · rw [bind_eq_of_ok (hlx.peek_eq hscan)]
    exact h tok mid hscan _ (.peeked hscan)
  · rw [bind_eq_of_error (hlx.eq_of_scan_error hscan).2]
    exact outcome_of_scan_error hscan

lemma runs_isNext_bind {kind : Token.Kind} {k : Bool → Parser β}
    (htrue : ∀ tok mid, cur.scan = .ok tok mid → tok.kind = kind → Runs (k true) cur R B)
    (hfalse : ∀ tok mid, cur.scan = .ok tok mid → tok.kind ≠ kind → Runs (k false) cur R B) :
    Runs (isNext kind >>= k) cur R B := by
  rw [isNext, bind_assoc]
  refine runs_peek_bind fun tok mid hscan => ?_
  rw [pure_bind]
  by_cases h : tok.kind = kind
  · rw [decide_eq_true h]
    exact htrue tok mid hscan h
  · rw [decide_eq_false h]
    exact hfalse tok mid hscan h

/-- A token that is known to come next is taken. -/
lemma runs_take {tok : Token} {mid : Cursor} {k : Token → Parser β}
    (hscan : cur.scan = .ok tok mid) (hkind : tok.kind ≠ .endOfInput)
    (h : Runs (k tok) mid (fun b us => R b (tok :: us)) fun us => B (tok :: us)) :
    Runs (Lexer.next >>= k) cur R B := by
  refine runs_next_bind fun tok' mid' hscan' => ?_
  rw [hscan] at hscan'
  cases hscan'
  exact .go hkind h

/-- A token of the given kind is taken, and another one is refused. -/
lemma runs_expect_bind {kind : Token.Kind} (hkind : kind ≠ .endOfInput) {k : Token → Parser β}
    (hok : ∀ tok mid, cur.scan = .ok tok mid → tok.kind = kind →
      Runs (k tok) mid (fun b us => R b (tok :: us)) fun us => B (tok :: us))
    (hbad : ∀ tok mid, cur.scan = .ok tok mid → tok.kind ≠ kind →
      B [] tok (.expectedKind kind tok.kind)) : Runs (expect kind >>= k) cur R B := by
  rw [expect, bind_assoc]
  refine runs_next_bind fun tok mid hscan => ?_
  by_cases h : tok.kind = kind
  · rw [if_pos h, pure_bind]
    exact .go (h ▸ hkind) (hok tok mid hscan h)
  · rw [if_neg h]
    exact .refuse _ (hbad tok mid hscan h)

/-- A token that is known to come next is the expected one. -/
lemma runs_expect_taken {kind : Token.Kind} {tok : Token} {mid : Cursor} {k : Token → Parser β}
    (hscan : cur.scan = .ok tok mid) (htok : tok.kind = kind) (hkind : kind ≠ .endOfInput)
    (h : Runs (k tok) mid (fun b us => R b (tok :: us)) fun us => B (tok :: us)) :
    Runs (expect kind >>= k) cur R B := by
  rw [expect, bind_assoc]
  refine runs_take hscan (htok ▸ hkind) ?_
  rw [if_pos htok, pure_bind]
  exact h

/-- A name is taken, and another token is refused. -/
lemma runs_expectName_bind {role : NameRole} {k : String → Parser β}
    (hok : ∀ tok mid name, cur.scan = .ok tok mid → tok.kind = .identifier name →
      Runs (k name) mid (fun b us => R b (tok :: us)) fun us => B (tok :: us))
    (hbad : ∀ tok mid, cur.scan = .ok tok mid → (∀ name, tok.kind ≠ .identifier name) →
      B [] tok (.expectedName role tok.kind)) : Runs (expectName role >>= k) cur R B := by
  rw [expectName, bind_assoc]
  refine runs_next_bind fun tok mid hscan => ?_
  split
  · rename_i name h
    rw [pure_bind]
    exact .go (by simp [h]) (hok tok mid name hscan h)
  · rename_i h
    exact .refuse _ (hbad tok mid hscan h)

lemma runs_expectName {role : NameRole} {Q : String → List Token → Cursor → Prop}
    (hok : ∀ tok mid name, cur.scan = .ok tok mid → tok.kind = .identifier name →
      Q name [tok] mid)
    (hbad : ∀ tok mid, cur.scan = .ok tok mid → (∀ name, tok.kind ≠ .identifier name) →
      B [] tok (.expectedName role tok.kind)) : Runs (expectName role) cur Q B := by
  rw [← bind_pure (expectName role)]
  refine runs_expectName_bind (fun tok mid name hscan hk => ?_) hbad
  exact runs_pure (hok tok mid name hscan hk)

end Runs

end Parser

end ClosureCalc
