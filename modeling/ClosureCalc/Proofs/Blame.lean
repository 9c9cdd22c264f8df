/-
Tokens to blame.

When a reader refuses a token, that token is to blame and the tokens before it
are not: wherever the same tokens come, it is refused in the same way, and the
tokens before it can be continued to a whole phrase.

* `Filler`: the kinds of tokens that phrases are completed with.
* `Viable`: some tokens can be continued to a phrase.
* `Blame`: a token is to blame for a fault, within every budget that lasts for
  the tokens before it.
* One lemma for each place in the parser where a token is refused, and for each
  place where the reader of a part refuses one.
-/
import ClosureCalc.Proofs.Accepts

namespace ClosureCalc

namespace Grammar

open ClosureCalc.Parser

/-! ### Completions -/

/-- The kinds of tokens that phrases are completed with. -/
inductive Filler : Token.Kind → Prop where
  | name : Filler (.identifier "x")
  | symbol (s : Symbol) : Filler (.symbol s)

/-- Tokens of the given kinds, at any places, complete some tokens to a phrase. -/
def Completes (kinds : List Token.Kind) (P : List Token → Prop) (ts : List Token) : Prop :=
  ∀ fill : List Token, fill.map Token.kind = kinds → P (ts ++ fill)

/-- **Some tokens can be continued** to a phrase. -/
def Viable (P : List Token → Prop) (ts : List Token) : Prop :=
  ∃ kinds : List Token.Kind, (∀ kind ∈ kinds, Filler kind) ∧ Completes kinds P ts

section Viable

variable {P Q : List Token → Prop} {ts : List Token} {kinds kinds' : List Token.Kind}

lemma completes_nil (h : P ts) : Completes [] P ts := by
  intro fill hfill
  rw [List.map_eq_nil_iff.1 hfill, List.append_nil]
  exact h

lemma Completes.cons {kind : Token.Kind}
    (h : ∀ tok : Token, tok.kind = kind → Completes kinds P (ts ++ [tok])) :
    Completes (kind :: kinds) P ts := by
  intro fill hfill
  obtain ⟨tok, rest, rfl, htok, hrest⟩ := List.map_eq_cons_iff.1 hfill
  have hphrase := h tok htok rest hrest
  rwa [List.append_assoc] at hphrase

/-- A part is completed first, and then the whole. -/
lemma Completes.append (pre : List Token) (h : Completes kinds P ts)
    (hpq : ∀ us, P us → Completes kinds' Q (pre ++ us)) :
    Completes (kinds ++ kinds') Q (pre ++ ts) := by
  intro fill hfill
  obtain ⟨fill₁, fill₂, rfl, h₁, h₂⟩ := List.map_eq_append_iff.1 hfill
  have hphrase := hpq _ (h fill₁ h₁) fill₂ h₂
  simpa only [List.append_assoc] using hphrase

lemma viable_of_completes (kinds : List Token.Kind) (hkinds : ∀ kind ∈ kinds, Filler kind)
    (h : Completes kinds P ts) : Viable P ts :=
  ⟨kinds, hkinds, h⟩

lemma Viable.append (pre : List Token) (h : Viable P ts) (kinds : List Token.Kind)
    (hkinds : ∀ kind ∈ kinds, Filler kind)
    (hpq : ∀ us, P us → Completes kinds Q (pre ++ us)) : Viable Q (pre ++ ts) := by
  obtain ⟨kinds', hkinds', hts⟩ := h
  refine ⟨kinds' ++ kinds, fun kind hkind => ?_, hts.append pre hpq⟩
  exact (List.mem_append.1 hkind).elim (hkinds' kind) (hkinds kind)

/-- Nothing needs to be added. -/
lemma viable_nil (h : P ts) : Viable P ts :=
  viable_of_completes [] (by simp) (completes_nil h)

/-- A part that completes the whole. -/
lemma Viable.map (pre : List Token) (h : Viable P ts) (hpq : ∀ us, P us → Q (pre ++ us)) :
    Viable Q (pre ++ ts) := by
  refine h.append pre [] (by simp) fun us hus => completes_nil (hpq us hus)

end Viable

/-! ### Phrases in front of any token that ends them -/

/-- Some tokens are a primary expression. -/
def IsPrimary (ts : List Token) : Prop := ∃ e, Primary ts e

/-- Some tokens are an operand. -/
def IsOperand (ts : List Token) : Prop := ∀ next, Stops next → ∃ e, Operand ts next e

/-- Some tokens are a row of operands. -/
def IsRow (ts : List Token) : Prop := ∀ next, Stops next → ∃ e, Row ts next e

/-- Some tokens are a statement. -/
def IsStatement (ts : List Token) : Prop := ∀ next, Closes next → ∃ st, Statement ts next st

/-- Some tokens are a sequence of statements. -/
def IsSequence (ts : List Token) : Prop := ∀ next, Closes next → ∃ body, Sequence ts next body

/-- **A token is to blame** for a fault of a reader with two budgets: within all
budgets that last for the tokens in front of it, it is refused behind them with
the same fault, and these tokens can be continued to a phrase. -/
structure Blame {α : Type} (x : Nat → Nat → Parser α) (P : List Token → Prop) (ts : List Token)
    (tok : Token) (fault : ParseFault) : Prop where
  again : ∀ n m, ts.length ≤ n → ts.length ≤ m →
    (x n m).Answers (ts ++ [tok]) (.error (.parse fault tok.pos))
  viable : Viable P ts

/-! ### Lists -/

section Lists

variable {α : Type} {item : Nat → Parser α} {I : List Token → Token → α → Prop}
variable {wrong : Token.Kind → ParseFault} {ts us : List Token} {tok c : Token}
variable {fault : ParseFault} {a : α}

/-- Some tokens are an item of a list. -/
def IsItem (I : List Token → Token → α → Prop) (ts : List Token) : Prop :=
  ∀ next, Stops next → ∃ a, I ts next a

/-- Some tokens are items and the parenthesis behind them. -/
def IsItems (I : List Token → Token → α → Prop) (ts : List Token) : Prop := ∃ as, Items I ts as

/-- Some tokens are a list, up to its closing parenthesis. -/
def IsListing (I : List Token → Token → α → Prop) (ts : List Token) : Prop :=
  ∃ as, Listing I ts as

/-- The tokens to blame in a list that is not empty. -/
abbrev BlamesItems (item : Nat → Parser α) (wrong : Token.Kind → ParseFault)
    (I : List Token → Token → α → Prop) : List Token → Token → ParseFault → Prop :=
  Blame (fun n m => items (item n) wrong (m + 1)) (IsItems I)

/-- The tokens to blame in a list. -/
abbrev BlamesListing (item : Nat → Parser α) (wrong : Token.Kind → ParseFault)
    (I : List Token → Token → α → Prop) : List Token → Token → ParseFault → Prop :=
  Blame (fun n m => itemsOrNone (item n) wrong (m + 1)) (IsListing I)

/-- A token in the first item of a list. -/
lemma blames_items_first (h : Blame (fun n _ => item n) (IsItem I) us tok fault) :
    BlamesItems item wrong I us tok fault := by
  refine ⟨fun n m hn hm => (h.again n m hn hm).bind_error, ?_⟩
  refine h.viable.append [] [.symbol .rightParen] (by simp [Filler.symbol]) ?_
  intro vs hvs
  refine .cons fun r hr => completes_nil ?_
  obtain ⟨a, ha⟩ := hvs r (stops_rightParen hr)
  exact ⟨[a], .last ha hr⟩

/-- A token in place of a comma or a closing parenthesis. -/
lemma blames_items_separator (hitem : ∀ n, (item n).Accepts (n + 1) I)
    (hbefore : ∀ ts next next' a, Stops next' → I ts next a → I ts next' a) (h : I ts tok a)
    (hcomma : tok.kind ≠ .symbol .comma) (hclose : tok.kind ≠ .symbol .rightParen) :
    BlamesItems item wrong I ts tok (wrong tok.kind) := by
  refine ⟨fun n m hn hm => ?_, ?_⟩
  · refine answers_item (hitem n) h (Nat.le_succ_of_le hn) ?_
    split
    · rename_i hk
      exact absurd hk hcomma
    · rename_i hk
      exact absurd hk hclose
    · exact answers_refuse _
  · refine viable_of_completes [.symbol .rightParen] (by simp [Filler.symbol]) ?_
    refine .cons fun r hr => completes_nil ?_
    exact ⟨[a], .last (hbefore ts tok r a (stops_rightParen hr) h) hr⟩

/-- A token behind a comma. -/
lemma blames_items_rest (hitem : ∀ n, (item n).Accepts (n + 1) I) (h : I ts c a)
    (hc : c.kind = .symbol .comma) (hrest : BlamesItems item wrong I us tok fault) :
    BlamesItems item wrong I (ts ++ c :: us) tok fault := by
  refine ⟨fun n m hn hm => ?_, ?_⟩
  · rw [List.length_append, List.length_cons] at hn hm
    obtain ⟨m, rfl⟩ := Nat.exists_eq_succ_of_ne_zero (n := m) (by omega)
    rw [List.append_assoc, List.cons_append]
    refine answers_item (hitem n) h (by omega) ?_
    rw [hc]
    exact (hrest.again n m (by omega) (by omega)).bind_error
  · rw [List.append_cons]
    refine hrest.viable.map (ts ++ [c]) ?_
    rintro vs ⟨as, hvs⟩
    refine ⟨a :: as, ?_⟩
    rw [← List.append_cons]
    exact .more h hc hvs

/-- A token in a list that is not empty. -/
lemma blames_listing (hfirst : (us.headD tok).kind ≠ .symbol .rightParen)
    (h : BlamesItems item wrong I us tok fault) : BlamesListing item wrong I us tok fault := by
  refine ⟨fun n m hn hm => ?_, ?_⟩
  · have hanswer := h.again n m hn hm
    rw [append_cons_eq_headD] at hanswer ⊢
    exact (answers_isNext_false hfirst).bind hanswer
  · refine h.viable.map [] ?_
    rintro vs ⟨as, hvs⟩
    exact ⟨as, .some hvs⟩

end Lists

/-! ### Expressions -/

section Expressions

variable {ts us : List Token} {tok l : Token} {fault : ParseFault} {e : Expr}

/-- The tokens to blame in a primary expression. -/
abbrev BlamesPrimary : List Token → Token → ParseFault → Prop :=
  Blame (fun n _ => primary (expressionWithin n)) IsPrimary

/-- The tokens to blame in a primary expression with its arguments. -/
abbrev BlamesApplication : List Token → Token → ParseFault → Prop :=
  Blame (fun n _ => application (expressionWithin n) (n + 1)) IsOperand

/-- The tokens to blame in an operand. -/
abbrev BlamesOperand : List Token → Token → ParseFault → Prop :=
  Blame (fun n m => operand (expressionWithin n) (n + 1) (m + 1)) IsOperand

/-- The tokens to blame in an expression. -/
abbrev BlamesExpression : List Token → Token → ParseFault → Prop :=
  Blame (fun n _ => expressionWithin (n + 1)) IsRow

/-- The fault of a token that begins no primary expression. -/
def primaryFault : Token.Kind → ParseFault
  | .unexpected c => .unexpectedChar c
  | kind => .expectedExpression kind

lemma answers_primary_error {expr : Parser Expr} (h : beginsPrimary tok.kind = false) :
    (primary expr).Answers (tok :: ts) (.error (.parse (primaryFault tok.kind) tok.pos)) := by
  refine answers_next.bind ?_
  cases hk : tok.kind with
  | identifier name =>
    rw [hk] at h
    cases h
  | number value =>
    rw [hk] at h
    cases h
  | symbol s =>
    rw [hk] at h
    cases s <;> first | exact answers_refuse _ | cases h
  | keyword k => exact answers_refuse _
  | unexpected c => exact answers_refuse _
  | endOfInput => exact answers_refuse _

/-- A token that begins no primary expression. -/
lemma blames_primary_first (h : beginsPrimary tok.kind = false) :
    BlamesPrimary [] tok (primaryFault tok.kind) := by
  refine ⟨fun n _ _ _ => answers_primary_error h, ?_⟩
  refine viable_of_completes [.identifier "x"] (by simp [Filler.name]) ?_
  exact .cons fun x hx => completes_nil ⟨_, .identifier hx⟩

/-- A token inside parentheses. -/
lemma blames_primary_inner (hl : l.kind = .symbol .leftParen) (h : BlamesExpression us tok fault) :
    BlamesPrimary (l :: us) tok fault := by
  refine ⟨fun n m hn hm => ?_, ?_⟩
  · rw [List.length_cons] at hn hm
    obtain ⟨n, rfl⟩ := Nat.exists_eq_succ_of_ne_zero (n := n) (by omega)
    refine answers_next.bind ?_
    rw [hl]
    exact (h.again n m (by omega) (by omega)).bind_error
  · refine h.viable.append [l] [.symbol .rightParen] (by simp [Filler.symbol]) ?_
    intro vs hvs
    refine .cons fun r hr => completes_nil ?_
    obtain ⟨e, he⟩ := hvs r (stops_rightParen hr)
    exact ⟨e, .parens hl he hr⟩

/-- A token in place of a closing parenthesis. -/
lemma blames_primary_close (hl : l.kind = .symbol .leftParen) (h : Expression us tok e)
    (htok : tok.kind ≠ .symbol .rightParen) :
    BlamesPrimary (l :: us) tok (.expectedKind (.symbol .rightParen) tok.kind) := by
  refine ⟨fun n m hn hm => ?_, ?_⟩
  · rw [List.length_cons] at hn
    refine answers_next.bind ?_
    rw [hl]
    have hinner := accepts_expressionWithin n us tok e [] h (by omega)
    exact hinner.bind (answers_expect_error htok).bind_error
  · refine viable_of_completes [.symbol .rightParen] (by simp [Filler.symbol]) ?_
    refine .cons fun r hr => completes_nil ?_
    have hrow : Row us r e := h.row.before (stops_rightParen hr).noCall
    exact ⟨e, .parens hl hrow hr⟩

/-- A token in a primary expression, which may be called or not. -/
lemma blames_application_callee (h : BlamesPrimary ts tok fault) :
    BlamesApplication ts tok fault := by
  refine ⟨fun n m hn hm => (h.again n m hn hm).bind_error, ?_⟩
  refine h.viable.map [] ?_
  rintro us ⟨e, he⟩ next hnext
  exact ⟨e, .bare he hnext.noCall⟩

/-- A token in an argument list. -/
lemma blames_application_args (h : Primary ts e) (hl : l.kind = .symbol .leftParen)
    (hargs : BlamesListing (fun n => expressionWithin (n + 1)) .afterArgument Expression
      us tok fault) : BlamesApplication (ts ++ l :: us) tok fault := by
  refine ⟨fun n m hn hm => ?_, ?_⟩
  · rw [List.length_append, List.length_cons] at hn
    obtain ⟨n, rfl⟩ := Nat.exists_eq_succ_of_ne_zero (n := n) (by omega)
    rw [List.append_assoc, List.cons_append]
    have hcallee := accepts_primary (accepts_expressionWithin (n + 1)) ts l e (us ++ [tok]) h
      (by omega)
    refine hcallee.bind ((answers_isNext_true hl).bind (answers_next.bind ?_))
    exact (hargs.again n (n + 1) (by omega) (by omega)).bind_error
  · rw [List.append_cons]
    refine hargs.viable.map (ts ++ [l]) ?_
    rintro vs ⟨es, hvs⟩ next hnext
    refine ⟨.call e.pos e es, ?_⟩
    rw [← List.append_cons]
    exact .call h hl (hvs.mono fun _ _ _ he => he.row)

/-- A token in an application that is an operand. -/
lemma blames_operand_application (hfirst : unaryOp? (us.headD tok).kind = none)
    (h : BlamesApplication us tok fault) : BlamesOperand us tok fault := by
  refine ⟨fun n m hn hm => ?_, h.viable⟩
  have hanswer := h.again n m hn hm
  rw [append_cons_eq_headD] at hanswer ⊢
  refine answers_peek.bind ?_
  rw [hfirst]
  exact hanswer

/-- A token between bars. -/
lemma blames_operand_inner (hl : l.kind = .symbol .bar) (h : BlamesExpression us tok fault) :
    BlamesOperand (l :: us) tok fault := by
  refine ⟨fun n m hn hm => ?_, ?_⟩
  · rw [List.length_cons] at hn
    obtain ⟨n, rfl⟩ := Nat.exists_eq_succ_of_ne_zero (n := n) (by omega)
    refine answers_peek.bind ?_
    rw [hl]
    exact answers_next.bind (h.again n n (by omega) (by omega)).bind_error
  · refine h.viable.append [l] [.symbol .bar] (by simp [Filler.symbol]) ?_
    intro vs hvs
    refine .cons fun r hr => completes_nil fun next _ => ?_
    obtain ⟨e, he⟩ := hvs r (stops_bar hr)
    exact ⟨_, .bars hl he hr⟩

/-- A token in place of a closing bar. -/
lemma blames_operand_close (hl : l.kind = .symbol .bar) (h : Expression us tok e)
    (htok : tok.kind ≠ .symbol .bar) :
    BlamesOperand (l :: us) tok (.expectedKind (.symbol .bar) tok.kind) := by
  refine ⟨fun n m hn hm => ?_, ?_⟩
  · rw [List.length_cons] at hn
    refine answers_peek.bind ?_
    rw [hl]
    have hinner := accepts_expressionWithin n us tok e [] h (by omega)
    exact answers_next.bind (hinner.bind (answers_expect_error htok).bind_error)
  · refine viable_of_completes [.symbol .bar] (by simp [Filler.symbol]) ?_
    refine .cons fun r hr => completes_nil fun next _ => ?_
    have hrow : Row us r e := h.row.before (stops_bar hr).noCall
    exact ⟨_, .bars hl hrow hr⟩

/-- A token behind a prefix operator. -/
lemma blames_operand_sign {op : UnaryOp} (hop : unaryOp? l.kind = some op)
    (hsign : op ≠ .absolute) (h : BlamesOperand us tok fault) :
    BlamesOperand (l :: us) tok fault := by
  refine ⟨fun n m hn hm => ?_, ?_⟩
  · rw [List.length_cons] at hn hm
    obtain ⟨m, rfl⟩ := Nat.exists_eq_succ_of_ne_zero (n := m) (by omega)
    have hanswer := h.again n m (by omega) (by omega)
    refine answers_peek.bind ?_
    rw [hop]
    cases op with
    | absolute => exact absurd rfl hsign
    | identity => exact answers_next.bind hanswer.bind_error
    | negate => exact answers_next.bind hanswer.bind_error
  · refine h.viable.map [l] ?_
    intro vs hvs next hnext
    obtain ⟨e, he⟩ := hvs next hnext
    exact ⟨_, .sign hop hsign he⟩

/-- A token in the first operand of an expression. -/
lemma blames_expression_first (h : BlamesOperand us tok fault) :
    BlamesExpression us tok fault := by
  refine ⟨fun n m hn hm => (h.again n n hn hn).bind_error, ?_⟩
  refine h.viable.map [] ?_
  intro vs hvs next hnext
  obtain ⟨e, he⟩ := hvs next hnext
  exact ⟨e, .one he⟩

/-- A token in an operand behind an infix operator. -/
lemma blames_expression_right {op : BinaryOp} (h : Row ts l e)
    (hop : binaryOp? l.kind = some op) (hright : BlamesOperand us tok fault) :
    BlamesExpression (ts ++ l :: us) tok fault := by
  refine ⟨fun n m hn hm => ?_, ?_⟩
  · rw [List.length_append, List.length_cons] at hn
    have hunit := accepts_operand (accepts_expressionWithin n)
    obtain ⟨k, hk, hrow⟩ := h.answers hunit (us ++ [tok]) (by omega)
    obtain ⟨j, hj⟩ : ∃ j, n = j + k := ⟨n - k, by omega⟩
    have hchain : (chain (operand (expressionWithin n) (n + 1) (n + 1)) (j + 1) e).Answers
        (l :: (us ++ [tok])) (.error (.parse fault tok.pos)) := by
      refine answers_peek.bind ?_
      rw [hop]
      exact answers_next.bind (hright.again n n (by omega) (by omega)).bind_error
    have hanswer := hrow (j + 1) _ hchain
    rw [Nat.add_right_comm, ← hj] at hanswer
    rw [List.append_assoc, List.cons_append]
    exact hanswer
  · rw [List.append_cons]
    refine hright.viable.map (ts ++ [l]) ?_
    intro vs hvs next hnext
    obtain ⟨r, hr⟩ := hvs next hnext
    refine ⟨.binary e.pos op e r, ?_⟩
    rw [← List.append_cons]
    exact .more h hop hr

end Expressions

/-! ### Sequences of statements -/

section Sequences

variable {ss ts us : List Token} {tok : Token} {fault : ParseFault} {st : Stmt}

/-- The tokens to blame in a statement. -/
abbrev BlamesStatement : List Token → Token → ParseFault → Prop :=
  Blame (fun n _ => statementWithin (n + 1)) IsStatement

/-- The tokens to blame in a loop over statements. -/
abbrev BlamesLoop (loop : Nat → Nat → Parser (List Stmt)) :
    List Token → Token → ParseFault → Prop :=
  Blame (fun n m => loop n (m + 1)) IsSequence

/-- The tokens to blame in a block, behind its brace. -/
abbrev BlamesBody : List Token → Token → ParseFault → Prop :=
  BlamesLoop fun n => blockRest (statementWithin (n + 1))

/-- The tokens to blame in a whole text. -/
abbrev BlamesStatements : List Token → Token → ParseFault → Prop :=
  BlamesLoop fun n => statements (statementWithin (n + 1))

/-- Semicolons can be followed by any token that closes a sequence. -/
lemma viable_sequence_nil (hss : ∀ s ∈ ss, s.kind = .symbol .semicolon) :
    Viable IsSequence ss :=
  viable_nil fun _ _ => ⟨[], .nil hss⟩

lemma viable_sequence_first (hss : ∀ s ∈ ss, s.kind = .symbol .semicolon)
    (h : Viable IsStatement us) : Viable IsSequence (ss ++ us) := by
  refine h.map ss ?_
  intro vs hvs next hnext
  obtain ⟨st, hst⟩ := hvs next hnext
  have hseq : Sequence (ss ++ (vs ++ [])) next [st] := .cons hss hst (.nil (by simp))
  rw [List.append_nil] at hseq
  exact ⟨[st], hseq⟩

/-- Behind a statement nothing is needed. But if there are tokens behind it, the
first of them is where the statement ends, and they are continued. -/
lemma viable_sequence_rest (hss : ∀ s ∈ ss, s.kind = .symbol .semicolon)
    (h : Statement ts (us.headD tok) st) (hrest : Viable IsSequence us) :
    Viable IsSequence (ss ++ (ts ++ us)) := by
  cases us with
  | nil =>
    refine viable_nil fun next hnext => ?_
    exact ⟨[st], .cons hss (h.before hnext.ends) (.nil (by simp))⟩
  | cons u us =>
    obtain ⟨kinds, hkinds, hfill⟩ := hrest
    refine ⟨kinds, hkinds, fun fill hmap next hnext => ?_⟩
    obtain ⟨body, hbody⟩ := hfill fill hmap next hnext
    rw [List.append_assoc, List.append_assoc]
    exact ⟨st :: body, .cons hss h hbody⟩

/-- The end of the text inside a block. -/
lemma blames_body_unclosed (hss : ∀ s ∈ ss, s.kind = .symbol .semicolon)
    (htok : tok.kind = .endOfInput) : BlamesBody ss tok .unclosedBlock := by
  refine ⟨fun n m hn hm => ?_, viable_sequence_nil hss⟩
  have hsemi : tok.kind ≠ .symbol .semicolon := by rw [htok]; simp
  have hsep := answers_separators [] hss hsemi (m + 1) (Nat.lt_succ_of_le hm)
  refine hsep.bind (answers_peek.bind ?_)
  rw [if_pos htok]
  exact answers_refuse _

variable {loop : Nat → Nat → Parser (List Stmt)} {ends : Token.Kind → Prop}

/-- A token in the next statement of a loop. -/
lemma blames_loop_first (hloop : ∀ n, Loops ends (statementWithin (n + 1)) (loop n))
    (hss : ∀ s ∈ ss, s.kind = .symbol .semicolon) (hsemi : (us.headD tok).kind ≠ .symbol .semicolon)
    (hends : ¬ ends (us.headD tok).kind) (h : BlamesStatement us tok fault) :
    BlamesLoop loop (ss ++ us) tok fault := by
  refine ⟨fun n m hn hm => ?_, viable_sequence_first hss h.viable⟩
  rw [List.length_append] at hn hm
  have hanswer := (h.again n m (by omega) (by omega)).bind_error
    (k := fun st => do return st :: (← loop n m))
  rw [append_cons_eq_headD] at hanswer
  rw [List.append_assoc, append_cons_eq_headD]
  exact hloop n m ss _ _ _ hss (by omega) hsemi hends hanswer

/-- A token behind the next statement of a loop. -/
lemma blames_loop_rest (hloop : ∀ n, Loops ends (statementWithin (n + 1)) (loop n))
    (hends : ∀ kind, ends kind → beginsStatement kind = false)
    (hss : ∀ s ∈ ss, s.kind = .symbol .semicolon) (h : Statement ts (us.headD tok) st)
    (hrest : BlamesLoop loop us tok fault) : BlamesLoop loop (ss ++ (ts ++ us)) tok fault := by
  refine ⟨fun n m hn hm => ?_, viable_sequence_rest hss h hrest.viable⟩
  rw [List.length_append, List.length_append] at hn hm
  have hpos := h.begins.length_pos
  obtain ⟨m, rfl⟩ := Nat.exists_eq_succ_of_ne_zero (n := m) (by omega)
  have hlater := (hrest.again n m (by omega) (by omega)).bind_error
    (k := fun body => (pure (st :: body) : Parser (List Stmt)))
  rw [List.append_assoc, List.append_assoc]
  exact (hloop n).answers_cons hends (accepts_statementWithin (n + 1)) hss h (by omega) (by omega)
    hlater

end Sequences

/-! ### Statements -/

section Statements

variable {ts us ps : List Token} {tok : Token} {fault : ParseFault} {e : Expr}
variable {name : String}

section Var

variable {v x q : Token}

/-- A token in place of the name of a variable. -/
lemma blames_var_name (hv : v.kind = .keyword .var) (htok : ∀ name, tok.kind ≠ .identifier name) :
    BlamesStatement [v] tok (.expectedName .ofVariable tok.kind) := by
  refine ⟨fun n m hn hm => ?_, ?_⟩
  · refine answers_keyword hv ?_
    exact (answers_expect hv).bind (answers_expectName_error _ htok).bind_error
  · refine viable_of_completes [.identifier "x"] (by simp [Filler.name]) ?_
    refine .cons fun x hx => completes_nil fun next hnext => ?_
    exact ⟨_, .var hv hx hnext.ne_equal⟩

/-- A token in the initial value of a variable. -/
lemma blames_var_init (hv : v.kind = .keyword .var) (hx : x.kind = .identifier name)
    (hq : q.kind = .symbol .equal) (h : BlamesExpression us tok fault) :
    BlamesStatement (v :: x :: q :: us) tok fault := by
  refine ⟨fun n m hn hm => ?_, ?_⟩
  · simp only [List.length_cons] at hn hm
    refine answers_keyword hv ?_
    refine (answers_expect hv).bind ((answers_expectName _ hx).bind ?_)
    refine (answers_isNext_true hq).bind (answers_next.bind ?_)
    exact (h.again n m (by omega) (by omega)).bind_error
  · refine h.viable.map [v, x, q] ?_
    intro vs hvs next hnext
    obtain ⟨e, he⟩ := hvs next hnext.stops
    exact ⟨_, .varInit hv hx hq ⟨he, hnext.stops.noOperator⟩⟩

end Var

/-- A token in the value of a `return`. If it is the first token of the value,
the `return` can do without. -/
lemma blames_ret_value {r : Token} (hr : r.kind = .keyword .ret)
    (hvalue : BeginsValue r (us.headD tok)) (h : BlamesExpression us tok fault) :
    BlamesStatement (r :: us) tok fault := by
  refine ⟨fun n m hn hm => ?_, ?_⟩
  · rw [List.length_cons] at hn
    have hanswer := h.again n n (by omega) (by omega)
    refine answers_keyword hr ((answers_expect hr).bind ?_)
    rw [List.append_eq, append_cons_eq_headD]
    refine answers_peek.bind ?_
    rw [if_pos ⟨hvalue.1, by simpa using hvalue.2⟩, ← append_cons_eq_headD]
    exact hanswer.bind_error
  · cases us with
    | nil => exact viable_nil fun next hnext => ⟨_, .ret hr (hnext.not_beginsValue r)⟩
    | cons u us =>
      obtain ⟨kinds, hkinds, hfill⟩ := h.viable
      refine ⟨kinds, hkinds, fun fill hmap next hnext => ?_⟩
      obtain ⟨e, he⟩ := hfill fill hmap next hnext.stops
      exact ⟨_, .retValue hr hvalue ⟨he, hnext.stops.noOperator⟩⟩

section Func

variable {f x lp lb : Token} {params : List String}

/-- The body of a function can be empty. -/
lemma completes_body (hf : f.kind = .keyword .func) (hx : x.kind = .identifier name)
    (hlp : lp.kind = .symbol .leftParen) (hps : Listing Param ps params) :
    Completes [.symbol .leftBrace, .symbol .rightBrace] IsStatement ([f, x, lp] ++ ps) := by
  refine .cons fun lb hlb => .cons fun rb hrb => completes_nil fun next _ => ?_
  have hbody : Sequence [] rb [] := .nil (by simp)
  have hfunc : Statement (f :: x :: lp :: (ps ++ lb :: ([] ++ [rb]))) next
      (.func f.pos name params lb.pos []) := .func hf hx hlp hps hlb hbody hrb
  exact ⟨_, by simpa using hfunc⟩

/-- The parameters of a function can be none. -/
lemma completes_params (hf : f.kind = .keyword .func) (hx : x.kind = .identifier name) :
    Completes [.symbol .leftParen, .symbol .rightParen, .symbol .leftBrace, .symbol .rightBrace]
      IsStatement [f, x] :=
  .cons fun _ hlp => .cons fun _ hrp => completes_body hf hx hlp (.none hrp)

/-- The name of a function can be any name. -/
lemma completes_name (hf : f.kind = .keyword .func) :
    Completes [.identifier "x", .symbol .leftParen, .symbol .rightParen, .symbol .leftBrace,
      .symbol .rightBrace] IsStatement [f] :=
  .cons fun _ hx => completes_params hf hx

/-- A token in place of the name of a function. -/
lemma blames_func_name (hf : f.kind = .keyword .func) (htok : ∀ name, tok.kind ≠ .identifier name) :
    BlamesStatement [f] tok (.expectedName .ofFunction tok.kind) := by
  refine ⟨fun n m hn hm => ?_, ?_⟩
  · refine answers_keyword hf ?_
    exact (answers_expect hf).bind (answers_expectName_error _ htok).bind_error
  · exact viable_of_completes _ (by simp [Filler.name, Filler.symbol]) (completes_name hf)

/-- A token in place of the parenthesis in front of the parameters. -/
lemma blames_func_paren (hf : f.kind = .keyword .func) (hx : x.kind = .identifier name)
    (htok : tok.kind ≠ .symbol .leftParen) :
    BlamesStatement [f, x] tok (.expectedKind (.symbol .leftParen) tok.kind) := by
  refine ⟨fun n m hn hm => ?_, ?_⟩
  · refine answers_keyword hf ?_
    refine (answers_expect hf).bind ((answers_expectName _ hx).bind ?_)
    exact (answers_expect_error htok).bind_error
  · exact viable_of_completes _ (by simp [Filler.symbol]) (completes_params hf hx)

/-- A token among the parameters. -/
lemma blames_func_params (hf : f.kind = .keyword .func) (hx : x.kind = .identifier name)
    (hlp : lp.kind = .symbol .leftParen)
    (h : BlamesListing (fun _ => expectName .ofParameter) .afterParameter Param us tok fault) :
    BlamesStatement (f :: x :: lp :: us) tok fault := by
  refine ⟨fun n m hn hm => ?_, ?_⟩
  · simp only [List.length_cons] at hn hm
    refine answers_keyword hf ?_
    refine (answers_expect hf).bind ((answers_expectName _ hx).bind ((answers_expect hlp).bind ?_))
    exact (h.again n n (by omega) (by omega)).bind_error
  · refine h.viable.append [f, x, lp] [.symbol .leftBrace, .symbol .rightBrace]
      (by simp [Filler.symbol]) ?_
    rintro vs ⟨params, hvs⟩
    exact completes_body hf hx hlp hvs

/-- What is answered behind the parameters of a function. -/
lemma answers_func_params {n : Nat} {out : Except Error (Stmt × List Token)}
    (hf : f.kind = .keyword .func) (hx : x.kind = .identifier name)
    (hlp : lp.kind = .symbol .leftParen) (hps : Listing Param ps params) (hn : ps.length ≤ n)
    (h : Answers (do
      let (bodyPos, body) ← block (statementWithin n) (n + 1)
      return .func f.pos name params bodyPos body) us out) :
    (statementWithin (n + 1)).Answers (f :: x :: lp :: (ps ++ us)) out := by
  refine answers_keyword hf ?_
  refine (answers_expect hf).bind ((answers_expectName _ hx).bind ((answers_expect hlp).bind ?_))
  exact (answers_params hps hn).bind h

/-- A token in place of the brace in front of the body. -/
lemma blames_func_brace (hf : f.kind = .keyword .func) (hx : x.kind = .identifier name)
    (hlp : lp.kind = .symbol .leftParen) (hps : Listing Param ps params)
    (htok : tok.kind ≠ .symbol .leftBrace) :
    BlamesStatement (f :: x :: lp :: ps) tok (.expectedKind (.symbol .leftBrace) tok.kind) := by
  refine ⟨fun n m hn hm => ?_, ?_⟩
  · simp only [List.length_cons] at hn hm
    refine answers_func_params hf hx hlp hps (by omega) ?_
    exact (answers_expect_error htok).bind_error.bind_error
  · exact viable_of_completes _ (by simp [Filler.symbol]) (completes_body hf hx hlp hps)

/-- A token in the body of a function. -/
lemma blames_func_body (hf : f.kind = .keyword .func) (hx : x.kind = .identifier name)
    (hlp : lp.kind = .symbol .leftParen) (hps : Listing Param ps params)
    (hlb : lb.kind = .symbol .leftBrace) (h : BlamesBody us tok fault) :
    BlamesStatement (f :: x :: lp :: (ps ++ lb :: us)) tok fault := by
  refine ⟨fun n m hn hm => ?_, ?_⟩
  · simp only [List.length_cons, List.length_append] at hn hm
    obtain ⟨n, rfl⟩ := Nat.exists_eq_succ_of_ne_zero (n := n) (by omega)
    rw [List.cons_append, List.cons_append, List.cons_append, List.append_assoc, List.cons_append]
    refine answers_func_params hf hx hlp hps (by omega) ?_
    have hbody := h.again n (n + 1) (by omega) (by omega)
    exact ((answers_expect hlb).bind hbody.bind_error).bind_error
  · have hpre : f :: x :: lp :: (ps ++ lb :: us) = (f :: x :: lp :: (ps ++ [lb])) ++ us := by simp
    rw [hpre]
    refine h.viable.append _ [.symbol .rightBrace] (by simp [Filler.symbol]) ?_
    intro vs hvs
    refine .cons fun rb hrb => completes_nil fun next _ => ?_
    obtain ⟨body, hbody⟩ := hvs rb (.inl hrb)
    have hfunc : Statement (f :: x :: lp :: (ps ++ lb :: (vs ++ [rb]))) next
        (.func f.pos name params lb.pos body) := .func hf hx hlp hps hlb hbody hrb
    exact ⟨_, by simpa using hfunc⟩

end Func

/-- A token in a block. -/
lemma blames_block_body {lb : Token} (hlb : lb.kind = .symbol .leftBrace)
    (h : BlamesBody us tok fault) : BlamesStatement (lb :: us) tok fault := by
  refine ⟨fun n m hn hm => ?_, ?_⟩
  · rw [List.length_cons] at hn
    obtain ⟨n, rfl⟩ := Nat.exists_eq_succ_of_ne_zero (n := n) (by omega)
    have hbody := h.again n (n + 1) (by omega) (by omega)
    exact answers_brace hlb ((answers_expect hlb).bind hbody.bind_error).bind_error
  · refine h.viable.append [lb] [.symbol .rightBrace] (by simp [Filler.symbol]) ?_
    intro vs hvs
    refine .cons fun rb hrb => completes_nil fun next _ => ?_
    obtain ⟨body, hbody⟩ := hvs rb (.inl hrb)
    have hblock : Statement (lb :: (vs ++ [rb])) next (.block lb.pos lb.pos body) :=
      .block hlb hbody hrb
    exact ⟨_, by simpa using hblock⟩

/-- A token in a statement that is an expression. -/
lemma blames_expr (hfirst : ∀ kw, (us.headD tok).kind ≠ .keyword kw)
    (hbrace : (us.headD tok).kind ≠ .symbol .leftBrace) (h : BlamesExpression us tok fault) :
    BlamesStatement us tok fault := by
  refine ⟨fun n m hn hm => ?_, ?_⟩
  · have hanswer := h.again n m hn hm
    rw [append_cons_eq_headD] at hanswer ⊢
    exact answers_expr hfirst hbrace hanswer.bind_error
  · refine h.viable.map [] ?_
    intro vs hvs next hnext
    obtain ⟨e, he⟩ := hvs next hnext.stops
    exact ⟨.expr e.pos e, .expr ⟨he, hnext.stops.noOperator⟩⟩

end Statements

end Grammar

end ClosureCalc
