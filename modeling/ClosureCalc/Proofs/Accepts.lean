/-
What the grammar derives, the parser reads.

A reader accepts a phrase if it gives the tree of the phrase wherever the tokens
of the phrase come next, and leaves the tokens behind it. Each reader of the
parser accepts the phrases of its nonterminal that its budget lasts for.

* `Parser.Accepts`: a reader accepts all phrases of at most some length.
* `accepts_primary`, `accepts_operand`, `accepts_expressionWithin`,
  `accepts_statementWithin`: the readers of the parser.
* `Row.answers`: a row is read up to its last operand, whatever comes then.
* `parse_of_sequence`: a text whose tokens form a sequence is parsed.
-/
import ClosureCalc.Proofs.Grammar
import ClosureCalc.Proofs.Stream

namespace ClosureCalc

/-- **A reader accepts** the phrases of at most `n` tokens: it gives the tree of
the phrase and leaves what comes behind it. -/
def Parser.Accepts {α : Type} (x : Parser α) (n : Nat) (I : List Token → Token → α → Prop) : Prop :=
  ∀ ts next a rest, I ts next a → ts.length ≤ n →
    x.Answers (ts ++ next :: rest) (.ok (a, next :: rest))

namespace Grammar

open ClosureCalc.Parser

/-! ### Lists -/

section Lists

variable {α : Type} {item : Parser α} {fault : Token.Kind → ParseFault}
variable {I : List Token → Token → α → Prop} {us rest : List Token} {as : List α}

/-- An item is read together with the token behind it. -/
lemma answers_item {β : Type} {n : Nat} {ts : List Token} {tok : Token} {a : α}
    {k : α → Token → Parser β} {out : Except Error (β × List Token)} (hitem : item.Accepts n I)
    (h : I ts tok a) (hts : ts.length ≤ n) (hk : (k a tok).Answers rest out) :
    (do let first ← item; let tok ← Lexer.next; k first tok).Answers (ts ++ tok :: rest) out :=
  (hitem ts tok a rest h hts).bind (answers_next.bind hk)

lemma Items.answers {n : Nat} (hitem : item.Accepts n I) (h : Items I us as)
    (hn : us.length ≤ n) : ∀ m, us.length ≤ m →
      (items item fault m).Answers (us ++ rest) (.ok (as, rest)) := by
  induction h with
  | @last ts r a h hr =>
    intro m hm
    rw [List.length_append, List.length_singleton] at hn hm
    obtain ⟨m, rfl⟩ := Nat.exists_eq_succ_of_ne_zero (n := m) (by omega)
    rw [List.append_assoc, List.singleton_append]
    refine answers_item hitem h (by omega) ?_
    rw [hr]
    exact answers_pure
  | @more ts us c a as h hc _ ih =>
    intro m hm
    rw [List.length_append, List.length_cons] at hn hm
    obtain ⟨m, rfl⟩ := Nat.exists_eq_succ_of_ne_zero (n := m) (by omega)
    rw [List.append_assoc, List.cons_append]
    refine answers_item hitem h (by omega) ?_
    rw [hc]
    exact (ih (by omega) m (by omega)).bind answers_pure

lemma Items.ne_rightParen {p : Token.Kind → Bool} (hp : p (.symbol .rightParen) = false)
    (hI : ∀ ts next a, I ts next a → Begin p ts) (h : Items I us as) :
    ∃ tok vs, us = tok :: vs ∧ tok.kind ≠ .symbol .rightParen := by
  have hbegin : Begin p us := by
    cases h with
    | last h _ => exact (hI _ _ _ h).append _
    | more h _ _ => exact (hI _ _ _ h).append _
  obtain ⟨tok, vs, rfl, htok⟩ := hbegin
  refine ⟨tok, vs, rfl, fun hk => ?_⟩
  rw [hk, hp] at htok
  cases htok

lemma Listing.answers {p : Token.Kind → Bool} (hp : p (.symbol .rightParen) = false)
    (hI : ∀ ts next a, I ts next a → Begin p ts) {n m : Nat} (hitem : item.Accepts n I)
    (h : Listing I us as) (hn : us.length ≤ n) (hm : us.length ≤ m) :
    (itemsOrNone item fault m).Answers (us ++ rest) (.ok (as, rest)) := by
  cases h with
  | none hr => exact (answers_isNext_true hr).bind (answers_next.bind answers_pure)
  | some h =>
    obtain ⟨tok, vs, rfl, htok⟩ := h.ne_rightParen hp hI
    exact (answers_isNext_false htok).bind (h.answers hitem hn m hm)

/-- The commas and the parenthesis behind the items end each row. -/
lemma Items.expressions {es : List Expr} (h : Items Row us es) : Items Expression us es := by
  induction h with
  | last h hr => exact .last ⟨h, (stops_rightParen hr).noOperator⟩ hr
  | more h hc _ ih => exact .more ⟨h, (stops_comma hc).noOperator⟩ hc ih

lemma Listing.expressions {es : List Expr} (h : Listing Row us es) :
    Listing Expression us es := by
  cases h with
  | none hr => exact .none hr
  | some h => exact .some h.expressions

lemma accepts_expectName (n : Nat) : (expectName .ofParameter).Accepts n Param := by
  intro ts next name rest h _
  cases h with
  | mk h => exact answers_expectName _ h

/-- The parameters of a function. -/
lemma answers_params {ps : List Token} {params : List String} {n : Nat}
    (h : Listing Param ps params) (hn : ps.length ≤ n) :
    (itemsOrNone (expectName .ofParameter) .afterParameter (n + 1)).Answers (ps ++ rest)
      (.ok (params, rest)) := by
  have hbegins : ∀ ts next name, Param ts next name → Begin beginsPrimary ts := by
    rintro ts next name ⟨h⟩
    exact ⟨_, [], rfl, by rw [h]; rfl⟩
  exact h.answers rfl hbegins (accepts_expectName n) hn (Nat.le_succ_of_le hn)

end Lists

/-! ### Expressions -/

section Expressions

variable {expr : Parser Expr} {n : Nat}

lemma accepts_primary (hexpr : expr.Accepts n Expression) :
    (primary expr).Accepts (n + 1) fun ts _ e => Primary ts e := by
  intro ts next e rest h hn
  cases h with
  | identifier h =>
    refine answers_next.bind ?_
    rw [h]
    exact answers_pure
  | number h =>
    refine answers_next.bind ?_
    rw [h]
    exact answers_pure
  | @parens l r us e hl h hr =>
    rw [List.length_append, List.length_cons] at hn
    rw [List.append_assoc, List.cons_append, List.singleton_append]
    refine answers_next.bind ?_
    rw [hl]
    have hinner : Expression us r e := ⟨h, (stops_rightParen hr).noOperator⟩
    exact (hexpr us r e _ hinner (by omega)).bind ((answers_expect hr).bind answers_pure)

lemma answers_bare (hexpr : expr.Accepts n Expression) {ts rest : List Token} {next : Token}
    {e : Expr} (h : Primary ts e) (hnext : next.kind ≠ .symbol .leftParen)
    (hn : ts.length ≤ n + 1) :
    (application expr (n + 1)).Answers (ts ++ next :: rest) (.ok (e, next :: rest)) :=
  (accepts_primary hexpr ts next e rest h hn).bind
    ((answers_isNext_false hnext).bind answers_pure)

lemma answers_call (hexpr : expr.Accepts n Expression) {ts us rest : List Token} {l : Token}
    {e : Expr} {es : List Expr} (h : Primary ts e) (hl : l.kind = .symbol .leftParen)
    (hargs : Listing Row us es) (hn : (ts ++ l :: us).length ≤ n + 1) :
    (application expr (n + 1)).Answers (ts ++ l :: us ++ rest)
      (.ok (.call e.pos e es, rest)) := by
  rw [List.length_append, List.length_cons] at hn
  rw [List.append_assoc, List.cons_append]
  have hpos := h.begins.length_pos
  have hcallee := accepts_primary hexpr ts l e (us ++ rest) h (by omega)
  have hitems : (itemsOrNone expr .afterArgument (n + 1)).Answers (us ++ rest) (.ok (es, rest)) :=
    hargs.expressions.answers (p := beginsRow) rfl (fun _ _ _ h => h.row.begins) hexpr
      (by omega) (by omega)
  exact hcallee.bind ((answers_isNext_true hl).bind
    (answers_next.bind (hitems.bind answers_pure)))

/-- No prefix operator begins a primary expression. -/
lemma unaryOp?_of_beginsPrimary {kind : Token.Kind} (h : beginsPrimary kind = true) :
    unaryOp? kind = none := by
  unfold beginsPrimary at h
  split at h
  · rfl
  · rfl
  · rfl
  · cases h

lemma answers_operand_of_application {ts rest : List Token} {m : Nat}
    {out : Except Error (Expr × List Token)} (hbegin : Begin beginsPrimary ts)
    (h : (application expr n).Answers (ts ++ rest) out) :
    (operand expr n (m + 1)).Answers (ts ++ rest) out := by
  obtain ⟨tok, us, rfl, htok⟩ := hbegin
  refine answers_peek.bind ?_
  rw [unaryOp?_of_beginsPrimary htok]
  exact h

lemma answers_bars (hexpr : expr.Accepts n Expression) {ts rest : List Token} {l r : Token}
    {e : Expr} {m : Nat} (hl : l.kind = .symbol .bar) (h : Row ts r e)
    (hr : r.kind = .symbol .bar) (hn : ts.length ≤ n) :
    (operand expr (n + 1) (m + 1)).Answers (l :: ts ++ r :: rest)
      (.ok (.unary l.pos .absolute e, rest)) := by
  refine answers_peek.bind ?_
  rw [hl]
  have hinner : Expression ts r e := ⟨h, (stops_bar hr).noOperator⟩
  exact answers_next.bind ((hexpr ts r e rest hinner hn).bind
    ((answers_expect hr).bind answers_pure))

lemma answers_sign {tok : Token} {ts : List Token} {op : UnaryOp} {m : Nat}
    {e : Expr} {us : List Token} (hop : unaryOp? tok.kind = some op) (hsign : op ≠ .absolute)
    (h : (operand expr n m).Answers ts (.ok (e, us))) :
    (operand expr n (m + 1)).Answers (tok :: ts) (.ok (.unary tok.pos op e, us)) := by
  refine answers_peek.bind ?_
  rw [hop]
  cases op with
  | absolute => exact absurd rfl hsign
  | identity => exact answers_next.bind (h.bind answers_pure)
  | negate => exact answers_next.bind (h.bind answers_pure)

lemma Operand.answers (hexpr : expr.Accepts n Expression) {ts : List Token} {next : Token}
    {e : Expr} (rest : List Token) : ∀ m, Operand ts next e → ts.length ≤ n + 1 →
      ts.length ≤ m → (operand expr (n + 1) m).Answers (ts ++ next :: rest) (.ok (e, next :: rest))
  | 0, h, _, hm => absurd h.begins.length_pos (Nat.not_lt.2 hm)
  | m + 1, .bare h hnext, hn, _ =>
    answers_operand_of_application h.begins (answers_bare hexpr h hnext hn)
  | m + 1, .call h hl hargs, hn, _ =>
    answers_operand_of_application (h.begins.append _) (answers_call hexpr h hl hargs hn)
  | m + 1, .bars hl h hr, hn, _ => by
    rw [List.length_append, List.length_cons] at hn
    rw [List.append_assoc, List.singleton_append]
    exact answers_bars hexpr hl h hr (by omega)
  | m + 1, .sign hop hsign h, hn, hm => by
    rw [List.length_cons] at hn hm
    exact answers_sign hop hsign (h.answers hexpr rest m (by omega) (by omega))

/-- An operator and the operand behind it extend a row. -/
lemma answers_chain_more {unit : Parser Expr} {tok : Token} {ts us : List Token} {op : BinaryOp}
    {left right : Expr} {m : Nat} {out : Except Error (Expr × List Token)}
    (hop : binaryOp? tok.kind = some op) (hunit : unit.Answers ts (.ok (right, us)))
    (hchain : (chain unit m (.binary left.pos op left right)).Answers us out) :
    (chain unit (m + 1) left).Answers (tok :: ts) out := by
  refine answers_peek.bind ?_
  rw [hop]
  exact answers_next.bind (hunit.bind hchain)

/-- A row ends in front of a token that is no operator. -/
lemma answers_chain_stop {unit : Parser Expr} {tok : Token} {ts : List Token} {e : Expr}
    {m : Nat} (hstop : binaryOp? tok.kind = none) :
    (chain unit (m + 1) e).Answers (tok :: ts) (.ok (e, tok :: ts)) := by
  refine answers_peek.bind ?_
  rw [hstop]
  exact answers_pure

/-- **A row is read up to its last operand.** What is answered from there on with
some budget is answered to the whole row with a larger one. -/
lemma Row.answers {unit : Parser Expr} (hunit : unit.Accepts n Operand) {ts : List Token}
    {next : Token} {e : Expr} (rest : List Token) :
    Row ts next e → ts.length ≤ n → ∃ k < ts.length, ∀ m out,
      (chain unit m e).Answers (next :: rest) out →
      (unit >>= chain unit (m + k)).Answers (ts ++ next :: rest) out
  | .one h, hn =>
    ⟨0, h.begins.length_pos, fun _ _ hchain => (hunit _ _ _ rest h hn).bind hchain⟩
  | @Row.more ts us tok _ _ _ _ hleft hop hright, hn => by
    rw [List.length_append, List.length_cons] at hn
    obtain ⟨k, hk, hrow⟩ := hleft.answers hunit (us ++ next :: rest) (by omega)
    refine ⟨k + 1, ?_, fun m out hchain => ?_⟩
    · rw [List.length_append, List.length_cons]
      omega
    · have hmore := answers_chain_more hop (hunit us next _ rest hright (by omega)) hchain
      have hlonger := hrow (m + 1) out hmore
      rw [Nat.add_right_comm, Nat.add_assoc] at hlonger
      rw [List.append_assoc, List.cons_append]
      exact hlonger

end Expressions

lemma accepts_operand {expr : Parser Expr} {n : Nat} (hexpr : expr.Accepts n Expression) :
    (operand expr (n + 1) (n + 1)).Accepts (n + 1) Operand :=
  fun _ _ _ rest h hn => h.answers hexpr rest (n + 1) hn hn

lemma accepts_expressionWithin : ∀ n, (expressionWithin n).Accepts n Expression
  | 0 => fun ts _ _ _ h hn => absurd h.row.begins.length_pos (Nat.not_lt.2 hn)
  | n + 1 => by
    intro ts next e rest h hn
    have hunit := accepts_operand (accepts_expressionWithin n)
    obtain ⟨k, hk, hrow⟩ := h.row.answers hunit rest hn
    obtain ⟨m, hm⟩ : ∃ m, n = m + k := ⟨n - k, by omega⟩
    have hanswer := hrow (m + 1) _ (answers_chain_stop h.stop)
    rw [Nat.add_right_comm, ← hm] at hanswer
    exact hanswer

/-! ### Statements -/

section Statements

/-- All semicolons are taken. -/
lemma answers_separators {ss : List Token} {tok : Token} (ts : List Token)
    (hss : ∀ s ∈ ss, s.kind = .symbol .semicolon) (htok : tok.kind ≠ .symbol .semicolon) :
    ∀ n, ss.length < n → (separators n).Answers (ss ++ tok :: ts) (.ok ((), tok :: ts)) := by
  induction ss with
  | nil =>
    intro n hn
    obtain ⟨n, rfl⟩ := Nat.exists_eq_succ_of_ne_zero (n := n) (by omega)
    exact (answers_isNext_false htok).bind answers_pure
  | cons s ss ih =>
    intro n hn
    obtain ⟨n, rfl⟩ := Nat.exists_eq_succ_of_ne_zero (n := n) (by omega)
    have hs : s.kind = .symbol .semicolon := hss s List.mem_cons_self
    have hrest := ih (fun s hs => hss s (List.mem_cons_of_mem _ hs)) n (Nat.lt_of_succ_lt_succ hn)
    exact (answers_isNext_true hs).bind (answers_next.bind hrest)

variable {stmt : Parser Stmt} {n : Nat}

/-- **A loop over statements** that ends at certain tokens: what is answered to
the next statement is answered to the loop, whatever semicolons come first. -/
def Loops (ends : Token.Kind → Prop) (stmt : Parser Stmt) (loop : Nat → Parser (List Stmt)) :
    Prop :=
  ∀ m ss tok vs out, (∀ s ∈ ss, s.kind = .symbol .semicolon) → ss.length ≤ m →
    tok.kind ≠ .symbol .semicolon → ¬ ends tok.kind →
    Answers (do let first ← stmt; return first :: (← loop m)) (tok :: vs) out →
    (loop (m + 1)).Answers (ss ++ tok :: vs) out

lemma loops_blockRest :
    Loops (fun kind => kind = .symbol .rightBrace ∨ kind = .endOfInput) stmt (blockRest stmt) := by
  intro m ss tok vs out hss hm hsemi hends hfirst
  rw [not_or] at hends
  have hsep := answers_separators vs hss hsemi (m + 1) (Nat.lt_succ_of_le hm)
  refine hsep.bind (answers_peek.bind ?_)
  rw [if_neg hends.2, if_neg hends.1]
  exact hfirst

lemma loops_statements : Loops (· = .endOfInput) stmt (statements stmt) := by
  intro m ss tok vs out hss hm hsemi hends hfirst
  have hsep := answers_separators vs hss hsemi (m + 1) (Nat.lt_succ_of_le hm)
  exact hsep.bind ((answers_isNext_false hends).bind hfirst)

/-- One more statement in front of a sequence. -/
lemma answers_first (hstmt : stmt.Accepts n Statement) {k : Stmt → Parser (List Stmt)}
    {ts us rest : List Token} {next : Token} {st : Stmt}
    {out : Except Error (List Stmt × List Token)} (h : Statement ts (us.headD next) st)
    (hts : ts.length ≤ n) (hk : (k st).Answers (us ++ next :: rest) out) :
    (stmt >>= k).Answers (ts ++ (us ++ next :: rest)) out := by
  have hfirst := hstmt ts _ st (us ++ next :: rest).tail h hts
  rw [← append_cons_eq_headD] at hfirst
  exact hfirst.bind hk

/-- What is answered behind a statement is answered to the loop. -/
lemma Loops.answers_cons {ends : Token.Kind → Prop} {loop : Nat → Parser (List Stmt)}
    (hloop : Loops ends stmt loop) (hends : ∀ kind, ends kind → beginsStatement kind = false)
    (hstmt : stmt.Accepts n Statement) {ss ts us rest : List Token} {next : Token} {st : Stmt}
    {m : Nat} {out : Except Error (List Stmt × List Token)}
    (hss : ∀ s ∈ ss, s.kind = .symbol .semicolon) (h : Statement ts (us.headD next) st)
    (hts : ts.length ≤ n) (hm : ss.length ≤ m)
    (hrest : Answers (do return st :: (← loop m)) (us ++ next :: rest) out) :
    (loop (m + 1)).Answers (ss ++ (ts ++ (us ++ next :: rest))) out := by
  have hfirst := answers_first hstmt (k := fun st => do return st :: (← loop m)) h hts hrest
  obtain ⟨tok, vs, rfl, htok⟩ := h.begins
  refine hloop m ss tok _ out hss hm ?_ (fun hk => ?_) hfirst
  · intro hk
    rw [hk] at htok
    cases htok
  · rw [hends _ hk] at htok
    cases htok

/-- **A loop reads a sequence** if it ends in front of the token behind it. -/
lemma Sequence.answers {ends : Token.Kind → Prop} {loop : Nat → Parser (List Stmt)}
    (hloop : Loops ends stmt loop) (hends : ∀ kind, ends kind → beginsStatement kind = false)
    (hstmt : stmt.Accepts n Statement) {next : Token} {rest rest' : List Token}
    (hnil : ∀ m ss, (∀ s ∈ ss, s.kind = .symbol .semicolon) → ss.length ≤ m →
      (loop (m + 1)).Answers (ss ++ next :: rest) (.ok ([], rest')))
    {us : List Token} {body : List Stmt} :
    ∀ m, Sequence us next body → us.length ≤ n → us.length < m →
      (loop m).Answers (us ++ next :: rest) (.ok (body, rest'))
  | 0, _, _, hm => absurd hm (Nat.not_lt_zero _)
  | m + 1, .nil hss, _, hm => hnil m _ hss (Nat.le_of_lt_succ hm)
  | m + 1, .cons hss h hrest, hn, hm => by
    rw [List.length_append, List.length_append] at hn hm
    have hpos := h.begins.length_pos
    have hlater := hrest.answers hloop hends hstmt hnil m (by omega) (by omega)
    rw [List.append_assoc, List.append_assoc]
    exact hloop.answers_cons hends hstmt hss h (by omega) (by omega) (hlater.bind answers_pure)

lemma Sequence.answers_block (hstmt : stmt.Accepts n Statement) {rb : Token}
    {us rest : List Token} {body : List Stmt} {m : Nat} (hrb : rb.kind = .symbol .rightBrace)
    (h : Sequence us rb body) (hn : us.length ≤ n) (hm : us.length < m) :
    (blockRest stmt m).Answers (us ++ rb :: rest) (.ok (body, rest)) := by
  refine h.answers loops_blockRest ?_ hstmt (fun m ss hss hm => ?_) m hn hm
  · rintro kind (rfl | rfl) <;> rfl
  · have hsemi : rb.kind ≠ .symbol .semicolon := by rw [hrb]; simp
    have hsep := answers_separators rest hss hsemi (m + 1) (Nat.lt_succ_of_le hm)
    refine hsep.bind (answers_peek.bind ?_)
    rw [if_neg (by rw [hrb]; simp), if_pos hrb]
    exact answers_next.bind answers_pure

lemma Sequence.answers_statements (hstmt : stmt.Accepts n Statement) {eof : Token}
    {us rest : List Token} {body : List Stmt} {m : Nat} (heof : eof.kind = .endOfInput)
    (h : Sequence us eof body) (hn : us.length ≤ n) (hm : us.length < m) :
    (statements stmt m).Answers (us ++ eof :: rest) (.ok (body, eof :: rest)) := by
  refine h.answers loops_statements ?_ hstmt (fun m ss hss hm => ?_) m hn hm
  · rintro kind rfl
    rfl
  · have hsemi : eof.kind ≠ .symbol .semicolon := by rw [heof]; simp
    have hsep := answers_separators rest hss hsemi (m + 1) (Nat.lt_succ_of_le hm)
    exact hsep.bind ((answers_isNext_true heof).bind answers_pure)

lemma answers_blockOf (hstmt : stmt.Accepts n Statement) {lb rb : Token} {us rest : List Token}
    {body : List Stmt} {m : Nat} (hlb : lb.kind = .symbol .leftBrace) (h : Sequence us rb body)
    (hrb : rb.kind = .symbol .rightBrace) (hn : us.length ≤ n) (hm : us.length < m) :
    (block stmt m).Answers (lb :: (us ++ rb :: rest)) (.ok ((lb.pos, body), rest)) :=
  (answers_expect hlb).bind ((h.answers_block hstmt hrb hn hm).bind answers_pure)

lemma answers_func (hstmt : stmt.Accepts n Statement) {f x lp lb rb : Token}
    {ps us rest : List Token} {name : String} {params : List String} {body : List Stmt}
    (hf : f.kind = .keyword .func) (hx : x.kind = .identifier name)
    (hlp : lp.kind = .symbol .leftParen) (hparams : Listing Param ps params)
    (hlb : lb.kind = .symbol .leftBrace) (hbody : Sequence us rb body)
    (hrb : rb.kind = .symbol .rightBrace) (hn : ps.length + us.length ≤ n) :
    (funcStmt stmt (n + 1)).Answers (f :: x :: lp :: (ps ++ lb :: (us ++ rb :: rest)))
      (.ok (.func f.pos name params lb.pos body, rest)) := by
  have hblock : (block stmt (n + 1)).Answers (lb :: (us ++ rb :: rest))
      (.ok ((lb.pos, body), rest)) :=
    answers_blockOf hstmt hlb hbody hrb (by omega) (by omega)
  refine (answers_expect hf).bind ((answers_expectName _ hx).bind ((answers_expect hlp).bind ?_))
  exact (answers_params hparams (by omega)).bind (hblock.bind answers_pure)

variable {expr : Parser Expr}

lemma answers_var {v x next : Token} {rest : List Token} {name : String}
    (hv : v.kind = .keyword .var) (hx : x.kind = .identifier name)
    (hnext : next.kind ≠ .symbol .equal) :
    (varStmt expr).Answers (v :: x :: next :: rest) (.ok (.var v.pos name none, next :: rest)) := by
  refine (answers_expect hv).bind ((answers_expectName _ hx).bind ?_)
  exact (answers_isNext_false hnext).bind answers_pure

lemma answers_varInit (hexpr : expr.Accepts n Expression) {v x q next : Token}
    {ts rest : List Token} {name : String} {e : Expr} (hv : v.kind = .keyword .var)
    (hx : x.kind = .identifier name) (hq : q.kind = .symbol .equal) (h : Expression ts next e)
    (hn : ts.length ≤ n) :
    (varStmt expr).Answers (v :: x :: q :: (ts ++ next :: rest))
      (.ok (.var v.pos name (some e), next :: rest)) := by
  refine (answers_expect hv).bind ((answers_expectName _ hx).bind ?_)
  refine (answers_isNext_true hq).bind (answers_next.bind ?_)
  exact (hexpr ts next e rest h hn).bind answers_pure

lemma answers_retValue (hexpr : expr.Accepts n Expression) {r next : Token}
    {ts rest : List Token} {e : Expr} (hr : r.kind = .keyword .ret)
    (hvalue : BeginsValue r (ts.headD next)) (h : Expression ts next e) (hn : ts.length ≤ n) :
    (returnStmt expr).Answers (r :: (ts ++ next :: rest))
      (.ok (.ret r.pos (some e), next :: rest)) := by
  have hanswer := hexpr ts next e rest h hn
  obtain ⟨tok, us, rfl, _⟩ := h.row.begins
  refine (answers_expect hr).bind (answers_peek.bind ?_)
  rw [if_pos ⟨hvalue.1, by simpa using hvalue.2⟩]
  exact hanswer.bind answers_pure

lemma answers_ret {r next : Token} {rest : List Token} (hr : r.kind = .keyword .ret)
    (hnext : ¬ BeginsValue r next) :
    (returnStmt expr).Answers (r :: next :: rest) (.ok (.ret r.pos none, next :: rest)) := by
  refine (answers_expect hr).bind (answers_peek.bind ?_)
  rw [if_neg fun h => hnext ⟨h.1, by simpa using h.2⟩]
  exact answers_pure

end Statements

section Choice

variable {n : Nat} {tok : Token} {ts : List Token} {out : Except Error (Stmt × List Token)}

/-- What is answered to a keyword and the tokens behind it by the reader of its
statements. -/
lemma answers_keyword {kw : Keyword} (hk : tok.kind = .keyword kw)
    (h : (match kw with
      | .var => varStmt (expressionWithin (n + 1))
      | .ret => returnStmt (expressionWithin (n + 1))
      | .func => funcStmt (statementWithin n) (n + 1)).Answers (tok :: ts) out) :
    (statementWithin (n + 1)).Answers (tok :: ts) out := by
  refine answers_peek.bind ?_
  rw [hk]
  cases kw <;> exact h

/-- What is answered to a brace by the reader of blocks. -/
lemma answers_brace (hk : tok.kind = .symbol .leftBrace)
    (h : Answers (do
      let (pos, body) ← block (statementWithin n) (n + 1)
      return .block pos pos body) (tok :: ts) out) :
    (statementWithin (n + 1)).Answers (tok :: ts) out := by
  refine answers_peek.bind ?_
  rw [hk]
  exact h

/-- What is answered to any other token by the reader of expressions. -/
lemma answers_expr (hkeyword : ∀ kw, tok.kind ≠ .keyword kw)
    (hbrace : tok.kind ≠ .symbol .leftBrace)
    (h : Answers (do
      let e ← expressionWithin (n + 1)
      return .expr e.pos e) (tok :: ts) out) :
    (statementWithin (n + 1)).Answers (tok :: ts) out := by
  refine answers_peek.bind ?_
  split
  · rename_i hk
    exact absurd hk (hkeyword _)
  · rename_i hk
    exact absurd hk (hkeyword _)
  · rename_i hk
    exact absurd hk (hkeyword _)
  · rename_i hk
    exact absurd hk hbrace
  · exact h

end Choice

lemma ne_keyword_of_beginsRow {kind : Token.Kind} (h : beginsRow kind = true) (kw : Keyword) :
    kind ≠ .keyword kw := by
  rintro rfl
  cases h

lemma ne_leftBrace_of_beginsRow {kind : Token.Kind} (h : beginsRow kind = true) :
    kind ≠ .symbol .leftBrace := by
  rintro rfl
  cases h

lemma accepts_statementWithin : ∀ n, (statementWithin n).Accepts n Statement
  | 0 => fun ts _ _ _ h hn => absurd h.begins.length_pos (Nat.not_lt.2 hn)
  | n + 1 => by
    intro ts next st rest h hn
    have hexpr := accepts_expressionWithin (n + 1)
    have hstmt := accepts_statementWithin n
    cases h with
    | var hv hx hnext => exact answers_keyword hv (answers_var hv hx hnext)
    | varInit hv hx hq h =>
      simp only [List.length_cons] at hn
      exact answers_keyword hv (answers_varInit hexpr hv hx hq h (by omega))
    | ret hr hnext => exact answers_keyword hr (answers_ret hr hnext)
    | retValue hr hvalue h =>
      rw [List.length_cons] at hn
      exact answers_keyword hr (answers_retValue hexpr hr hvalue h (by omega))
    | func hf hx hlp hparams hlb hbody hrb =>
      simp only [List.length_append, List.length_cons] at hn
      simp only [List.cons_append, List.append_assoc, List.nil_append]
      refine answers_keyword hf ?_
      exact answers_func hstmt hf hx hlp hparams hlb hbody hrb (by omega)
    | block hlb hbody hrb =>
      simp only [List.length_append, List.length_cons, List.length_nil] at hn
      simp only [List.cons_append, List.append_assoc, List.nil_append]
      refine answers_brace hlb ?_
      exact (answers_blockOf hstmt hlb hbody hrb (by omega) (by omega)).bind answers_pure
    | expr h =>
      have hanswer := hexpr ts next _ rest h hn
      obtain ⟨tok, us, rfl, htok⟩ := h.row.begins
      exact answers_expr (ne_keyword_of_beginsRow htok) (ne_leftBrace_of_beginsRow htok)
        (hanswer.bind answers_pure)

end Grammar

/-! ### Texts -/

namespace Parser

variable {α : Type} {x : Parser α} {source : String} {ts : List Token}

lemma Answers.runOn {a : α} {us : List Token} (h : x.Answers ts (.ok (a, us)))
    (hts : (Cursor.ofString source).Ahead ts) : x.runOn source = .ok a := by
  obtain ⟨lx, hx, _⟩ := h _ ⟨_, Lexer.at_ofString source, hts⟩
  rw [Parser.runOn, EStateM.run, hx]

lemma Answers.runOn_error {e : Error} (h : x.Answers ts (.error e))
    (hts : (Cursor.ofString source).Ahead ts) : x.runOn source = .error e := by
  obtain ⟨lx, hx⟩ := h _ ⟨_, Lexer.at_ofString source, hts⟩
  rw [Parser.runOn, EStateM.run, hx]

end Parser

/-- The statements of a text, read with a budget for all of it. -/
def Parser.allStatements (source : String) : Parser (List Stmt) :=
  Parser.statements (Parser.statementWithin (source.toList.length + 2)) (source.toList.length + 2)

/-- Parsing is reading statements from the beginning. -/
lemma parse_eq (source : String) : parse source =
    ((Parser.allStatements source).runOn source).map (⟨Position.start, ·⟩) := by
  have hprogram : Parser.program (Lexer.ofString source) =
      (Parser.allStatements source >>= fun body => (pure ⟨Position.start, body⟩ : Parser Program))
        (Lexer.ofString source) := rfl
  rw [parse, Parser.runOn, Parser.runOn, EStateM.run, EStateM.run, hprogram]
  rcases hres : Parser.allStatements source (Lexer.ofString source) with ⟨body, lx⟩ | ⟨e, lx⟩
  · rw [Parser.bind_eq_of_ok hres]
    rfl
  · rw [Parser.bind_eq_of_error hres]
    rfl

/-- **A text is parsed** if its tokens form a sequence of statements. -/
theorem parse_of_sequence {source : String} {us : List Token} {eof : Token} {mid fin : Cursor}
    {body : List Stmt} (hus : (Cursor.ofString source).Reads us mid)
    (hscan : mid.scan = .ok eof fin) (heof : eof.kind = .endOfInput)
    (h : Grammar.Sequence us eof body) : parse source = .ok ⟨Position.start, body⟩ := by
  have hlength : us.length + mid.rest.length ≤ source.toList.length := hus.length_add_le
  have hstmt := Grammar.accepts_statementWithin (source.toList.length + 2)
  have hanswer : (Parser.allStatements source).Answers (us ++ [eof]) (.ok (body, [eof])) :=
    h.answers_statements hstmt heof (by omega) (by omega)
  rw [parse_eq, hanswer.runOn (hus.ahead (Cursor.ahead_single hscan))]
  rfl

end ClosureCalc
