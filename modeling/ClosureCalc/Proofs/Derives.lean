/-
What the parser reads, the grammar derives.

Each reader of the parser is followed through its run. If it succeeds, the
tokens it has taken form a phrase of its nonterminal in front of the token that
comes next. If it refuses a token, that token is to blame.

* `Parser.Parses`: a reader reads phrases and refuses only tokens to blame.
* `parses_primary`, `parses_operand`, `parses_expressionWithin`,
  `parses_statementWithin`: the readers of the parser.
* `sequence_of_parse`: the tokens of a text that is parsed form a sequence.
* `blames_of_parse_error`: the token that is refused is to blame.
* `fails_of_parse_error`: a lexical error is that of the text.
-/
import ClosureCalc.Proofs.Blame

namespace ClosureCalc

namespace Parser

section Parses

variable {α β : Type} {x : Parser α} {I J : List Token → Token → α → Prop}
variable {B B' : List Token → Token → ParseFault → Prop}

/-- **A reader parses** the phrases `I`, and the tokens that it refuses are those
to blame by `B`. -/
def Parses (x : Parser α) (I : List Token → Token → α → Prop)
    (B : List Token → Token → ParseFault → Prop) : Prop :=
  ∀ cur, Runs x cur (fun a ts fin => ∀ next fin', fin.scan = .ok next fin' → I ts next a) B

/-- A part of a phrase is read, and then the rest. -/
lemma Parses.bind (hx : x.Parses I B) {cur : Cursor} {R : β → List Token → Cursor → Prop}
    {k : α → Parser β}
    (hb : ∀ ts mid tok fin fault, cur.Reads ts mid → mid.scan = .ok tok fin → B ts tok fault →
      B' ts tok fault)
    (hk : ∀ a ts mid, cur.Reads ts mid → (∀ next fin, mid.scan = .ok next fin → I ts next a) →
      Runs (k a) mid (fun b us => R b (ts ++ us)) fun us => B' (ts ++ us)) :
    Runs (x >>= k) cur R B' :=
  ((hx cur).mono (fun _ _ _ _ h => h) hb).bind hk

end Parses

end Parser

namespace Grammar

open ClosureCalc.Parser

/-! ### Lists -/

section Lists

variable {α : Type} {item : Nat → Parser α} {I : List Token → Token → α → Prop}
variable {wrong : Token.Kind → ParseFault} {reader : Parser α}

/-- The rest of a list that has an item. -/
lemma parses_items (haccepts : ∀ n, (item n).Accepts (n + 1) I)
    (hbefore : ∀ ts next next' a, Stops next' → I ts next a → I ts next' a)
    (hreader : reader.Parses I (Blame (fun n _ => item n) (IsItem I))) :
    ∀ m, (items reader wrong m).Parses (fun ts _ as => Items I ts as) (BlamesItems item wrong I)
  | 0 => fun _ => runs_outOfBudget
  | m + 1 => by
    intro cur
    refine hreader.bind (fun _ _ _ _ _ _ _ h => blames_items_first h) ?_
    intro first ts mid _ hfirst
    refine runs_next_bind fun tok fin hscan => ?_
    have hitem := hfirst tok fin hscan
    split
    · rename_i hk
      refine .go (by rw [hk]; simp) ?_
      refine (parses_items haccepts hbefore hreader m).bind ?_ ?_
      · exact fun us _ _ _ _ _ _ h => blames_items_rest haccepts hitem hk h
      · intro rest us _ _ hrest
        refine runs_pure fun next fin' hnext => ?_
        rw [List.append_nil]
        exact .more hitem hk (hrest next fin' hnext)
    · rename_i hk
      exact .go (by rw [hk]; simp) (runs_pure fun _ _ _ => .last hitem hk)
    · rename_i hcomma hclose
      refine .refuse _ ?_
      rw [List.append_nil]
      exact blames_items_separator haccepts hbefore hitem hcomma hclose

lemma parses_itemsOrNone (haccepts : ∀ n, (item n).Accepts (n + 1) I)
    (hbefore : ∀ ts next next' a, Stops next' → I ts next a → I ts next' a)
    (hreader : reader.Parses I (Blame (fun n _ => item n) (IsItem I))) (m : Nat) :
    (itemsOrNone reader wrong m).Parses (fun ts _ as => Listing I ts as)
      (BlamesListing item wrong I) := by
  intro cur
  refine runs_isNext_bind (fun tok mid hscan hk => ?_) fun tok mid hscan hk => ?_
  · refine runs_take hscan (by rw [hk]; simp) (runs_pure fun _ _ _ => ?_)
    exact .none hk
  · refine (parses_items haccepts hbefore hreader m cur).mono ?_ ?_
    · exact fun as ts fin _ h next fin' hnext => .some (h next fin' hnext)
    · intro us mid' tok' fin fault hus hscan' h
      obtain ⟨fin', hhead⟩ := hus.scan_headD hscan'
      rw [hscan] at hhead
      cases hhead
      exact blames_listing hk h

/-- A parameter is a name. -/
lemma parses_param : (expectName .ofParameter).Parses Param
    (Blame (fun _ _ => expectName .ofParameter) (IsItem Param)) := by
  intro cur
  refine runs_expectName (fun tok mid name _ hk _ _ _ => .mk hk) fun tok mid _ hk => ?_
  refine ⟨fun _ _ _ _ => answers_expectName_error _ hk, ?_⟩
  refine viable_of_completes [.identifier "x"] (by simp [Filler.name]) ?_
  exact .cons fun x hx => completes_nil fun next _ => ⟨"x", .mk hx⟩

lemma parses_params (m : Nat) :
    (itemsOrNone (expectName .ofParameter) .afterParameter m).Parses
      (fun ts _ params => Listing Param ts params)
      (BlamesListing (fun _ => expectName .ofParameter) .afterParameter Param) := by
  refine parses_itemsOrNone (fun n => accepts_expectName _) ?_ parses_param m
  rintro ts next next' name _ ⟨h⟩
  exact .mk h

end Lists

/-! ### Expressions -/

section Expressions

variable {expr : Parser Expr}

lemma parses_primary (hexpr : expr.Parses Expression BlamesExpression) :
    (primary expr).Parses (fun ts _ e => Primary ts e) BlamesPrimary := by
  intro cur
  refine runs_next_bind fun tok mid hscan => ?_
  split
  · rename_i name hk
    exact .go (by rw [hk]; simp) (runs_pure fun _ _ _ => .identifier hk)
  · rename_i value hk
    exact .go (by rw [hk]; simp) (runs_pure fun _ _ _ => .number hk)
  · rename_i hk
    refine .go (by rw [hk]; simp) ?_
    refine hexpr.bind (fun _ _ _ _ _ _ _ h => blames_primary_inner hk h) ?_
    intro inner us mid' _ hinner
    refine runs_expect_bind (by simp) (fun r fin hr hrk => ?_) fun r fin hr hrk => ?_
    · exact runs_pure fun _ _ _ => .parens hk (hinner r fin hr).row hrk
    · rw [List.append_nil]
      exact blames_primary_close hk (hinner r fin hr) hrk
  · rename_i c hk
    refine .refuse _ ?_
    have hfirst : beginsPrimary tok.kind = false := by rw [hk]; rfl
    have hblame := blames_primary_first hfirst
    rwa [hk] at hblame
  · rename_i kind hname hvalue hparen hchar
    refine .refuse _ ?_
    have hfirst : beginsPrimary tok.kind = false := by
      unfold beginsPrimary
      split <;> simp_all
    have hfault : primaryFault tok.kind = .expectedExpression tok.kind := by
      unfold primaryFault
      split <;> simp_all
    rw [← hfault]
    exact blames_primary_first hfirst

/-- Arguments are rows. -/
lemma parses_arguments (hexpr : expr.Parses Expression BlamesExpression) (m : Nat) :
    (itemsOrNone expr .afterArgument m).Parses (fun ts _ es => Listing Expression ts es)
      (BlamesListing (fun n => expressionWithin (n + 1)) .afterArgument Expression) := by
  refine parses_itemsOrNone (fun n => accepts_expressionWithin (n + 1)) ?_ ?_ m
  · exact fun ts next next' e hnext h => h.before hnext
  · refine fun cur => (hexpr cur).mono (fun _ _ _ _ h => h) ?_
    intro ts _ tok _ fault _ _ h
    refine ⟨h.again, h.viable.map [] ?_⟩
    intro us hus next hnext
    obtain ⟨e, he⟩ := hus next hnext
    exact ⟨e, he, hnext.noOperator⟩

lemma parses_application (hexpr : expr.Parses Expression BlamesExpression) (m : Nat) :
    (application expr m).Parses Operand BlamesApplication := by
  intro cur
  refine (parses_primary hexpr).bind (fun _ _ _ _ _ _ _ h => blames_application_callee h) ?_
  intro callee ts mid _ hcallee
  refine runs_isNext_bind (fun l fin hl hk => ?_) fun next fin hnext hk => ?_
  · have hprimary := hcallee l fin hl
    refine runs_take hl (by rw [hk]; simp) ?_
    refine (parses_arguments hexpr m).bind ?_ ?_
    · exact fun us _ _ _ _ _ _ h => blames_application_args hprimary hk h
    · intro args us _ _ hargs
      refine runs_pure fun next fin' hnext => ?_
      rw [List.append_nil]
      exact .call hprimary hk ((hargs next fin' hnext).mono fun _ _ _ he => he.row)
  · refine runs_pure fun next' fin' hnext' => ?_
    rw [hnext] at hnext'
    cases hnext'
    rw [List.append_nil]
    exact .bare (hcallee next fin hnext) hk

/-- A prefix operator is begun by its symbol. -/
lemma kind_of_unaryOp? {kind : Token.Kind} {op : UnaryOp} (h : unaryOp? kind = some op) :
    kind = .symbol op.symbol := by
  cases kind with
  | symbol s => rw [UnaryOp.ofSymbol?_eq_some_iff.1 h]
  | _ => cases h

/-- An infix operator is denoted by its symbol. -/
lemma kind_of_binaryOp? {kind : Token.Kind} {op : BinaryOp} (h : binaryOp? kind = some op) :
    kind = .symbol op.symbol := by
  cases kind with
  | symbol s => rw [BinaryOp.ofSymbol?_eq_some_iff.1 h]
  | _ => cases h

lemma parses_operand (hexpr : expr.Parses Expression BlamesExpression) (b : Nat) :
    ∀ m, (operand expr b m).Parses Operand BlamesOperand
  | 0 => fun _ => runs_outOfBudget
  | m + 1 => by
    intro cur
    refine runs_peek_bind fun tok mid hscan => ?_
    split
    · rename_i hop
      refine (parses_application hexpr b cur).mono (fun _ _ _ _ h => h) ?_
      intro us mid' tok' fin fault hus hscan' h
      obtain ⟨fin', hhead⟩ := hus.scan_headD hscan'
      rw [hscan] at hhead
      cases hhead
      exact blames_operand_application hop h
    · rename_i hop
      have hk : tok.kind = .symbol .bar := kind_of_unaryOp? hop
      refine runs_take hscan (by rw [hk]; simp) ?_
      refine hexpr.bind (fun _ _ _ _ _ _ _ h => blames_operand_inner hk h) ?_
      intro inner us mid' _ hinner
      refine runs_expect_bind (by simp) (fun r fin hr hrk => ?_) fun r fin hr hrk => ?_
      · exact runs_pure fun _ _ _ => .bars hk (hinner r fin hr).row hrk
      · rw [List.append_nil]
        exact blames_operand_close hk (hinner r fin hr) hrk
    · rename_i op hsign hop
      refine runs_take hscan (by rw [kind_of_unaryOp? hop]; simp) ?_
      refine (parses_operand hexpr b m).bind ?_ ?_
      · exact fun us _ _ _ _ _ _ h => blames_operand_sign hop hsign h
      · intro target us _ _ htarget
        refine runs_pure fun next fin hnext => ?_
        rw [List.append_nil]
        exact .sign hop hsign (htarget next fin hnext)

/-- A row goes on behind its first operands. -/
lemma runs_chain {unit : Parser Expr} (hunit : unit.Parses Operand BlamesOperand)
    {ts : List Token} {left : Expr} {cur : Cursor} :
    ∀ m, (∀ next fin, cur.scan = .ok next fin → Row ts next left) →
      Runs (chain unit m left) cur
        (fun e us fin => ∀ next fin', fin.scan = .ok next fin' → Expression (ts ++ us) next e)
        fun us => BlamesExpression (ts ++ us)
  | 0, _ => runs_outOfBudget
  | m + 1, hleft => by
    refine runs_peek_bind fun tok mid hscan => ?_
    have hrow := hleft tok mid hscan
    split
    · rename_i hstop
      refine runs_pure fun next fin' hnext => ?_
      rw [hscan] at hnext
      cases hnext
      rw [List.append_nil]
      exact ⟨hrow, hstop⟩
    · rename_i op hop
      refine runs_take hscan (by rw [kind_of_binaryOp? hop]; simp) ?_
      refine hunit.bind (fun _ _ _ _ _ _ _ h => blames_expression_right hrow hop h) ?_
      intro right us mid' _ hright
      have hmore := runs_chain hunit m fun next fin hnext =>
        Row.more hrow hop (hright next fin hnext)
      simpa only [List.append_assoc, List.cons_append] using hmore

lemma parses_expressionWithin : ∀ n, (expressionWithin n).Parses Expression BlamesExpression
  | 0 => fun _ => runs_outOfBudget
  | n + 1 => by
    intro cur
    have hunit := parses_operand (parses_expressionWithin n) (n + 1) (n + 1)
    refine hunit.bind (fun _ _ _ _ _ _ _ h => blames_expression_first h) ?_
    exact fun left ts mid _ hleft =>
      runs_chain hunit (n + 1) fun next fin hnext => .one (hleft next fin hnext)

end Expressions

/-! ### Statements -/

section Statements

lemma runs_separators {cur : Cursor} {B : List Token → Token → ParseFault → Prop} :
    ∀ n, Runs (separators n) cur (fun _ ss fin => (∀ s ∈ ss, s.kind = .symbol .semicolon) ∧
      ∀ next fin', fin.scan = .ok next fin' → next.kind ≠ .symbol .semicolon) B
  | 0 => runs_outOfBudget
  | n + 1 => by
    refine runs_isNext_bind (fun tok mid hscan hk => ?_) fun tok mid hscan hk => ?_
    · refine runs_take hscan (by rw [hk]; simp) ?_
      refine (runs_separators n).mono ?_ fun _ _ _ _ _ _ _ h => h
      rintro _ ss fin _ ⟨hss, hnext⟩
      refine ⟨fun s hs => ?_, hnext⟩
      rcases List.mem_cons.1 hs with rfl | hs
      · exact hk
      · exact hss s hs
    · refine runs_pure ⟨by simp, fun next fin' hnext => ?_⟩
      rw [hscan] at hnext
      cases hnext
      exact hk

variable {stmt : Parser Stmt} {ends : Token.Kind → Prop}
variable {loop : Nat → Nat → Parser (List Stmt)}

/-- A statement and what is read behind it. -/
lemma runs_first (hstmt : stmt.Parses Statement BlamesStatement)
    (hloop : ∀ n, Loops ends (statementWithin (n + 1)) (loop n))
    (hends : ∀ kind, ends kind → beginsStatement kind = false) {ss : List Token} {tok : Token}
    {cur mid : Cursor} (hss : ∀ s ∈ ss, s.kind = .symbol .semicolon)
    (hscan : cur.scan = .ok tok mid) (hsemi : tok.kind ≠ .symbol .semicolon)
    (htok : ¬ ends tok.kind) {rest : Parser (List Stmt)}
    {Q R : List Stmt → List Token → Cursor → Prop}
    (hrest : ∀ cur, Runs rest cur Q (BlamesLoop loop))
    (hR : ∀ st body ts us fin, (∀ next fin', fin.scan = .ok next fin' →
      Statement ts (us.headD next) st) → Q body us fin → R (st :: body) (ts ++ us) fin) :
    Runs (do let first ← stmt; return first :: (← rest)) cur R
      fun us => BlamesLoop loop (ss ++ us) := by
  refine hstmt.bind ?_ ?_
  · intro us mid' tok' fin fault hus hscan' h
    obtain ⟨fin', hhead⟩ := hus.scan_headD hscan'
    rw [hscan] at hhead
    cases hhead
    exact blames_loop_first hloop hss hsemi htok h
  · intro st ts mid' _ hst
    refine ((hrest mid').mono (fun _ _ _ _ h => h) ?_).bind ?_
    · intro us mid'' tok' fin fault hus hscan' h
      obtain ⟨fin', hhead⟩ := hus.scan_headD hscan'
      exact blames_loop_rest hloop hends hss (hst _ fin' hhead) h
    · intro body us fin hus hbody
      refine runs_pure ?_
      rw [List.append_nil]
      refine hR st body ts us fin (fun next fin' hnext => ?_) hbody
      obtain ⟨fin'', hhead⟩ := hus.scan_headD hnext
      exact hst _ fin'' hhead

/-- A sequence with the brace behind it. -/
inductive Body : List Token → List Stmt → Prop where
  | mk {us : List Token} {rb : Token} {body : List Stmt} (h : Sequence us rb body)
      (hrb : rb.kind = .symbol .rightBrace) : Body (us ++ [rb]) body

lemma Body.cons {ss ts us : List Token} {next : Token} {st : Stmt} {body : List Stmt}
    (hss : ∀ s ∈ ss, s.kind = .symbol .semicolon) (hst : Statement ts (us.headD next) st)
    (h : Body us body) : Body (ss ++ (ts ++ us)) (st :: body) := by
  cases h with
  | @mk us rb body h hrb =>
    have hhead : (us ++ [rb]).headD next = us.headD rb := by cases us <;> rfl
    rw [hhead] at hst
    rw [← List.append_assoc ts, ← List.append_assoc ss]
    exact .mk (.cons hss hst h) hrb

lemma parses_blockRest (hstmt : stmt.Parses Statement BlamesStatement) :
    ∀ m, (blockRest stmt m).Parses (fun ts _ body => Body ts body) BlamesBody
  | 0 => fun _ => runs_outOfBudget
  | m + 1 => by
    intro cur
    refine (runs_separators (m + 1)).bind ?_
    rintro _ ss mid _ ⟨hss, hsemi⟩
    refine runs_peek_bind fun tok fin hscan => ?_
    split
    · rename_i hk
      refine runs_refuse hscan ?_
      rw [List.append_nil]
      exact blames_body_unclosed hss hk
    · rename_i heof
      split
      · rename_i hk
        refine runs_take hscan (by rw [hk]; simp) (runs_pure fun _ _ _ => ?_)
        exact .mk (.nil hss) hk
      · rename_i hbrace
        refine runs_first hstmt (fun _ => loops_blockRest) ?_ hss hscan (hsemi tok fin hscan) ?_
          (parses_blockRest hstmt m) ?_
        · rintro kind (rfl | rfl) <;> rfl
        · exact fun h => h.elim hbrace heof
        · intro st body ts us fin' hst hbody next fin'' hnext
          exact .cons hss (hst next fin'' hnext) (hbody next fin'' hnext)

/-- The statements of a text end where the text ends. -/
lemma runs_statements (hstmt : stmt.Parses Statement BlamesStatement) :
    ∀ m cur, Runs (statements stmt m) cur
      (fun body ts fin => ∃ eof fin', fin.scan = .ok eof fin' ∧ eof.kind = .endOfInput ∧
        Sequence ts eof body) BlamesStatements
  | 0, _ => runs_outOfBudget
  | m + 1, cur => by
    refine (runs_separators (m + 1)).bind ?_
    rintro _ ss mid _ ⟨hss, hsemi⟩
    refine runs_isNext_bind (fun tok fin hscan hk => ?_) fun tok fin hscan hk => ?_
    · refine runs_pure ⟨tok, fin, hscan, hk, ?_⟩
      rw [List.append_nil]
      exact .nil hss
    · refine runs_first hstmt (fun _ => loops_statements) ?_ hss hscan (hsemi tok fin hscan) hk
        (runs_statements hstmt m) ?_
      · rintro kind rfl
        rfl
      · rintro st body ts us fin' hst ⟨eof, fin'', heof, hk, hbody⟩
        exact ⟨eof, fin'', heof, hk, .cons hss (hst eof fin'' heof) hbody⟩

variable {expr : Parser Expr} {cur : Cursor}

/-- A declaration of a variable, in front of its keyword. -/
lemma runs_varStmt (hexpr : expr.Parses Expression BlamesExpression) {v : Token} {mid : Cursor}
    (hscan : cur.scan = .ok v mid) (hv : v.kind = .keyword .var) :
    Runs (varStmt expr) cur
      (fun st ts fin => ∀ next fin', fin.scan = .ok next fin' → Statement ts next st)
      BlamesStatement := by
  refine runs_expect_taken hscan hv (by simp) ?_
  refine runs_expectName_bind (fun x fin name hx hkx => ?_) fun x fin _ hkx => ?_
  · refine runs_isNext_bind (fun q fin' hq hkq => ?_) fun q fin' hq hkq => ?_
    · refine runs_take hq (by rw [hkq]; simp) ?_
      refine hexpr.bind (fun _ _ _ _ _ _ _ h => blames_var_init hv hkx hkq h) ?_
      intro e ts _ _ he
      refine runs_pure fun next fin'' hnext => ?_
      rw [List.append_nil]
      exact .varInit hv hkx hkq (he next fin'' hnext)
    · refine runs_pure fun next fin'' hnext => ?_
      rw [hq] at hnext
      cases hnext
      exact .var hv hkx hkq
  · exact blames_var_name hv hkx

/-- A `return`, in front of its keyword. -/
lemma runs_returnStmt (hexpr : expr.Parses Expression BlamesExpression) {r : Token} {mid : Cursor}
    (hscan : cur.scan = .ok r mid) (hr : r.kind = .keyword .ret) :
    Runs (returnStmt expr) cur
      (fun st ts fin => ∀ next fin', fin.scan = .ok next fin' → Statement ts next st)
      BlamesStatement := by
  refine runs_expect_taken hscan hr (by simp) ?_
  refine runs_peek_bind fun tok fin htok => ?_
  split
  · rename_i hvalue
    have hbegins : BeginsValue r tok := ⟨hvalue.1, by simpa using hvalue.2⟩
    refine hexpr.bind ?_ ?_
    · intro us mid' tok' fin' fault hus hscan' h
      obtain ⟨fin'', hhead⟩ := hus.scan_headD hscan'
      rw [htok] at hhead
      cases hhead
      exact blames_ret_value hr hbegins h
    · intro e us mid' hus he
      refine runs_pure fun next fin' hnext => ?_
      obtain ⟨fin'', hhead⟩ := hus.scan_headD hnext
      rw [htok] at hhead
      cases hhead
      rw [List.append_nil]
      exact .retValue hr hbegins (he next fin' hnext)
  · rename_i hvalue
    refine runs_pure fun next fin' hnext => ?_
    rw [htok] at hnext
    cases hnext
    exact .ret hr fun h => hvalue ⟨h.1, by simpa using h.2⟩

/-- A declaration of a function, in front of its keyword. -/
lemma runs_funcStmt (hstmt : stmt.Parses Statement BlamesStatement) {f : Token} {mid : Cursor}
    (hscan : cur.scan = .ok f mid) (hf : f.kind = .keyword .func) (m : Nat) :
    Runs (funcStmt stmt m) cur
      (fun st ts fin => ∀ next fin', fin.scan = .ok next fin' → Statement ts next st)
      BlamesStatement := by
  refine runs_expect_taken hscan hf (by simp) ?_
  refine runs_expectName_bind (fun x _ name _ hx => ?_) fun x _ _ hx => ?_
  · refine runs_expect_bind (by simp) (fun lp _ _ hlp => ?_) fun lp _ _ hlp => ?_
    · refine (parses_params m).bind (fun _ _ _ _ _ _ _ h => blames_func_params hf hx hlp h) ?_
      intro params ps _ _ hparams
      rw [block, bind_assoc]
      refine runs_expect_bind (by simp) (fun lb fin hlb hkb => ?_) fun lb fin hlb hkb => ?_
      · rw [bind_assoc]
        have hps := hparams lb fin hlb
        refine (parses_blockRest hstmt m).bind
          (fun _ _ _ _ _ _ _ h => blames_func_body hf hx hlp hps hkb h) ?_
        intro body us _ _ hbody
        rw [pure_bind]
        refine runs_pure fun next fin' hnext => ?_
        rw [List.append_nil]
        cases hbody next fin' hnext with
        | mk h hrb => exact .func hf hx hlp hps hkb h hrb
      · rw [List.append_nil]
        exact blames_func_brace hf hx hlp (hparams lb fin hlb) hkb
    · exact blames_func_paren hf hx hlp
  · exact blames_func_name hf hx

/-- A block, in front of its brace. -/
lemma runs_blockStmt (hstmt : stmt.Parses Statement BlamesStatement) {lb : Token} {mid : Cursor}
    (hscan : cur.scan = .ok lb mid) (hlb : lb.kind = .symbol .leftBrace) (m : Nat) :
    Runs (do let (pos, body) ← block stmt m; return .block pos pos body) cur
      (fun st ts fin => ∀ next fin', fin.scan = .ok next fin' → Statement ts next st)
      BlamesStatement := by
  rw [block, bind_assoc]
  refine runs_expect_taken hscan hlb (by simp) ?_
  rw [bind_assoc]
  refine (parses_blockRest hstmt m).bind (fun _ _ _ _ _ _ _ h => blames_block_body hlb h) ?_
  intro body us _ _ hbody
  rw [pure_bind]
  refine runs_pure fun next fin' hnext => ?_
  rw [List.append_nil]
  cases hbody next fin' hnext with
  | mk h hrb => exact .block hlb h hrb

end Statements

lemma parses_statementWithin : ∀ n, (statementWithin n).Parses Statement BlamesStatement
  | 0 => fun _ => runs_outOfBudget
  | n + 1 => by
    intro cur
    have hexpr := parses_expressionWithin (n + 1)
    have hstmt := parses_statementWithin n
    refine runs_peek_bind fun tok mid hscan => ?_
    split
    · rename_i hk
      exact runs_varStmt hexpr hscan hk
    · rename_i hk
      exact runs_returnStmt hexpr hscan hk
    · rename_i hk
      exact runs_funcStmt hstmt hscan hk (n + 1)
    · rename_i hk
      exact runs_blockStmt hstmt hscan hk (n + 1)
    · rename_i hvar hret hfunc hbrace
      refine hexpr.bind ?_ ?_
      · intro us mid' tok' fin fault hus hscan' h
        obtain ⟨fin', hhead⟩ := hus.scan_headD hscan'
        rw [hscan] at hhead
        cases hhead
        refine blames_expr (fun kw => ?_) hbrace h
        cases kw with
        | var => exact hvar
        | ret => exact hret
        | func => exact hfunc
      · intro e ts mid' _ he
        refine runs_pure fun next fin hnext => ?_
        rw [List.append_nil]
        exact .expr (he next fin hnext)

end Grammar

/-! ### Texts -/

/-- How the statements of a text are read. -/
lemma outcome_allStatements (source : String) :
    Parser.Outcome (Parser.allStatements source (Lexer.ofString source)) (Cursor.ofString source)
      (fun body ts fin => ∃ eof fin', fin.scan = .ok eof fin' ∧ eof.kind = .endOfInput ∧
        Grammar.Sequence ts eof body) Grammar.BlamesStatements :=
  Grammar.runs_statements (Grammar.parses_statementWithin _) _ _ _ (Lexer.at_ofString source)

/-- **The tokens of a text that is parsed** form the sequence of its
statements. -/
theorem sequence_of_parse {source : String} {p : Program} (h : parse source = .ok p) :
    p.pos = Position.start ∧ ∃ ts eof mid fin, (Cursor.ofString source).Reads ts mid ∧
      mid.scan = .ok eof fin ∧ eof.kind = .endOfInput ∧ Grammar.Sequence ts eof p.body := by
  have hout := outcome_allStatements source
  rw [parse_eq, Parser.runOn, EStateM.run] at h
  rcases hres : Parser.allStatements source (Lexer.ofString source) with ⟨body, lx⟩ | ⟨e, lx⟩
  · rw [hres] at h
    cases h
    obtain ⟨ts, mid, hts, _, eof, fin, hscan, heof, hseq⟩ := hout.value body lx hres
    exact ⟨rfl, ts, eof, mid, fin, hts, hscan, heof, hseq⟩
  · rw [hres] at h
    cases h

/-- **The token that is refused in a text** is to blame. -/
theorem blames_of_parse_error {source : String} {fault : ParseFault} {pos : Position}
    (h : parse source = .error (.parse fault pos)) :
    ∃ ts tok mid fin, (Cursor.ofString source).Reads ts mid ∧ mid.scan = .ok tok fin ∧
      tok.pos = pos ∧ Grammar.BlamesStatements ts tok fault := by
  have hout := outcome_allStatements source
  rw [parse_eq, Parser.runOn, EStateM.run] at h
  rcases hres : Parser.allStatements source (Lexer.ofString source) with ⟨body, lx⟩ | ⟨e, lx⟩
  · rw [hres] at h
    cases h
  · rw [hres] at h
    cases h
    obtain ⟨ts, mid, tok, fin, hts, hscan, hpos, hblame⟩ := hout.fault fault pos lx hres
    exact ⟨ts, tok, mid, fin, hts, hscan, hpos.symm, hblame⟩

/-- **A lexical error of a parse** is the one that the text has behind its first
tokens. -/
theorem fails_of_parse_error {source : String} {fault : LexFault} {pos : Position}
    (h : parse source = .error (.lex fault pos)) :
    (Cursor.ofString source).Fails (.lex fault pos) := by
  have hout := outcome_allStatements source
  rw [parse_eq, Parser.runOn, EStateM.run] at h
  rcases hres : Parser.allStatements source (Lexer.ofString source) with ⟨body, lx⟩ | ⟨e, lx⟩
  · rw [hres] at h
    cases h
  · rw [hres] at h
    cases h
    exact hout.lexical fault pos lx hres

end ClosureCalc
