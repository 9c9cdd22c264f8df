/-
Readers that halt.

A reader draws on a budget. Each nested construct and each repetition takes a token of
its own, so a budget above the number of tokens that come next is never spent, and no
other budget above it leads to another end. The end is a value behind some tokens, or a
failure: an error of the text, or a token that is refused. What the failure is about has
been taken as well, except for the end of the text behind a block that is not closed,
which was only looked at.

* `Cursor.AtMost`: a bound for the number of tokens that come next.
* `Lexer.Stops`: how a reader fails, and the stream that it leaves.
* `Parser.Ends`: the end of a reader; `Parser.Halts`: two readers that come to the same
  end. It passes through binds (`Parser.Halts.bind`).
* `halts_expressionWithin`, `halts_statementWithin`, `halts_programWithin`: the readers of
  the parser, with any two budgets above the number of tokens.
-/
import ClosureCalc.Proofs.Stream

namespace ClosureCalc

/-! ### Tokens that are left -/

/-- At most `n` tokens come next after a cursor. The token at the end of the text does not
count. -/
def Cursor.AtMost (n : Nat) (cur : Cursor) : Prop :=
  ∀ ts fin, cur.Reads ts fin → ts.length ≤ n

/-- What has been read is not left any more. -/
lemma Cursor.AtMost.behind {n : Nat} {cur mid : Cursor} {ts : List Token} (h : cur.AtMost n)
    (hts : cur.Reads ts mid) : mid.AtMost (n - ts.length) := by
  intro us fin hus
  have hle := h _ _ (hts.append hus)
  rw [List.length_append] at hle
  omega

/-- Each token has a character of its own. -/
lemma Cursor.atMost_length (cur : Cursor) : cur.AtMost cur.rest.length :=
  fun _ _ hts => Nat.le_trans (Nat.le_add_right _ _) hts.length_add_le

/-- In a stream one more token may have been looked at. -/
lemma Lexer.At.atMost {lx : Lexer} {cur : Cursor} (h : lx.At cur) :
    cur.AtMost (lx.cursor.rest.length + 1) := by
  intro ts fin hts
  cases h with
  | fresh => exact Nat.le_succ_of_le (cur.atMost_length ts fin hts)
  | peeked hscan =>
    cases hts with
    | nil => exact Nat.zero_le _
    | cons hscan' _ hrest =>
      rw [hscan] at hscan'
      cases hscan'
      exact Nat.succ_le_succ (Cursor.atMost_length _ _ _ hrest)

/-! ### Ends -/

/-- **How a reader fails** in front of what comes next in a stream: it has passed a lexical
error or a token that it refuses. Only the end of the text may be refused when it was
looked at, where a block is not closed. -/
inductive Lexer.Stops (lx : Lexer) : Error → Lexer → Prop
  | lexical {e : Error} {lx' : Lexer} (h : next lx = .error e lx') : Stops lx e lx'
  | refused {tok : Token} {lx' : Lexer} (fault : ParseFault) (h : next lx = .ok tok lx') :
      Stops lx (.parse fault tok.pos) lx'
  | unclosed {tok : Token} {lx' : Lexer} (h : peek lx = .ok tok lx')
      (hend : tok.kind = .endOfInput) : Stops lx (.parse .unclosedBlock tok.pos) lx'

namespace Parser

section Rules

variable {α β : Type} {c d n : Nat} {cur mid : Cursor} {ts : List Token} {tok : Token}
variable {kind : Token.Kind}

/-- **The end of a reader** that went on from a cursor: a value behind at least `c` tokens,
or a failure behind some. -/
inductive Ends (c : Nat) (cur : Cursor) : EStateM.Result Error Lexer α → Prop
  | value {a : α} {ts : List Token} {fin : Cursor} {lx : Lexer} (hts : cur.Reads ts fin)
      (hat : lx.At fin) (hc : c ≤ ts.length) : Ends c cur (.ok a lx)
  | failure {e : Error} {ts : List Token} {mid : Cursor} {lx : Lexer} (hts : cur.Reads ts mid)
      (hstop : (Lexer.mk mid none).Stops e lx) : Ends c cur (.error e lx)

/-- **Two readers halt alike** from a cursor on: both come to the same end. -/
def Halts (cur : Cursor) (c : Nat) (x y : Parser α) : Prop :=
  ∀ lx : Lexer, lx.At cur → Ends c cur (x lx) ∧ y lx = x lx

/-- Two readers halt alike, behind at least one token, where less than `n` tokens come
next. -/
def HaltsBelow (n : Nat) (x y : Parser α) : Prop :=
  ∀ j < n, ∀ cur : Cursor, cur.AtMost j → Halts cur 1 x y

variable {x y : Parser α} {k l : α → Parser β}

lemma HaltsBelow.mono (h : HaltsBelow n x y) {m : Nat} (hm : m ≤ n) : HaltsBelow m x y :=
  fun j hj => h j (Nat.lt_of_lt_of_le hj hm)

/-- An end behind some tokens, with these tokens in front. -/
lemma Ends.behind {r : EStateM.Result Error Lexer β} (h : Ends d mid r) (hts : cur.Reads ts mid)
    (hc : c ≤ ts.length + d) : Ends c cur r := by
  cases h with
  | value hus hat hd =>
    refine .value (hts.append hus) hat ?_
    rw [List.length_append]
    omega
  | failure hus hstop => exact .failure (hts.append hus) hstop

/-- A token that cannot be scanned ends a reader. -/
lemma ends_of_scan_error {e : Error} (hscan : cur.scan = .error e mid) :
    Ends c cur (.error e ⟨mid, none⟩ : EStateM.Result Error Lexer α) :=
  .failure (.nil cur) (.lexical (Lexer.At.eq_of_scan_error (.fresh cur) hscan).1)

lemma halts_pure {a : α} : Halts cur 0 (pure a) (pure a) :=
  fun _ hlx => ⟨.value (.nil cur) hlx (Nat.zero_le _), rfl⟩

/-- What follows a value begins behind its tokens, where fewer tokens are left. -/
lemma Halts.bind (hx : Halts cur c x y) (hcur : cur.AtMost n)
    (hk : ∀ a mid j, mid.AtMost j → j + c ≤ n → Halts mid (d - c) (k a) (l a)) :
    Halts cur d (x >>= k) (y >>= l) := by
  intro lx hlx
  obtain ⟨hend, hsame⟩ := hx lx hlx
  generalize hres : x lx = r at hend hsame
  cases hend with
  | @value a ts mid lx' hts hat hc =>
    have hle := hcur _ _ hts
    obtain ⟨hend, hsame'⟩ := hk a mid _ (hcur.behind hts) (by omega) lx' hat
    rw [bind_eq_of_ok hres, bind_eq_of_ok hsame]
    exact ⟨hend.behind hts (by omega), hsame'⟩
  | failure hts hstop =>
    rw [bind_eq_of_error hres, bind_eq_of_error hsame]
    exact ⟨.failure hts hstop, rfl⟩

/-- A value that is put together from what was read. -/
lemma Halts.map (hx : Halts cur c x y) (hd : d ≤ c) (f : α → β) :
    Halts cur d (do return f (← x)) (do return f (← y)) := by
  refine hx.bind cur.atMost_length fun a mid _ _ _ => ?_
  rw [Nat.sub_eq_zero_of_le hd]
  exact halts_pure

lemma halts_get_bind {k l : Lexer → Parser β} (h : ∀ lx, Halts cur c (k lx) (l lx)) :
    Halts cur c (get >>= k) (get >>= l) :=
  fun lx hlx => h lx lx hlx

/-- A token that is only looked at is still to come. -/
lemma halts_peek_bind {k l : Token → Parser β}
    (h : ∀ tok mid, cur.scan = .ok tok mid → Halts cur c (k tok) (l tok)) :
    Halts cur c (Lexer.peek >>= k) (Lexer.peek >>= l) := by
  intro lx hlx
  rcases hscan : cur.scan with ⟨tok, mid⟩ | ⟨e, mid⟩
  · rw [bind_eq_of_ok (hlx.peek_eq hscan), bind_eq_of_ok (hlx.peek_eq hscan)]
    exact h tok mid hscan _ (.peeked hscan)
  · have hpeek := (hlx.eq_of_scan_error hscan).2
    rw [bind_eq_of_error hpeek, bind_eq_of_error hpeek]
    exact ⟨ends_of_scan_error hscan, rfl⟩

/-- The end of the text is refused where it is looked at. The stream still has it then, so
what is done with the token cannot be separated from looking at it. -/
lemma halts_peek_unclosed {k l : Token → Parser β}
    (h : ∀ tok mid, cur.scan = .ok tok mid → tok.kind ≠ .endOfInput →
      Halts cur c (k tok) (l tok)) :
    Halts cur c
      (do let tok ← Lexer.peek
          if tok.kind = .endOfInput then refuse .unclosedBlock tok else k tok)
      (do let tok ← Lexer.peek
          if tok.kind = .endOfInput then refuse .unclosedBlock tok else l tok) := by
  intro lx hlx
  rcases hscan : cur.scan with ⟨tok, mid⟩ | ⟨e, mid⟩
  · rw [bind_eq_of_ok (hlx.peek_eq hscan), bind_eq_of_ok (hlx.peek_eq hscan)]
    by_cases hend : tok.kind = .endOfInput
    · rw [if_pos hend, if_pos hend]
      have hstop : (Lexer.mk cur none).Stops (.parse .unclosedBlock tok.pos) ⟨mid, some tok⟩ :=
        .unclosed (Lexer.At.peek_eq (.fresh cur) hscan) hend
      exact ⟨.failure (.nil cur) hstop, rfl⟩
    · rw [if_neg hend, if_neg hend]
      exact h tok mid hscan hend _ (.peeked hscan)
  · have hpeek := (hlx.eq_of_scan_error hscan).2
    rw [bind_eq_of_error hpeek, bind_eq_of_error hpeek]
    exact ⟨ends_of_scan_error hscan, rfl⟩

/-- The next token is of the given kind, or it is not. -/
lemma halts_isNext_bind {k l : Bool → Parser β}
    (htrue : ∀ tok mid, cur.scan = .ok tok mid → tok.kind = kind → Halts cur c (k true) (l true))
    (hfalse : Halts cur c (k false) (l false)) :
    Halts cur c (isNext kind >>= k) (isNext kind >>= l) := by
  rw [isNext, bind_assoc, bind_assoc]
  refine halts_peek_bind fun tok mid hscan => ?_
  rw [pure_bind, pure_bind]
  by_cases h : tok.kind = kind
  · rw [decide_eq_true h]
    exact htrue tok mid hscan h
  · rw [decide_eq_false h]
    exact hfalse

/-- What two readers do with a token that has been taken: both refuse it, or both go on
behind it, where fewer than `n` tokens are left. -/
inductive Proceeds (n c : Nat) (tok : Token) (mid : Cursor) : Parser β → Parser β → Prop
  | refuse (fault : ParseFault) : Proceeds n c tok mid (refuse fault tok) (refuse fault tok)
  | go {y z : Parser β} (hkind : tok.kind ≠ .endOfInput)
      (h : ∀ j, mid.AtMost j → j < n → Halts mid (c - 1) y z) : Proceeds n c tok mid y z

lemma halts_next_bind {k l : Token → Parser β} (hcur : cur.AtMost n)
    (h : ∀ tok mid, cur.scan = .ok tok mid → Proceeds n c tok mid (k tok) (l tok)) :
    Halts cur c (Lexer.next >>= k) (Lexer.next >>= l) := by
  intro lx hlx
  rcases hscan : cur.scan with ⟨tok, mid⟩ | ⟨e, mid⟩
  · rw [bind_eq_of_ok (hlx.next_eq hscan), bind_eq_of_ok (hlx.next_eq hscan)]
    have hk := h tok mid hscan
    generalize k tok = y, l tok = z at hk
    cases hk with
    | refuse fault =>
      have hnext := Lexer.At.next_eq (.fresh cur) hscan
      exact ⟨.failure (.nil cur) (.refused fault hnext), rfl⟩
    | go hkind hgo =>
      have hts := Cursor.Reads.single hscan hkind
      have hpos : 1 ≤ n := hcur _ _ hts
      obtain ⟨hend, hsame⟩ := hgo (n - 1) (hcur.behind hts) (by omega) _ (.fresh mid)
      exact ⟨hend.behind hts (by rw [List.length_singleton]; omega), hsame⟩
  · have hnext := (hlx.eq_of_scan_error hscan).1
    rw [bind_eq_of_error hnext, bind_eq_of_error hnext]
    exact ⟨ends_of_scan_error hscan, rfl⟩

/-- A token that is known to come next is taken. -/
lemma halts_take {k l : Token → Parser β} (hcur : cur.AtMost n) (hscan : cur.scan = .ok tok mid)
    (hkind : tok.kind ≠ .endOfInput)
    (h : ∀ j, mid.AtMost j → j < n → Halts mid (c - 1) (k tok) (l tok)) :
    Halts cur c (Lexer.next >>= k) (Lexer.next >>= l) := by
  refine halts_next_bind hcur fun tok' mid' hscan' => ?_
  rw [hscan] at hscan'
  cases hscan'
  exact .go hkind h

lemma halts_expect (hkind : kind ≠ .endOfInput) (hcur : cur.AtMost n) :
    Halts cur 1 (expect kind) (expect kind) := by
  refine halts_next_bind hcur fun tok mid _ => ?_
  split
  · rename_i h
    exact .go (h ▸ hkind) fun _ _ _ => halts_pure
  · exact .refuse _

/-- What was read has a token of the given kind behind it. -/
lemma halts_enclosed {f : α → β} (hx : Halts cur 1 x y) (hcur : cur.AtMost n)
    (hkind : kind ≠ .endOfInput) :
    Halts cur 0 (do let inner ← x; let _ ← expect kind; return f inner)
      (do let inner ← y; let _ ← expect kind; return f inner) :=
  hx.bind hcur fun _ _ _ hmid _ => (halts_expect hkind hmid).map (Nat.zero_le _) _

lemma halts_expectName (role : NameRole) (hcur : cur.AtMost n) :
    Halts cur 1 (expectName role) (expectName role) := by
  refine halts_next_bind hcur fun tok mid _ => ?_
  split
  · rename_i h
    exact .go (by rw [h]; simp) fun _ _ _ => halts_pure
  · exact .refuse _

end Rules

/-! ### Lists -/

section Lists

variable {α : Type} {item item' : Parser α} {wrong : Token.Kind → ParseFault}

lemma halts_items : ∀ {n m m' : Nat} {cur : Cursor}, HaltsBelow (n + 1) item item' →
    cur.AtMost n → n < m → n < m' → Halts cur 1 (items item wrong m) (items item' wrong m')
  | n, m + 1, m' + 1, cur, hitem, hcur, hm, hm' => by
    refine (hitem n n.lt_succ_self cur hcur).bind hcur fun first mid j hmid hj => ?_
    refine halts_next_bind hmid fun ⟨kind, p⟩ fin _ => ?_
    cases kind with
    | symbol s =>
      cases s with
      | comma =>
        refine .go (by simp) fun i hfin hi => ?_
        have hrest : Halts fin 1 (items item wrong m) (items item' wrong m') :=
          halts_items (hitem.mono (by omega)) hfin (by omega) (by omega)
        exact hrest.map (Nat.zero_le _) _
      | rightParen => exact .go (by simp) fun _ _ _ => halts_pure
      | _ => exact .refuse _
    | _ => exact .refuse _

lemma halts_itemsOrNone {n m m' : Nat} {cur : Cursor} (hitem : HaltsBelow (n + 1) item item')
    (hcur : cur.AtMost n) (hm : n < m) (hm' : n < m') :
    Halts cur 1 (itemsOrNone item wrong m) (itemsOrNone item' wrong m') := by
  refine halts_isNext_bind (fun tok mid hscan hk => ?_) ?_
  · exact halts_take hcur hscan (by rw [hk]; simp) fun _ _ _ => halts_pure
  · exact halts_items hitem hcur hm hm'

end Lists

/-! ### Expressions -/

section Expressions

variable {expr expr' : Parser Expr} {n : Nat} {cur : Cursor}

lemma halts_primary (hexpr : HaltsBelow n expr expr') (hcur : cur.AtMost n) :
    Halts cur 1 (primary expr) (primary expr') := by
  refine halts_next_bind hcur fun ⟨kind, p⟩ mid _ => ?_
  cases kind with
  | identifier name => exact .go (by simp) fun _ _ _ => halts_pure
  | number value => exact .go (by simp) fun _ _ _ => halts_pure
  | symbol s =>
    cases s with
    | leftParen =>
      refine .go (by simp) fun j hmid hj => ?_
      exact halts_enclosed (hexpr j hj mid hmid) hmid (by simp)
    | _ => exact .refuse _
  | _ => exact .refuse _

lemma halts_application (hexpr : HaltsBelow n expr expr') (hcur : cur.AtMost n) {m m' : Nat}
    (hm : n ≤ m) (hm' : n ≤ m') : Halts cur 1 (application expr m) (application expr' m') := by
  refine (halts_primary hexpr hcur).bind hcur fun callee mid j hmid hj => ?_
  refine halts_isNext_bind (fun tok fin hscan hk => ?_) halts_pure
  refine halts_take hmid hscan (by rw [hk]; simp) fun i hfin hi => ?_
  have hargs : Halts fin 1 (itemsOrNone expr .afterArgument m)
      (itemsOrNone expr' .afterArgument m') :=
    halts_itemsOrNone (hexpr.mono (by omega)) hfin (by omega) (by omega)
  exact hargs.map (Nat.zero_le _) _

lemma halts_operand {b b' : Nat} : ∀ {n m m' : Nat} {cur : Cursor}, HaltsBelow n expr expr' →
    cur.AtMost n → n ≤ b → n ≤ b' → n < m → n < m' →
      Halts cur 1 (operand expr b m) (operand expr' b' m')
  | n, m + 1, m' + 1, cur, hexpr, hcur, hb, hb', hm, hm' => by
    refine halts_peek_bind fun tok mid hscan => ?_
    cases hop : unaryOp? tok.kind with
    | none => exact halts_application hexpr hcur hb hb'
    | some op =>
      have hkind : tok.kind ≠ .endOfInput := fun hend => by
        rw [hend] at hop
        cases hop
      cases op with
      | absolute =>
        refine halts_take hcur hscan hkind fun j hmid hj => ?_
        exact halts_enclosed (hexpr j hj mid hmid) hmid (by simp)
      | _ =>
        refine halts_take hcur hscan hkind fun j hmid hj => ?_
        have htarget : Halts mid 1 (operand expr b m) (operand expr' b' m') :=
          halts_operand (hexpr.mono (by omega)) hmid (by omega) (by omega) (by omega) (by omega)
        exact htarget.map (Nat.zero_le _) _

lemma halts_chain {unit unit' : Parser Expr} : ∀ {n m m' : Nat} {cur : Cursor} {left : Expr},
    HaltsBelow n unit unit' → cur.AtMost n → n < m → n < m' →
      Halts cur 0 (chain unit m left) (chain unit' m' left)
  | n, m + 1, m' + 1, cur, left, hunit, hcur, hm, hm' => by
    refine halts_peek_bind fun tok mid hscan => ?_
    cases hop : binaryOp? tok.kind with
    | none => exact halts_pure
    | some op =>
      have hkind : tok.kind ≠ .endOfInput := fun hend => by
        rw [hend] at hop
        cases hop
      refine halts_take hcur hscan hkind fun j hmid hj => ?_
      refine (hunit j hj mid hmid).bind hmid fun right fin i hfin hi => ?_
      exact halts_chain (hunit.mono (by omega)) hfin (by omega) (by omega)

/-- **Expressions are read** within every budget above the number of tokens. -/
lemma halts_expressionWithin : ∀ {n m m' : Nat} {cur : Cursor}, cur.AtMost n → n < m → n < m' →
    Halts cur 1 (expressionWithin m) (expressionWithin m')
  | n, m + 1, m' + 1, cur, hcur, hm, hm' => by
    have hexpr : HaltsBelow n (expressionWithin m) (expressionWithin m') := fun j hj mid hmid =>
      halts_expressionWithin hmid (by omega) (by omega)
    have hunit : HaltsBelow (n + 1) (operand (expressionWithin m) (m + 1) (m + 1))
        (operand (expressionWithin m') (m' + 1) (m' + 1)) := fun j hj mid hmid =>
      halts_operand (hexpr.mono (by omega)) hmid (by omega) (by omega) (by omega) (by omega)
    refine (hunit n n.lt_succ_self cur hcur).bind hcur fun left mid j hmid hj => ?_
    exact halts_chain (hunit.mono (by omega)) hmid (by omega) (by omega)

end Expressions

/-! ### Statements -/

section Statements

variable {expr expr' : Parser Expr} {stmt stmt' : Parser Stmt} {n : Nat} {cur : Cursor}

lemma halts_separators : ∀ {n m m' : Nat} {cur : Cursor}, cur.AtMost n → n < m → n < m' →
    Halts cur 0 (separators m) (separators m')
  | n, m + 1, m' + 1, cur, hcur, hm, hm' => by
    refine halts_isNext_bind (fun tok mid hscan hk => ?_) halts_pure
    refine halts_take hcur hscan (by rw [hk]; simp) fun j hmid hj => ?_
    exact halts_separators hmid (by omega) (by omega)

/-- One more statement, and then the others. -/
lemma halts_first {rest rest' : Parser (List Stmt)} (hstmt : HaltsBelow (n + 1) stmt stmt')
    (hcur : cur.AtMost n)
    (hrest : ∀ j < n, ∀ mid : Cursor, mid.AtMost j → Halts mid 0 rest rest') :
    Halts cur 0 (do let first ← stmt; return first :: (← rest))
      (do let first ← stmt'; return first :: (← rest')) := by
  refine (hstmt n n.lt_succ_self cur hcur).bind hcur fun first mid j hmid hj => ?_
  exact (hrest j (by omega) mid hmid).map (Nat.zero_le _) _

lemma halts_blockRest : ∀ {n m m' : Nat} {cur : Cursor}, HaltsBelow (n + 1) stmt stmt' →
    cur.AtMost n → n < m → n < m' → Halts cur 0 (blockRest stmt m) (blockRest stmt' m')
  | n, m + 1, m' + 1, cur, hstmt, hcur, hm, hm' => by
    refine (halts_separators hcur hm hm').bind hcur fun _ mid j hmid hj => ?_
    refine halts_peek_unclosed fun tok fin hscan hkind => ?_
    split
    · exact halts_take hmid hscan hkind fun _ _ _ => halts_pure
    · refine halts_first (hstmt.mono (by omega)) hmid fun i hi mid' hmid' => ?_
      exact halts_blockRest (hstmt.mono (by omega)) hmid' (by omega) (by omega)

lemma halts_block {m m' : Nat} (hstmt : HaltsBelow n stmt stmt') (hcur : cur.AtMost n)
    (hm : n ≤ m) (hm' : n ≤ m') : Halts cur 1 (block stmt m) (block stmt' m') := by
  refine (halts_expect (by simp) hcur).bind hcur fun tok mid j hmid hj => ?_
  have hrest : Halts mid 0 (blockRest stmt m) (blockRest stmt' m') :=
    halts_blockRest (hstmt.mono (by omega)) hmid (by omega) (by omega)
  exact hrest.map (Nat.zero_le _) _

lemma halts_varStmt (hexpr : HaltsBelow n expr expr') (hcur : cur.AtMost n) :
    Halts cur 1 (varStmt expr) (varStmt expr') := by
  refine (halts_expect (by simp) hcur).bind hcur fun tok mid j hmid hj => ?_
  refine (halts_expectName _ hmid).bind hmid fun name fin i hfin hi => ?_
  refine halts_isNext_bind (fun tok' fin' hscan hk => ?_) halts_pure
  refine halts_take hfin hscan (by rw [hk]; simp) fun h hfin' hh => ?_
  exact (hexpr h (by omega) fin' hfin').map (Nat.zero_le _) _

lemma halts_returnStmt (hexpr : HaltsBelow n expr expr') (hcur : cur.AtMost n) :
    Halts cur 1 (returnStmt expr) (returnStmt expr') := by
  refine (halts_expect (by simp) hcur).bind hcur fun tok mid j hmid hj => ?_
  refine halts_peek_bind fun next fin hscan => ?_
  split
  · exact (hexpr j (by omega) mid hmid).map (Nat.zero_le _) _
  · exact halts_pure

lemma halts_funcStmt {m m' : Nat} (hstmt : HaltsBelow n stmt stmt') (hcur : cur.AtMost n)
    (hm : n ≤ m) (hm' : n ≤ m') : Halts cur 1 (funcStmt stmt m) (funcStmt stmt' m') := by
  refine (halts_expect (by simp) hcur).bind hcur fun tok mid j hmid hj => ?_
  refine (halts_expectName _ hmid).bind hmid fun name mid₁ j₁ hmid₁ hj₁ => ?_
  refine (halts_expect (by simp) hmid₁).bind hmid₁ fun _ mid₂ j₂ hmid₂ hj₂ => ?_
  have hparam : HaltsBelow (j₂ + 1) (expectName .ofParameter) (expectName .ofParameter) :=
    fun _ _ _ h => halts_expectName _ h
  refine (halts_itemsOrNone hparam hmid₂ (by omega) (by omega)).bind hmid₂
    fun params mid₃ j₃ hmid₃ hj₃ => ?_
  have hbody : Halts mid₃ 1 (block stmt m) (block stmt' m') :=
    halts_block (hstmt.mono (by omega)) hmid₃ (by omega) (by omega)
  exact hbody.map (Nat.zero_le _) _

/-- **Statements are read** within every budget above the number of tokens. -/
lemma halts_statementWithin : ∀ {n m m' : Nat} {cur : Cursor}, cur.AtMost n → n < m → n < m' →
    Halts cur 1 (statementWithin m) (statementWithin m')
  | n, m + 1, m' + 1, cur, hcur, hm, hm' => by
    have hexpr : HaltsBelow (n + 1) (expressionWithin (m + 1)) (expressionWithin (m' + 1)) :=
      fun j hj mid hmid => halts_expressionWithin hmid (by omega) (by omega)
    have hstmt : HaltsBelow n (statementWithin m) (statementWithin m') := fun j hj mid hmid =>
      halts_statementWithin hmid (by omega) (by omega)
    have hother : Halts cur 1
        (do let e ← expressionWithin (m + 1); return Stmt.expr e.pos e)
        (do let e ← expressionWithin (m' + 1); return Stmt.expr e.pos e) :=
      (hexpr n n.lt_succ_self cur hcur).map (Nat.le_refl _) _
    refine halts_peek_bind fun ⟨kind, p⟩ mid _ => ?_
    cases kind with
    | keyword k =>
      cases k with
      | var => exact halts_varStmt (hexpr.mono n.le_succ) hcur
      | ret => exact halts_returnStmt (hexpr.mono n.le_succ) hcur
      | func => exact halts_funcStmt hstmt hcur (by omega) (by omega)
    | symbol s =>
      cases s with
      | leftBrace => exact (halts_block hstmt hcur (by omega) (by omega)).map (Nat.le_refl _) _
      | _ => exact hother
    | _ => exact hother

/-- **The statements of a text are read** within every budget above the number of
tokens. -/
lemma halts_statements : ∀ {n m m' : Nat} {cur : Cursor}, HaltsBelow (n + 1) stmt stmt' →
    cur.AtMost n → n < m → n < m' → Halts cur 0 (statements stmt m) (statements stmt' m')
  | n, m + 1, m' + 1, cur, hstmt, hcur, hm, hm' => by
    refine (halts_separators hcur hm hm').bind hcur fun _ mid j hmid hj => ?_
    refine halts_isNext_bind (fun _ _ _ _ => halts_pure) ?_
    refine halts_first (hstmt.mono (by omega)) hmid fun i hi mid' hmid' => ?_
    exact halts_statements (hstmt.mono (by omega)) hmid' (by omega) (by omega)

/-- All that is left of a stream as a program, within a budget. -/
def programWithin (n : Nat) : Parser Program := do
  let lx ← get
  return ⟨lx.pos, ← statements (statementWithin n) n⟩

/-- **Programs are read** within every budget above the number of tokens. -/
lemma halts_programWithin {m m' : Nat} (hcur : cur.AtMost n) (hm : n < m) (hm' : n < m') :
    Halts cur 0 (programWithin m) (programWithin m') := by
  have hstmt : HaltsBelow (n + 1) (statementWithin m) (statementWithin m') :=
    fun j hj mid hmid => halts_statementWithin hmid (by omega) (by omega)
  refine halts_get_bind fun lx => ?_
  exact (halts_statements hstmt hcur hm hm').map (Nat.le_refl _) _

end Statements

end Parser

end ClosureCalc
