/-
Two parses in step.

A parser sees only what kinds its tokens have, and whether the token behind a
`return` stands on its line. So two texts in which these are the same are parsed
in step: each reader takes the same number of tokens of both, and builds the same
tree with other places, or refuses the same token.

* `Cursor.InStep`: two cursors in front of tokens of the same kinds, at places
  that are related, and of the same lexical fault, if there is one.
* `Cursor.Simulation`: a relation of cursors that scanning keeps, so that they are
  in step (`Cursor.Simulation.inStep`).
* `Parser.InStep`: two readers that end alike wherever two streams are in step;
  `Parser.Takes`: besides, they take at least one token. Both pass through binds
  (`Parser.InStep.bind`).
* `takes_expressionWithin`, `takes_statementWithin`, `inStep_statements`: the
  readers of the parser, with any two budgets above the number of tokens.
* `Cursor.InStep.tokens`, `Cursor.InStep.parse`: the tokens of two texts in step,
  and what they are parsed to; `SameParse.sameAnswer`: what running them answers.
-/
import ClosureCalc.Proofs.Accepts
import ClosureCalc.Proofs.Relocation
import ClosureCalc.Proofs.Whereabouts

namespace ClosureCalc

/-! ### Cursors in step -/

/-- The next token behind two cursors is in both cases on the line of the token in
front of it, or in neither. -/
def SameBreak (tok tok' : Token) (cur cur' : Cursor) : Prop :=
  ∀ next next' mid mid', cur.scan = .ok next mid → cur'.scan = .ok next' mid' →
    (next.pos.line = tok.pos.line ↔ next'.pos.line = tok'.pos.line)

/-- **Cursors in step**, in front of `n` tokens: the tokens have the same kinds, and
behind a `return` the line ends in both texts or in neither. In both texts there
comes the end then, or the same lexical fault. Places are related by `P`. -/
inductive Cursor.InStep (P : Position → Position → Prop) : Nat → Cursor → Cursor → Prop
  | fault {cur cur' mid mid' : Cursor} {fault : LexFault} {p p' : Position}
      (hscan : cur.scan = .error (.lex fault p) mid)
      (hscan' : cur'.scan = .error (.lex fault p') mid') (hp : P p p') : InStep P 0 cur cur'
  | last {cur cur' mid mid' : Cursor} {tok tok' : Token} (hscan : cur.scan = .ok tok mid)
      (hscan' : cur'.scan = .ok tok' mid') (hkind : tok.kind = .endOfInput)
      (hkind' : tok'.kind = .endOfInput) (hp : P tok.pos tok'.pos) : InStep P 0 cur cur'
  | token {n : Nat} {cur cur' mid mid' : Cursor} {tok tok' : Token}
      (hscan : cur.scan = .ok tok mid) (hscan' : cur'.scan = .ok tok' mid')
      (hkind : tok'.kind = tok.kind) (hmore : tok.kind ≠ .endOfInput) (hp : P tok.pos tok'.pos)
      (hbreak : tok.kind = .keyword .ret → SameBreak tok tok' mid mid')
      (hrest : InStep P n mid mid') : InStep P (n + 1) cur cur'

/-- In front of the end of a text there is only layout. -/
lemma Cursor.eq_skipLayout_of_end {cur mid : Cursor} {tok : Token} (h : cur.scan = .ok tok mid)
    (hkind : tok.kind = .endOfInput) :
    cur.skipLayout.rest = [] ∧ tok = ⟨.endOfInput, cur.skipLayout.pos⟩ ∧ mid = cur.skipLayout := by
  rw [Cursor.scan] at h
  simp only at h
  split at h
  · rename_i hrest
    cases h
    exact ⟨hrest, rfl, rfl⟩
  · split at h
    · rename_i hout
      cases h
      obtain rfl := hkind
      exact absurd hout (Lexeme.first_ne_endOfInput _ _)
    · cases h

/-- The end of a text is not taken; it comes next again. -/
lemma Cursor.scan_of_end {cur mid : Cursor} {tok : Token} (h : cur.scan = .ok tok mid)
    (hkind : tok.kind = .endOfInput) : mid.scan = .ok tok mid := by
  obtain ⟨hrest, rfl, rfl⟩ := Cursor.eq_skipLayout_of_end h hkind
  have hskip : cur.skipLayout.skipLayout = cur.skipLayout := by
    rw [skipLayout, hrest]
    rfl
  rw [Cursor.scan, hskip, hrest]

/-- Tokens that are alike, in front of which two streams had `n` tokens. -/
structure Token.Alike (P : Position → Position → Prop) (n : Nat) (tok tok' : Token) : Prop where
  kind : tok'.kind = tok.kind
  pos : P tok.pos tok'.pos
  more : tok.kind ≠ .endOfInput → 0 < n

section Scan

variable {P : Position → Position → Prop} {n : Nat} {cur cur' : Cursor}

/-- What comes next in two texts in step: tokens that are alike and texts in step
behind them, or the same fault. -/
lemma Cursor.InStep.scan (h : cur.InStep P n cur') :
    (∃ tok tok' mid mid', cur.scan = .ok tok mid ∧ cur'.scan = .ok tok' mid' ∧
        tok.Alike P n tok' ∧ mid.InStep P (n - 1) mid') ∨
      ∃ fault p p' mid mid', cur.scan = .error (.lex fault p) mid ∧
        cur'.scan = .error (.lex fault p') mid' ∧ P p p' := by
  cases h with
  | fault hscan hscan' hp => exact .inr ⟨_, _, _, _, _, hscan, hscan', hp⟩
  | last hscan hscan' hkind hkind' hp =>
    refine .inl ⟨_, _, _, _, hscan, hscan', ⟨hkind'.trans hkind.symm, hp, absurd hkind⟩, ?_⟩
    exact .last (Cursor.scan_of_end hscan hkind) (Cursor.scan_of_end hscan' hkind') hkind hkind' hp
  | token hscan hscan' hkind hmore hp hbreak hrest =>
    exact .inl ⟨_, _, _, _, hscan, hscan', ⟨hkind, hp, fun _ => Nat.succ_pos _⟩, hrest⟩

end Scan

/-! ### Texts that are scanned alike -/

/-- **A simulation** of one scan by another: a relation of cursors that is kept when
both are moved over layout, and then over a lexeme, which is the same for both. The
places of the cursors are related by `P`, which respects lines. -/
structure Cursor.Simulation (P : Position → Position → Prop) (C : Cursor → Cursor → Prop) :
    Prop where
  line : ∀ {p p' q q'}, P p p' → P q q' → (p.line = q.line ↔ p'.line = q'.line)
  pos : ∀ {cur cur'}, C cur cur' → P cur.pos cur'.pos
  skipLayout : ∀ {cur cur'}, C cur cur' → C cur.skipLayout cur'.skipLayout
  nil : ∀ {cur cur'}, C cur cur' → cur.rest = [] → cur'.rest = []
  cons : ∀ {cur cur' c rest}, C cur cur' → cur.rest = c :: rest → isBlank c = false →
    ∃ rest', cur'.rest = c :: rest' ∧ Lexeme.first c rest' = Lexeme.first c rest ∧
      C (cur.advanceBy (Lexeme.first c rest).size) (cur'.advanceBy (Lexeme.first c rest).size)

/-- Scans with the same result: tokens of the same kind in front of cursors that are
related again, or the same lexical fault. -/
inductive Cursor.SameScan (P : Position → Position → Prop) (C : Cursor → Cursor → Prop) :
    EStateM.Result Error Cursor Token → EStateM.Result Error Cursor Token → Prop
  | ok {tok tok' : Token} {mid mid' : Cursor} (hkind : tok'.kind = tok.kind)
      (hp : P tok.pos tok'.pos) (hmid : C mid mid') : SameScan P C (.ok tok mid) (.ok tok' mid')
  | error {p p' : Position} {mid mid' : Cursor} (fault : LexFault) (hp : P p p') :
      SameScan P C (.error (.lex fault p) mid) (.error (.lex fault p') mid')

namespace Cursor.Simulation

variable {P : Position → Position → Prop} {C : Cursor → Cursor → Prop} {cur cur' : Cursor}

lemma sameScan (hC : Simulation P C) (h : C cur cur') : SameScan P C cur.scan cur'.scan := by
  have hbegin := hC.skipLayout h
  have hbeginPos := hC.pos hbegin
  rw [Cursor.scan, Cursor.scan]
  cases hrest : cur.skipLayout.rest with
  | nil =>
    simp only [hC.nil hbegin hrest]
    exact .ok rfl hbeginPos hbegin
  | cons c rest =>
    have hblank : isBlank c = false := isBlank_of_layout (hrest ▸ cur.layout_rest_skipLayout)
    obtain ⟨rest', hrest', hfirst, hfinish⟩ := hC.cons hbegin hrest hblank
    simp only [hrest', hfirst]
    cases (Lexeme.first c rest).outcome with
    | ok kind => exact .ok rfl hbeginPos hfinish
    | error fault =>
      refine .error fault ?_
      split
      · exact hbeginPos
      · exact hC.pos hfinish

/-- **Cursors that simulate each other are in step.** -/
lemma inStep (hC : Simulation P C) (h : C cur cur') : ∃ n, cur.InStep P n cur' := by
  induction hlength : cur.rest.length using Nat.strong_induction_on generalizing cur cur' with
  | _ length ih =>
    subst hlength
    have hsame := hC.sameScan h
    generalize hscan : cur.scan = r, hscan' : cur'.scan = r' at hsame
    cases hsame with
    | error fault hp => exact ⟨0, .fault hscan hscan' hp⟩
    | @ok tok tok' mid mid' hkind hp hmid =>
      by_cases hend : tok.kind = .endOfInput
      · exact ⟨0, .last hscan hscan' hend (hkind.trans hend) hp⟩
      · obtain ⟨n, hn⟩ := ih _ (length_rest_lt_of_scan_ok hscan hend) hmid rfl
        refine ⟨n + 1, .token hscan hscan' hkind hend hp (fun _ => ?_) hn⟩
        intro next next' fin fin' hnext hnext'
        have hnextSame := hC.sameScan hmid
        rw [hnext, hnext'] at hnextSame
        cases hnextSame with
        | ok _ hp' _ => exact hC.line hp' hp

end Cursor.Simulation

namespace Parser

/-! ### Readers in step -/

section Rules

variable {α α' β β' : Type} {P : Position → Position → Prop} {n : Nat}

/-- Errors of two texts that cannot be parsed: the same fault, at places that are
related. -/
inductive SameFault (P : Position → Position → Prop) : Error → Error → Prop
  | lex {p p' : Position} (fault : LexFault) (hp : P p p') :
      SameFault P (.lex fault p) (.lex fault p')
  | parse {p p' : Position} (fault : ParseFault) (hp : P p p') :
      SameFault P (.parse fault p) (.parse fault p')

/-- **Ends that are alike**: values related by `Q` and streams that are in step, or
the same fault. `Q` also sees how many tokens are left. -/
inductive EndInStep (P : Position → Position → Prop) (Q : Nat → α → α' → Prop) :
    EStateM.Result Error Lexer α → EStateM.Result Error Lexer α' → Prop
  | ok {j : Nat} {a : α} {a' : α'} {lx lx' : Lexer} {cur cur' : Cursor} (hat : lx.At cur)
      (hat' : lx'.At cur') (hcur : cur.InStep P j cur') (ha : Q j a a') :
      EndInStep P Q (.ok a lx) (.ok a' lx')
  | error {e e' : Error} {lx lx' : Lexer} (he : SameFault P e e') :
      EndInStep P Q (.error e lx) (.error e' lx')

/-- **Readers in step**: from streams in step in front of `n` tokens they end
alike. -/
def InStep (P : Position → Position → Prop) (n : Nat) (x : Parser α) (y : Parser α')
    (Q : Nat → α → α' → Prop) : Prop :=
  ∀ cur cur' lx lx', cur.InStep P n cur' → lx.At cur → lx'.At cur' →
    EndInStep P Q (x lx) (y lx')

/-- **Readers in step that take at least one token.** -/
def Takes (P : Position → Position → Prop) (n : Nat) (x : Parser α) (y : Parser α')
    (R : α → α' → Prop) : Prop :=
  InStep P n x y fun j a a' => j < n ∧ R a a'

variable {x : Parser α} {y : Parser α'} {k : α → Parser β} {l : α' → Parser β'}
variable {Q Q₁ : Nat → α → α' → Prop} {Q' : Nat → β → β' → Prop}

lemma InStep.mono (h : InStep P n x y Q) (hQ : ∀ j a a', Q j a a' → Q₁ j a a') :
    InStep P n x y Q₁ := by
  intro cur cur' lx lx' hcur hlx hlx'
  have hend := h cur cur' lx lx' hcur hlx hlx'
  generalize x lx = r, y lx' = r' at hend ⊢
  cases hend with
  | ok hat hat' hcur ha => exact .ok hat hat' hcur (hQ _ _ _ ha)
  | error he => exact .error he

lemma inStep_pure {a : α} {a' : α'} (h : Q n a a') : InStep P n (pure a) (pure a') Q :=
  fun _ _ _ _ hcur hlx hlx' => .ok hlx hlx' hcur h

lemma inStep_refuse (fault : ParseFault) {tok tok' : Token} (h : P tok.pos tok'.pos) :
    InStep P n (refuse fault tok) (refuse fault tok') Q :=
  fun _ _ _ _ _ _ _ => .error (.parse fault h)

/-- What follows starts from streams that are in step again. -/
lemma InStep.bind (hx : InStep P n x y Q)
    (hk : ∀ j a a', Q j a a' → InStep P j (k a) (l a') Q') :
    InStep P n (x >>= k) (y >>= l) Q' := by
  intro cur cur' lx lx' hcur hlx hlx'
  have hend := hx cur cur' lx lx' hcur hlx hlx'
  generalize h : x lx = r, h' : y lx' = r' at hend
  cases hend with
  | ok hat hat' hmid ha =>
    rw [bind_eq_of_ok h, bind_eq_of_ok h']
    exact hk _ _ _ ha _ _ _ _ hmid hat hat'
  | error he =>
    rw [bind_eq_of_error h, bind_eq_of_error h']
    exact .error he

lemma inStep_next : InStep P n Lexer.next Lexer.next fun j tok tok' =>
    j = n - 1 ∧ tok.Alike P n tok' := by
  intro cur cur' lx lx' hcur hlx hlx'
  obtain ⟨tok, tok', mid, mid', hscan, hscan', htok, hmid⟩ |
    ⟨fault, p, p', mid, mid', hscan, hscan', hp⟩ := hcur.scan
  · rw [hlx.next_eq hscan, hlx'.next_eq hscan']
    exact .ok (.fresh mid) (.fresh mid') hmid ⟨rfl, htok⟩
  · rw [(hlx.eq_of_scan_error hscan).1, (hlx'.eq_of_scan_error hscan').1]
    exact .error (.lex fault hp)

lemma inStep_peek : InStep P n Lexer.peek Lexer.peek fun j tok tok' =>
    j = n ∧ tok.Alike P n tok' := by
  intro cur cur' lx lx' hcur hlx hlx'
  obtain ⟨tok, tok', mid, mid', hscan, hscan', htok, hmid⟩ |
    ⟨fault, p, p', mid, mid', hscan, hscan', hp⟩ := hcur.scan
  · rw [hlx.peek_eq hscan, hlx'.peek_eq hscan']
    exact .ok (.peeked hscan) (.peeked hscan') hcur ⟨rfl, htok⟩
  · rw [(hlx.eq_of_scan_error hscan).2, (hlx'.eq_of_scan_error hscan').2]
    exact .error (.lex fault hp)

/-- The next token is of the given kind in both texts, or in neither. -/
lemma inStep_isNext (kind : Token.Kind) :
    InStep P n (isNext kind) (isNext kind) fun j b b' =>
      j = n ∧ b' = b ∧ (b = true → kind ≠ .endOfInput → 0 < n) := by
  refine inStep_peek.bind ?_
  rintro j tok tok' ⟨rfl, htok⟩
  refine inStep_pure ⟨rfl, by rw [htok.kind], fun hb hkind => htok.more ?_⟩
  rwa [of_decide_eq_true hb]

/-- A token of the given kind is taken, or another one is refused. -/
lemma takes_expect {kind : Token.Kind} (hkind : kind ≠ .endOfInput) :
    Takes P n (expect kind) (expect kind) fun tok tok' => P tok.pos tok'.pos := by
  refine inStep_next.bind ?_
  rintro j tok tok' ⟨rfl, htok⟩
  rw [htok.kind]
  split
  · rename_i h
    have hpos := htok.more (h ▸ hkind)
    exact inStep_pure ⟨by omega, htok.pos⟩
  · exact inStep_refuse _ htok.pos

lemma takes_expectName (role : NameRole) :
    Takes P n (expectName role) (expectName role) fun name name' => name' = name := by
  refine inStep_next.bind ?_
  rintro j ⟨kind, p⟩ ⟨kind', p'⟩ ⟨rfl, hkind, hp, hmore⟩
  obtain rfl : kind' = kind := hkind
  cases kind' with
  | identifier name =>
    have hpos := hmore (by simp)
    exact inStep_pure ⟨by omega, rfl⟩
  | _ => exact inStep_refuse _ hp

/-- A `return` is taken, and the next token is looked at. -/
lemma inStep_return_bind {k l : Token → Token → Parser β} {Q' : Nat → β → β → Prop}
    (h : ∀ j tok tok' next next', j < n → P tok.pos tok'.pos → next.Alike P j next' →
      (next.pos.line = tok.pos.line ↔ next'.pos.line = tok'.pos.line) →
      InStep P j (k tok next) (l tok' next') Q') :
    InStep P n (do let tok ← expect (.keyword .ret); k tok (← Lexer.peek))
      (do let tok ← expect (.keyword .ret); l tok (← Lexer.peek)) Q' := by
  intro cur cur' lx lx' hcur hlx hlx'
  cases hcur with
  | fault hscan hscan' hp =>
    rw [expect, bind_assoc, bind_assoc, bind_eq_of_error (hlx.eq_of_scan_error hscan).1,
      bind_eq_of_error (hlx'.eq_of_scan_error hscan').1]
    exact .error (.lex _ hp)
  | last hscan hscan' hkind hkind' hp =>
    rw [expect, bind_assoc, bind_assoc, bind_eq_of_ok (hlx.next_eq hscan),
      bind_eq_of_ok (hlx'.next_eq hscan'), if_neg (by rw [hkind]; simp),
      if_neg (by rw [hkind']; simp), hkind, hkind']
    exact .error (.parse _ hp)
  | @token m _ _ mid mid' tok tok' hscan hscan' hkind hmore hp hbreak hrest =>
    rw [expect, bind_assoc, bind_assoc, bind_eq_of_ok (hlx.next_eq hscan),
      bind_eq_of_ok (hlx'.next_eq hscan'), hkind]
    split
    · rename_i hret
      rw [pure_bind, pure_bind]
      obtain ⟨next, next', fin, fin', hnext, hnext', halike, -⟩ |
        ⟨fault, p, p', fin, fin', hnext, hnext', hp'⟩ := hrest.scan
      · rw [bind_eq_of_ok (Lexer.At.peek_eq (.fresh mid) hnext),
          bind_eq_of_ok (Lexer.At.peek_eq (.fresh mid') hnext')]
        exact h m tok tok' next next' (Nat.lt_succ_self m) hp halike
          (hbreak hret next next' fin fin' hnext hnext') _ _ _ _ hrest (.peeked hnext)
          (.peeked hnext')
      · rw [bind_eq_of_error (Lexer.At.eq_of_scan_error (.fresh mid) hnext).2,
          bind_eq_of_error (Lexer.At.eq_of_scan_error (.fresh mid') hnext').2]
        exact .error (.lex fault hp')
    · exact .error (.parse _ hp)

end Rules

/-! ### Lists -/

section Lists

variable {α : Type} {P : Position → Position → Prop} {item item' : Parser α} {R : α → α → Prop}
variable {wrong : Token.Kind → ParseFault}

lemma takes_items : ∀ {n m m' : Nat}, (∀ j ≤ n, Takes P j item item' R) → n < m → n < m' →
    Takes P n (items item wrong m) (items item' wrong m') (List.Forall₂ R)
  | n, m + 1, m' + 1, hitem, hm, hm' => by
    refine (hitem n le_rfl).bind ?_
    rintro i a a' ⟨hi, ha⟩
    refine inStep_next.bind ?_
    rintro j ⟨kind, p⟩ ⟨kind', p'⟩ ⟨rfl, hkind, hp, hmore⟩
    obtain rfl : kind' = kind := hkind
    cases kind' with
    | symbol s =>
      cases s with
      | comma =>
        have hrest : Takes P (i - 1) (items item wrong m) (items item' wrong m')
            (List.Forall₂ R) :=
          takes_items (fun j hj => hitem j (by omega)) (by omega) (by omega)
        refine hrest.bind ?_
        rintro j as as' ⟨hj, has⟩
        exact inStep_pure ⟨by omega, .cons ha has⟩
      | rightParen => exact inStep_pure ⟨by omega, .cons ha .nil⟩
      | _ => exact inStep_refuse _ hp
    | _ => exact inStep_refuse _ hp

lemma takes_itemsOrNone {n m m' : Nat} (hitem : ∀ j ≤ n, Takes P j item item' R) (hm : n < m)
    (hm' : n < m') :
    Takes P n (itemsOrNone item wrong m) (itemsOrNone item' wrong m') (List.Forall₂ R) := by
  refine (inStep_isNext _).bind ?_
  rintro j b b' ⟨rfl, rfl, hmore⟩
  cases b' with
  | true =>
    have hpos := hmore rfl (by simp)
    refine inStep_next.bind ?_
    rintro i _ _ ⟨rfl, -⟩
    exact inStep_pure ⟨by omega, .nil⟩
  | false => exact takes_items hitem hm hm'

end Lists

/-! ### Expressions -/

section Expressions

variable {P : Position → Position → Prop} {n : Nat} {expr expr' : Parser Expr}

lemma takes_primary (hexpr : ∀ j < n, Takes P j expr expr' (Expr.Alike P)) :
    Takes P n (primary expr) (primary expr') (Expr.Alike P) := by
  refine inStep_next.bind ?_
  rintro j ⟨kind, p⟩ ⟨kind', p'⟩ ⟨rfl, hkind, hp, hmore⟩
  obtain rfl : kind' = kind := hkind
  cases kind' with
  | identifier name =>
    have hpos := hmore (by simp)
    exact inStep_pure ⟨by omega, .identifier hp name⟩
  | number value =>
    have hpos := hmore (by simp)
    exact inStep_pure ⟨by omega, .number hp value⟩
  | symbol s =>
    have hpos := hmore (by simp)
    cases s with
    | leftParen =>
      refine (hexpr (n - 1) (by omega)).bind ?_
      rintro j inner inner' ⟨hj, hinner⟩
      refine (takes_expect (by simp)).bind ?_
      rintro i _ _ ⟨hi, -⟩
      exact inStep_pure ⟨by omega, hinner⟩
    | _ => exact inStep_refuse _ hp
  | unexpected c => exact inStep_refuse _ hp
  | keyword k => exact inStep_refuse _ hp
  | endOfInput => exact inStep_refuse _ hp

lemma takes_application (hexpr : ∀ j < n, Takes P j expr expr' (Expr.Alike P)) {m m' : Nat}
    (hm : n ≤ m) (hm' : n ≤ m') :
    Takes P n (application expr m) (application expr' m') (Expr.Alike P) := by
  refine (takes_primary hexpr).bind ?_
  rintro j callee callee' ⟨hj, hcallee⟩
  refine (inStep_isNext _).bind ?_
  rintro _ b b' ⟨rfl, rfl, -⟩
  cases b' with
  | true =>
    refine inStep_next.bind ?_
    rintro i _ _ ⟨rfl, -⟩
    refine (takes_itemsOrNone (fun i hi => hexpr i (by omega)) (by omega) (by omega)).bind ?_
    rintro i args args' ⟨hi, hargs⟩
    exact inStep_pure ⟨by omega, .call hcallee.pos hcallee hargs⟩
  | false => exact inStep_pure ⟨hj, hcallee⟩

lemma takes_operand {b b' : Nat} : ∀ {n m m' : Nat},
    (∀ j < n, Takes P j expr expr' (Expr.Alike P)) → n ≤ b → n ≤ b' → n < m → n < m' →
      Takes P n (operand expr b m) (operand expr' b' m') (Expr.Alike P)
  | n, m + 1, m' + 1, hexpr, hb, hb', hm, hm' => by
    refine inStep_peek.bind ?_
    rintro n tok tok' ⟨rfl, hkind, -, hmore⟩
    rw [hkind]
    cases hop : unaryOp? tok.kind with
    | none => exact takes_application hexpr hb hb'
    | some op =>
      have hpos := hmore fun hend => by
        rw [hend] at hop
        cases hop
      cases op with
      | absolute =>
        refine inStep_next.bind ?_
        rintro _ bar bar' ⟨rfl, -, hbar, -⟩
        refine (hexpr (n - 1) (by omega)).bind ?_
        rintro j inner inner' ⟨hj, hinner⟩
        refine (takes_expect (by simp)).bind ?_
        rintro i _ _ ⟨hi, -⟩
        exact inStep_pure ⟨by omega, .unary hbar _ hinner⟩
      | _ =>
        refine inStep_next.bind ?_
        rintro _ sign sign' ⟨rfl, -, hsign, -⟩
        have htarget : Takes P (n - 1) (operand expr b m) (operand expr' b' m') (Expr.Alike P) :=
          takes_operand (fun j hj => hexpr j (by omega)) (by omega) (by omega) (by omega) (by omega)
        refine htarget.bind ?_
        rintro i target target' ⟨hi, htarget⟩
        exact inStep_pure ⟨by omega, .unary hsign _ htarget⟩

lemma inStep_chain {unit unit' : Parser Expr} : ∀ {n m m' : Nat} {left left' : Expr},
    (∀ j < n, Takes P j unit unit' (Expr.Alike P)) → n < m → n < m' → left.Alike P left' →
      InStep P n (chain unit m left) (chain unit' m' left') fun j e e' => j ≤ n ∧ e.Alike P e'
  | n, m + 1, m' + 1, left, left', hunit, hm, hm', hleft => by
    refine inStep_peek.bind ?_
    rintro n tok tok' ⟨rfl, hkind, -, hmore⟩
    rw [hkind]
    cases hop : binaryOp? tok.kind with
    | none => exact inStep_pure ⟨le_rfl, hleft⟩
    | some op =>
      have hpos := hmore fun hend => by
        rw [hend] at hop
        cases hop
      refine inStep_next.bind ?_
      rintro _ _ _ ⟨rfl, -⟩
      refine (hunit (n - 1) (by omega)).bind ?_
      rintro j right right' ⟨hj, hright⟩
      have hboth := Expr.Alike.binary hleft.pos op hleft hright
      have hrest : InStep P j (chain unit m _) (chain unit' m' _) fun i e e' =>
          i ≤ j ∧ e.Alike P e' :=
        inStep_chain (fun i hi => hunit i (by omega)) (by omega) (by omega) hboth
      exact hrest.mono fun i e e' ⟨hi, he⟩ => ⟨by omega, he⟩

/-- **Expressions are read in step.** -/
lemma takes_expressionWithin : ∀ {n m m' : Nat}, n < m → n < m' →
    Takes P n (expressionWithin m) (expressionWithin m') (Expr.Alike P)
  | n, m + 1, m' + 1, hm, hm' => by
    have hunit : ∀ j ≤ n, Takes P j (operand (expressionWithin m) (m + 1) (m + 1))
        (operand (expressionWithin m') (m' + 1) (m' + 1)) (Expr.Alike P) := fun j hj =>
      takes_operand (fun i hi => takes_expressionWithin (by omega) (by omega)) (by omega)
        (by omega) (by omega) (by omega)
    refine (hunit n le_rfl).bind ?_
    rintro j left left' ⟨hj, hleft⟩
    have hrest : InStep P j (chain _ (m + 1) left) (chain _ (m' + 1) left') fun i e e' =>
        i ≤ j ∧ e.Alike P e' :=
      inStep_chain (fun i hi => hunit i (by omega)) (by omega) (by omega) hleft
    exact hrest.mono fun i e e' ⟨hi, he⟩ => ⟨by omega, he⟩

end Expressions

/-! ### Statements -/

section Statements

variable {P : Position → Position → Prop} {n : Nat} {expr expr' : Parser Expr}
variable {stmt stmt' : Parser Stmt}

lemma inStep_separators : ∀ {n m m' : Nat}, n < m → n < m' →
    InStep P n (separators m) (separators m') fun j _ _ => j ≤ n
  | n, m + 1, m' + 1, hm, hm' => by
    refine (inStep_isNext _).bind ?_
    rintro n b b' ⟨rfl, rfl, hmore⟩
    cases b' with
    | true =>
      have hpos := hmore rfl (by simp)
      refine inStep_next.bind ?_
      rintro _ _ _ ⟨rfl, -⟩
      have hrest : InStep P (n - 1) (separators m) (separators m') fun j _ _ => j ≤ n - 1 :=
        inStep_separators (by omega) (by omega)
      exact hrest.mono fun j _ _ hj => by omega
    | false => exact inStep_pure le_rfl

/-- One more statement, and then the others. -/
lemma inStep_first {rest rest' : Parser (List Stmt)} {j : Nat} (hj : j ≤ n)
    (hstmt : Takes P j stmt stmt' (Stmt.Alike P))
    (hrest : ∀ i < n, InStep P i rest rest' fun k body body' =>
      k ≤ i ∧ List.Forall₂ (Stmt.Alike P) body body') :
    InStep P j (do let first ← stmt; return first :: (← rest))
      (do let first ← stmt'; return first :: (← rest'))
      fun k body body' => k ≤ n ∧ List.Forall₂ (Stmt.Alike P) body body' := by
  refine hstmt.bind ?_
  rintro i first first' ⟨hi, hfirst⟩
  refine (hrest i (by omega)).bind ?_
  rintro k body body' ⟨hk, hbody⟩
  exact inStep_pure ⟨by omega, .cons hfirst hbody⟩

lemma inStep_blockRest : ∀ {n m m' : Nat}, (∀ j ≤ n, Takes P j stmt stmt' (Stmt.Alike P)) →
    n < m → n < m' → InStep P n (blockRest stmt m) (blockRest stmt' m') fun j body body' =>
      j ≤ n ∧ List.Forall₂ (Stmt.Alike P) body body'
  | n, m + 1, m' + 1, hstmt, hm, hm' => by
    refine (inStep_separators hm hm').bind ?_
    rintro j _ _ hj
    refine inStep_peek.bind ?_
    rintro j tok tok' ⟨rfl, hkind, hp, -⟩
    rw [hkind]
    split
    · exact inStep_refuse _ hp
    · split
      · refine inStep_next.bind ?_
        rintro _ _ _ ⟨rfl, -⟩
        exact inStep_pure ⟨by omega, .nil⟩
      · refine inStep_first hj (hstmt j hj) fun i hi => ?_
        exact inStep_blockRest (fun k hk => hstmt k (by omega)) (by omega) (by omega)

lemma takes_block {m m' : Nat} (hstmt : ∀ j < n, Takes P j stmt stmt' (Stmt.Alike P))
    (hm : n ≤ m) (hm' : n ≤ m') :
    Takes P n (block stmt m) (block stmt' m') fun b b' =>
      P b.1 b'.1 ∧ List.Forall₂ (Stmt.Alike P) b.2 b'.2 := by
  refine (takes_expect (by simp)).bind ?_
  rintro j tok tok' ⟨hj, hp⟩
  refine (inStep_blockRest (fun i hi => hstmt i (by omega)) (by omega) (by omega)).bind ?_
  rintro i body body' ⟨hi, hbody⟩
  exact inStep_pure ⟨by omega, hp, hbody⟩

lemma takes_varStmt (hexpr : ∀ j < n, Takes P j expr expr' (Expr.Alike P)) :
    Takes P n (varStmt expr) (varStmt expr') (Stmt.Alike P) := by
  refine (takes_expect (by simp)).bind ?_
  rintro j tok tok' ⟨hj, hp⟩
  refine (takes_expectName _).bind ?_
  rintro i name _ ⟨hi, rfl⟩
  refine (inStep_isNext _).bind ?_
  rintro _ b b' ⟨rfl, rfl, -⟩
  cases b' with
  | true =>
    refine inStep_next.bind ?_
    rintro _ _ _ ⟨rfl, -⟩
    refine (hexpr _ (by omega)).bind ?_
    rintro k e e' ⟨hk, he⟩
    exact inStep_pure ⟨by omega, .var hp _ (.some he)⟩
  | false => exact inStep_pure ⟨by omega, .var hp _ .none⟩

lemma takes_returnStmt (hexpr : ∀ j < n, Takes P j expr expr' (Expr.Alike P)) :
    Takes P n (returnStmt expr) (returnStmt expr') (Stmt.Alike P) := by
  refine inStep_return_bind fun j tok tok' next next' hj hp hnext hline => ?_
  rw [hnext.kind]
  by_cases hvalue : next.pos.line = tok.pos.line ∧ (!endsReturn next.kind) = true
  · rw [if_pos hvalue, if_pos ⟨hline.1 hvalue.1, hvalue.2⟩]
    refine (hexpr j hj).bind ?_
    rintro i e e' ⟨hi, he⟩
    exact inStep_pure ⟨by omega, .ret hp (.some he)⟩
  · rw [if_neg hvalue, if_neg fun h => hvalue ⟨hline.2 h.1, h.2⟩]
    exact inStep_pure ⟨hj, .ret hp .none⟩

lemma takes_funcStmt {m m' : Nat} (hstmt : ∀ j < n, Takes P j stmt stmt' (Stmt.Alike P))
    (hm : n ≤ m) (hm' : n ≤ m') :
    Takes P n (funcStmt stmt m) (funcStmt stmt' m') (Stmt.Alike P) := by
  refine (takes_expect (by simp)).bind ?_
  rintro j tok tok' ⟨hj, hp⟩
  refine (takes_expectName _).bind ?_
  rintro i name _ ⟨hi, rfl⟩
  refine (takes_expect (by simp)).bind ?_
  rintro k _ _ ⟨hk, -⟩
  refine (takes_itemsOrNone (fun _ _ => takes_expectName _) (by omega) (by omega)).bind ?_
  rintro h params params' ⟨hh, hparams⟩
  obtain rfl : params' = params := by
    have hflip := List.Forall₂.flip hparams
    rwa [List.forall₂_eq_eq_eq] at hflip
  refine (takes_block (fun j hj => hstmt j (by omega)) (by omega) (by omega)).bind ?_
  rintro g ⟨bodyPos, body⟩ ⟨bodyPos', body'⟩ ⟨hg, hbodyPos, hbody⟩
  exact inStep_pure ⟨by omega, .func hp _ _ hbodyPos hbody⟩

/-- **Statements are read in step.** -/
lemma takes_statementWithin : ∀ {n m m' : Nat}, n < m → n < m' →
    Takes P n (statementWithin m) (statementWithin m') (Stmt.Alike P)
  | n, m + 1, m' + 1, hm, hm' => by
    have hexpr : ∀ j ≤ n, Takes P j (expressionWithin (m + 1)) (expressionWithin (m' + 1))
        (Expr.Alike P) := fun j hj => takes_expressionWithin (by omega) (by omega)
    have hstmt : ∀ j < n, Takes P j (statementWithin m) (statementWithin m') (Stmt.Alike P) :=
      fun j hj => takes_statementWithin (by omega) (by omega)
    have hother : Takes P n (do let e ← expressionWithin (m + 1); return .expr e.pos e)
        (do let e ← expressionWithin (m' + 1); return .expr e.pos e) (Stmt.Alike P) := by
      refine (hexpr n le_rfl).bind ?_
      rintro j e e' ⟨hj, he⟩
      exact inStep_pure ⟨hj, .expr he.pos he⟩
    refine inStep_peek.bind ?_
    rintro _ ⟨kind, p⟩ ⟨kind', p'⟩ ⟨rfl, hkind, -⟩
    obtain rfl : kind' = kind := hkind
    cases kind' with
    | keyword k =>
      cases k with
      | var => exact takes_varStmt fun j hj => hexpr j hj.le
      | ret => exact takes_returnStmt fun j hj => hexpr j hj.le
      | func => exact takes_funcStmt hstmt (by omega) (by omega)
    | symbol s =>
      cases s with
      | leftBrace =>
        refine (takes_block hstmt (by omega) (by omega)).bind ?_
        rintro j ⟨pos, body⟩ ⟨pos', body'⟩ ⟨hj, hp, hbody⟩
        exact inStep_pure ⟨hj, .block hp hp hbody⟩
      | _ => exact hother
    | _ => exact hother

/-- **The statements of two texts are read in step.** -/
lemma inStep_statements : ∀ {n m m' : Nat}, (∀ j ≤ n, Takes P j stmt stmt' (Stmt.Alike P)) →
    n < m → n < m' → InStep P n (statements stmt m) (statements stmt' m') fun j body body' =>
      j ≤ n ∧ List.Forall₂ (Stmt.Alike P) body body'
  | n, m + 1, m' + 1, hstmt, hm, hm' => by
    refine (inStep_separators hm hm').bind ?_
    rintro j _ _ hj
    refine (inStep_isNext _).bind ?_
    rintro j b b' ⟨rfl, rfl, -⟩
    cases b' with
    | true => exact inStep_pure ⟨hj, .nil⟩
    | false =>
      refine inStep_first hj (hstmt j hj) fun i hi => ?_
      exact inStep_statements (fun k hk => hstmt k (by omega)) (by omega) (by omega)

end Statements

end Parser

/-! ### Texts -/

section Texts

variable {P Q : Position → Position → Prop} {n m m' : Nat} {cur cur' : Cursor}
variable {source source' : String}

/-- **The same tokens** of two texts, at places related by `P`, or the same lexical
fault. -/
inductive SameTokens (P : Position → Position → Prop) :
    Except Error (List Token) → Except Error (List Token) → Prop
  | ok {ts ts' : List Token}
      (h : List.Forall₂ (fun tok tok' => tok'.kind = tok.kind ∧ P tok.pos tok'.pos) ts ts') :
      SameTokens P (.ok ts) (.ok ts')
  | error {p p' : Position} (fault : LexFault) (hp : P p p') :
      SameTokens P (.error (.lex fault p)) (.error (.lex fault p'))

/-- **The same parse** of two texts: trees that are alike, or the same fault. -/
inductive SameParse (P : Position → Position → Prop) :
    Except Error Program → Except Error Program → Prop
  | ok {body body' : List Stmt} (h : List.Forall₂ (Stmt.Alike P) body body') :
      SameParse P (.ok ⟨.start, body⟩) (.ok ⟨.start, body'⟩)
  | error {e e' : Error} (h : Parser.SameFault P e e') : SameParse P (.error e) (.error e')

lemma SameTokens.mono {r r' : Except Error (List Token)} (h : SameTokens P r r')
    (hPQ : ∀ p p', P p p' → Q p p') : SameTokens Q r r' := by
  cases h with
  | ok h => exact .ok (h.imp fun _ _ htok => ⟨htok.1, hPQ _ _ htok.2⟩)
  | error fault hp => exact .error fault (hPQ _ _ hp)

/-- Each token has a character of its own, in both texts. -/
lemma Cursor.InStep.le_length (h : cur.InStep P n cur') :
    n ≤ cur.rest.length ∧ n ≤ cur'.rest.length := by
  induction h with
  | fault => exact ⟨Nat.zero_le _, Nat.zero_le _⟩
  | last => exact ⟨Nat.zero_le _, Nat.zero_le _⟩
  | token hscan hscan' hkind hmore _ _ _ ih =>
    have hlt := length_rest_lt_of_scan_ok hscan hmore
    have hlt' := length_rest_lt_of_scan_ok hscan' (hkind ▸ hmore)
    omega

/-- **Texts in step have the same tokens.** -/
lemma Cursor.InStep.tokens (h : cur.InStep P n cur') :
    ∀ {m m' : Nat}, n < m → n < m' → SameTokens P (cur.tokens m) (cur'.tokens m') := by
  induction h with
  | fault hscan hscan' hp =>
    rintro (_ | m) (_ | m') hm hm'
    · cases hm
    · cases hm
    · cases hm'
    · rw [Cursor.tokens, Cursor.tokens, hscan, hscan']
      exact .error _ hp
  | last hscan hscan' hkind hkind' hp =>
    rintro (_ | m) (_ | m') hm hm'
    · cases hm
    · cases hm
    · cases hm'
    · rw [Cursor.tokens, Cursor.tokens, hscan, hscan']
      simp only [hkind, hkind', if_true]
      exact .ok (.cons ⟨hkind'.trans hkind.symm, hp⟩ .nil)
  | token hscan hscan' hkind hmore hp _ _ ih =>
    rintro (_ | m) (_ | m') hm hm'
    · cases hm
    · cases hm
    · cases hm'
    · have hrest := ih (Nat.lt_of_succ_lt_succ hm) (Nat.lt_of_succ_lt_succ hm')
      rw [Cursor.tokens, Cursor.tokens, hscan, hscan']
      simp only [hkind, hmore, if_false]
      generalize Cursor.tokens m _ = r, Cursor.tokens m' _ = r' at hrest
      cases hrest with
      | ok h => exact .ok (.cons ⟨hkind, hp⟩ h)
      | error fault hp' => exact .error fault hp'

lemma Cursor.InStep.tokenize (h : (ofString source).InStep P n (ofString source')) :
    SameTokens P (tokenize source) (tokenize source') := by
  obtain ⟨hle, hle'⟩ : n ≤ source.toList.length ∧ n ≤ source'.toList.length := h.le_length
  rw [String.length_toList] at hle hle'
  exact h.tokens (Nat.lt_succ_of_le hle) (Nat.lt_succ_of_le hle')

/-- The statements behind two cursors in step. -/
lemma Cursor.InStep.statements (h : cur.InStep P n cur') (hm : n < m) (hm' : n < m') :
    Parser.EndInStep P (fun _ => List.Forall₂ (Stmt.Alike P))
      (Parser.statements (Parser.statementWithin m) m ⟨cur, none⟩)
      (Parser.statements (Parser.statementWithin m') m' ⟨cur', none⟩) := by
  have hstmt : ∀ j ≤ n, Parser.Takes P j (Parser.statementWithin m) (Parser.statementWithin m')
      (Stmt.Alike P) := fun j hj => Parser.takes_statementWithin (by omega) (by omega)
  have hread := (Parser.inStep_statements hstmt hm hm').mono fun _ _ _ hbody => hbody.2
  exact hread _ _ _ _ h (.fresh cur) (.fresh cur')

/-- **Texts in step are parsed alike.** -/
lemma Cursor.InStep.parse (h : (ofString source).InStep P n (ofString source')) :
    SameParse P (parse source) (parse source') := by
  obtain ⟨hle, hle'⟩ : n ≤ source.toList.length ∧ n ≤ source'.toList.length := h.le_length
  have hend : Parser.EndInStep P (fun _ => List.Forall₂ (Stmt.Alike P))
      (Parser.allStatements source (Lexer.ofString source))
      (Parser.allStatements source' (Lexer.ofString source')) :=
    h.statements (by omega) (by omega)
  rw [parse_eq, parse_eq, Parser.runOn, Parser.runOn, EStateM.run, EStateM.run]
  generalize Parser.allStatements source (Lexer.ofString source) = r,
    Parser.allStatements source' (Lexer.ofString source') = r' at hend
  cases hend with
  | ok _ _ _ hbody => exact .ok hbody
  | error he => exact .error he

/-- **Texts that are parsed alike answer the same** when they are run in frames that
mirror each other. -/
lemma SameParse.sameAnswer (h : SameParse P (parse source) (parse source'))
    (hPQ : ∀ p p', P p p' → Q p p') {ρ : Renaming} {s t : Store}
    (hst : s.Mirrors (.located Q) ρ t) {root root' : FrameId} (hroot : root' ∈ ρ root)
    (limit : Nat) :
    SameAnswer Q (interpret releaseOnExit limit root source s)
      (interpret releaseOnExit limit root' source' t) := by
  rw [interpret, interpret]
  generalize parse source = r, parse source' = r' at h
  cases h with
  | @ok body body' hbody =>
    have hrun : Eval.Mirrored (.located Q) ρ (runProgram releaseOnExit limit root ⟨.start, body⟩)
        (runProgram releaseOnExit limit root' ⟨.start, body'⟩) (MirrorsEvaluation (.located Q)) :=
      mirrored_runProgram (Likeness.sound_located Q) limit (fun _ _ => trivial)
        (Stmt.Alike.mono_all hPQ hbody) hroot
    obtain ⟨ρ', -, hend⟩ := hrun s t hst
    exact hend.sameAnswer
  | error he =>
    cases he with
    | lex fault hp => exact .error rfl rfl (.some (hPQ _ _ hp))
    | parse fault hp => exact .error rfl rfl (.some (hPQ _ _ hp))

end Texts

end ClosureCalc
