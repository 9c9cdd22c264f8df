/-
The grammar of the language.

Each predicate relates the tokens of a phrase and the token behind them to the
tree that the phrase stands for. The token behind a phrase takes part, since it
decides where the phrase ends: an operand that is called goes on, and so does a
row in front of an operator.

* `Grammar.Items`, `Grammar.Listing`: parenthesised lists.
* `Grammar.Primary`, `Grammar.Operand`, `Grammar.Row`, `Grammar.Expression`:
  expressions. A row of operands groups from the left.
* `Grammar.Statement`, `Grammar.Sequence`: statements.
* `Row.begins`, `Statement.begins`: the first tokens of phrases.
* `Row.before`, `Statement.before`: a phrase may end in front of other tokens.
* `Sequence.append`: two sequences with a semicolon in between.
-/
import ClosureCalc.Parser
import Mathlib.Tactic.Lemma

namespace ClosureCalc

namespace Grammar

open ClosureCalc.Parser

/-! ### Phrases -/

section Lists

variable {α : Type}

/-- At least one item with commas in between, and the closing parenthesis. -/
inductive Items (I : List Token → Token → α → Prop) : List Token → List α → Prop where
  | last {ts : List Token} {r : Token} {a : α} (h : I ts r a)
      (hr : r.kind = .symbol .rightParen) : Items I (ts ++ [r]) [a]
  | more {ts us : List Token} {c : Token} {a : α} {as : List α} (h : I ts c a)
      (hc : c.kind = .symbol .comma) (hrest : Items I us as) : Items I (ts ++ c :: us) (a :: as)

/-- Any number of items with commas in between, and the closing parenthesis. -/
inductive Listing (I : List Token → Token → α → Prop) : List Token → List α → Prop where
  | none {r : Token} (hr : r.kind = .symbol .rightParen) : Listing I [r] []
  | some {ts : List Token} {as : List α} (h : Items I ts as) : Listing I ts as

end Lists

mutual

/-- A name, a number or a row in parentheses. -/
inductive Primary : List Token → Expr → Prop where
  | identifier {tok : Token} {name : String} (h : tok.kind = .identifier name) :
      Primary [tok] (.identifier tok.pos name)
  | number {tok : Token} {value : Float} (h : tok.kind = .number value) :
      Primary [tok] (.number tok.pos value)
  | parens {l r : Token} {ts : List Token} {e : Expr} (hl : l.kind = .symbol .leftParen)
      (h : Row ts r e) (hr : r.kind = .symbol .rightParen) : Primary (l :: ts ++ [r]) e

/-- A primary expression with at most one argument list, a row between bars, or
one of them behind prefix operators. -/
inductive Operand : List Token → Token → Expr → Prop where
  | bare {ts : List Token} {next : Token} {e : Expr} (h : Primary ts e)
      (hnext : next.kind ≠ .symbol .leftParen) : Operand ts next e
  | call {ts us : List Token} {l next : Token} {e : Expr} {es : List Expr} (h : Primary ts e)
      (hl : l.kind = .symbol .leftParen) (hargs : Listing Row us es) :
      Operand (ts ++ l :: us) next (.call e.pos e es)
  | bars {l r next : Token} {ts : List Token} {e : Expr} (hl : l.kind = .symbol .bar)
      (h : Row ts r e) (hr : r.kind = .symbol .bar) :
      Operand (l :: ts ++ [r]) next (.unary l.pos .absolute e)
  | sign {tok next : Token} {ts : List Token} {op : UnaryOp} {e : Expr}
      (hop : unaryOp? tok.kind = some op) (hsign : op ≠ .absolute) (h : Operand ts next e) :
      Operand (tok :: ts) next (.unary tok.pos op e)

/-- Operands with infix operators in between, grouped from the left. -/
inductive Row : List Token → Token → Expr → Prop where
  | one {ts : List Token} {next : Token} {e : Expr} (h : Operand ts next e) : Row ts next e
  | more {ts us : List Token} {tok next : Token} {op : BinaryOp} {left right : Expr}
      (hleft : Row ts tok left) (hop : binaryOp? tok.kind = some op)
      (hright : Operand us next right) :
      Row (ts ++ tok :: us) next (.binary left.pos op left right)

end

/-- A row that no operator continues. -/
structure Expression (ts : List Token) (next : Token) (e : Expr) : Prop where
  row : Row ts next e
  stop : binaryOp? next.kind = none

/-- A parameter of a function. -/
inductive Param : List Token → Token → String → Prop where
  | mk {tok next : Token} {name : String} (h : tok.kind = .identifier name) :
      Param [tok] next name

/-- Whether the token behind a `return` begins its value. -/
def BeginsValue (tok next : Token) : Prop :=
  next.pos.line = tok.pos.line ∧ endsReturn next.kind = false

mutual

/-- One statement. -/
inductive Statement : List Token → Token → Stmt → Prop where
  | var {v x next : Token} {name : String} (hv : v.kind = .keyword .var)
      (hx : x.kind = .identifier name) (hnext : next.kind ≠ .symbol .equal) :
      Statement [v, x] next (.var v.pos name none)
  | varInit {v x q next : Token} {ts : List Token} {name : String} {e : Expr}
      (hv : v.kind = .keyword .var) (hx : x.kind = .identifier name)
      (hq : q.kind = .symbol .equal) (h : Expression ts next e) :
      Statement (v :: x :: q :: ts) next (.var v.pos name (some e))
  | ret {r next : Token} (hr : r.kind = .keyword .ret) (hnext : ¬ BeginsValue r next) :
      Statement [r] next (.ret r.pos none)
  | retValue {r next : Token} {ts : List Token} {e : Expr} (hr : r.kind = .keyword .ret)
      (hnext : BeginsValue r (ts.headD next)) (h : Expression ts next e) :
      Statement (r :: ts) next (.ret r.pos (some e))
  | func {f x lp lb rb next : Token} {ps us : List Token} {name : String} {params : List String}
      {body : List Stmt} (hf : f.kind = .keyword .func) (hx : x.kind = .identifier name)
      (hlp : lp.kind = .symbol .leftParen) (hparams : Listing Param ps params)
      (hlb : lb.kind = .symbol .leftBrace) (hbody : Sequence us rb body)
      (hrb : rb.kind = .symbol .rightBrace) :
      Statement (f :: x :: lp :: (ps ++ lb :: (us ++ [rb]))) next
        (.func f.pos name params lb.pos body)
  | block {lb rb next : Token} {us : List Token} {body : List Stmt}
      (hlb : lb.kind = .symbol .leftBrace) (hbody : Sequence us rb body)
      (hrb : rb.kind = .symbol .rightBrace) :
      Statement (lb :: (us ++ [rb])) next (.block lb.pos lb.pos body)
  | expr {ts : List Token} {next : Token} {e : Expr} (h : Expression ts next e) :
      Statement ts next (.expr e.pos e)

/-- Statements with any number of semicolons in front of each and behind the
last. -/
inductive Sequence : List Token → Token → List Stmt → Prop where
  | nil {ss : List Token} {next : Token} (hss : ∀ s ∈ ss, s.kind = .symbol .semicolon) :
      Sequence ss next []
  | cons {ss ts us : List Token} {next : Token} {st : Stmt} {rest : List Stmt}
      (hss : ∀ s ∈ ss, s.kind = .symbol .semicolon) (h : Statement ts (us.headD next) st)
      (hrest : Sequence us next rest) : Sequence (ss ++ (ts ++ us)) next (st :: rest)

end

/-! ### Lists -/

section Lists

variable {α : Type} {I J : List Token → Token → α → Prop} {ts : List Token} {as : List α}

lemma Items.mono (hIJ : ∀ ts next a, I ts next a → J ts next a) (h : Items I ts as) :
    Items J ts as := by
  induction h with
  | last h hr => exact .last (hIJ _ _ _ h) hr
  | more h hc _ ih => exact .more (hIJ _ _ _ h) hc ih

lemma Listing.mono (hIJ : ∀ ts next a, I ts next a → J ts next a) (h : Listing I ts as) :
    Listing J ts as := by
  cases h with
  | none hr => exact .none hr
  | some h => exact .some (h.mono hIJ)

end Lists

/-! ### First tokens -/

/-- The tokens that begin a primary expression. -/
def beginsPrimary : Token.Kind → Bool
  | .identifier _ => true
  | .number _ => true
  | .symbol .leftParen => true
  | _ => false

/-- The tokens that begin an expression. -/
def beginsRow (kind : Token.Kind) : Bool := beginsPrimary kind || (unaryOp? kind).isSome

/-- The tokens that begin a statement. -/
def beginsStatement : Token.Kind → Bool
  | .keyword _ => true
  | .symbol .leftBrace => true
  | kind => beginsRow kind

section Begins

variable {ts : List Token} {next : Token}

/-- Some tokens begin with one for which `p` holds. -/
def Begin (p : Token.Kind → Bool) (ts : List Token) : Prop :=
  ∃ tok us, ts = tok :: us ∧ p tok.kind = true

lemma Begin.append {p : Token.Kind → Bool} (h : Begin p ts) (us : List Token) :
    Begin p (ts ++ us) := by
  obtain ⟨tok, vs, rfl, hp⟩ := h
  exact ⟨tok, vs ++ us, rfl, hp⟩

lemma Begin.mono {p q : Token.Kind → Bool} (h : Begin p ts)
    (hpq : ∀ kind, p kind = true → q kind = true) : Begin q ts := by
  obtain ⟨tok, us, rfl, hp⟩ := h
  exact ⟨tok, us, rfl, hpq _ hp⟩

lemma Begin.length_pos {p : Token.Kind → Bool} (h : Begin p ts) : 0 < ts.length := by
  obtain ⟨tok, us, rfl, _⟩ := h
  exact Nat.succ_pos _

lemma Primary.begins {e : Expr} (h : Primary ts e) : Begin beginsPrimary ts := by
  cases h with
  | identifier h => exact ⟨_, [], rfl, by rw [h]; rfl⟩
  | number h => exact ⟨_, [], rfl, by rw [h]; rfl⟩
  | parens hl _ _ => exact ⟨_, _, rfl, by rw [hl]; rfl⟩

lemma beginsRow_of_beginsPrimary (kind : Token.Kind) (h : beginsPrimary kind = true) :
    beginsRow kind = true := by
  rw [beginsRow, h, Bool.true_or]

lemma Operand.begins {e : Expr} (h : Operand ts next e) : Begin beginsRow ts := by
  cases h with
  | bare h _ => exact h.begins.mono beginsRow_of_beginsPrimary
  | call h _ _ => exact (h.begins.mono beginsRow_of_beginsPrimary).append _
  | bars hl _ _ => exact ⟨_, _, rfl, by rw [hl]; rfl⟩
  | sign hop _ _ => exact ⟨_, _, rfl, by rw [beginsRow, hop]; simp⟩

lemma Row.begins {ts : List Token} {next : Token} {e : Expr} :
    Row ts next e → Begin beginsRow ts
  | .one h => h.begins
  | .more hleft _ _ => hleft.begins.append _

lemma beginsStatement_of_beginsRow (kind : Token.Kind) (h : beginsRow kind = true) :
    beginsStatement kind = true := by
  unfold beginsStatement
  split <;> simp_all

lemma Statement.begins {st : Stmt} (h : Statement ts next st) : Begin beginsStatement ts := by
  cases h with
  | var hv _ _ => exact ⟨_, _, rfl, by rw [hv]; rfl⟩
  | varInit hv _ _ _ => exact ⟨_, _, rfl, by rw [hv]; rfl⟩
  | ret hr _ => exact ⟨_, _, rfl, by rw [hr]; rfl⟩
  | retValue hr _ _ => exact ⟨_, _, rfl, by rw [hr]; rfl⟩
  | func hf _ _ _ _ _ _ => exact ⟨_, _, rfl, by rw [hf]; rfl⟩
  | block hlb _ _ => exact ⟨_, _, rfl, by rw [hlb]; rfl⟩
  | expr h => exact h.row.begins.mono beginsStatement_of_beginsRow

end Begins

/-! ### The token behind a phrase -/

/-- A token that continues no expression. -/
structure Stops (next : Token) : Prop where
  noOperator : binaryOp? next.kind = none
  noCall : next.kind ≠ .symbol .leftParen

/-- A token that closes a sequence of statements. -/
def Closes (next : Token) : Prop :=
  next.kind = .symbol .rightBrace ∨ next.kind = .endOfInput

section Before

variable {ts : List Token} {next next' : Token}

/-- A token in front of which every statement may end. -/
structure Ends (next : Token) : Prop where
  stops : Stops next
  ne_equal : next.kind ≠ .symbol .equal
  noValue : endsReturn next.kind = true

lemma Ends.not_beginsValue (h : Ends next) (tok : Token) : ¬ BeginsValue tok next := by
  rintro ⟨_, hvalue⟩
  rw [h.noValue] at hvalue
  cases hvalue

lemma Closes.ends (h : Closes next) : Ends next := by
  rcases h with h | h <;> exact ⟨⟨by rw [h]; rfl, by rw [h]; simp⟩, by rw [h]; simp, by rw [h]; rfl⟩

lemma ends_semicolon (h : next.kind = .symbol .semicolon) : Ends next :=
  ⟨⟨by rw [h]; rfl, by rw [h]; simp⟩, by rw [h]; simp, by rw [h]; rfl⟩

lemma Closes.stops (h : Closes next) : Stops next := h.ends.stops

lemma Closes.ne_equal (h : Closes next) : next.kind ≠ .symbol .equal := h.ends.ne_equal

lemma Closes.not_beginsValue (h : Closes next) (tok : Token) : ¬ BeginsValue tok next :=
  h.ends.not_beginsValue tok

lemma stops_rightParen (h : next.kind = .symbol .rightParen) : Stops next :=
  ⟨by rw [h]; rfl, by rw [h]; simp⟩

lemma stops_comma (h : next.kind = .symbol .comma) : Stops next :=
  ⟨by rw [h]; rfl, by rw [h]; simp⟩

lemma stops_bar (h : next.kind = .symbol .bar) : Stops next :=
  ⟨by rw [h]; rfl, by rw [h]; simp⟩

/-- An operand may end in front of any token that does not call it. -/
lemma Operand.before {ts : List Token} {e : Expr} (hnext : next'.kind ≠ .symbol .leftParen) :
    Operand ts next e → Operand ts next' e
  | .bare h _ => .bare h hnext
  | .call h hl hargs => .call h hl hargs
  | .bars hl h hr => .bars hl h hr
  | .sign hop hsign h => .sign hop hsign (h.before hnext)

/-- A row may end in front of any token that does not call its last operand. -/
lemma Row.before {e : Expr} (hnext : next'.kind ≠ .symbol .leftParen) (h : Row ts next e) :
    Row ts next' e := by
  cases h with
  | one h => exact .one (h.before hnext)
  | more hleft hop hright => exact .more hleft hop (hright.before hnext)

lemma Expression.before {e : Expr} (hnext : Stops next') (h : Expression ts next e) :
    Expression ts next' e :=
  ⟨h.row.before hnext.noCall, hnext.noOperator⟩

/-- A statement may end in front of any token that ends statements. -/
lemma Statement.before {st : Stmt} (hnext : Ends next') (h : Statement ts next st) :
    Statement ts next' st := by
  cases h with
  | var hv hx _ => exact .var hv hx hnext.ne_equal
  | varInit hv hx hq h => exact .varInit hv hx hq (h.before hnext.stops)
  | ret hr _ => exact .ret hr (hnext.not_beginsValue _)
  | retValue hr hvalue h =>
    refine .retValue hr ?_ (h.before hnext.stops)
    obtain ⟨tok, us, rfl, _⟩ := h.row.begins
    exact hvalue
  | func hf hx hlp hparams hlb hbody hrb => exact .func hf hx hlp hparams hlb hbody hrb
  | block hlb hbody hrb => exact .block hlb hbody hrb
  | expr h => exact .expr (h.before hnext.stops)

end Before

/-! ### Sequences in a row -/

section Sequences

variable {ss ts us : List Token} {next next' semi : Token} {body body' : List Stmt}

/-- There may be more semicolons in front of a sequence. -/
lemma Sequence.semicolons (hss : ∀ s ∈ ss, s.kind = .symbol .semicolon)
    (h : Sequence ts next body) : Sequence (ss ++ ts) next body := by
  cases h with
  | nil hss' => exact .nil (List.forall_mem_append.2 ⟨hss, hss'⟩)
  | cons hss' h hrest =>
    rw [← List.append_assoc]
    exact .cons (List.forall_mem_append.2 ⟨hss, hss'⟩) h hrest

/-- **Two sequences with a semicolon in between** are one. -/
lemma Sequence.append {ts : List Token} {body : List Stmt} (hsemi : semi.kind = .symbol .semicolon)
    (h' : Sequence us next' body') :
    Sequence ts next body → Sequence (ts ++ semi :: us) next' (body ++ body')
  | .nil hss =>
    have hmore : Sequence ([semi] ++ us) next' body' := h'.semicolons (by simpa using hsemi)
    hmore.semicolons hss
  | @Sequence.cons ss ts vs _ st rest hss h hrest => by
    have hlater := Sequence.append hsemi h' hrest
    have hfirst : Statement ts ((vs ++ semi :: us).headD next') st := by
      cases vs with
      | nil => exact h.before (ends_semicolon hsemi)
      | cons v vs => exact h
    rw [List.append_assoc, List.append_assoc]
    exact .cons hss hfirst hlater

end Sequences

end Grammar

end ClosureCalc
