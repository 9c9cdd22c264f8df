/-
Programs written as texts.

A tree is written with as few parentheses as its shape allows: around a right
operand and around the target of a sign if it is a binary expression, and around
a callee unless it is a name or a number. What is written is read back as the
same tree, up to places.

* `Expr.print`, `Stmt.print`, `Program.print`: the tokens that a tree is written
  with.
* `Expr.bare`, `Stmt.bare`, `Program.bare`: a tree without its places.
* `Grammar.ReadsBack`: tokens of some kinds are a phrase for a tree, up to places.
* `Expr.readable`, `Stmt.readable`: what is written for a tree is read back.
* `Expr.leftChain`, `readsBack_chain`: a row of operands groups from the left.
* `parse_undoes_print`: the text of a program is parsed to this program.
-/
import ClosureCalc.Proofs.Accepts
import ClosureCalc.Proofs.Spelling

namespace ClosureCalc

/-! ### The tokens of trees -/

/-- Tokens in parentheses, if these are needed. -/
def Token.Kind.inParens (needed : Bool) (kinds : List Token.Kind) : List Token.Kind :=
  if needed then .symbol .leftParen :: kinds ++ [.symbol .rightParen] else kinds

/-- Groups of tokens with commas in between. -/
def Token.Kind.commas (groups : List (List Token.Kind)) : List Token.Kind :=
  [.symbol .comma].intercalate groups

open Token.Kind (inParens commas)

/-- Whether an expression joins two operands. -/
def Expr.isBinary : Expr → Bool
  | .binary _ _ _ _ => true
  | _ => false

/-- Whether an expression is a name or a number. -/
def Expr.isLeaf : Expr → Bool
  | .number _ _ => true
  | .identifier _ _ => true
  | _ => false

mutual

/-- The tokens that an expression is written with. -/
def Expr.print : Expr → List Token.Kind
  | .number _ value => [.number value]
  | .identifier _ name => [.identifier name]
  | .unary _ .absolute target => .symbol .bar :: target.print ++ [.symbol .bar]
  | .unary _ op target => .symbol op.symbol :: inParens target.isBinary target.print
  | .binary _ op left right =>
    left.print ++ .symbol op.symbol :: inParens right.isBinary right.print
  | .call _ callee args =>
    inParens (!callee.isLeaf) callee.print ++
      .symbol .leftParen :: (commas (Expr.prints args) ++ [.symbol .rightParen])

/-- The tokens that each of some expressions is written with. -/
def Expr.prints : List Expr → List (List Token.Kind)
  | [] => []
  | e :: es => e.print :: Expr.prints es

end

/-- The tokens that an expression is written with as an operand. -/
def Expr.printOperand (e : Expr) : List Token.Kind := inParens e.isBinary e.print

mutual

/-- The tokens that a statement is written with. -/
def Stmt.print : Stmt → List Token.Kind
  | .var _ name none => [.keyword .var, .identifier name]
  | .var _ name (some e) =>
    .keyword .var :: .identifier name :: .symbol .equal :: e.print
  | .ret _ none => [.keyword .ret]
  | .ret _ (some e) => .keyword .ret :: e.print
  | .func _ name params _ body =>
    .keyword .func :: .identifier name :: .symbol .leftParen ::
      (commas (params.map fun param => [.identifier param]) ++ [.symbol .rightParen] ++
        .symbol .leftBrace :: (Stmt.printAll body ++ [.symbol .rightBrace]))
  | .block _ _ body => .symbol .leftBrace :: (Stmt.printAll body ++ [.symbol .rightBrace])
  | .expr _ e => e.print

/-- The tokens that some statements are written with, each with a semicolon
behind it. -/
def Stmt.printAll : List Stmt → List Token.Kind
  | [] => []
  | st :: rest => st.print ++ .symbol .semicolon :: Stmt.printAll rest

end

/-- The tokens that a program is written with. -/
def Program.print (p : Program) : List Token.Kind := Stmt.printAll p.body

/-! ### Trees without places -/

mutual

/-- An expression without its places. -/
def Expr.bare : Expr → Expr
  | .number _ value => .number .start value
  | .identifier _ name => .identifier .start name
  | .unary _ op target => .unary .start op target.bare
  | .binary _ op left right => .binary .start op left.bare right.bare
  | .call _ callee args => .call .start callee.bare (Expr.bareAll args)

/-- Some expressions without their places. -/
def Expr.bareAll : List Expr → List Expr
  | [] => []
  | e :: es => e.bare :: Expr.bareAll es

end

mutual

/-- A statement without its places. -/
def Stmt.bare : Stmt → Stmt
  | .var _ name init => .var .start name (init.map Expr.bare)
  | .ret _ value => .ret .start (value.map Expr.bare)
  | .func _ name params _ body => .func .start name params .start (Stmt.bareAll body)
  | .block _ _ body => .block .start .start (Stmt.bareAll body)
  | .expr _ e => .expr .start e.bare

/-- Some statements without their places. -/
def Stmt.bareAll : List Stmt → List Stmt
  | [] => []
  | st :: rest => st.bare :: Stmt.bareAll rest

end

/-- A program without its places. -/
def Program.bare (p : Program) : Program := ⟨.start, Stmt.bareAll p.body⟩

lemma Expr.bareAll_eq_map (es : List Expr) : Expr.bareAll es = es.map Expr.bare := by
  induction es with
  | nil => rfl
  | cons e es ih => rw [Expr.bareAll, List.map_cons, ih]

/-! ### Reading back -/

namespace Grammar

open ClosureCalc.Parser

section Lists

variable {α : Type}

/-- **Tokens of some kinds are read back** as a value, up to what `f` forgets,
in front of every token that calls nothing. -/
def ReadsBack (I : List Token → Token → α → Prop) (f : α → α) (kinds : List Token.Kind)
    (a : α) : Prop :=
  ∀ ts next, ts.map Token.kind = kinds → next.kind ≠ .symbol .leftParen →
    ∃ a', I ts next a' ∧ f a' = f a

variable {I : List Token → Token → α → Prop} {f : α → α}

lemma readsBack_items {ks : List Token.Kind} {kss : List (List Token.Kind)} {a : α} {as : List α}
    (h : List.Forall₂ (ReadsBack I f) (ks :: kss) (a :: as)) :
    ReadsBack (fun ts _ => Items I ts) (List.map f)
      (commas (ks :: kss) ++ [.symbol .rightParen]) (a :: as) := by
  induction kss generalizing ks a as with
  | nil =>
    obtain ⟨hfirst, ⟨⟩⟩ := List.forall₂_cons.1 h
    intro ts next hts _
    rw [commas, List.intercalate_singleton, List.map_eq_append_iff] at hts
    obtain ⟨us, vs, rfl, hus, hvs⟩ := hts
    obtain ⟨r, rfl, hr⟩ := List.map_eq_singleton_iff.1 hvs
    obtain ⟨a', ha', hsame⟩ := hfirst us r hus (by rw [hr]; simp)
    exact ⟨[a'], .last ha' hr, by rw [List.map_singleton, hsame, List.map_singleton]⟩
  | cons ks' kss ih =>
    obtain ⟨hfirst, hrest⟩ := List.forall₂_cons.1 h
    obtain ⟨a₂, as, rfl⟩ : ∃ a₂ as', as = a₂ :: as' := by
      cases hrest
      exact ⟨_, _, rfl⟩
    intro ts next hts hnext
    rw [commas, List.intercalate_cons_cons, List.append_assoc, List.append_assoc,
      List.map_eq_append_iff] at hts
    obtain ⟨us, vs, rfl, hus, hvs⟩ := hts
    obtain ⟨c, ws, rfl, hc, hws⟩ := List.map_eq_cons_iff.1 hvs
    obtain ⟨a', ha', hsame⟩ := hfirst us c hus (by rw [hc]; simp)
    obtain ⟨as', has', hsames⟩ := ih hrest ws next hws hnext
    exact ⟨a' :: as', .more ha' hc has', by rw [List.map_cons, hsame, hsames, ← List.map_cons]⟩

/-- A list is read back if each of its items is. -/
lemma readsBack_listing {kss : List (List Token.Kind)} {as : List α}
    (h : List.Forall₂ (ReadsBack I f) kss as) :
    ReadsBack (fun ts _ => Listing I ts) (List.map f) (commas kss ++ [.symbol .rightParen]) as := by
  intro ts next hts hnext
  cases h with
  | nil =>
    obtain ⟨r, rfl, hr⟩ := List.map_eq_singleton_iff.1 hts
    exact ⟨[], .none hr, rfl⟩
  | cons hfirst hrest =>
    obtain ⟨as', has', hsame⟩ := readsBack_items (.cons hfirst hrest) ts next hts hnext
    exact ⟨as', .some has', hsame⟩

/-- The names of parameters are read back. -/
lemma readsBack_params (params : List String) :
    ReadsBack (fun ts _ => Listing Param ts) (List.map id)
      (commas (params.map fun param => [.identifier param]) ++ [.symbol .rightParen]) params := by
  refine readsBack_listing ?_
  rw [List.forall₂_map_left_iff]
  refine List.forall₂_same.2 fun param _ ts next hts _ => ?_
  obtain ⟨tok, rfl, hk⟩ := List.map_eq_singleton_iff.1 hts
  exact ⟨param, .mk hk, rfl⟩

end Lists

/-! ### Expressions -/

section Expressions

variable {kinds kinds' : List Token.Kind} {e e' : Expr}

/-- Tokens are read back as a primary expression. -/
def ReadsPrimary (kinds : List Token.Kind) (e : Expr) : Prop :=
  ReadsBack (fun ts _ => Primary ts) Expr.bare kinds e

/-- Tokens are read back as an operand. -/
def ReadsOperand (kinds : List Token.Kind) (e : Expr) : Prop :=
  ReadsBack Operand Expr.bare kinds e

/-- Tokens are read back as a row of operands. -/
def ReadsRow (kinds : List Token.Kind) (e : Expr) : Prop :=
  ReadsBack Row Expr.bare kinds e

lemma ReadsPrimary.operand (h : ReadsPrimary kinds e) : ReadsOperand kinds e := by
  intro ts next hts hnext
  obtain ⟨e₁, he₁, hsame⟩ := h ts next hts hnext
  exact ⟨e₁, .bare he₁ hnext, hsame⟩

lemma ReadsOperand.row (h : ReadsOperand kinds e) : ReadsRow kinds e := by
  intro ts next hts hnext
  obtain ⟨e₁, he₁, hsame⟩ := h ts next hts hnext
  exact ⟨e₁, .one he₁, hsame⟩

lemma readsPrimary_number (p : Position) (value : Float) :
    ReadsPrimary [.number value] (.number p value) := by
  intro ts next hts _
  obtain ⟨tok, rfl, hk⟩ := List.map_eq_singleton_iff.1 hts
  exact ⟨_, .number hk, rfl⟩

lemma readsPrimary_identifier (p : Position) (name : String) :
    ReadsPrimary [.identifier name] (.identifier p name) := by
  intro ts next hts _
  obtain ⟨tok, rfl, hk⟩ := List.map_eq_singleton_iff.1 hts
  exact ⟨_, .identifier hk, rfl⟩

lemma ReadsRow.parens (h : ReadsRow kinds e) :
    ReadsPrimary (.symbol .leftParen :: kinds ++ [.symbol .rightParen]) e := by
  intro ts next hts _
  obtain ⟨l, us, rfl, hl, hus⟩ := List.map_eq_cons_iff.1 hts
  obtain ⟨vs, ws, rfl, hvs, hws⟩ := List.map_eq_append_iff.1 hus
  obtain ⟨r, rfl, hr⟩ := List.map_eq_singleton_iff.1 hws
  obtain ⟨e₁, he₁, hsame⟩ := h vs r hvs (by rw [hr]; simp)
  exact ⟨e₁, .parens hl he₁ hr, hsame⟩

lemma ReadsRow.bars (h : ReadsRow kinds e) (p : Position) :
    ReadsOperand (.symbol .bar :: kinds ++ [.symbol .bar]) (.unary p .absolute e) := by
  intro ts next hts _
  obtain ⟨l, us, rfl, hl, hus⟩ := List.map_eq_cons_iff.1 hts
  obtain ⟨vs, ws, rfl, hvs, hws⟩ := List.map_eq_append_iff.1 hus
  obtain ⟨r, rfl, hr⟩ := List.map_eq_singleton_iff.1 hws
  obtain ⟨e₁, he₁, hsame⟩ := h vs r hvs (by rw [hr]; simp)
  refine ⟨_, .bars hl he₁ hr, ?_⟩
  rw [Expr.bare, hsame, Expr.bare]

lemma ReadsOperand.sign (h : ReadsOperand kinds e) (op : UnaryOp) (hop : op ≠ .absolute)
    (p : Position) : ReadsOperand (.symbol op.symbol :: kinds) (.unary p op e) := by
  intro ts next hts hnext
  obtain ⟨tok, us, rfl, hk, hus⟩ := List.map_eq_cons_iff.1 hts
  obtain ⟨e₁, he₁, hsame⟩ := h us next hus hnext
  have hsign : unaryOp? tok.kind = some op := by
    rw [hk]
    exact UnaryOp.ofSymbol?_eq_some_iff.2 rfl
  refine ⟨_, .sign hsign hop he₁, ?_⟩
  rw [Expr.bare, hsame, Expr.bare]

lemma ReadsPrimary.call {kss : List (List Token.Kind)} {es : List Expr}
    (h : ReadsPrimary kinds e) (hargs : List.Forall₂ ReadsRow kss es) (p : Position) :
    ReadsOperand (kinds ++ .symbol .leftParen :: (commas kss ++ [.symbol .rightParen]))
      (.call p e es) := by
  intro ts next hts hnext
  obtain ⟨us, vs, rfl, hus, hvs⟩ := List.map_eq_append_iff.1 hts
  obtain ⟨l, ws, rfl, hl, hws⟩ := List.map_eq_cons_iff.1 hvs
  obtain ⟨e₁, he₁, hsame⟩ := h us next hus hnext
  obtain ⟨es₁, hes₁, hsames⟩ := readsBack_listing hargs ws next hws hnext
  refine ⟨_, .call he₁ hl hes₁, ?_⟩
  rw [Expr.bare, Expr.bare, hsame, Expr.bareAll_eq_map, hsames, ← Expr.bareAll_eq_map]

/-- An operand behind a row. The operator calls nothing, so the row may end in
front of it. -/
lemma ReadsRow.binary (op : BinaryOp) (h : ReadsRow kinds e) (h' : ReadsOperand kinds' e')
    (p : Position) : ReadsRow (kinds ++ .symbol op.symbol :: kinds') (.binary p op e e') := by
  intro ts next hts hnext
  obtain ⟨us, vs, rfl, hus, hvs⟩ := List.map_eq_append_iff.1 hts
  obtain ⟨tok, ws, rfl, hk, hws⟩ := List.map_eq_cons_iff.1 hvs
  have hcall : tok.kind ≠ .symbol .leftParen := by
    rw [hk]
    cases op <;> simp [BinaryOp.symbol]
  have hop : binaryOp? tok.kind = some op := by
    rw [hk]
    exact BinaryOp.ofSymbol?_eq_some_iff.2 rfl
  obtain ⟨e₁, he₁, hsame⟩ := h us tok hus hcall
  obtain ⟨e₂, he₂, hsame'⟩ := h' ws next hws hnext
  refine ⟨_, .more he₁ hop he₂, ?_⟩
  rw [Expr.bare, hsame, hsame', Expr.bare]

end Expressions

end Grammar

open Grammar

namespace Expr

/-- **What is written for an expression** is read back: as a row, as an operand if
it joins no two operands, and as a primary expression if it is a leaf. -/
structure Readable (e : Expr) : Prop where
  row : ReadsRow e.print e
  operand : e.isBinary = false → ReadsOperand e.print e
  primary : e.isLeaf = true → ReadsPrimary e.print e

variable {e : Expr}

lemma Readable.of_primary (h : ReadsPrimary e.print e) : e.Readable :=
  ⟨h.operand.row, fun _ => h.operand, fun _ => h⟩

lemma Readable.of_operand (hleaf : e.isLeaf = false) (h : ReadsOperand e.print e) : e.Readable :=
  ⟨h.row, fun _ => h, fun hleaf' => by rw [hleaf] at hleaf'; cases hleaf'⟩

/-- With parentheses where they are needed, every expression is an operand. -/
lemma Readable.printOperand (h : e.Readable) : ReadsOperand e.printOperand e := by
  unfold Expr.printOperand Token.Kind.inParens
  split
  · exact h.row.parens.operand
  · rename_i hbinary
    exact h.operand (Bool.eq_false_iff.2 hbinary)

/-- With parentheses where they are needed, every expression is a callee. -/
lemma Readable.callee (h : e.Readable) : ReadsPrimary (inParens (!e.isLeaf) e.print) e := by
  unfold Token.Kind.inParens
  split
  · exact h.row.parens
  · rename_i hleaf
    exact h.primary (by simpa using hleaf)

mutual

lemma readable : (e : Expr) → e.Readable
  | .number p value => .of_primary (by rw [print]; exact readsPrimary_number p value)
  | .identifier p name => .of_primary (by rw [print]; exact readsPrimary_identifier p name)
  | .unary p .absolute target =>
    .of_operand rfl (by rw [print]; exact (readable target).row.bars p)
  | .unary p .identity target =>
    .of_operand rfl ((readable target).printOperand.sign .identity (by decide) p)
  | .unary p .negate target =>
    .of_operand rfl ((readable target).printOperand.sign .negate (by decide) p)
  | .binary p op left right => by
    have hrow := (readable left).row.binary op (readable right).printOperand p
    refine ⟨?_, fun h => (by cases h), fun h => (by cases h)⟩
    rw [print]
    exact hrow
  | .call p callee args =>
    .of_operand rfl (by rw [print]; exact (readable callee).callee.call (readableAll args) p)

lemma readableAll : (es : List Expr) → List.Forall₂ ReadsRow (prints es) es
  | [] => .nil
  | e :: es => .cons (readable e).row (readableAll es)

end

/-! ### Rows of operands -/

/-- The tokens of a row: operands with operators in between. -/
def printChain (first : Expr) (row : List (BinaryOp × Expr)) : List Token.Kind :=
  first.printOperand ++ row.flatMap fun step => .symbol step.1.symbol :: step.2.printOperand

/-- Operands joined from the left, each time at the place of what is joined so far. -/
def leftChain (first : Expr) (row : List (BinaryOp × Expr)) : Expr :=
  row.foldl (fun left step => .binary left.pos step.1 left step.2) first

end Expr

/-- Operands behind a row are joined to it one by one, whatever their operators
are. -/
lemma Grammar.ReadsRow.chain {kinds : List Token.Kind} {e : Expr} (h : ReadsRow kinds e)
    (row : List (BinaryOp × Expr)) :
    ReadsRow (kinds ++ row.flatMap fun step => .symbol step.1.symbol :: step.2.printOperand)
      (e.leftChain row) := by
  induction row generalizing kinds e with
  | nil =>
    rw [List.flatMap_nil, List.append_nil]
    exact h
  | cons step row ih =>
    have hnext := ih (h.binary step.1 step.2.readable.printOperand e.pos)
    rw [List.flatMap_cons, ← List.append_assoc]
    exact hnext

/-- **A row of operands** groups from the left. -/
lemma Expr.readsRow_printChain (first : Expr) (row : List (BinaryOp × Expr)) :
    ReadsRow (first.printChain row) (first.leftChain row) :=
  first.readable.printOperand.row.chain row

/-! ### Statements -/

namespace Grammar

open ClosureCalc.Parser

variable {ts : List Token} {next : Token} {kinds : List Token.Kind} {line : Nat}

/-- A row that a semicolon ends. -/
lemma ReadsRow.expression {e : Expr} (h : ReadsRow kinds e) (hts : ts.map Token.kind = kinds)
    (hnext : next.kind = .symbol .semicolon) : ∃ e', Expression ts next e' ∧ e'.bare = e.bare := by
  obtain ⟨e', he', hsame⟩ := h ts next hts (by rw [hnext]; simp)
  exact ⟨e', ⟨he', by rw [hnext]; rfl⟩, hsame⟩

lemma endsReturn_of_beginsRow {kind : Token.Kind} (h : beginsRow kind = true) :
    endsReturn kind = false := by
  unfold endsReturn
  split
  · cases h
  · cases h
  · cases h
  · rfl

/-- The value of a `return` on its line. -/
lemma Expression.beginsValue {r : Token} {e : Expr} (h : Expression ts next e)
    (hline : ∀ tok ∈ r :: ts, tok.pos.line = line) : BeginsValue r (ts.headD next) := by
  obtain ⟨tok, us, rfl, htok⟩ := h.row.begins
  refine ⟨?_, endsReturn_of_beginsRow htok⟩
  rw [List.headD_cons, hline tok (by simp), hline r (by simp)]

end Grammar

namespace Stmt

/-- **What is written for a statement** on one line, with a semicolon behind it, is
read back. -/
def Readable (st : Stmt) : Prop :=
  ∀ ⦃ts next line⦄, ts.map Token.kind = st.print → (∀ tok ∈ ts, tok.pos.line = line) →
    next.kind = .symbol .semicolon → ∃ st', Statement ts next st' ∧ st'.bare = st.bare

/-- What is written for some statements on one line is read back, also behind
semicolons. -/
def ReadableAll (body : List Stmt) : Prop :=
  ∀ (ss : List Token) (next : Token) ⦃ts line⦄, (∀ s ∈ ss, s.kind = .symbol .semicolon) →
    ts.map Token.kind = Stmt.printAll body → (∀ tok ∈ ts, tok.pos.line = line) →
    ∃ body', Sequence (ss ++ ts) next body' ∧ Stmt.bareAll body' = Stmt.bareAll body

lemma readable_var (p : Position) (name : String) : (Stmt.var p name none).Readable := by
  intro ts next line hts _ hnext
  obtain ⟨v, us, rfl, hv, hus⟩ := List.map_eq_cons_iff.1 hts
  obtain ⟨x, rfl, hx⟩ := List.map_eq_singleton_iff.1 hus
  exact ⟨_, .var hv hx (by rw [hnext]; simp), rfl⟩

lemma readable_varInit (p : Position) (name : String) (e : Expr) :
    (Stmt.var p name (some e)).Readable := by
  intro ts next line hts _ hnext
  obtain ⟨v, us, rfl, hv, hus⟩ := List.map_eq_cons_iff.1 hts
  obtain ⟨x, vs, rfl, hx, hvs⟩ := List.map_eq_cons_iff.1 hus
  obtain ⟨q, ws, rfl, hq, hws⟩ := List.map_eq_cons_iff.1 hvs
  obtain ⟨e', he', hsame⟩ := e.readable.row.expression hws hnext
  refine ⟨_, .varInit hv hx hq he', ?_⟩
  rw [Stmt.bare, Stmt.bare, Option.map_some, Option.map_some, hsame]

lemma readable_ret (p : Position) : (Stmt.ret p none).Readable := by
  intro ts next line hts _ hnext
  obtain ⟨r, rfl, hr⟩ := List.map_eq_singleton_iff.1 hts
  refine ⟨_, .ret hr ?_, rfl⟩
  rintro ⟨_, hends⟩
  rw [hnext] at hends
  cases hends

lemma readable_retValue (p : Position) (e : Expr) : (Stmt.ret p (some e)).Readable := by
  intro ts next line hts hline hnext
  obtain ⟨r, us, rfl, hr, hus⟩ := List.map_eq_cons_iff.1 hts
  obtain ⟨e', he', hsame⟩ := e.readable.row.expression hus hnext
  refine ⟨_, .retValue hr (he'.beginsValue hline) he', ?_⟩
  rw [Stmt.bare, Stmt.bare, Option.map_some, Option.map_some, hsame]

lemma readable_expr (p : Position) (e : Expr) : (Stmt.expr p e).Readable := by
  intro ts next line hts _ hnext
  obtain ⟨e', he', hsame⟩ := e.readable.row.expression hts hnext
  refine ⟨_, .expr he', ?_⟩
  rw [Stmt.bare, hsame, Stmt.bare]

/-- The statements in braces are read back. -/
lemma ReadableAll.braces {body : List Stmt} (h : ReadableAll body) {ts : List Token} {line : Nat}
    (hts : ts.map Token.kind =
      .symbol .leftBrace :: (Stmt.printAll body ++ [.symbol .rightBrace]))
    (hline : ∀ tok ∈ ts, tok.pos.line = line) :
    ∃ lb us rb body', ts = lb :: (us ++ [rb]) ∧ lb.kind = .symbol .leftBrace ∧
      rb.kind = .symbol .rightBrace ∧ Sequence us rb body' ∧
      Stmt.bareAll body' = Stmt.bareAll body := by
  obtain ⟨lb, us, rfl, hlb, hus⟩ := List.map_eq_cons_iff.1 hts
  obtain ⟨vs, ws, rfl, hvs, hws⟩ := List.map_eq_append_iff.1 hus
  obtain ⟨rb, rfl, hrb⟩ := List.map_eq_singleton_iff.1 hws
  obtain ⟨body', hbody', hsame⟩ := h [] rb (by simp) hvs fun tok htok => hline tok (by simp [htok])
  exact ⟨lb, vs, rb, body', rfl, hlb, hrb, hbody', hsame⟩

lemma ReadableAll.block {body : List Stmt} (h : ReadableAll body) (p q : Position) :
    (Stmt.block p q body).Readable := by
  intro ts next line hts hline _
  rw [Stmt.print] at hts
  obtain ⟨lb, us, rb, body', rfl, hlb, hrb, hbody', hsame⟩ := h.braces hts hline
  refine ⟨_, .block hlb hbody' hrb, ?_⟩
  rw [Stmt.bare, hsame, Stmt.bare]

lemma ReadableAll.func {body : List Stmt} (h : ReadableAll body) (p q : Position) (name : String)
    (params : List String) : (Stmt.func p name params q body).Readable := by
  intro ts next line hts hline _
  rw [Stmt.print] at hts
  obtain ⟨f, us, rfl, hf, hus⟩ := List.map_eq_cons_iff.1 hts
  obtain ⟨x, vs, rfl, hx, hvs⟩ := List.map_eq_cons_iff.1 hus
  obtain ⟨lp, ws, rfl, hlp, hws⟩ := List.map_eq_cons_iff.1 hvs
  obtain ⟨ps, bs, rfl, hps, hbs⟩ := List.map_eq_append_iff.1 hws
  obtain ⟨lb, us, rb, body', rfl, hlb, hrb, hbody', hsame⟩ :=
    h.braces hbs fun tok htok => hline tok (by simp_all)
  obtain ⟨params', hparams, hids⟩ := readsBack_params params ps lb hps (by rw [hlb]; simp)
  obtain rfl : params' = params := by rwa [List.map_id, List.map_id] at hids
  refine ⟨_, .func hf hx hlp hparams hlb hbody' hrb, ?_⟩
  rw [Stmt.bare, hsame, Stmt.bare]

/-- The semicolon behind a statement stands in front of the next one. -/
lemma Readable.cons {st : Stmt} {rest : List Stmt} (h : st.Readable) (hrest : ReadableAll rest) :
    ReadableAll (st :: rest) := by
  intro ss next ts line hss hts hline
  rw [Stmt.printAll] at hts
  obtain ⟨us, vs, rfl, hus, hvs⟩ := List.map_eq_append_iff.1 hts
  obtain ⟨s, ws, rfl, hs, hws⟩ := List.map_eq_cons_iff.1 hvs
  obtain ⟨st', hst', hsame⟩ := h hus (fun tok htok => hline tok (by simp [htok])) hs
  obtain ⟨rest', hrest', hsames⟩ := hrest [s] next (by simpa using hs) hws fun tok htok =>
    hline tok (by simp [htok])
  refine ⟨st' :: rest', .cons hss hst' hrest', ?_⟩
  rw [Stmt.bareAll, hsame, hsames, Stmt.bareAll]

mutual

lemma readable : (st : Stmt) → st.Readable
  | .var p name none => readable_var p name
  | .var p name (some e) => readable_varInit p name e
  | .ret p none => readable_ret p
  | .ret p (some e) => readable_retValue p e
  | .func p name params q body => (readableAll body).func p q name params
  | .block p q body => (readableAll body).block p q
  | .expr p e => readable_expr p e

lemma readableAll : (body : List Stmt) → ReadableAll body
  | [] => by
    intro ss next ts line hss hts _
    obtain rfl := List.map_eq_nil_iff.1 hts
    refine ⟨[], ?_, rfl⟩
    rw [List.append_nil]
    exact .nil hss
  | st :: rest => (readable st).cons (readableAll rest)

end

end Stmt

/-! ### Texts -/

/-- Words that spell tokens are parsed if all texts of these tokens on one line
form a sequence of statements. -/
lemma parse_words {P : List Stmt → Prop} {kinds : List Token.Kind} {words : List String}
    (hwords : List.Forall₂ Token.Kind.SpelledBy kinds words)
    (h : ∀ ts eof, ts.map Token.kind = kinds → (∀ tok ∈ ts, tok.pos.line = 1) →
      ∃ body, Sequence ts eof body ∧ P body) :
    ∃ body, parse (" ".intercalate words) = .ok ⟨.start, body⟩ ∧ P body := by
  obtain ⟨ts, mid, eof, fin, hts, hscan, heof, hkinds, hline⟩ := Cursor.spells_intercalate hwords
  obtain ⟨body, hbody, hP⟩ := h ts eof hkinds fun tok htok => hline tok (by simp [htok])
  exact ⟨body, parse_of_sequence hts hscan heof hbody, hP⟩

/-- **Parsing undoes printing.** The tokens of a program, written on one line with
blanks in between, are parsed to this program, up to places. Every row of operands
is parsed to these operands joined from the left, whatever the operators are. -/
theorem parse_undoes_print :
    (∀ (p : Program) (words : List String), List.Forall₂ Token.Kind.SpelledBy p.print words →
      ∃ q, parse (" ".intercalate words) = .ok q ∧ q.bare = p.bare) ∧
    ∀ (first : Expr) (row : List (BinaryOp × Expr)) (words : List String),
      List.Forall₂ Token.Kind.SpelledBy (first.printChain row ++ [.symbol .semicolon]) words →
      ∃ e, parse (" ".intercalate words) = .ok ⟨.start, [.expr e.pos e]⟩ ∧
        e.bare = (first.leftChain row).bare := by
  constructor
  · intro p words hwords
    have hread : ∀ ts eof, ts.map Token.kind = p.print → (∀ tok ∈ ts, tok.pos.line = 1) →
        ∃ body, Sequence ts eof body ∧ Stmt.bareAll body = Stmt.bareAll p.body := by
      intro ts eof hts hline
      exact Stmt.readableAll p.body [] eof (by simp) hts hline
    obtain ⟨body, hparse, hsame⟩ := parse_words hwords hread
    exact ⟨_, hparse, by rw [Program.bare, hsame, Program.bare]⟩
  · intro first row words hwords
    have hread : ∀ ts eof, ts.map Token.kind = first.printChain row ++ [.symbol .semicolon] →
        (∀ tok ∈ ts, tok.pos.line = 1) →
        ∃ body, Sequence ts eof body ∧
          ∃ e, body = [.expr e.pos e] ∧ e.bare = (first.leftChain row).bare := by
      intro ts eof hts _
      obtain ⟨us, vs, rfl, hus, hvs⟩ := List.map_eq_append_iff.1 hts
      obtain ⟨s, rfl, hs⟩ := List.map_eq_singleton_iff.1 hvs
      obtain ⟨e, he, hsame⟩ := (first.readsRow_printChain row).expression hus hs
      have hrest : Sequence [s] eof [] := .nil (by simpa using hs)
      have hseq : Sequence ([] ++ (us ++ [s])) eof [.expr e.pos e] :=
        .cons (by simp) (.expr he) hrest
      exact ⟨_, hseq, e, rfl, hsame⟩
    obtain ⟨body, hparse, e, rfl, hsame⟩ := parse_words hwords hread
    exact ⟨e, hparse, hsame⟩

/-- A function that calls what a call returns, and a row with four operators. -/
theorem parse_undoes_print_func :
    (∃ q, parse "func g ( x ) \x7b return ( g ( x ) ) ( - ( x - 1.5 ) ) ; \x7d ;" = .ok q ∧
      q.bare = ⟨.start, [.func .start "g" ["x"] .start [.ret .start
        (some (.call .start (.call .start (.identifier .start "g") [.identifier .start "x"])
          [.unary .start .negate
            (.binary .start .sub (.identifier .start "x") (.number .start 1.5))]))]]⟩) ∧
    ∃ e, parse "| x | // 1.5 ** - ( x + g ) - x ;" = .ok ⟨.start, [.expr e.pos e]⟩ ∧
      e.bare = .binary .start .sub
        (.binary .start .pow
          (.binary .start .floorDiv (.unary .start .absolute (.identifier .start "x"))
            (.number .start 1.5))
          (.unary .start .negate
            (.binary .start .add (.identifier .start "x") (.identifier .start "g"))))
        (.identifier .start "x") := by
  have hx : Token.Kind.SpelledBy (.identifier "x") "x" := .name rfl rfl (by simp) rfl
  have hg : Token.Kind.SpelledBy (.identifier "g") "g" := .name rfl rfl (by simp) rfl
  have hnum : Token.Kind.SpelledBy (.number 1.5) "1.5" := .number rfl rfl rfl
  obtain ⟨hprogram, hchain⟩ := parse_undoes_print
  constructor
  · have hwords : List.Forall₂ Token.Kind.SpelledBy
        (Program.print ⟨.start, [.func .start "g" ["x"] .start [.ret .start
          (some (.call .start (.call .start (.identifier .start "g") [.identifier .start "x"])
            [.unary .start .negate
              (.binary .start .sub (.identifier .start "x") (.number .start 1.5))]))]]⟩)
        ["func", "g", "(", "x", ")", "\x7b", "return", "(", "g", "(", "x", ")", ")", "(", "-", "(",
          "x", "-", "1.5", ")", ")", ";", "\x7d", ";"] :=
      .cons (.keyword .func) <| .cons hg <| .cons (.symbol .leftParen) <| .cons hx <|
      .cons (.symbol .rightParen) <| .cons (.symbol .leftBrace) <| .cons (.keyword .ret) <|
      .cons (.symbol .leftParen) <| .cons hg <| .cons (.symbol .leftParen) <| .cons hx <|
      .cons (.symbol .rightParen) <| .cons (.symbol .rightParen) <| .cons (.symbol .leftParen) <|
      .cons (.symbol .minus) <| .cons (.symbol .leftParen) <| .cons hx <| .cons (.symbol .minus) <|
      .cons hnum <| .cons (.symbol .rightParen) <| .cons (.symbol .rightParen) <|
      .cons (.symbol .semicolon) <| .cons (.symbol .rightBrace) <| .cons (.symbol .semicolon) .nil
    have htext : " ".intercalate ["func", "g", "(", "x", ")", "\x7b", "return", "(", "g", "(", "x",
        ")", ")", "(", "-", "(", "x", "-", "1.5", ")", ")", ";", "\x7d", ";"] =
        "func g ( x ) \x7b return ( g ( x ) ) ( - ( x - 1.5 ) ) ; \x7d ;" := by decide +kernel
    rw [← htext]
    exact hprogram _ _ hwords
  · have hwords : List.Forall₂ Token.Kind.SpelledBy
        ((Expr.unary .start .absolute (.identifier .start "x")).printChain
          [(.floorDiv, .number .start 1.5),
            (.pow, .unary .start .negate
              (.binary .start .add (.identifier .start "x") (.identifier .start "g"))),
            (.sub, .identifier .start "x")] ++ [.symbol .semicolon])
        ["|", "x", "|", "//", "1.5", "**", "-", "(", "x", "+", "g", ")", "-", "x", ";"] :=
      .cons (.symbol .bar) <| .cons hx <| .cons (.symbol .bar) <| .cons (.symbol .doubleSlash) <|
      .cons hnum <| .cons (.symbol .doubleStar) <| .cons (.symbol .minus) <|
      .cons (.symbol .leftParen) <| .cons hx <| .cons (.symbol .plus) <| .cons hg <|
      .cons (.symbol .rightParen) <| .cons (.symbol .minus) <| .cons hx <|
      .cons (.symbol .semicolon) .nil
    have htext : " ".intercalate ["|", "x", "|", "//", "1.5", "**", "-", "(", "x", "+", "g", ")",
        "-", "x", ";"] = "| x | // 1.5 ** - ( x + g ) - x ;" := by decide +kernel
    rw [← htext]
    exact hchain _ _ _ hwords

end ClosureCalc
