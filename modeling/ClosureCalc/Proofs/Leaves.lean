/-
The tokens that a tree accounts for, and the places of its nodes.

Parentheses, commas and semicolons leave no trace in a tree, and neither does
the end of the text. Every other token is found in the tree, in order and once:
as a leaf, or as the mark of a node. A node with a token in front of its first
part stands at this token, and any other one where its first part does.

* `Leaf`: a token as the tree keeps it, with its place or without.
* `Expr.leaves`, `Stmt.leaves`: the tokens that a tree keeps, in order.
* `Accounts`: some tokens are those that a tree keeps, up to the silent ones.
* `Row.accounts`, `Statement.accounts`: the tokens of a phrase are those that its
  tree keeps.
* `Expr.Placed`, `Stmt.Placed`: the nodes of a tree that begin with a part of theirs
  have its place; `Row.placed`, `Statement.placed`: those of a phrase have.
* `tree_accounts_for_tokens`: the tokens of a text are those that its program
  keeps, and its nodes have the places of these tokens.
-/
import ClosureCalc.Proofs.Derives
import Mathlib.Data.List.Forall2

namespace ClosureCalc

/-! ### The tokens of trees -/

/-- A token as a tree keeps it: its kind, and its place if a node has it. -/
structure Leaf where
  kind : Token.Kind
  pos? : Option Position

namespace Leaf

/-- A token that begins a node which has its place. -/
def located (kind : Token.Kind) (p : Position) : Leaf := ⟨kind, some p⟩

/-- A token whose place is not kept. -/
def unlocated (kind : Token.Kind) : Leaf := ⟨kind, none⟩

/-- A token is the one that a tree keeps. -/
structure Fits (leaf : Leaf) (tok : Token) : Prop where
  kind : leaf.kind = tok.kind
  pos : ∀ p ∈ leaf.pos?, p = tok.pos

end Leaf

mutual

/-- The tokens that an expression keeps, in order. -/
def Expr.leaves : Expr → List Leaf
  | .number p value => [.located (.number value) p]
  | .identifier p name => [.located (.identifier name) p]
  | .unary p .absolute target =>
    .located (.symbol .bar) p :: target.leaves ++ [.unlocated (.symbol .bar)]
  | .unary p op target => .located (.symbol op.symbol) p :: target.leaves
  | .binary _ op left right => left.leaves ++ .unlocated (.symbol op.symbol) :: right.leaves
  | .call _ callee args => callee.leaves ++ Expr.leavesAll args

/-- The tokens that some expressions keep, in order. -/
def Expr.leavesAll : List Expr → List Leaf
  | [] => []
  | e :: es => e.leaves ++ Expr.leavesAll es

end

mutual

/-- The tokens that a statement keeps, in order. -/
def Stmt.leaves : Stmt → List Leaf
  | .var p name none => [.located (.keyword .var) p, .unlocated (.identifier name)]
  | .var p name (some e) =>
    .located (.keyword .var) p :: .unlocated (.identifier name) ::
      .unlocated (.symbol .equal) :: e.leaves
  | .ret p none => [.located (.keyword .ret) p]
  | .ret p (some e) => .located (.keyword .ret) p :: e.leaves
  | .func p name params bodyPos body =>
    .located (.keyword .func) p :: .unlocated (.identifier name) ::
      (params.map fun param => .unlocated (.identifier param)) ++
      (.located (.symbol .leftBrace) bodyPos ::
        (Stmt.leavesAll body ++ [.unlocated (.symbol .rightBrace)]))
  | .block _ bodyPos body =>
    .located (.symbol .leftBrace) bodyPos ::
      (Stmt.leavesAll body ++ [.unlocated (.symbol .rightBrace)])
  | .expr _ e => e.leaves

/-- The tokens that some statements keep, in order. -/
def Stmt.leavesAll : List Stmt → List Leaf
  | [] => []
  | st :: rest => st.leaves ++ Stmt.leavesAll rest

end

/-- The kinds of tokens that leave no trace in a tree. -/
def Token.Kind.isSilent : Token.Kind → Bool
  | .symbol .leftParen => true
  | .symbol .rightParen => true
  | .symbol .comma => true
  | .symbol .semicolon => true
  | .endOfInput => true
  | _ => false

/-- **Leaves account for some tokens**: they are the tokens that are not silent,
one by one. -/
def Accounts (leaves : List Leaf) (ts : List Token) : Prop :=
  List.Forall₂ Leaf.Fits leaves (ts.filter (!·.kind.isSilent))

section Accounts

variable {leaves leaves' : List Leaf} {ts us : List Token} {tok : Token} {kind : Token.Kind}

lemma accounts_nil : Accounts [] [] := .nil

lemma Accounts.append (h : Accounts leaves ts) (h' : Accounts leaves' us) :
    Accounts (leaves ++ leaves') (ts ++ us) := by
  rw [Accounts, List.filter_append]
  exact List.rel_append h h'

lemma Accounts.silent (htok : tok.kind.isSilent = true) (h : Accounts leaves ts) :
    Accounts leaves (tok :: ts) := by
  rw [Accounts, List.filter_cons_of_neg (by simp [htok])]
  exact h

lemma Accounts.cons {leaf : Leaf} (hleaf : leaf.Fits tok) (htok : tok.kind.isSilent = false)
    (h : Accounts leaves ts) : Accounts (leaf :: leaves) (tok :: ts) := by
  rw [Accounts, List.filter_cons_of_pos (by simp [htok])]
  exact .cons hleaf h

lemma Accounts.located (hk : tok.kind = kind) (hsilent : kind.isSilent = false)
    (h : Accounts leaves ts) : Accounts (.located kind tok.pos :: leaves) (tok :: ts) := by
  subst hk
  refine h.cons ⟨rfl, fun p hp => ?_⟩ hsilent
  exact (Option.mem_some_iff.1 hp).symm

lemma Accounts.unlocated (hk : tok.kind = kind) (hsilent : kind.isSilent = false)
    (h : Accounts leaves ts) : Accounts (.unlocated kind :: leaves) (tok :: ts) := by
  subst hk
  exact h.cons ⟨rfl, fun p hp => by cases hp⟩ hsilent

/-- A silent token behind all others. -/
lemma Accounts.concat (htok : tok.kind.isSilent = true) (h : Accounts leaves ts) :
    Accounts leaves (ts ++ [tok]) := by
  have happend := h.append (accounts_nil.silent htok)
  rwa [List.append_nil] at happend

lemma accounts_of_silent (h : ∀ tok ∈ ts, tok.kind.isSilent = true) : Accounts [] ts := by
  induction ts with
  | nil => exact accounts_nil
  | cons tok ts ih =>
    refine Accounts.silent (h tok List.mem_cons_self) (ih fun tok htok => ?_)
    exact h tok (List.mem_cons_of_mem _ htok)

end Accounts

/-! ### Phrases -/

namespace Grammar

/-- Neither prefix nor infix operators are silent. -/
lemma isSilent_unary (op : UnaryOp) : (Token.Kind.symbol op.symbol).isSilent = false := by
  cases op <;> rfl

lemma isSilent_binary (op : BinaryOp) : (Token.Kind.symbol op.symbol).isSilent = false := by
  cases op <;> rfl

mutual

lemma Primary.accounts {ts : List Token} {e : Expr} : Primary ts e → Accounts e.leaves ts
  | .identifier h => accounts_nil.located h rfl
  | .number h => accounts_nil.located h rfl
  | .parens hl h hr => by
    have hinner := h.accounts
    exact (hinner.silent (by rw [hl]; rfl)).concat (by rw [hr]; rfl)

lemma Operand.accounts {ts : List Token} {next : Token} {e : Expr} :
    Operand ts next e → Accounts e.leaves ts
  | .bare h _ => h.accounts
  | .call h hl hargs => by
    have hargs' := Listing.accounts hargs
    exact h.accounts.append (hargs'.silent (by rw [hl]; rfl))
  | .bars hl h hr => by
    have hclose := accounts_nil.unlocated hr rfl
    exact (h.accounts.append hclose).located hl rfl
  | .sign hop hsign h => by
    have hk := kind_of_unaryOp? hop
    have htarget := h.accounts.located hk (isSilent_unary _)
    rename_i op _
    cases op with
    | absolute => exact absurd rfl hsign
    | identity => exact htarget
    | negate => exact htarget

lemma Row.accounts {ts : List Token} {next : Token} {e : Expr} :
    Row ts next e → Accounts e.leaves ts
  | .one h => h.accounts
  | .more hleft hop hright => by
    have hright' := hright.accounts.unlocated (kind_of_binaryOp? hop) (isSilent_binary _)
    exact hleft.accounts.append hright'

lemma Items.accounts {ts : List Token} {es : List Expr} :
    Items Row ts es → Accounts (Expr.leavesAll es) ts
  | .last h hr => by
    rw [Expr.leavesAll, Expr.leavesAll, List.append_nil]
    exact h.accounts.concat (by rw [hr]; rfl)
  | .more h hc hrest => by
    have hrest' := Items.accounts hrest
    exact h.accounts.append (hrest'.silent (by rw [hc]; rfl))

lemma Listing.accounts {ts : List Token} {es : List Expr} :
    Listing Row ts es → Accounts (Expr.leavesAll es) ts
  | .none hr => accounts_nil.silent (by rw [hr]; rfl)
  | .some h => Items.accounts h

end

/-- The names of parameters are kept. -/
lemma accounts_params {ps : List Token} {params : List String} (h : Listing Param ps params) :
    Accounts (params.map fun param => .unlocated (.identifier param)) ps := by
  cases h with
  | none hr => exact accounts_nil.silent (by rw [hr]; rfl)
  | some h =>
    induction h with
    | last h hr =>
      obtain ⟨hk⟩ := h
      exact (accounts_nil.unlocated hk rfl).concat (by rw [hr]; rfl)
    | more h hc _ ih =>
      obtain ⟨hk⟩ := h
      exact (ih.silent (by rw [hc]; rfl)).unlocated hk rfl

mutual

lemma Statement.accounts {ts : List Token} {next : Token} {st : Stmt} :
    Statement ts next st → Accounts st.leaves ts
  | .var hv hx _ => (accounts_nil.unlocated hx rfl).located hv rfl
  | .varInit hv hx hq h =>
    ((h.row.accounts.unlocated hq rfl).unlocated hx rfl).located hv rfl
  | .ret hr _ => accounts_nil.located hr rfl
  | .retValue hr _ h => h.row.accounts.located hr rfl
  | .func hf hx hlp hparams hlb hbody hrb => by
    have hclose := hbody.accounts.append (accounts_nil.unlocated hrb rfl)
    have hrest := (accounts_params hparams).append (hclose.located hlb rfl)
    exact ((hrest.silent (by rw [hlp]; rfl)).unlocated hx rfl).located hf rfl
  | .block hlb hbody hrb =>
    (hbody.accounts.append (accounts_nil.unlocated hrb rfl)).located hlb rfl
  | .expr h => h.row.accounts

lemma Sequence.accounts {ts : List Token} {next : Token} {body : List Stmt} :
    Sequence ts next body → Accounts (Stmt.leavesAll body) ts
  | .nil hss => accounts_of_silent fun s hs => by rw [hss s hs]; rfl
  | .cons hss h hrest => by
    have hsemi := accounts_of_silent fun s hs => (by rw [hss s hs]; rfl : s.kind.isSilent = true)
    exact hsemi.append (h.accounts.append hrest.accounts)

end

end Grammar

/-! ### The places of nodes -/

/-- **The nodes of an expression have the right places.** A binary expression stands
where its left operand does, and a call where its callee does. -/
inductive Expr.Placed : Expr → Prop
  | number (p : Position) (value : Float) : Placed (.number p value)
  | identifier (p : Position) (name : String) : Placed (.identifier p name)
  | unary (p : Position) (op : UnaryOp) {target : Expr} (h : Placed target) :
      Placed (.unary p op target)
  | binary {p : Position} {op : BinaryOp} {left right : Expr} (hpos : p = left.pos)
      (hleft : Placed left) (hright : Placed right) : Placed (.binary p op left right)
  | call {p : Position} {callee : Expr} {args : List Expr} (hpos : p = callee.pos)
      (hcallee : Placed callee) (hargs : ∀ e ∈ args, Placed e) : Placed (.call p callee args)

/-- **The nodes of a statement have the right places.** A block stands where its list
of statements does, and an expression as a statement where the expression does. -/
inductive Stmt.Placed : Stmt → Prop
  | var (p : Position) (name : String) {init : Option Expr} (h : ∀ e ∈ init, e.Placed) :
      Placed (.var p name init)
  | ret (p : Position) {value : Option Expr} (h : ∀ e ∈ value, e.Placed) :
      Placed (.ret p value)
  | func (p : Position) (name : String) (params : List String) (bodyPos : Position)
      {body : List Stmt} (hbody : ∀ st ∈ body, Placed st) :
      Placed (.func p name params bodyPos body)
  | block {p bodyPos : Position} {body : List Stmt} (hpos : p = bodyPos)
      (hbody : ∀ st ∈ body, Placed st) : Placed (.block p bodyPos body)
  | expr {p : Position} {e : Expr} (hpos : p = e.pos) (he : e.Placed) : Placed (.expr p e)

namespace Grammar

mutual

lemma Primary.placed {ts : List Token} {e : Expr} : Primary ts e → e.Placed
  | .identifier _ => .identifier _ _
  | .number _ => .number _ _
  | .parens _ h _ => h.placed

lemma Operand.placed {ts : List Token} {next : Token} {e : Expr} :
    Operand ts next e → e.Placed
  | .bare h _ => h.placed
  | .call h _ hargs => .call rfl h.placed (Listing.placed hargs)
  | .bars _ h _ => .unary _ _ h.placed
  | .sign _ _ h => .unary _ _ h.placed

lemma Row.placed {ts : List Token} {next : Token} {e : Expr} : Row ts next e → e.Placed
  | .one h => h.placed
  | .more hleft _ hright => .binary rfl hleft.placed hright.placed

lemma Items.placed {ts : List Token} {es : List Expr} : Items Row ts es → ∀ e ∈ es, e.Placed
  | .last h _ => List.forall_mem_singleton.2 h.placed
  | .more h _ hrest => List.forall_mem_cons.2 ⟨h.placed, Items.placed hrest⟩

lemma Listing.placed {ts : List Token} {es : List Expr} :
    Listing Row ts es → ∀ e ∈ es, e.Placed
  | .none _ => fun _ he => nomatch he
  | .some h => Items.placed h

end

mutual

lemma Statement.placed {ts : List Token} {next : Token} {st : Stmt} :
    Statement ts next st → st.Placed
  | .var _ _ _ => .var _ _ fun _ he => nomatch he
  | .varInit _ _ _ h => .var _ _ fun _ he => Option.mem_some_iff.1 he ▸ h.row.placed
  | .ret _ _ => .ret _ fun _ he => nomatch he
  | .retValue _ _ h => .ret _ fun _ he => Option.mem_some_iff.1 he ▸ h.row.placed
  | .func _ _ _ _ _ hbody _ => .func _ _ _ _ hbody.placed
  | .block _ hbody _ => .block rfl hbody.placed
  | .expr h => .expr rfl h.row.placed

lemma Sequence.placed {ts : List Token} {next : Token} {body : List Stmt} :
    Sequence ts next body → ∀ st ∈ body, st.Placed
  | .nil _ => fun _ hst => nomatch hst
  | .cons _ h hrest => List.forall_mem_cons.2 ⟨h.placed, hrest.placed⟩

end

end Grammar

/-! ### Texts -/

/-- The nodes of a program that was read from a text have the right places. -/
lemma placed_of_parse {source : String} {p : Program} (h : parse source = .ok p) :
    ∀ st ∈ p.body, st.Placed := by
  obtain ⟨-, ts, eof, mid, fin, -, -, -, hseq⟩ := sequence_of_parse h
  exact hseq.placed

/-- The tokens of a text are those that can be read one by one. -/
lemma Cursor.Reads.tokens {cur mid fin : Cursor} {ts : List Token} {eof : Token}
    (h : cur.Reads ts mid) (hscan : mid.scan = .ok eof fin) (heof : eof.kind = .endOfInput) :
    ∀ n, ts.length < n → cur.tokens n = .ok (ts ++ [eof]) := by
  induction h with
  | nil =>
    intro n hn
    obtain ⟨n, rfl⟩ := Nat.exists_eq_succ_of_ne_zero (n := n) (by omega)
    rw [Cursor.tokens, hscan]
    exact if_pos heof
  | cons hscan' hkind _ ih =>
    intro n hn
    obtain ⟨n, rfl⟩ := Nat.exists_eq_succ_of_ne_zero (n := n) (by omega)
    rw [Cursor.tokens, hscan']
    simp only
    rw [if_neg hkind, ih hscan n (Nat.lt_of_succ_lt_succ hn)]
    rfl

/-- **The tree accounts for every token.** If a text is parsed, its tokens that
are not silent are those that the program keeps, in order and once, each at the
place that the program keeps for it. A node that has no token in front of its
first part has the place of that part. -/
theorem tree_accounts_for_tokens {source : String} {p : Program} (h : parse source = .ok p) :
    (∃ toks, tokenize source = .ok toks ∧ Accounts (Stmt.leavesAll p.body) toks) ∧
      p.pos = ⟨0, 1, 1⟩ ∧ ∀ st ∈ p.body, st.Placed := by
  obtain ⟨hpos, ts, eof, mid, fin, hts, hscan, heof, hseq⟩ := sequence_of_parse h
  have hlength : ts.length + mid.rest.length ≤ source.toList.length := hts.length_add_le
  have hsize : source.toList.length = source.length := String.length_toList
  have htokens : tokenize source = .ok (ts ++ [eof]) :=
    hts.tokens hscan heof (source.length + 1) (by omega)
  have hsilent : eof.kind.isSilent = true := by rw [heof]; rfl
  have haccounts := hseq.accounts.concat hsilent
  exact ⟨⟨_, htokens, haccounts⟩, hpos, placed_of_parse h⟩

/-- A function, a `return` that is not silent, a block, bars, and a sum and a callee in
parentheses, which stand behind these. -/
theorem tree_accounts_for_tokens_func :
    let source := "func f(a, b)\x7breturn (a + 1) ** -(b)\x7d; \x7b(f)(|x|)\x7d"
    ∃ p toks, parse source = .ok p ∧ tokenize source = .ok toks ∧
      Accounts (Stmt.leavesAll p.body) toks ∧ p.pos = ⟨0, 1, 1⟩ ∧ ∀ st ∈ p.body, st.Placed := by
  intro source
  have hparsed : (parse source).toBool = true := by decide +kernel
  cases h : parse source with
  | error e =>
    rw [h] at hparsed
    cases hparsed
  | ok p =>
    obtain ⟨⟨toks, htoks, haccounts⟩, hpos, hplaced⟩ := tree_accounts_for_tokens h
    exact ⟨p, toks, rfl, htoks, haccounts, hpos, hplaced⟩

end ClosureCalc
