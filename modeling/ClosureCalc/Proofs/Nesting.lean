/-
Nesting.

A row of tokens is counted from left to right: which brackets are open, how many
bars there were, and whether the last token waits for an operand. Every phrase of
the grammar closes the brackets that it opens and no others, has an even number of
bars, and does not end with a token that waits.

* `Tally`: what has been counted; `Tally.take`, `Tally.behind`: the tally behind one
  more token, and behind some.
* `Settles`: tokens that leave open what was open before them; `ClosesParen`: tokens
  that close one parenthesis besides.
* `Row.settles`, `Statement.settles`, `Sequence.settles`: the phrases.
* `Tally.ne_unexpected_of_behind`: a token that is a stray character cannot be counted.
-/
import ClosureCalc.Editor.Completeness
import ClosureCalc.Proofs.Derives

namespace ClosureCalc

/-- The open brackets, innermost first, the number of bars, and whether the last
token waits for an operand. -/
structure Tally where
  opened : List Bracket
  bars : Nat
  waits : Bool
deriving DecidableEq, Repr

namespace Tally

/-- Nothing counted. -/
def zero : Tally := ⟨[], 0, false⟩

/-- The tally behind a closing bracket; none if it is not the innermost one that is
closed. -/
def close (t : Tally) (k : Bracket) : Option Tally :=
  if t.opened.head? = some k then some ⟨t.opened.tail, t.bars, false⟩ else none

lemma close_eq_some_iff {t t' : Tally} {k : Bracket} :
    t.close k = some t' ↔ t.opened.head? = some k ∧ t' = ⟨t.opened.tail, t.bars, false⟩ := by
  rw [close]
  split <;> simp_all [eq_comm]

/-- The tally behind a symbol. Operators, commas and the sign of equality wait for an
operand. -/
def symbol (t : Tally) : Symbol → Option Tally
  | .leftParen => some ⟨.paren :: t.opened, t.bars, false⟩
  | .leftBrace => some ⟨.brace :: t.opened, t.bars, false⟩
  | .rightParen => t.close .paren
  | .rightBrace => t.close .brace
  | .bar => some ⟨t.opened, t.bars + 1, false⟩
  | .semicolon => some ⟨t.opened, t.bars, false⟩
  | _ => some ⟨t.opened, t.bars, true⟩

/-- The tally behind a token. Stray characters and the end of the text are not
counted. -/
def take (t : Tally) : Token.Kind → Option Tally
  | .symbol s => t.symbol s
  | .unexpected _ => none
  | .endOfInput => none
  | _ => some ⟨t.opened, t.bars, false⟩

@[simp]
lemma take_symbol (t : Tally) (s : Symbol) : t.take (.symbol s) = t.symbol s := rfl

@[simp]
lemma symbol_leftParen (t : Tally) :
    t.symbol .leftParen = some ⟨.paren :: t.opened, t.bars, false⟩ := rfl

@[simp]
lemma symbol_leftBrace (t : Tally) :
    t.symbol .leftBrace = some ⟨.brace :: t.opened, t.bars, false⟩ := rfl

@[simp]
lemma symbol_rightParen (t : Tally) : t.symbol .rightParen = t.close .paren := rfl

@[simp]
lemma symbol_rightBrace (t : Tally) : t.symbol .rightBrace = t.close .brace := rfl

@[simp]
lemma symbol_bar (t : Tally) : t.symbol .bar = some ⟨t.opened, t.bars + 1, false⟩ := rfl

@[simp]
lemma symbol_semicolon (t : Tally) : t.symbol .semicolon = some ⟨t.opened, t.bars, false⟩ := rfl

@[simp]
lemma symbol_comma (t : Tally) : t.symbol .comma = some ⟨t.opened, t.bars, true⟩ := rfl

/-- The tally behind some tokens. -/
def behind (t : Tally) (ts : List Token) : Option Tally :=
  ts.foldlM (fun t tok => t.take tok.kind) t

@[simp]
lemma behind_nil (t : Tally) : t.behind [] = some t := rfl

@[simp]
lemma behind_cons (t : Tally) (tok : Token) (ts : List Token) :
    t.behind (tok :: ts) = (t.take tok.kind).bind fun t' => t'.behind ts := rfl

@[simp]
lemma behind_append (t : Tally) (ts us : List Token) :
    t.behind (ts ++ us) = (t.behind ts).bind fun t' => t'.behind us := by
  simp only [behind, List.foldlM_append]
  rfl

/-- A stray character cannot be counted. -/
lemma ne_unexpected_of_behind {t t' : Tally} {ts : List Token} (h : t.behind ts = some t') :
    ∀ tok ∈ ts, ∀ c, tok.kind ≠ .unexpected c := by
  induction ts generalizing t with
  | nil => simp
  | cons tok ts ih =>
    rw [behind_cons, Option.bind_eq_some_iff] at h
    obtain ⟨mid, htok, hts⟩ := h
    intro tok' hmem c hk
    rcases List.mem_cons.1 hmem with rfl | hmem
    · rw [hk] at htok
      cases htok
    · exact ih hts tok' hmem c hk

end Tally

namespace Grammar

open ClosureCalc.Parser

/-! ### Tokens that settle -/

/-- **Tokens settle** what is in them: the brackets that were open before them are
open behind them, they have pairs of bars, and nothing waits. -/
def Settles (ts : List Token) : Prop :=
  ∃ pairs, ∀ t : Tally, t.behind ts = some ⟨t.opened, t.bars + 2 * pairs, false⟩

/-- Tokens that settle, and close one parenthesis besides. -/
def ClosesParen (ts : List Token) : Prop :=
  ∃ pairs, ∀ os bars waits,
    Tally.behind ⟨.paren :: os, bars, waits⟩ ts = some ⟨os, bars + 2 * pairs, false⟩

section Settles

variable {ts us : List Token} {tok l r : Token}

lemma Settles.append (h : Settles ts) (h' : Settles us) : Settles (ts ++ us) := by
  obtain ⟨m, hts⟩ := h
  obtain ⟨n, hus⟩ := h'
  exact ⟨m + n, fun t => by simp [hts, hus]; omega⟩

lemma Settles.append_or_nil (h : Settles ts) (h' : us = [] ∨ Settles us) :
    Settles (ts ++ us) := by
  rcases h' with rfl | h'
  · rwa [List.append_nil]
  · exact h.append h'

lemma settles_or_nil_append (h : ts = [] ∨ Settles ts) (h' : Settles us) :
    Settles (ts ++ us) := by
  rcases h with rfl | h
  · exact h'
  · exact h.append h'

/-- A token that is neither a bracket nor a bar, behind which nothing waits. -/
lemma settles_single (h : ∀ t : Tally, t.take tok.kind = some ⟨t.opened, t.bars, false⟩) :
    Settles [tok] :=
  ⟨0, fun t => by simp [h]⟩

/-- What comes behind a token is what the token waits for. -/
lemma Settles.cons {waits : Bool} (h : Settles ts)
    (htok : ∀ t : Tally, t.take tok.kind = some ⟨t.opened, t.bars, waits⟩) :
    Settles (tok :: ts) := by
  obtain ⟨n, hts⟩ := h
  exact ⟨n, fun t => by simp [htok, hts]⟩

lemma Settles.parens (h : Settles ts) (hl : l.kind = .symbol .leftParen)
    (hr : r.kind = .symbol .rightParen) : Settles (l :: ts ++ [r]) := by
  obtain ⟨n, hts⟩ := h
  exact ⟨n, fun t => by simp [hl, hr, hts, Tally.close]⟩

lemma Settles.bars (h : Settles ts) (hl : l.kind = .symbol .bar) (hr : r.kind = .symbol .bar) :
    Settles (l :: ts ++ [r]) := by
  obtain ⟨n, hts⟩ := h
  exact ⟨n + 1, fun t => by simp [hl, hr, hts]; omega⟩

/-- Braces may have nothing in them. -/
lemma settles_braces (h : ts = [] ∨ Settles ts) (hl : l.kind = .symbol .leftBrace)
    (hr : r.kind = .symbol .rightBrace) : Settles (l :: (ts ++ [r])) := by
  rcases h with rfl | ⟨n, hts⟩
  · exact ⟨0, fun t => by simp [hl, hr, Tally.close]⟩
  · exact ⟨n, fun t => by simp [hl, hr, hts, Tally.close]⟩

lemma closesParen_single (hr : r.kind = .symbol .rightParen) : ClosesParen [r] :=
  ⟨0, fun os bars waits => by simp [hr, Tally.close]⟩

/-- Before a parenthesis is closed, something else may settle. -/
lemma Settles.closesParen (h : Settles ts) (h' : ClosesParen us) : ClosesParen (ts ++ us) := by
  obtain ⟨m, hts⟩ := h
  obtain ⟨n, hus⟩ := h'
  exact ⟨m + n, fun os bars waits => by simp [hts, hus]; omega⟩

lemma ClosesParen.cons_comma (h : ClosesParen ts) (htok : tok.kind = .symbol .comma) :
    ClosesParen (tok :: ts) := by
  obtain ⟨n, hts⟩ := h
  exact ⟨n, fun os bars waits => by simp [htok, hts]⟩

lemma ClosesParen.settles (h : ClosesParen ts) (hl : l.kind = .symbol .leftParen) :
    Settles (l :: ts) := by
  obtain ⟨n, hts⟩ := h
  exact ⟨n, fun t => by simp [hl, hts]⟩

lemma settles_semicolons (h : ∀ s ∈ ts, s.kind = .symbol .semicolon) : ts = [] ∨ Settles ts := by
  induction ts with
  | nil => exact .inl rfl
  | cons s ts ih =>
    have hs : Settles [s] := settles_single fun t => by
      simp [h s List.mem_cons_self]
    rcases ih fun s' hs' => h s' (List.mem_cons_of_mem _ hs') with rfl | hts
    · exact .inr hs
    · exact .inr (hs.append hts)

end Settles

/-- Operators wait for an operand, the bar apart. -/
lemma take_unaryOp {op : UnaryOp} (h : op ≠ .absolute) (t : Tally) :
    t.take (.symbol op.symbol) = some ⟨t.opened, t.bars, true⟩ := by
  cases op with
  | absolute => exact absurd rfl h
  | identity => rfl
  | negate => rfl

lemma take_binaryOp (op : BinaryOp) (t : Tally) :
    t.take (.symbol op.symbol) = some ⟨t.opened, t.bars, true⟩ := by
  cases op <;> rfl

/-! ### Phrases -/

mutual

lemma Primary.settles {ts : List Token} {e : Expr} : Primary ts e → Settles ts
  | .identifier h => settles_single fun t => by rw [h]; rfl
  | .number h => settles_single fun t => by rw [h]; rfl
  | .parens hl h hr => h.settles.parens hl hr

lemma Operand.settles {ts : List Token} {next : Token} {e : Expr} :
    Operand ts next e → Settles ts
  | .bare h _ => h.settles
  | .call h hl hargs => h.settles.append ((Listing.closesParen hargs).settles hl)
  | .bars hl h hr => h.settles.bars hl hr
  | .sign hop hsign h =>
    h.settles.cons fun t => by rw [kind_of_unaryOp? hop, take_unaryOp hsign]

lemma Row.settles {ts : List Token} {next : Token} {e : Expr} : Row ts next e → Settles ts
  | .one h => h.settles
  | .more hleft hop hright =>
    have hright' := hright.settles.cons fun t => by
      rw [kind_of_binaryOp? hop, take_binaryOp]
    hleft.settles.append hright'

lemma Items.closesParen {ts : List Token} {es : List Expr} : Items Row ts es → ClosesParen ts
  | .last h hr => h.settles.closesParen (closesParen_single hr)
  | .more h hc hrest => h.settles.closesParen ((Items.closesParen hrest).cons_comma hc)

lemma Listing.closesParen {ts : List Token} {es : List Expr} : Listing Row ts es → ClosesParen ts
  | .none hr => closesParen_single hr
  | .some h => Items.closesParen h

end

lemma Param.settles {ts : List Token} {next : Token} {name : String} (h : Param ts next name) :
    Settles ts := by
  obtain ⟨hk⟩ := h
  exact settles_single fun t => by rw [hk]; rfl

lemma closesParen_params {ts : List Token} {params : List String}
    (h : Listing Param ts params) : ClosesParen ts := by
  cases h with
  | none hr => exact closesParen_single hr
  | some h =>
    induction h with
    | last h hr => exact h.settles.closesParen (closesParen_single hr)
    | more h hc _ ih => exact h.settles.closesParen (ih.cons_comma hc)

mutual

lemma Statement.settles {ts : List Token} {next : Token} {st : Stmt} :
    Statement ts next st → Settles ts
  | .var hv hx _ => by
    have hname := settles_single fun t => by rw [hx]; rfl
    exact hname.cons fun t => by rw [hv]; rfl
  | .varInit hv hx hq h => by
    have hinit := h.row.settles.cons fun t => by rw [hq]; rfl
    have hname := hinit.cons fun t => by rw [hx]; rfl
    exact hname.cons fun t => by rw [hv]; rfl
  | .ret hr _ => settles_single fun t => by rw [hr]; rfl
  | .retValue hr _ h => h.row.settles.cons fun t => by rw [hr]; rfl
  | .func hf hx hlp hparams hlb hbody hrb => by
    have hblock := settles_braces hbody.settles hlb hrb
    have hlist := ((closesParen_params hparams).settles hlp).append hblock
    have hname := hlist.cons fun t => by rw [hx]; rfl
    exact hname.cons fun t => by rw [hf]; rfl
  | .block hlb hbody hrb => settles_braces hbody.settles hlb hrb
  | .expr h => h.row.settles

/-- A sequence may have no tokens. -/
lemma Sequence.settles {ts : List Token} {next : Token} {body : List Stmt} :
    Sequence ts next body → ts = [] ∨ Settles ts
  | .nil hss => settles_semicolons hss
  | .cons hss h hrest =>
    have hbehind := h.settles.append_or_nil hrest.settles
    .inr (settles_or_nil_append (settles_semicolons hss) hbehind)

end

/-- **The tokens of a program** close what they open, have an even number of bars, and
wait for nothing. -/
lemma Sequence.behind_zero {ts : List Token} {next : Token} {body : List Stmt}
    (h : Sequence ts next body) : ∃ pairs, Tally.zero.behind ts = some ⟨[], 2 * pairs, false⟩ := by
  rcases h.settles with rfl | ⟨pairs, hts⟩
  · exact ⟨0, rfl⟩
  · exact ⟨pairs, by simpa [Tally.zero] using hts Tally.zero⟩

end Grammar

end ClosureCalc
