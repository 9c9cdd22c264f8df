/-
The places of a program.

The parser reads a text from left to right. So the places in a program come in
the order of the tokens that they were taken from, and no two are the same.

* `Expr.places`, `Stmt.places`: the places of the tokens that begin nodes of a tree,
  from left to right.
* `Lexer.Past`: a stream has been read behind some places.
* `Parser.Ensures`: what holds behind a reader if it succeeds;
  `Parser.Yields`: its value has the places that the reader has passed.
* `places_sorted`: the places of a program come in order.
-/
import ClosureCalc.Parser
import Mathlib.Order.Nat
import Mathlib.Tactic.Lemma

namespace ClosureCalc

/-! ### Places in trees -/

mutual

/-- The places in an expression, from left to right. Binary expressions and calls
begin with a part of theirs and add no place. -/
def Expr.places : Expr → List Position
  | .number p _ => [p]
  | .identifier p _ => [p]
  | .unary p _ target => p :: target.places
  | .binary _ _ left right => left.places ++ right.places
  | .call _ callee args => callee.places ++ Expr.placesAll args

/-- The places in some expressions. -/
def Expr.placesAll : List Expr → List Position
  | [] => []
  | e :: es => e.places ++ Expr.placesAll es

end

mutual

/-- The places in a statement, from left to right. -/
def Stmt.places : Stmt → List Position
  | .var p _ init => p :: Expr.placesAll init.toList
  | .ret p value => p :: Expr.placesAll value.toList
  | .func p _ _ _ body => p :: Stmt.placesAll body
  | .block p _ body => p :: Stmt.placesAll body
  | .expr _ e => e.places

/-- The places in some statements. -/
def Stmt.placesAll : List Stmt → List Position
  | [] => []
  | st :: rest => st.places ++ Stmt.placesAll rest

end

lemma Expr.placesAll_eq (es : List Expr) : Expr.placesAll es = es.flatMap Expr.places := by
  induction es with
  | nil => rfl
  | cons e es ih => rw [placesAll, ih, List.flatMap_cons]

/-! ### Moving over a text -/

namespace Cursor

/-- Moving never goes back. -/
lemma offset_le_advanceBy (n : Nat) (cur : Cursor) :
    cur.pos.offset ≤ (cur.advanceBy n).pos.offset := by
  induction n generalizing cur with
  | zero => exact Nat.le_refl _
  | succ n ih =>
    obtain ⟨_ | ⟨c, rest⟩, p⟩ := cur
    · exact ih ⟨[], p⟩
    · have hstep : (p.after c rest.head?).offset = p.offset + c.utf8Size :=
        Position.offset_after p c rest.head?
      calc p.offset ≤ p.offset + c.utf8Size := Nat.le_add_right _ _
        _ = (p.after c rest.head?).offset := hstep.symm
        _ ≤ (advanceBy n ⟨rest, p.after c rest.head?⟩).pos.offset := ih ⟨rest, _⟩

/-- Moving over a character moves on. -/
lemma offset_lt_advanceBy {n : Nat} (hn : 0 < n) {cur : Cursor} {c : Char} {rest : List Char}
    (h : cur.rest = c :: rest) : cur.pos.offset < (cur.advanceBy n).pos.offset := by
  obtain ⟨text, p⟩ := cur
  obtain rfl : text = c :: rest := h
  cases n with
  | zero => exact absurd hn (Nat.lt_irrefl 0)
  | succ n =>
    have hstep : (p.after c rest.head?).offset = p.offset + c.utf8Size :=
      Position.offset_after p c rest.head?
    have hc := c.utf8Size_pos
    calc p.offset < (p.after c rest.head?).offset := by omega
      _ ≤ (advanceBy n ⟨rest, p.after c rest.head?⟩).pos.offset :=
        offset_le_advanceBy n ⟨rest, _⟩

end Cursor

/-- A token begins at or before a place, and before it if it has characters. -/
structure Token.EndsBy (tok : Token) (p : Position) : Prop where
  le : tok.pos.offset ≤ p.offset
  lt : tok.kind ≠ .endOfInput → tok.pos.offset < p.offset

/-- A token lies between the places before and behind reading it. -/
lemma Cursor.endsBy_of_scan {cur cur' : Cursor} {tok : Token} (h : cur.scan = .ok tok cur') :
    cur.pos.offset ≤ tok.pos.offset ∧ tok.EndsBy cur'.pos := by
  have hskip : cur.pos.offset ≤ cur.skipLayout.pos.offset := cur.offset_le_advanceBy _
  simp only [scan] at h
  split at h
  · cases h
    exact ⟨hskip, Nat.le_refl _, fun hk => absurd rfl hk⟩
  · rename_i c rest hr
    split at h
    · cases h
      have hlt := offset_lt_advanceBy (Lexeme.size_first_pos c rest) hr
      exact ⟨hskip, hlt.le, fun _ => hlt⟩
    · cases h

/-! ### Streams behind places -/

/-- The offset from which on the tokens of a stream come. -/
def Lexer.front (lx : Lexer) : Nat :=
  match lx.peeked with
  | some tok => tok.pos.offset
  | none => lx.pos.offset

/-- **A stream behind places**: they come in order, and all that is left of the
stream comes behind them. -/
structure Lexer.Past (lx : Lexer) (ps : List Position) : Prop where
  sorted : ps.Pairwise fun p q => p.offset < q.offset
  lt_front : ∀ p ∈ ps, p.offset < lx.front
  peeked : ∀ tok, lx.peeked = some tok → tok.EndsBy lx.pos

/-- The place of a token; the end of the text is none. -/
def Token.places (tok : Token) : List Position :=
  if tok.kind = .endOfInput then [] else [tok.pos]

lemma Token.places_of_ne {tok : Token} (h : tok.kind ≠ .endOfInput) : tok.places = [tok.pos] :=
  if_neg h

namespace Lexer.Past

variable {lx : Lexer} {ps qs : List Position}

/-- A stream behind places is behind some of them. -/
lemma sublist (h : lx.Past qs) (hps : ps.Sublist qs) : lx.Past ps :=
  ⟨h.sorted.sublist hps, fun p hp => h.lt_front p (hps.subset hp), h.peeked⟩

/-- A token comes last. -/
lemma take {tok : Token} {cur : Cursor} (h : lx.Past ps) (hfront : lx.front ≤ tok.pos.offset)
    (htok : tok.EndsBy cur.pos) : Past ⟨cur, none⟩ (ps ++ tok.places) := by
  have hbelow : ∀ p ∈ ps, p.offset < tok.pos.offset := fun p hp =>
    (h.lt_front p hp).trans_le hfront
  refine ⟨?_, fun p hp => ?_, by simp⟩
  · refine List.pairwise_append.2 ⟨h.sorted, ?_, fun p hp q hq => ?_⟩
    · unfold Token.places
      split <;> simp
    · rw [Token.places] at hq
      split at hq
      · simp at hq
      · rw [List.mem_singleton.1 hq]
        exact hbelow p hp
  · change p.offset < cur.pos.offset
    rcases List.mem_append.1 hp with hp | hp
    · exact (hbelow p hp).trans_le htok.le
    · rw [Token.places] at hp
      split at hp
      · simp at hp
      · rename_i hk
        rw [List.mem_singleton.1 hp]
        exact htok.lt hk

/-- A token that is only looked at is still to come. -/
lemma look {tok : Token} {cur : Cursor} (h : lx.Past ps) (hfront : lx.front ≤ tok.pos.offset)
    (htok : tok.EndsBy cur.pos) : Past ⟨cur, some tok⟩ ps := by
  refine ⟨h.sorted, fun p hp => (h.lt_front p hp).trans_le hfront, fun tok' htok' => ?_⟩
  cases htok'
  exact htok

end Lexer.Past

/-- At the beginning a stream is behind no place. -/
lemma Lexer.past_ofString (source : String) : (Lexer.ofString source).Past [] :=
  ⟨.nil, by simp, by simp [ofString]⟩

namespace Parser

section Rules

variable {α β : Type} {P : Lexer → Prop} {Q Q' : α → Lexer → Prop} {R : β → Lexer → Prop}
variable {ps qs : List Position}

/-! ### Readers -/

/-- **What a reader ensures** if it succeeds, of its value and of the stream
behind it. -/
def Ensures (P : Lexer → Prop) (x : Parser α) (Q : α → Lexer → Prop) : Prop :=
  ∀ lx a lx', P lx → x lx = .ok a lx' → Q a lx'

lemma ensures_pure {a : α} (h : ∀ lx, P lx → Q a lx) : Ensures P (pure a) Q := by
  intro lx a' lx' hlx hx
  cases hx
  exact h lx hlx

lemma ensures_throw (e : Error) : Ensures P (throw e) Q := by
  intro lx a lx' _ hx
  cases hx

lemma ensures_get : Ensures P get fun _ => P := by
  intro lx a lx' hlx hx
  cases hx
  exact hlx

lemma Ensures.bind {x : Parser α} {k : α → Parser β} (hx : Ensures P x Q)
    (hk : ∀ a, Ensures (Q a) (k a) R) : Ensures P (x >>= k) R := by
  intro lx b lx' hlx h
  change EStateM.bind x k lx = _ at h
  rw [EStateM.bind] at h
  rcases hres : x lx with ⟨a, lx₁⟩ | ⟨e, lx₁⟩ <;> rw [hres] at h
  · exact hk a lx₁ b lx' (hx lx a lx₁ hlx hres) h
  · cases h

lemma Ensures.mono {x : Parser α} (hx : Ensures P x Q) (h : ∀ a lx, Q a lx → Q' a lx) :
    Ensures P x Q' :=
  fun lx a lx' hlx hres => h a lx' (hx lx a lx' hlx hres)

lemma Ensures.weaken {P' : Lexer → Prop} {x : Parser α} (hx : Ensures P x Q)
    (h : ∀ lx, P' lx → P lx) : Ensures P' x Q :=
  fun lx a lx' hlx hres => hx lx a lx' (h lx hlx) hres

lemma ensures_outOfBudget : Ensures P (outOfBudget : Parser α) Q :=
  ensures_get.bind fun _ => ensures_throw _

lemma ensures_refuse (fault : ParseFault) (tok : Token) :
    Ensures P (refuse fault tok : Parser α) Q :=
  ensures_throw _

/-- **A reader yields places**: behind any places that the stream was behind, it
is behind those of the value. -/
def Yields (x : Parser α) (places : α → List Position) : Prop :=
  ∀ ps, Ensures (·.Past ps) x fun a lx => lx.Past (ps ++ places a)

/-- What is read is put behind the places it begins with. -/
lemma Yields.map {x : Parser α} {places : α → List Position} (hx : x.Yields places)
    {f : α → β} {places' : β → List Position} (h : ∀ a, places' (f a) = qs ++ places a) :
    Ensures (·.Past (ps ++ qs)) (do return f (← x)) fun b lx => lx.Past (ps ++ places' b) := by
  refine (hx _).bind fun a => ensures_pure fun lx hlx => ?_
  rwa [h, ← List.append_assoc]

end Rules

/-! ### Tokens -/

section Tokens

variable {ps : List Position}

/-- Reading a token from the text. -/
lemma front_le_of_scan {lx : Lexer} (hpeeked : lx.peeked = none) {tok : Token} {cur : Cursor}
    (h : lx.cursor.scan = .ok tok cur) : lx.front ≤ tok.pos.offset ∧ tok.EndsBy cur.pos := by
  rw [Lexer.front, hpeeked]
  exact Cursor.endsBy_of_scan h

lemma yields_next : Yields Lexer.next Token.places := by
  intro ps lx tok lx' hlx h
  simp only [Lexer.next] at h
  split at h
  · rename_i tok' hpeeked
    cases h
    have hfront : lx.front = tok.pos.offset := by rw [Lexer.front, hpeeked]
    exact hlx.take hfront.le (hlx.peeked tok hpeeked)
  · rename_i hpeeked
    split at h
    · rename_i tok' cur hscan
      cases h
      obtain ⟨hfront, htok⟩ := front_le_of_scan hpeeked hscan
      exact hlx.take hfront htok
    · cases h

/-- A token that is not needed any more. -/
lemma ensures_next : Ensures (·.Past ps) Lexer.next fun _ lx => lx.Past ps :=
  (yields_next ps).mono fun _ _ h => h.sublist (List.sublist_append_left _ _)

lemma ensures_peek :
    Ensures (·.Past ps) Lexer.peek fun tok lx => lx.Past ps ∧ lx.peeked = some tok := by
  intro lx tok lx' hlx h
  simp only [Lexer.peek] at h
  split at h
  · rename_i tok' hpeeked
    cases h
    exact ⟨hlx, hpeeked⟩
  · rename_i hpeeked
    split at h
    · rename_i tok' cur hscan
      cases h
      obtain ⟨hfront, htok⟩ := front_le_of_scan hpeeked hscan
      exact ⟨hlx.look hfront htok, rfl⟩
    · cases h

/-- A token that was looked at is the one that is taken. -/
lemma ensures_next_of_peeked {tok : Token} (hk : tok.kind ≠ .endOfInput) :
    Ensures (fun lx => lx.Past ps ∧ lx.peeked = some tok) Lexer.next fun tok' lx =>
      lx.Past (ps ++ [tok'.pos]) := by
  rintro lx tok' lx' ⟨hlx, hpeeked⟩ h
  have hpast := yields_next ps lx tok' lx' hlx h
  rw [Lexer.next, hpeeked] at h
  cases h
  rwa [Token.places_of_ne hk] at hpast

lemma ensures_isNext (kind : Token.Kind) :
    Ensures (·.Past ps) (isNext kind) fun _ lx => lx.Past ps :=
  ensures_peek.bind fun _ => ensures_pure fun _ h => h.1

lemma ensures_expect {kind : Token.Kind} (hk : kind ≠ .endOfInput) :
    Ensures (·.Past ps) (expect kind) fun tok lx => lx.Past (ps ++ [tok.pos]) := by
  refine (yields_next ps).bind fun tok => ?_
  split
  · rename_i h
    refine ensures_pure fun lx hlx => ?_
    rwa [Token.places_of_ne (h ▸ hk)] at hlx
  · exact ensures_refuse _ _

/-- A name has no place of its own in a program. -/
lemma ensures_expectName (role : NameRole) :
    Ensures (·.Past ps) (expectName role) fun _ lx => lx.Past ps := by
  refine ensures_next.bind fun tok => ?_
  split
  · exact ensures_pure fun _ h => h
  · exact ensures_refuse _ _

end Tokens

/-! ### Lists -/

section Items

variable {α : Type} {item : Parser α} {places : α → List Position}

lemma yields_items (hitem : item.Yields places) (fault : Token.Kind → ParseFault) :
    ∀ n, (items item fault n).Yields (·.flatMap places)
  | 0 => fun _ => ensures_outOfBudget
  | n + 1 => by
      intro ps
      rw [items]
      refine (hitem ps).bind fun first => ensures_next.bind fun tok => ?_
      split
      · exact (yields_items hitem fault n).map fun rest => List.flatMap_cons
      · exact ensures_pure fun lx h => by simpa using h
      · exact ensures_refuse _ _

lemma yields_itemsOrNone (hitem : item.Yields places) (fault : Token.Kind → ParseFault)
    (n : Nat) : (itemsOrNone item fault n).Yields (·.flatMap places) := by
  intro ps
  refine (ensures_isNext _).bind fun isLast => ?_
  cases isLast with
  | true => exact ensures_next.bind fun _ => ensures_pure fun lx h => by simpa using h
  | false => exact yields_items hitem fault n ps

end Items

/-! ### Expressions -/

section Expressions

variable {expr : Parser Expr}

lemma yields_primary (hexpr : expr.Yields Expr.places) : (primary expr).Yields Expr.places := by
  intro ps
  refine (yields_next ps).bind fun tok => ?_
  split
  · rename_i name hk
    refine ensures_pure fun lx h => ?_
    rwa [Token.places_of_ne (by simp [hk])] at h
  · rename_i value hk
    refine ensures_pure fun lx h => ?_
    rwa [Token.places_of_ne (by simp [hk])] at h
  · -- the parentheses leave no places
    have hdrop : Ensures (·.Past (ps ++ tok.places)) expr fun e lx => lx.Past (ps ++ e.places) :=
      (hexpr _).mono fun e lx h => h.sublist (List.Sublist.append_right
        (List.sublist_append_left ps _) e.places)
    refine hdrop.bind fun inner => (ensures_expect (by simp)).bind fun _ => ?_
    exact ensures_pure fun lx h => h.sublist (List.sublist_append_left _ _)
  · exact ensures_refuse _ _
  · exact ensures_refuse _ _

lemma yields_application (hexpr : expr.Yields Expr.places) (n : Nat) :
    (application expr n).Yields Expr.places := by
  intro ps
  refine (yields_primary hexpr ps).bind fun callee => (ensures_isNext _).bind fun isCall => ?_
  cases isCall with
  | true =>
    refine ensures_next.bind fun _ => ?_
    exact (yields_itemsOrNone hexpr _ n).map fun args => by rw [Expr.places, Expr.placesAll_eq]
  | false => exact ensures_pure fun lx h => h

/-- What begins a token is not the end of the text. -/
lemma ne_endOfInput_of_unaryOp? {kind : Token.Kind} {op : UnaryOp} (h : unaryOp? kind = some op) :
    kind ≠ .endOfInput := by
  rintro rfl
  cases h

lemma yields_operand (hexpr : expr.Yields Expr.places) (n : Nat) :
    ∀ m, (operand expr n m).Yields Expr.places
  | 0 => fun _ => ensures_outOfBudget
  | m + 1 => by
      intro ps
      rw [operand]
      refine ensures_peek.bind fun tok => ?_
      split
      · exact (yields_application hexpr n ps).weaken fun _ h => h.1
      · rename_i hop
        refine (ensures_next_of_peeked (ne_endOfInput_of_unaryOp? hop)).bind fun bar => ?_
        refine (hexpr _).bind fun inner => (ensures_expect (by simp)).bind fun _ => ?_
        refine ensures_pure fun lx h => h.sublist ?_
        rw [Expr.places, List.append_cons]
        exact List.sublist_append_left _ _
      · rename_i hop
        refine (ensures_next_of_peeked (ne_endOfInput_of_unaryOp? hop)).bind fun tok' => ?_
        exact (yields_operand hexpr n m).map fun target => by rw [Expr.places]; rfl

/-- The operands of a row come one behind the other. -/
lemma ensures_chain {unit : Parser Expr} (hunit : unit.Yields Expr.places) {ps : List Position} :
    ∀ n left, Ensures (·.Past (ps ++ left.places)) (chain unit n left) fun e lx =>
      lx.Past (ps ++ e.places)
  | 0, _ => ensures_outOfBudget
  | n + 1, left => by
      rw [chain]
      refine ensures_peek.bind fun tok => ?_
      split
      · exact ensures_pure fun lx h => h.1
      · rename_i op hop
        refine (ensures_next.weaken fun _ h => h.1).bind fun _ => (hunit _).bind fun right => ?_
        refine (ensures_chain hunit n (.binary left.pos op left right)).weaken fun lx h => ?_
        rwa [Expr.places, ← List.append_assoc]

lemma yields_expressionWithin : ∀ n, (expressionWithin n).Yields Expr.places
  | 0 => fun _ => ensures_outOfBudget
  | n + 1 => fun ps => by
      have hunit := yields_operand (yields_expressionWithin n) (n + 1) (n + 1)
      exact (hunit ps).bind fun left => ensures_chain hunit (n + 1) left

end Expressions

/-! ### Statements -/

section Statements

variable {ps : List Position} {stmt : Parser Stmt}

lemma ensures_separators : ∀ n, Ensures (·.Past ps) (separators n) fun _ lx => lx.Past ps
  | 0 => ensures_outOfBudget
  | n + 1 => by
      rw [separators]
      refine (ensures_isNext _).bind fun more => ?_
      cases more with
      | true => exact ensures_next.bind fun _ => ensures_separators n
      | false => exact ensures_pure fun _ h => h

lemma yields_blockRest (hstmt : stmt.Yields Stmt.places) :
    ∀ n, (blockRest stmt n).Yields Stmt.placesAll
  | 0 => fun _ => ensures_outOfBudget
  | n + 1 => by
      intro ps
      rw [blockRest]
      refine (ensures_separators _).bind fun _ => ensures_peek.bind fun tok => ?_
      split
      · exact ensures_refuse _ _
      · split
        · refine (ensures_next.weaken fun _ h => h.1).bind fun _ => ensures_pure fun lx h => ?_
          rwa [Stmt.placesAll, List.append_nil]
        · refine ((hstmt ps).weaken fun _ h => h.1).bind fun first => ?_
          exact (yields_blockRest hstmt n).map fun rest => rfl

/-- A block begins at its brace. -/
lemma yields_block (hstmt : stmt.Yields Stmt.places) (n : Nat) :
    (block stmt n).Yields fun b => b.1 :: Stmt.placesAll b.2 := by
  intro ps
  exact (ensures_expect (by simp)).bind fun tok => (yields_blockRest hstmt n).map fun rest => rfl

lemma yields_varStmt {expr : Parser Expr} (hexpr : expr.Yields Expr.places) :
    (varStmt expr).Yields Stmt.places := by
  intro ps
  refine (ensures_expect (by simp)).bind fun tok => (ensures_expectName _).bind fun name => ?_
  refine (ensures_isNext _).bind fun hasInit => ?_
  cases hasInit with
  | true =>
    refine ensures_next.bind fun _ => hexpr.map fun init => ?_
    rw [Stmt.places, Option.toList_some, Expr.placesAll, Expr.placesAll, List.append_nil]
    rfl
  | false => exact ensures_pure fun lx h => h

lemma yields_returnStmt {expr : Parser Expr} (hexpr : expr.Yields Expr.places) :
    (returnStmt expr).Yields Stmt.places := by
  intro ps
  refine (ensures_expect (by simp)).bind fun tok => ?_
  refine (ensures_peek.mono fun _ _ h => h.1).bind fun next => ?_
  split
  · refine hexpr.map fun value => ?_
    rw [Stmt.places, Option.toList_some, Expr.placesAll, Expr.placesAll, List.append_nil]
    rfl
  · exact ensures_pure fun lx h => h

/-- The brace of a body leaves no place of its own, and neither do parameters. -/
lemma yields_funcStmt (hstmt : stmt.Yields Stmt.places) (n : Nat) :
    (funcStmt stmt n).Yields Stmt.places := by
  intro ps
  refine (ensures_expect (by simp)).bind fun tok => (ensures_expectName _).bind fun name => ?_
  refine ((ensures_expect (by simp)).mono fun _ lx h =>
    h.sublist (List.sublist_append_left _ _)).bind fun _ => ?_
  have hparam : (expectName .ofParameter).Yields fun _ => [] := fun ps =>
    (ensures_expectName _).mono fun _ lx h => by rwa [List.append_nil]
  refine ((yields_itemsOrNone hparam _ n _).mono fun _ lx h =>
    h.sublist (List.sublist_append_left _ _)).bind fun params => ?_
  refine (yields_block hstmt n _).bind fun b => ensures_pure fun lx h => h.sublist ?_
  rw [Stmt.places, List.append_cons]
  exact List.Sublist.append_left (List.sublist_cons_self _ _) _

lemma yields_statementWithin : ∀ n, (statementWithin n).Yields Stmt.places
  | 0 => fun _ => ensures_outOfBudget
  | n + 1 => by
      intro ps
      rw [statementWithin]
      have hexpr := yields_expressionWithin (n + 1)
      have hstmt := yields_statementWithin n
      refine (ensures_peek.mono fun _ _ h => h.1).bind fun tok => ?_
      split
      · exact yields_varStmt hexpr ps
      · exact yields_returnStmt hexpr ps
      · exact yields_funcStmt hstmt (n + 1) ps
      · exact (yields_block hstmt (n + 1) ps).bind fun b => ensures_pure fun lx h => h
      · exact (hexpr ps).bind fun e => ensures_pure fun lx h => h

lemma yields_statements (hstmt : stmt.Yields Stmt.places) :
    ∀ n, (statements stmt n).Yields Stmt.placesAll
  | 0 => fun _ => ensures_outOfBudget
  | n + 1 => by
      intro ps
      rw [statements]
      refine (ensures_separators _).bind fun _ => (ensures_isNext _).bind fun isLast => ?_
      cases isLast with
      | true =>
        refine ensures_pure fun lx h => ?_
        rwa [Stmt.placesAll, List.append_nil]
      | false =>
        exact (hstmt ps).bind fun first => (yields_statements hstmt n).map fun rest => rfl

lemma yields_program : program.Yields fun p => Stmt.placesAll p.body := by
  intro ps
  refine ensures_get.bind fun lx => ?_
  exact (yields_statements (yields_statementWithin _) _ ps).bind fun body =>
    ensures_pure fun _ h => h

end Statements

end Parser

/-- **The places of a program come in order.** -/
theorem places_sorted {source : String} {p : Program} (h : parse source = .ok p) :
    (Stmt.placesAll p.body).Pairwise fun q q' => q.offset < q'.offset := by
  rw [parse, Parser.runOn] at h
  split at h
  · rename_i p' lx hp
    cases h
    exact (Parser.yields_program [] _ _ _ (Lexer.past_ofString source) hp).sorted
  · cases h

end ClosureCalc
