/-
The parser and the tokens of the whole text.

The parser takes tokens when it needs them and stops at the first error. All tokens of
a text are read ahead of any parsing, up to its end or to the first lexical error.
Both go over the same tokens, so they disagree on an error only where the parser
refuses a token in front of it.

* `Lexer.nextMany`: what several calls in a row deliver; `Lexer.Delivers`: a token that
  they deliver behind others.
* `Cursor.tokens_cases`: where the tokens of a text end; `tokenize_of_reads`,
  `tokenize_of_fails`: all tokens of a text without a lexical error, and with one.
* `parse_error_cases`: the errors of the parser.
* `parse_agrees_with_tokenize`: what the parser answers, and what the tokens are.
-/
import ClosureCalc.Proofs.FirstFault
import ClosureCalc.Proofs.InStep
import ClosureCalc.Proofs.Leaves
import ClosureCalc.Proofs.Nesting

namespace ClosureCalc

/-! ### Repeated calls -/

/-- The tokens that `n` calls in a row deliver. -/
def Lexer.nextMany : Nat → EStateM Error Lexer (List Token)
  | 0 => pure []
  | n + 1 => do
    let tok ← Lexer.next
    return tok :: (← nextMany n)

/-- A token that is delivered behind others by repeated calls. -/
def Lexer.Delivers (lx : Lexer) (ts : List Token) (tok : Token) : Prop :=
  ∃ lx', nextMany (ts.length + 1) lx = .ok (ts ++ [tok]) lx'

namespace Lexer

/-- The first of some calls. -/
lemma nextMany_succ_ok {n : Nat} {cur mid : Cursor} {tok : Token} {ts : List Token} {lx : Lexer}
    (hscan : cur.scan = .ok tok mid) (h : nextMany n ⟨mid, none⟩ = .ok ts lx) :
    nextMany (n + 1) ⟨cur, none⟩ = .ok (tok :: ts) lx := by
  rw [nextMany, Parser.bind_eq_of_ok (At.next_eq (.fresh cur) hscan), Parser.bind_eq_of_ok h]
  rfl

/-- Calls that deliver some tokens, and more calls. -/
lemma nextMany_of_reads {n : Nat} {cur mid : Cursor} {ts us : List Token} {lx : Lexer}
    (hts : cur.Reads ts mid) (h : nextMany n ⟨mid, none⟩ = .ok us lx) :
    nextMany (ts.length + n) ⟨cur, none⟩ = .ok (ts ++ us) lx := by
  induction hts with
  | nil => simpa using h
  | @cons cur mid fin tok ts hscan _ _ ih =>
    have hn : (tok :: ts).length + n = ts.length + n + 1 := by
      rw [List.length_cons]
      omega
    rw [hn]
    exact nextMany_succ_ok hscan (ih h)

end Lexer

/-! ### All tokens -/

namespace Cursor

variable {cur mid fin : Cursor} {ts us : List Token} {tok : Token} {e : Error}

/-- A lexical error behind some tokens is that of all tokens. -/
lemma Reads.tokens_error (h : cur.Reads ts mid) (hscan : mid.scan = .error e fin) :
    ∀ n, ts.length < n → cur.tokens n = .error e := by
  induction h with
  | nil =>
    intro n hn
    obtain ⟨n, rfl⟩ := Nat.exists_eq_succ_of_ne_zero (n := n) (by omega)
    rw [Cursor.tokens, hscan]
  | cons hscan' hkind _ ih =>
    intro n hn
    obtain ⟨n, rfl⟩ := Nat.exists_eq_succ_of_ne_zero (n := n) (by omega)
    have hrest := ih hscan n (Nat.lt_of_succ_lt_succ hn)
    rw [Cursor.tokens, hscan']
    simp [hkind, hrest, Except.map]

/-- **The tokens of a text** go on to its end, or to a lexical error. -/
lemma tokens_cases (cur : Cursor) :
    ∃ ts mid, cur.Reads ts mid ∧ ((∃ eof fin, mid.scan = .ok eof fin ∧ eof.kind = .endOfInput) ∨
      ∃ e fin, mid.scan = .error e fin) := by
  induction hlength : cur.rest.length using Nat.strong_induction_on generalizing cur with
  | _ length ih =>
    subst hlength
    rcases hscan : cur.scan with ⟨tok, mid⟩ | ⟨e, mid⟩
    · by_cases hkind : tok.kind = .endOfInput
      · exact ⟨[], cur, .nil cur, .inl ⟨tok, mid, hscan, hkind⟩⟩
      · obtain ⟨ts, fin, hts, hend⟩ := ih _ (length_rest_lt_of_scan_ok hscan hkind) mid rfl
        exact ⟨tok :: ts, fin, .cons hscan hkind hts, hend⟩
    · exact ⟨[], cur, .nil cur, .inr ⟨e, mid, hscan⟩⟩

/-- A token that can be read comes before the error. -/
lemma Reads.exists_eq_append {mid' fin' : Cursor} (h : cur.Reads us mid')
    (hscan : mid'.scan = .ok tok fin') (hts : cur.Reads ts mid) (herror : mid.scan = .error e fin) :
    ∃ vs, ts = us ++ tok :: vs := by
  induction h generalizing ts with
  | nil =>
    cases hts with
    | nil =>
      rw [hscan] at herror
      cases herror
    | cons hscan' _ _ =>
      rw [hscan] at hscan'
      cases hscan'
      exact ⟨_, rfl⟩
  | cons hscan' _ _ ih =>
    cases hts with
    | nil =>
      rw [hscan'] at herror
      cases herror
    | cons hscan'' _ hts =>
      rw [hscan'] at hscan''
      cases hscan''
      obtain ⟨vs, rfl⟩ := ih hscan hts
      exact ⟨vs, rfl⟩

/-- A text is in step with itself. -/
lemma simulation_eq : Simulation Eq Eq where
  line h h' := by rw [h, h']
  pos h := by rw [h]
  skipLayout h := by rw [h]
  nil h hrest := by rw [← h, hrest]
  cons h hrest _ := ⟨_, h ▸ hrest, rfl, by rw [h]⟩

end Cursor

variable {source : String}

/-- Below its length a text has all its tokens. -/
lemma length_lt_of_reads {ts : List Token} {mid : Cursor}
    (h : (Cursor.ofString source).Reads ts mid) : ts.length < source.length + 1 := by
  have hlength : ts.length + mid.rest.length ≤ source.toList.length := h.length_add_le
  rw [String.length_toList] at hlength
  omega

/-- **The errors of the parser** are lexical errors and refused tokens. Its budget is
never spent. -/
lemma parse_error_cases {e : Error} (h : parse source = .error e) :
    (∃ fault p, e = .lex fault p) ∨ ∃ fault p, e = .parse fault p := by
  obtain ⟨n, hstep⟩ := Cursor.simulation_eq.inStep (rfl : Cursor.ofString source = _)
  have hsame := hstep.parse
  rw [h] at hsame
  cases hsame with
  | error he =>
    cases he with
    | lex fault _ => exact .inl ⟨fault, _, rfl⟩
    | parse fault _ => exact .inr ⟨fault, _, rfl⟩

/-- The tokens of a text without a lexical error. -/
lemma tokenize_of_reads {ts : List Token} {eof : Token} {mid fin : Cursor}
    (hts : (Cursor.ofString source).Reads ts mid) (hscan : mid.scan = .ok eof fin)
    (heof : eof.kind = .endOfInput) : tokenize source = .ok (ts ++ [eof]) :=
  hts.tokens hscan heof _ (length_lt_of_reads hts)

/-- A lexical error of a text is that of all its tokens. -/
lemma tokenize_of_fails {e : Error} (h : (Cursor.ofString source).Fails e) :
    tokenize source = .error e := by
  obtain ⟨ts, mid, fin, hts, hscan⟩ := h
  exact hts.tokens_error hscan _ (length_lt_of_reads hts)

/-- An error of all tokens is a lexical error behind some of them. -/
lemma fails_of_tokenize_error {e : Error} (h : tokenize source = .error e) :
    (Cursor.ofString source).Fails e := by
  obtain ⟨ts, mid, hts, ⟨eof, fin, hscan, heof⟩ | ⟨e', fin, hscan⟩⟩ :=
    Cursor.tokens_cases (Cursor.ofString source)
  · rw [tokenize_of_reads hts hscan heof] at h
    cases h
  · have hfails : (Cursor.ofString source).Fails e' := ⟨ts, mid, fin, hts, hscan⟩
    rw [tokenize_of_fails hfails] at h
    cases h
    exact hfails

/-- The tokens of a text that is parsed. -/
lemma tokenize_of_parse {p : Program} (h : parse source = .ok p) :
    ∃ toks, tokenize source = .ok toks ∧ ∀ tok ∈ toks, ∀ c, tok.kind ≠ .unexpected c := by
  obtain ⟨-, ts, eof, mid, fin, hts, hscan, heof, hseq⟩ := sequence_of_parse h
  obtain ⟨pairs, hbehind⟩ := hseq.behind_zero
  refine ⟨ts ++ [eof], tokenize_of_reads hts hscan heof, fun tok htok c => ?_⟩
  rcases List.mem_append.1 htok with htok | htok
  · exact Tally.ne_unexpected_of_behind hbehind tok htok c
  · rw [List.mem_singleton.1 htok, heof]
    simp

lemma delivers_of_reads {ts : List Token} {tok : Token} {mid fin : Cursor}
    (hts : (Cursor.ofString source).Reads ts mid) (hscan : mid.scan = .ok tok fin) :
    (Lexer.ofString source).Delivers ts tok :=
  ⟨_, Lexer.nextMany_of_reads hts (Lexer.nextMany_succ_ok hscan rfl)⟩

/-- **The parser and the tokens of the whole text agree** on what is wrong first. If a
text is parsed, it has all its tokens, and none is a stray character. A lexical error
of the parser is the error of the tokens. A token that the parser refuses is one that
repeated calls deliver. So if the tokens have an error, the parser has the same, or
it has refused a token that is delivered before that error. -/
theorem parse_agrees_with_tokenize (source : String) :
    (∀ p, parse source = .ok p →
        ∃ toks, tokenize source = .ok toks ∧ ∀ tok ∈ toks, ∀ c, tok.kind ≠ .unexpected c) ∧
      (∀ fault pos, parse source = .error (.lex fault pos) →
        tokenize source = .error (.lex fault pos)) ∧
      (∀ fault pos, parse source = .error (.parse fault pos) →
        ∃ ts tok, (Lexer.ofString source).Delivers ts tok ∧ tok.pos = pos) ∧
      ∀ e, tokenize source = .error e → parse source = .error e ∨
        ∃ fault ts tok us lx lx', parse source = .error (.parse fault tok.pos) ∧
          Lexer.nextMany (ts ++ tok :: us).length (Lexer.ofString source) =
            .ok (ts ++ tok :: us) lx ∧
          Lexer.next lx = .error e lx' := by
  refine ⟨fun p hp => tokenize_of_parse hp, fun fault pos h => ?_, fun fault pos h => ?_,
    fun e he => ?_⟩
  · exact tokenize_of_fails (fails_of_parse_error h)
  · obtain ⟨ts, tok, mid, fin, hts, hscan, hpos, -⟩ := blames_of_parse_error h
    exact ⟨ts, tok, delivers_of_reads hts hscan, hpos⟩
  · cases hparse : parse source with
    | ok p =>
      obtain ⟨toks, htoks, -⟩ := tokenize_of_parse hparse
      rw [htoks] at he
      cases he
    | error e' =>
      obtain ⟨fault, pos, rfl⟩ | ⟨fault, pos, rfl⟩ := parse_error_cases hparse
      · rw [tokenize_of_fails (fails_of_parse_error hparse)] at he
        cases he
        exact .inl rfl
      · obtain ⟨ts, tok, mid, fin, hts, hscan, rfl, -⟩ := blames_of_parse_error hparse
        obtain ⟨vs, mid', fin', hvs, herror⟩ := fails_of_tokenize_error he
        obtain ⟨us, rfl⟩ := hts.exists_eq_append hscan hvs herror
        have hmany := Lexer.nextMany_of_reads hvs (rfl : Lexer.nextMany 0 _ = _)
        rw [Nat.add_zero, List.append_nil] at hmany
        have hnext := (Lexer.At.eq_of_scan_error (.fresh mid') herror).1
        exact .inr ⟨fault, ts, tok, us, ⟨mid', none⟩, ⟨fin', none⟩, rfl, hmany, hnext⟩

/-- An open exponent in a comment, as an operand, and behind a stray character. -/
theorem parse_agrees_with_tokenize_stray :
    (∃ toks, tokenize "x # 1e" = .ok toks ∧ ∀ tok ∈ toks, ∀ c, tok.kind ≠ .unexpected c) ∧
      tokenize "1 + 1e" = .error (.lex .openExponent ⟨6, 1, 7⟩) ∧
      (∃ ts tok, (Lexer.ofString "(2 @ 1e").Delivers ts tok ∧ tok.pos = ⟨3, 1, 4⟩) ∧
      tokenize "(2 @ 1e" = .error (.lex .openExponent ⟨7, 1, 8⟩) ∧
      ∃ fault ts tok us lx lx', parse "(2 @ 1e" = .error (.parse fault tok.pos) ∧
        Lexer.nextMany (ts ++ tok :: us).length (Lexer.ofString "(2 @ 1e") =
          .ok (ts ++ tok :: us) lx ∧
        Lexer.next lx = .error (.lex .openExponent ⟨7, 1, 8⟩) lx' := by
  have hparsed : (parse "x # 1e").toBool = true := by decide +kernel
  have hlex : parse "1 + 1e" = .error (.lex .openExponent ⟨6, 1, 7⟩) :=
    parse_of_parseError? (by decide +kernel)
  have hstray : parse "(2 @ 1e" =
      .error (.parse (.expectedKind (.symbol .rightParen) (.unexpected '@')) ⟨3, 1, 4⟩) :=
    parse_of_parseError? (by decide +kernel)
  have htoks : tokenize "(2 @ 1e" = .error (.lex .openExponent ⟨7, 1, 8⟩) := by decide +kernel
  refine ⟨?_, (parse_agrees_with_tokenize _).2.1 _ _ hlex,
    (parse_agrees_with_tokenize _).2.2.1 _ _ hstray, htoks, ?_⟩
  · cases hp : parse "x # 1e" with
    | error e =>
      rw [hp] at hparsed
      cases hparsed
    | ok p => exact (parse_agrees_with_tokenize _).1 p hp
  · obtain h | h := (parse_agrees_with_tokenize _).2.2.2 _ htoks
    · rw [hstray] at h
      cases h
    · exact h

end ClosureCalc
