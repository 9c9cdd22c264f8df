/-
Where a parse error is reported.

The parser refuses the first token that cannot be right. It does not look beyond
this token, and the tokens before it are the beginning of a program.

* `TokensBegin`: the first tokens of a text.
* `exists_words`: completions can be written as words.
* `parse_error_at_first_fault`: the token that a parse error is reported at.
-/
import ClosureCalc.Proofs.Derives
import ClosureCalc.Proofs.Spelling

namespace ClosureCalc

/-- The tokens of a text begin with the given ones. What comes behind them may
be no tokens at all. -/
def TokensBegin (source : String) (ts : List Token) : Prop := (Cursor.ofString source).Ahead ts

/-- Tokens that come next can be read. -/
lemma Cursor.Ahead.reads {cur : Cursor} {ts us : List Token} (h : cur.Ahead (ts ++ us))
    (hkind : ∀ tok ∈ ts, tok.kind ≠ .endOfInput) : ∃ mid, cur.Reads ts mid ∧ mid.Ahead us := by
  induction ts generalizing cur with
  | nil => exact ⟨cur, .nil cur, h⟩
  | cons tok ts ih =>
    obtain ⟨mid, hscan, hrest⟩ := h
    obtain ⟨fin, hts, hus⟩ := ih hrest fun t ht => hkind t (List.mem_cons_of_mem _ ht)
    exact ⟨fin, .cons hscan (hkind tok List.mem_cons_self) hts, hus⟩

/-- Completions can be written as words. -/
lemma exists_words {kinds : List Token.Kind} (h : ∀ kind ∈ kinds, Grammar.Filler kind) :
    ∃ words, List.Forall₂ Token.Kind.SpelledBy kinds words := by
  induction kinds with
  | nil => exact ⟨[], .nil⟩
  | cons kind kinds ih =>
    obtain ⟨words, hwords⟩ := ih fun k hk => h k (List.mem_cons_of_mem _ hk)
    cases h kind List.mem_cons_self with
    | name =>
      have hname : "x".toList = ['x'] := rfl
      exact ⟨"x" :: words, .cons (.name hname rfl (by simp) rfl) hwords⟩
    | symbol s => exact ⟨_ :: words, .cons (.symbol s) hwords⟩

/-- A token that is to blame is refused in every text that begins with the same
tokens. -/
lemma parse_error_of_blame {source : String} {ts : List Token} {tok : Token} {fault : ParseFault}
    (hblame : Grammar.BlamesStatements ts tok fault)
    (hkind : ∀ t ∈ ts, t.kind ≠ .endOfInput) (h : TokensBegin source (ts ++ [tok])) :
    parse source = .error (.parse fault tok.pos) := by
  obtain ⟨mid, hts, _⟩ := h.reads hkind
  have hlength : ts.length + mid.rest.length ≤ source.toList.length := hts.length_add_le
  have hanswer : (Parser.allStatements source).Answers (ts ++ [tok])
      (.error (.parse fault tok.pos)) :=
    hblame.again (source.toList.length + 1) (source.toList.length + 1) (by omega) (by omega)
  rw [parse_eq, hanswer.runOn_error h]
  rfl

/-- **The text in front of a token** can be continued with words. A line break ends
a comment in it, and its tokens stay the same. -/
lemma exists_front {source : String} {ts : List Token} {tok : Token} {mid fin : Cursor}
    (hts : (Cursor.ofString source).Reads ts mid) (hscan : mid.scan = .ok tok fin) :
    ∃ before behind, source.toList = before ++ behind ∧
      String.utf8Len before = tok.pos.offset ∧
      ∀ kinds words, List.Forall₂ Token.Kind.SpelledBy kinds words → ∃ mid' line,
        (⟨before ++ '\n' :: Cursor.spaced words, Position.start⟩ : Cursor).Reads ts mid' ∧
          mid'.Spells kinds line := by
  obtain ⟨pre, hpre, hoffset, hreplace⟩ := hts.replace
  obtain ⟨l, rest, hrest, hlayout, hpos⟩ := Cursor.pos_of_scan hscan
  have hsource : source.toList = pre ++ mid.rest := hpre
  refine ⟨pre ++ l, rest, by rw [hsource, hrest, List.append_assoc], ?_, ?_⟩
  · have hstart : (Cursor.ofString source).pos.offset = 0 := rfl
    rw [String.utf8Len_append, hpos, Position.offset_across, hoffset, hstart, Nat.zero_add]
  · intro kinds words hwords
    have hcut : Cut mid.rest (l ++ '\n' :: Cursor.spaced words) := by
      rw [hrest]
      exact Cut.append (.inr ⟨'\n', rfl, rfl⟩) l
    rw [hrest] at hlayout
    have hspells := (Cursor.spells_spaced hwords _).of_scan_eq
      (Cursor.scan_break (Cursor.spaced words) mid.pos hlayout)
    rw [List.append_assoc]
    exact ⟨_, _, hreplace _ hcut, hspells⟩

/-- **Tokens that can be continued to a program** are the first ones of a text that
is parsed. The text begins with the characters in front of the next token. -/
lemma exists_parsed_of_viable {source : String} {ts : List Token} {tok : Token} {mid fin : Cursor}
    (hts : (Cursor.ofString source).Reads ts mid) (hscan : mid.scan = .ok tok fin)
    (hviable : Grammar.Viable Grammar.IsSequence ts) :
    ∃ before behind t p, source = before ++ behind ∧ before.utf8ByteSize = tok.pos.offset ∧
      parse (before ++ t) = .ok p ∧ TokensBegin (before ++ t) ts := by
  obtain ⟨kinds, hkinds, hcompletes⟩ := hviable
  obtain ⟨words, hwords⟩ := exists_words hkinds
  obtain ⟨before, behind, hsource, hsize, hfront⟩ := exists_front hts hscan
  obtain ⟨mid', line, hts', fill, last, eof, fin', hfill, hend, heof, hmap, _⟩ :=
    hfront kinds words hwords
  obtain ⟨body, hbody⟩ := hcompletes fill hmap eof (.inr heof)
  have hcursor : Cursor.ofString (String.ofList before ++
      String.ofList ('\n' :: Cursor.spaced words)) =
      ⟨before ++ '\n' :: Cursor.spaced words, Position.start⟩ := by
    rw [Cursor.ofString, String.toList_append, String.toList_ofList, String.toList_ofList]
  have hparse : parse (String.ofList before ++ String.ofList ('\n' :: Cursor.spaced words)) =
      .ok ⟨Position.start, body⟩ := by
    refine parse_of_sequence ?_ hend heof hbody
    rw [hcursor]
    exact hts'.append hfill
  have hsplit : source = String.ofList before ++ String.ofList behind := by
    rw [← String.ofList_append, ← hsource, String.ofList_toList]
  refine ⟨_, _, _, _, hsplit, ?_, hparse, ?_⟩
  · rw [String.utf8ByteSize_ofList, hsize]
  · rw [TokensBegin, hcursor, ← List.append_nil ts]
    exact hts'.ahead trivial

/-- **A parse error is reported at the first token that cannot be right.** It is
the place of a token: every text that begins with the same tokens up to this one
has the same error, and the text in front of it can be continued, with the same
tokens before it, to a text that is parsed. -/
theorem parse_error_at_first_fault {source : String} {fault : ParseFault} {pos : Position}
    (h : parse source = .error (.parse fault pos)) :
    ∃ ts tok, TokensBegin source (ts ++ [tok]) ∧ tok.pos = pos ∧
      (∀ other, TokensBegin other (ts ++ [tok]) → parse other = .error (.parse fault pos)) ∧
      ∃ before behind t p, source = before ++ behind ∧ before.utf8ByteSize = pos.offset ∧
        parse (before ++ t) = .ok p ∧ TokensBegin (before ++ t) ts := by
  obtain ⟨ts, tok, mid, fin, hts, hscan, rfl, hblame⟩ := blames_of_parse_error h
  refine ⟨ts, tok, hts.ahead (Cursor.ahead_single hscan), rfl, fun other hother => ?_, ?_⟩
  · exact parse_error_of_blame hblame hts.ne_endOfInput hother
  · exact exists_parsed_of_viable hts hscan hblame.viable

/-- The error of a text that is not parsed. -/
def parseError? (source : String) : Option Error :=
  match parse source with
  | .ok _ => none
  | .error e => some e

lemma parse_of_parseError? {source : String} {e : Error} (h : parseError? source = some e) :
    parse source = .error e := by
  unfold parseError? at h
  split at h
  · cases h
  · rename_i hparse
    cases h
    exact hparse

/-- A name in place of a comma, behind a comment. -/
theorem parse_error_at_first_fault_args :
    parse "f(a #,\n b)" =
        .error (.parse (.afterArgument (.identifier "b")) ⟨8, 2, 2⟩) ∧
      ∃ ts tok, TokensBegin "f(a #,\n b)" (ts ++ [tok]) ∧ tok.pos = ⟨8, 2, 2⟩ ∧
        ∃ before behind t p, "f(a #,\n b)" = before ++ behind ∧ before.utf8ByteSize = 8 ∧
          parse (before ++ t) = .ok p ∧ TokensBegin (before ++ t) ts := by
  have hparse : parse "f(a #,\n b)" =
      .error (.parse (.afterArgument (.identifier "b")) ⟨8, 2, 2⟩) :=
    parse_of_parseError? (by decide +kernel)
  obtain ⟨ts, tok, hbegin, hpos, _, hviable⟩ := parse_error_at_first_fault hparse
  exact ⟨hparse, ts, tok, hbegin, hpos, hviable⟩

end ClosureCalc
