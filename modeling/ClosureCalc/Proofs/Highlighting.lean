/-
The colours of a line.

The parts of a line are found by going over its text. They are the tokens that the
stream of the line delivers, in the colours of their kinds and cut out of the line where
their spans say, with plain text between them; behind the last token that is delivered
all is plain.

* `IsSlice`: the text between two byte offsets.
* `Token.Kind.ShownIn`: the colour for a token of some kind.
* `Painted`: the parts of a text for tokens with their spans.
* `Part.ofText_of_scan`, `Part.ofText_eq_plain`: what is shown of a token, and where
  none is delivered.
* `Part.painted_ofText`: the parts of a text are painted by the spans of its stream.
* `highlight_follows_tokens`: what is shown of a line.
-/
import ClosureCalc.Editor.Highlight
import ClosureCalc.Proofs.Spans

namespace ClosureCalc

/-! ### Parts by spans -/

/-- **The text between two byte offsets.** Neither of them lies inside a character. -/
def IsSlice (text : List Char) (start stop : Nat) (part : List Char) : Prop :=
  ∃ before behind, text = before ++ (part ++ behind) ∧ start = String.utf8Len before ∧
    stop = start + String.utf8Len part

/-- **The colour for a token** of some kind, the token at the end apart. -/
inductive Token.Kind.ShownIn : Token.Kind → Colour → Prop
  | keyword (k : Keyword) : ShownIn (.keyword k) .lightBlue
  | number (value : Float) : ShownIn (.number value) .yellow
  | identifier (name : String) : ShownIn (.identifier name) .white
  | unexpected (c : Char) : ShownIn (.unexpected c) .red
  | symbol (s : Symbol) : ShownIn (.symbol s) .darkGray

/-- **Tokens painted on a text**, of which all in front of an offset is painted already.
The text of each token is cut out by its span, and what was left out in front of it is a
plain part, if it is any text. So is what is left behind the last token. -/
inductive Painted (text : List Char) : Nat → List Span → List Part → Prop
  | rest {written : Nat} {behind : List Char}
      (hbehind : IsSlice text written (String.utf8Len text) behind) :
      Painted text written [] (Part.plain behind)
  | token {written : Nat} {s : Span} {ss : List Span} {gap own : List Char} {colour : Colour}
      {parts : List Part} (hgap : IsSlice text written s.start gap)
      (hown : IsSlice text s.start s.stop own) (hcolour : s.token.kind.ShownIn colour)
      (hrest : Painted text s.stop ss parts) :
      Painted text written (s :: ss) (Part.plain gap ++ ⟨colour, String.ofList own⟩ :: parts)

/-- The tokens that are delivered by at most `n` calls, in front of the token at the end
and of the first lexical error. -/
def Lexer.shown (n : Nat) (lx : Lexer) : List Span :=
  (lx.spans n).takeWhile fun s => decide (s.token.kind ≠ .endOfInput)

/-! ### One token -/

lemma Token.Kind.shownIn_ofKind {kind : Token.Kind} (h : kind ≠ .endOfInput) :
    kind.ShownIn (Colour.ofKind kind) := by
  cases kind with
  | symbol s => exact .symbol s
  | keyword k => exact .keyword k
  | identifier name => exact .identifier name
  | number value => exact .number value
  | unexpected c => exact .unexpected c
  | endOfInput => exact absurd rfl h

section Scan

variable {cur mid : Cursor} {tok : Token}

/-- **A token is shown** behind the layout in front of it. Its text is what its span cuts
out. -/
lemma Part.ofText_of_scan (h : cur.scan = .ok tok mid) (hkind : tok.kind ≠ .endOfInput) :
    ∃ gap own, cur.rest = gap ++ (own ++ mid.rest) ∧
      tok.pos.offset = cur.pos.offset + String.utf8Len gap ∧
      mid.pos.offset = tok.pos.offset + String.utf8Len own ∧
      ∀ n, ofText (n + 1) cur.rest =
        plain gap ++ ⟨Colour.ofKind tok.kind, String.ofList own⟩ :: ofText n mid.rest := by
  obtain ⟨gap, c, cs, hrest, hlayout, -, hfirst⟩ := Cursor.exists_of_scan h hkind
  obtain ⟨htok, hmid⟩ := Cursor.pos_eq_across_of_scan h hrest hlayout hfirst
  refine ⟨gap, c :: cs, hrest, ?_, ?_, fun n => ?_⟩
  · rw [htok, Position.offset_across]
  · rw [hmid, Position.offset_across]
  · have hdrop : cur.rest.drop gap.length = c :: (cs ++ mid.rest) := by
      rw [hrest, List.drop_left]
    have htake : (c :: (cs ++ mid.rest)).take (cs.length + 1) = c :: cs :=
      @List.take_left _ (c :: cs) mid.rest
    have hbehind : (c :: (cs ++ mid.rest)).drop (cs.length + 1) = mid.rest :=
      @List.drop_left _ (c :: cs) mid.rest
    have hgap : cur.rest.take gap.length = gap := by
      rw [hrest, List.take_left]
    rw [ofText, hlayout]
    simp only [hdrop, hfirst, htake, hbehind, hgap]

/-- Where no token is delivered but the one at the end, all is plain. -/
lemma Part.ofText_eq_plain (h : ∀ tok mid, cur.scan = .ok tok mid → tok.kind = .endOfInput)
    (n : Nat) : ofText n cur.rest = plain cur.rest := by
  cases n with
  | zero => rfl
  | succ n =>
    have hskip : cur.skipLayout.rest = cur.rest.drop (layout false cur.rest) :=
      Cursor.rest_advanceBy _ _
    rw [ofText]
    simp only [← hskip]
    split
    · rfl
    · rename_i c rest hrest
      split
      · rfl
      · rename_i kind hout
        -- the token in front of the cursor would be delivered
        have hkind := h _ _ (by rw [Cursor.scan]; simp only [hrest, hout]; rfl)
        exact absurd (hout.trans (congrArg Except.ok hkind)) (Lexeme.first_ne_endOfInput c rest)

end Scan

/-! ### All tokens -/

section Shown

variable {cur mid : Cursor} {tok : Token} {n : Nat}

/-- A token is the first one that is delivered, and others come behind it. -/
lemma Lexer.shown_of_scan (h : cur.scan = .ok tok mid) (hkind : tok.kind ≠ .endOfInput) :
    shown (n + 1) ⟨cur, none⟩ = ⟨tok, mid.pos.offset⟩ :: shown n ⟨mid, none⟩ := by
  rw [shown, spans, At.next_eq (.fresh cur) h]
  exact List.takeWhile_cons_of_pos (by simpa using hkind)

/-- At the end, and at a lexical error, no more tokens are delivered. -/
lemma Lexer.shown_eq_nil (h : ∀ tok mid, cur.scan = .ok tok mid → tok.kind = .endOfInput)
    (n : Nat) : shown n ⟨cur, none⟩ = [] := by
  cases n with
  | zero => rfl
  | succ n =>
    rw [shown, spans]
    rcases hscan : cur.scan with ⟨tok, mid⟩ | ⟨e, mid⟩
    · rw [At.next_eq (.fresh cur) hscan]
      exact List.takeWhile_cons_of_neg (by simpa using h tok mid hscan)
    · rw [(At.eq_of_scan_error (.fresh cur) hscan).1]
      rfl

end Shown

/-- Where no token is delivered, the rest of the text is plain. -/
lemma Part.painted_of_end {text before : List Char} {cur : Cursor}
    (htext : text = before ++ cur.rest) (hpos : cur.pos.offset = String.utf8Len before)
    (h : ∀ tok mid, cur.scan = .ok tok mid → tok.kind = .endOfInput) (n m : Nat) :
    Painted text cur.pos.offset (Lexer.shown m ⟨cur, none⟩) (ofText n cur.rest) := by
  rw [Lexer.shown_eq_nil h, ofText_eq_plain h]
  refine .rest ⟨before, [], by rw [List.append_nil, htext], hpos, ?_⟩
  rw [htext, String.utf8Len_append, hpos]

/-- **The parts of a text** are those painted by the tokens of its stream, if its budget
and the calls are enough for what is left to read. -/
lemma Part.painted_ofText {text before : List Char} {cur : Cursor} {n m : Nat}
    (htext : text = before ++ cur.rest) (hpos : cur.pos.offset = String.utf8Len before)
    (hn : cur.rest.length ≤ n) (hm : cur.rest.length < m) :
    Painted text cur.pos.offset (Lexer.shown m ⟨cur, none⟩) (ofText n cur.rest) := by
  induction n generalizing before cur m with
  | zero =>
    have hnone : ∀ tok mid, cur.scan = .ok tok mid → tok.kind = .endOfInput := by
      intro tok mid hscan
      by_contra hkind
      have hlt := Cursor.length_rest_lt_of_scan_ok hscan hkind
      omega
    exact painted_of_end htext hpos hnone 0 m
  | succ n ih =>
    by_cases hnone : ∀ tok mid, cur.scan = .ok tok mid → tok.kind = .endOfInput
    · exact painted_of_end htext hpos hnone (n + 1) m
    · push Not at hnone
      obtain ⟨tok, mid, hscan, hkind⟩ := hnone
      have hlt := Cursor.length_rest_lt_of_scan_ok hscan hkind
      obtain ⟨m, rfl⟩ := Nat.exists_eq_succ_of_ne_zero (n := m) (by omega)
      obtain ⟨gap, own, hrest, hstart, hstop, hparts⟩ := ofText_of_scan hscan hkind
      rw [Lexer.shown_of_scan hscan hkind, hparts]
      rw [hrest] at htext
      have hgap : tok.pos.offset = String.utf8Len (before ++ gap) := by
        rw [hstart, hpos, String.utf8Len_append]
      have hown : mid.pos.offset = String.utf8Len (before ++ (gap ++ own)) := by
        rw [hstop, hgap, ← List.append_assoc, String.utf8Len_append (before ++ gap)]
      refine .token ⟨before, own ++ mid.rest, htext, hpos, hstart⟩
        ⟨before ++ gap, mid.rest, ?_, hgap, hstop⟩ (Token.Kind.shownIn_ofKind hkind)
        (ih ?_ hown (by omega) (by omega))
      · rw [htext, List.append_assoc]
      · rw [htext]
        simp only [List.append_assoc]

/-! ### Nothing is lost -/

lemma Part.flatMap_plain (text : List Char) :
    (plain text).flatMap (·.text.toList) = text := by
  cases text with
  | nil => rfl
  | cons c rest => simp [plain]

/-- Nothing is lost of a text, and nothing comes twice. -/
lemma Part.flatMap_ofText (n : Nat) (text : List Char) :
    (ofText n text).flatMap (·.text.toList) = text := by
  induction n generalizing text with
  | zero => exact flatMap_plain text
  | succ n ih =>
    rw [ofText]
    simp only
    split
    · exact flatMap_plain text
    · rename_i c rest hdrop
      split
      · exact flatMap_plain text
      · rw [List.flatMap_append, List.flatMap_cons, flatMap_plain, ih, String.toList_ofList,
          List.take_append_drop, ← hdrop, List.take_append_drop]

lemma Part.text_ne_of_mem_plain {text : List Char} {part : Part} (h : part ∈ plain text) :
    part.text ≠ "" := by
  cases text with
  | nil => cases h
  | cons c rest =>
    obtain rfl := List.mem_singleton.1 h
    simp

/-- A part has some text: so has a lexeme. -/
lemma Part.text_ne_of_mem_ofText {n : Nat} {text : List Char} {part : Part}
    (h : part ∈ ofText n text) : part.text ≠ "" := by
  induction n generalizing text with
  | zero => exact text_ne_of_mem_plain h
  | succ n ih =>
    rw [ofText] at h
    simp only at h
    split at h
    · exact text_ne_of_mem_plain h
    · rename_i c rest hdrop
      split at h
      · exact text_ne_of_mem_plain h
      · have hpos := Lexeme.size_first_pos c rest
        rcases List.mem_append.1 h with h | h
        · exact text_ne_of_mem_plain h
        · rcases List.mem_cons.1 h with rfl | h
          · simp [hpos.ne']
          · exact ih h

/-- **What is shown of a line.** Its parts are the tokens of its stream, each with the
text of its span and in the colour of its kind, up to the end or to the first lexical
error, and plain text where there is any in front of a token or behind the last one. The
texts of all parts together are the line, and no part is empty. As many calls as the line
has characters, and one more, deliver all these tokens. -/
theorem highlight_follows_tokens (line : String) {n : Nat} (hn : line.length < n) :
    Painted line.toList 0 ((Lexer.ofString line).shown n) (highlight line) ∧
      String.join ((highlight line).map (·.text)) = line ∧
      ∀ part ∈ highlight line, part.text ≠ "" := by
  have hlength : line.toList.length = line.length := String.length_toList
  refine ⟨?_, ?_, fun part hpart => Part.text_ne_of_mem_ofText hpart⟩
  · have htext : line.toList = [] ++ (Cursor.ofString line).rest := rfl
    exact Part.painted_ofText htext rfl hlength.le (hlength.trans_lt hn)
  · rw [← String.toList_inj, String.toList_join, List.flatMap_map, highlight]
    exact Part.flatMap_ofText _ _

/-- A keyword, a wide character that begins no token, and a numeral that ends all
colours. -/
theorem highlight_follows_tokens_wide :
    let line := "func é # \n 1.2.3 x"
    line.length < 19 ∧ Painted line.toList 0 ((Lexer.ofString line).shown 19) (highlight line) ∧
      highlight line = [⟨.lightBlue, "func"⟩, ⟨.white, " "⟩, ⟨.red, "é"⟩,
        ⟨.white, " # \n 1.2.3 x"⟩] ∧
      String.join ((highlight line).map (·.text)) = line := by
  intro line
  have hlength : line.length < 19 := by decide
  obtain ⟨hpainted, hjoin, -⟩ := highlight_follows_tokens line hlength
  exact ⟨hlength, hpainted, by decide +kernel, hjoin⟩

end ClosureCalc
