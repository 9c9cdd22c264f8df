/-
The texts of tokens.

A token spans the text from its place to where reading stops behind it. In front of it
stand blanks and comments only, it is read in the same way if its text stands alone,
and no longer text from its place on is one token.

* `IsLayout`: blanks and comments, in front of some text.
* `Span`, `Lexer.spans`: the tokens that a stream delivers, with what they span.
* `IsToken`: a text that is one token; `Covers`: spans that cover a text from an offset
  on.
* `isLayout_of_layout`: what is skipped is layout.
* `Cursor.exists_own_of_scan`: the text of a token, and how it is read in front of
  another text.
* `Covers.between`: spans lie in their text, one behind the other.
* `spans_cover`: the tokens of a text cover it.
-/
import ClosureCalc.Proofs.Tokenizing
import ClosureCalc.Proofs.Whereabouts

namespace ClosureCalc

/-! ### Layout -/

/-- **Layout** in front of some text. A comment goes on to the next line break, or to
the end of all text. -/
inductive IsLayout (behind : List Char) : List Char → Prop where
  | nil : IsLayout behind []
  | blank {c : Char} {rest : List Char} (hc : c = ' ' ∨ c = '\t' ∨ c = '\r' ∨ c = '\n')
      (hrest : IsLayout behind rest) : IsLayout behind (c :: rest)
  | comment {body rest : List Char} (hbody : ∀ c ∈ body, c ≠ '\r' ∧ c ≠ '\n')
      (hend : ∀ c ∈ (rest ++ behind).head?, c = '\r' ∨ c = '\n')
      (hrest : IsLayout behind rest) : IsLayout behind ('#' :: (body ++ rest))

/-! ### Spans -/

/-- A token with the offset where its text ends. -/
structure Span where
  token : Token
  stop : Nat
deriving DecidableEq, Inhabited

/-- The offset where the text of a token begins. -/
def Span.start (s : Span) : Nat := s.token.pos.offset

/-- **What is delivered** by at most `n` calls, up to the first lexical error. The text
of a token ends where the stream stands behind the call. -/
def Lexer.spans : Nat → Lexer → List Span
  | 0, _ => []
  | n + 1, lx =>
    match next lx with
    | .ok tok lx => ⟨tok, lx.pos.offset⟩ :: spans n lx
    | .error _ _ => []

/-- **A text that is one token**: the first token taken from it begins at its beginning
and ends at its end. -/
def IsToken (text : List Char) : Prop :=
  ∃ tok lx, Lexer.next (Lexer.ofString (String.ofList text)) = .ok tok lx ∧
    tok.kind ≠ .endOfInput ∧ tok.pos.offset = 0 ∧ lx.pos.offset = String.utf8Len text

/-- **Spans that cover a text** which begins at an offset. In front of each span stands
layout. A token has some text. Alone it is read as this token, and no more of what
comes next is one token with it. The token at the end has no text and nothing behind
it. -/
inductive Covers : Nat → List Char → List Span → Prop where
  | nil (n : Nat) (text : List Char) : Covers n text []
  | token {n : Nat} {gap own behind : List Char} {s : Span} {ss : List Span}
      (hkind : s.token.kind ≠ .endOfInput) (hgap : IsLayout (own ++ behind) gap)
      (hown : own ≠ []) (hstart : s.start = n + String.utf8Len gap)
      (hstop : s.stop = s.start + String.utf8Len own)
      (halone : (tokenize (String.ofList own)).map (·.map (·.kind)) =
        .ok [s.token.kind, .endOfInput])
      (hlongest : ∀ more, more ≠ [] → more <+: behind → ¬ IsToken (own ++ more))
      (hrest : Covers s.stop behind ss) : Covers n (gap ++ (own ++ behind)) (s :: ss)
  | endOfInput {n : Nat} {gap : List Char} {s : Span} {ss : List Span}
      (hkind : s.token.kind = .endOfInput) (hgap : IsLayout [] gap)
      (hstart : s.start = n + String.utf8Len gap) (hstop : s.stop = s.start)
      (hrest : Covers s.stop [] ss) : Covers n gap (s :: ss)

/-! ### What is skipped -/

/-- The rest of a comment, and layout behind it. -/
def ResumesComment (behind l : List Char) : Prop :=
  ∃ body rest, l = body ++ rest ∧ (∀ c ∈ body, c ≠ '\r' ∧ c ≠ '\n') ∧
    (∀ c ∈ (rest ++ behind).head?, c = '\r' ∨ c = '\n') ∧ IsLayout behind rest

section Comment

variable {behind l : List Char} {c : Char}

/-- A comment goes on over a character that ends no line. -/
lemma ResumesComment.cons (h : ResumesComment behind l) (hc : ¬ (c = '\r' ∨ c = '\n')) :
    ResumesComment behind (c :: l) := by
  obtain ⟨body, rest, rfl, hbody, hend, hrest⟩ := h
  exact ⟨c :: body, rest, rfl, List.forall_mem_cons.2 ⟨not_or.1 hc, hbody⟩, hend, hrest⟩

/-- A comment begins with its mark. -/
lemma ResumesComment.isLayout (h : ResumesComment behind l) : IsLayout behind ('#' :: l) := by
  obtain ⟨body, rest, rfl, hbody, hend, hrest⟩ := h
  exact .comment hbody hend hrest

/-- A comment ends in front of a line break, and layout goes on there. -/
lemma IsLayout.break (h : IsLayout behind l) (hc : c = '\r' ∨ c = '\n') :
    IsLayout behind (c :: l) ∧ ResumesComment behind (c :: l) := by
  have hlayout : IsLayout behind (c :: l) := .blank (.inr (.inr hc)) h
  refine ⟨hlayout, [], c :: l, rfl, by simp, ?_, hlayout⟩
  simpa using hc

end Comment

/-- **What is skipped is layout**, inside a comment the rest of the comment and then
layout. -/
lemma isLayout_of_layout (l rest : List Char) :
    (layout false (l ++ rest) = l.length → IsLayout rest l) ∧
      (layout true (l ++ rest) = l.length → ResumesComment rest l) := by
  induction l with
  | nil =>
    refine ⟨fun _ => .nil, fun h => ?_⟩
    cases rest with
    | nil => exact ⟨[], [], rfl, by simp, by simp, .nil⟩
    | cons c rest =>
      rw [List.nil_append, layout] at h
      split at h <;> cases h
  | cons c l ih =>
    obtain ⟨hout, hin⟩ := ih
    rw [List.cons_append, layout, layout, List.length_cons]
    by_cases hbreak : c = '\r' ∨ c = '\n'
    · have hc : (c == '\n' || c == '\r') = true := by simpa using hbreak.symm
      rw [if_pos hc, if_pos hc]
      exact ⟨fun h => ((hout (Nat.succ.inj h)).break hbreak).1,
        fun h => ((hout (Nat.succ.inj h)).break hbreak).2⟩
    · have hc : ¬ (c == '\n' || c == '\r') = true := by simpa [or_comm] using hbreak
      rw [if_neg hc, if_neg hc, Bool.true_or, if_pos rfl]
      refine ⟨fun h => ?_, fun h => (hin (Nat.succ.inj h)).cons hbreak⟩
      split at h
      · rename_i hmark
        obtain rfl : c = '#' := by simpa [commentMark] using hmark
        exact (hin (Nat.succ.inj h)).isLayout
      · split at h
        · rename_i hblank
          exact .blank (isBlank_iff.1 hblank) (hout (Nat.succ.inj h))
        · cases h

/-! ### The text of a token -/

/-- A lexeme is read in the same way if its text stands alone. -/
lemma Lexeme.first_alone {c : Char} {cs rest : List Char} {kind : Token.Kind}
    (hc : isBlank c = false) (h : first c (cs ++ rest) = ⟨cs.length + 1, .ok kind⟩) :
    first c cs = ⟨cs.length + 1, .ok kind⟩ := by
  have hblanks := (List.forall_mem_cons.1 (isBlank_of_first hc h)).2
  have hcut : Cut rest [' '] := .inr ⟨' ', rfl, rfl⟩
  have huntil : untilBlank (cs ++ [' ']) = cs := by
    rw [untilBlank, List.takeWhile_append_of_pos (by simpa using hblanks)]
    exact List.append_nil cs
  rw [← first_append hcut h, ← first_untilBlank hc (cs ++ [' ']), huntil]

/-- What begins with a character that is no layout has no layout in front. -/
lemma layout_cons_eq_zero {cur : Cursor} {l rest : List Char} {c : Char}
    (hrest : cur.rest = l ++ c :: rest) (hlayout : layout false cur.rest = l.length)
    (more : List Char) : layout false (c :: more) = 0 := by
  have hskip := layout_drop_layout false cur.rest
  rw [hlayout, hrest, List.drop_left] at hskip
  exact layout_append (l := []) more hskip

namespace Cursor

/-- **The text of a token** stands behind layout. The token is read in the same way
from this text alone, and in front of what begins like the text behind it. -/
lemma exists_own_of_scan {cur mid : Cursor} {tok : Token} (h : cur.scan = .ok tok mid)
    (hkind : tok.kind ≠ .endOfInput) :
    ∃ gap own, cur.rest = gap ++ (own ++ mid.rest) ∧ IsLayout (own ++ mid.rest) gap ∧ own ≠ [] ∧
      tok.pos.offset = cur.pos.offset + String.utf8Len gap ∧
      mid.pos.offset = tok.pos.offset + String.utf8Len own ∧
      ∀ more, more = [] ∨ more.head? = mid.rest.head? → ∀ p : Position, ∃ p' : Position,
        (⟨own ++ more, p⟩ : Cursor).scan = .ok ⟨tok.kind, p⟩ ⟨more, p'⟩ ∧
          p'.offset = p.offset + String.utf8Len own := by
  obtain ⟨gap, c, cs, hrest, hlayout, hblank, hfirst⟩ := exists_of_scan h hkind
  have hzero := layout_cons_eq_zero hrest hlayout
  obtain ⟨htok, hmid⟩ := pos_eq_across_of_scan h hrest hlayout hfirst
  refine ⟨gap, c :: cs, hrest, (isLayout_of_layout gap _).1 (hrest ▸ hlayout), by simp, ?_, ?_, ?_⟩
  · rw [htok, Position.offset_across]
  · rw [hmid, Position.offset_across]
  · intro more hmore p
    have hfirst' : Lexeme.first c (cs ++ more) = ⟨cs.length + 1, .ok tok.kind⟩ := by
      rcases hmore with rfl | hhead
      · rw [List.append_nil]
        exact Lexeme.first_alone hblank hfirst
      · exact Lexeme.first_append (.inl hhead) hfirst
    refine ⟨_, scan_eq (l := []) p (hzero (cs ++ more)) hfirst', ?_⟩
    rw [Position.offset_across]
    rfl

/-- The token at the end of the text stands behind layout, with nothing behind it. -/
lemma exists_gap_of_end {cur mid : Cursor} {tok : Token} (h : cur.scan = .ok tok mid)
    (hkind : tok.kind = .endOfInput) :
    IsLayout [] cur.rest ∧ mid.rest = [] ∧
      tok.pos.offset = cur.pos.offset + String.utf8Len cur.rest ∧ mid.pos = tok.pos := by
  obtain ⟨hnone, htok, rfl⟩ := eq_skipLayout_of_end h hkind
  obtain ⟨gap, rest, hrest, hlayout, hpos⟩ := pos_of_scan h
  obtain rfl : rest = [] := by
    rwa [skipLayout, rest_advanceBy, hlayout, hrest, List.drop_left] at hnone
  rw [List.append_nil] at hrest
  subst hrest
  refine ⟨(isLayout_of_layout cur.rest []).1 (by rwa [List.append_nil]), hnone, ?_, ?_⟩
  · rw [hpos, Position.offset_across]
  · rw [htok]

end Cursor

/-- Some text has some bytes. -/
lemma utf8Len_pos {text : List Char} (h : text ≠ []) : 0 < String.utf8Len text := by
  obtain ⟨c, rest, rfl⟩ := List.exists_cons_of_ne_nil h
  have hc := c.utf8Size_pos
  rw [String.utf8Len_cons]
  omega

section Alone

variable {own : List Char} {kind : Token.Kind}

/-- A text is one token if it is read as one from its beginning to its end. -/
lemma tokenize_alone {p : Position} (hkind : kind ≠ .endOfInput)
    (hscan : (⟨own, .start⟩ : Cursor).scan = .ok ⟨kind, .start⟩ ⟨[], p⟩) :
    (tokenize (String.ofList own)).map (·.map (·.kind)) = .ok [kind, .endOfInput] := by
  have hscan' : (Cursor.ofString (String.ofList own)).scan = .ok ⟨kind, .start⟩ ⟨[], p⟩ := by
    rw [Cursor.ofString, String.toList_ofList]
    exact hscan
  have hend : (⟨[], p⟩ : Cursor).scan = .ok ⟨.endOfInput, p⟩ ⟨[], p⟩ := rfl
  rw [tokenize_of_reads (.single hscan' hkind) hend rfl]
  rfl

/-- A text is not one token if the first token read from it is shorter. -/
lemma not_isToken {tok : Token} {mid : Cursor} {text : List Char}
    (hscan : (⟨text, .start⟩ : Cursor).scan = .ok tok mid)
    (hshort : mid.pos.offset ≠ String.utf8Len text) : ¬ IsToken text := by
  rintro ⟨tok', lx, hnext, -, -, hstop⟩
  have hnext' : Lexer.next (Lexer.ofString (String.ofList text)) = .ok tok ⟨mid, none⟩ := by
    refine Lexer.At.next_eq (.fresh _) ?_
    rw [Cursor.ofString, String.toList_ofList]
    exact hscan
  rw [hnext'] at hnext
  cases hnext
  exact hshort hstop

end Alone

/-! ### Spans cover a text -/

/-- The spans that are delivered from a cursor on cover the text behind it. -/
lemma Cursor.covers_spans (n : Nat) (cur : Cursor) :
    Covers cur.pos.offset cur.rest (Lexer.spans n ⟨cur, none⟩) := by
  induction n generalizing cur with
  | zero => exact .nil _ _
  | succ n ih =>
    rw [Lexer.spans]
    rcases hscan : cur.scan with ⟨tok, mid⟩ | ⟨e, mid⟩
    · rw [Lexer.At.next_eq (.fresh cur) hscan]
      by_cases hkind : tok.kind = .endOfInput
      · obtain ⟨hgap, hrest, hstart, hstop⟩ := exists_gap_of_end hscan hkind
        have hmore := ih mid
        rw [hrest] at hmore
        exact .endOfInput hkind hgap hstart (congrArg Position.offset hstop) hmore
      · obtain ⟨gap, own, hrest, hgap, hown, hstart, hstop, halike⟩ :=
          exists_own_of_scan hscan hkind
        rw [hrest]
        refine .token hkind hgap hown hstart hstop ?_ (fun more hmore hinitial => ?_) (ih mid)
        · obtain ⟨p, hread, -⟩ := halike [] (.inl rfl) .start
          rw [List.append_nil] at hread
          exact tokenize_alone hkind hread
        · -- reading stops behind the token also in front of `more`
          have hhead : more.head? = mid.rest.head? := by
            obtain ⟨rest, hrest⟩ := hinitial
            rw [← hrest, List.head?_append_of_ne_nil _ hmore]
          obtain ⟨p, hread, hp⟩ := halike more (.inr hhead) .start
          refine not_isToken hread ?_
          have hpos := utf8Len_pos hmore
          have hzero : Position.start.offset = 0 := rfl
          rw [hp, hzero, String.utf8Len_append]
          omega
    · rw [(Lexer.At.eq_of_scan_error (.fresh cur) hscan).1]
      exact .nil _ _

namespace Covers

variable {n : Nat} {text : List Char} {ss : List Span}

/-- **Spans lie in the text** that they cover. A token has some bytes, and the token at
the end stands at the end. -/
lemma between (h : Covers n text ss) :
    ∀ s ∈ ss, n ≤ s.start ∧ s.stop ≤ n + String.utf8Len text ∧
      (s.token.kind ≠ .endOfInput → s.start < s.stop) ∧
      (s.token.kind = .endOfInput → s.start = n + String.utf8Len text ∧ s.stop = s.start) := by
  induction h with
  | nil => simp
  | @token n gap own behind s ss hkind hgap hown hstart hstop halone hlongest hrest ih =>
    have hpos := utf8Len_pos hown
    rw [String.utf8Len_append, String.utf8Len_append]
    refine List.forall_mem_cons.2 ⟨⟨by omega, by omega, fun _ => by omega, fun h => absurd h hkind⟩,
      fun t ht => ?_⟩
    obtain ⟨hle, hin, htok, hend⟩ := ih t ht
    refine ⟨by omega, by omega, htok, fun h => ?_⟩
    have ht := hend h
    omega
  | @endOfInput n gap s ss hkind hgap hstart hstop hrest ih =>
    refine List.forall_mem_cons.2 ⟨⟨by omega, by omega, fun h => absurd hkind h,
      fun _ => ⟨hstart, hstop⟩⟩, fun t ht => ?_⟩
    obtain ⟨hle, hin, htok, hend⟩ := ih t ht
    rw [String.utf8Len_nil] at hin hend
    refine ⟨by omega, by omega, htok, fun h => ?_⟩
    have ht := hend h
    omega

/-- **Spans come one behind the other.** -/
lemma pairwise (h : Covers n text ss) : ss.Pairwise fun s t => s.stop ≤ t.start := by
  induction h with
  | nil => exact .nil
  | token _ _ _ _ _ _ _ hrest ih => exact .cons (fun t ht => (hrest.between t ht).1) ih
  | endOfInput _ _ _ _ hrest ih => exact .cons (fun t ht => (hrest.between t ht).1) ih

end Covers

/-- **The tokens of a text cover it.** What successive calls deliver, up to the first
lexical error, stands in the text in order and without overlap. Between two tokens and
in front of the first is nothing but layout. A token has some text, which alone is read
as this token and goes on as far as one token can. The token at the end has the empty
text at the end. -/
theorem spans_cover (source : String) (n : Nat) :
    let spans := (Lexer.ofString source).spans n
    Covers 0 source.toList spans ∧ (spans.Pairwise fun s t => s.stop ≤ t.start) ∧
      ∀ s ∈ spans, s.stop ≤ String.utf8Len source.toList ∧
        (s.token.kind ≠ .endOfInput → s.start < s.stop) ∧
        (s.token.kind = .endOfInput →
          s.start = String.utf8Len source.toList ∧ s.stop = s.start) := by
  have hcovers : Covers 0 source.toList ((Lexer.ofString source).spans n) :=
    Cursor.covers_spans n (Cursor.ofString source)
  refine ⟨hcovers, hcovers.pairwise, fun s hs => ?_⟩
  have hs := (hcovers.between s hs).2
  rwa [Nat.zero_add] at hs

/-- A comment with a wide character, a numeral and an operator that could be two, up to
the end. -/
theorem spans_cover_doubleStar :
    let source := "#é\r\n.5**x"
    let spans := (Lexer.ofString source).spans 4
    let star : Span := ⟨⟨.symbol .doubleStar, ⟨7, 2, 3⟩⟩, 9⟩
    let eof : Span := ⟨⟨.endOfInput, ⟨10, 2, 6⟩⟩, 10⟩
    Covers 0 source.toList spans ∧ (spans.Pairwise fun s t => s.stop ≤ t.start) ∧
      (star ∈ spans ∧ star.start < star.stop ∧ star.stop ≤ String.utf8Len source.toList) ∧
      eof ∈ spans ∧ eof.start = String.utf8Len source.toList ∧ eof.stop = eof.start := by
  intro source spans star eof
  obtain ⟨hcovers, hpairwise, hspans⟩ := spans_cover source 4
  have hstar : star ∈ spans := by decide +kernel
  have heof : eof ∈ spans := by decide +kernel
  obtain ⟨hin, htoken, -⟩ := hspans star hstar
  obtain ⟨-, -, hend⟩ := hspans eof heof
  exact ⟨hcovers, hpairwise, ⟨hstar, htoken (by decide), hin⟩, heof, hend rfl⟩

end ClosureCalc
