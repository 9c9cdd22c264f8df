/-
Tokens and what comes behind them.

The lexer reads as far as a token goes. So a token is read in the same way if the
text behind it is replaced by one that begins with the same character, or with a
blank.

* `Cut`: a text can take the place of another behind a token.
* `Lexeme.first_append`: a lexeme does not change if what comes behind it does.
* `Position.across`: the place behind some text.
* `Cursor.scan_append`, `Cursor.Reads.replace`: tokens do not change if what
  comes behind them does.
* `Cursor.scan_break`: layout in front of a line break is skipped with it.
-/
import ClosureCalc.Proofs.Stream
import Mathlib.Data.List.TakeWhile
import Mathlib.Data.String.Basic

namespace ClosureCalc

/-- **A text takes the place of another** behind a token: it begins with the same
character, or with a blank. -/
def Cut (rest rest' : List Char) : Prop :=
  rest'.head? = rest.head? ∨ ∃ b ∈ rest'.head?, isBlank b = true

lemma isBlank_iff {c : Char} : isBlank c = true ↔ c = ' ' ∨ c = '\t' ∨ c = '\r' ∨ c = '\n' := by
  simp [isBlank, or_assoc]

/-- What holds of the next character, and of blanks, holds of the next character
after a cut. -/
lemma Cut.head {rest rest' : List Char} (h : Cut rest rest') {P : Char → Prop}
    (hrest : ∀ c ∈ rest.head?, P c) (hblank : ∀ b, isBlank b = true → P b) :
    ∀ c ∈ rest'.head?, P c := by
  intro c hc
  rcases h with h | ⟨b, hb, hbb⟩
  · exact hrest c (h ▸ hc)
  · rw [Option.mem_unique hc hb]
    exact hblank b hbb

/-- What comes in front of both texts does not matter. -/
lemma Cut.append {rest rest' : List Char} (h : Cut rest rest') (w : List Char) :
    Cut (w ++ rest) (w ++ rest') := by
  cases w with
  | nil => exact h
  | cons c w => exact .inl rfl

/-! ### Lexemes -/

namespace Numeral

lemma move_of_isBlank (p : Phase) {b : Char} (h : isBlank b = true) : p.move b = .stop := by
  rcases isBlank_iff.1 h with rfl | rfl | rfl | rfl <;> cases p <;> decide

/-- A numeral ends where no character continues it. -/
lemma scan_eq_zero_iff {p q : Phase} {rest : List Char} :
    scan p rest = (0, .ok q) ↔ q = p ∧ ∀ c ∈ rest.head?, p.move c = .stop := by
  cases rest with
  | nil => simp [scan, eq_comm]
  | cons c rest =>
    have hhead : (∀ d ∈ (c :: rest).head?, p.move d = .stop) ↔ p.move c = .stop := by simp
    rw [hhead, scan]
    cases p.move c <;> simp [eq_comm]

lemma scan_append {rest rest' : List Char} (hcut : Cut rest rest') {w : List Char} {p q : Phase}
    (h : scan p (w ++ rest) = (w.length, .ok q)) : scan p (w ++ rest') = (w.length, .ok q) := by
  induction w generalizing p with
  | nil =>
    obtain ⟨hq, hrest⟩ := scan_eq_zero_iff.1 h
    exact scan_eq_zero_iff.2 ⟨hq, hcut.head hrest fun b hb => move_of_isBlank p hb⟩
  | cons c w ih =>
    rw [List.cons_append, scan] at h ⊢
    split at h
    · rename_i q' hmove
      simp only [Prod.mk.injEq, List.length_cons, Nat.add_right_cancel_iff] at h
      have hw := ih (Prod.ext h.1 h.2)
      simp [hw]
    · simp at h
    · simp at h

/-- A numeral has no blanks. -/
lemma isBlank_of_scan {rest w : List Char} {p q : Phase}
    (h : scan p (w ++ rest) = (w.length, .ok q)) : ∀ c ∈ w, isBlank c = false := by
  induction w generalizing p with
  | nil => simp
  | cons c w ih =>
    intro d hd
    rw [List.cons_append, scan] at h
    split at h
    · rename_i q' hmove
      simp only [Prod.mk.injEq, List.length_cons, Nat.add_right_cancel_iff] at h
      rcases List.mem_cons.1 hd with rfl | hd
      · refine Bool.eq_false_iff.2 fun hblank => ?_
        rw [move_of_isBlank p hblank] at hmove
        cases hmove
      · exact ih (Prod.ext h.1 h.2) d hd
    · simp at h
    · simp at h

/-- The length and the phase of a numeral that has a value. -/
lemma scan_of_read {text : List Char} {n : Nat} {value : Float}
    (h : read text = (n, .ok value)) : ∃ q, scan .whole text = (n, .ok q) := by
  have hsize := size_read text
  rw [h] at hsize
  cases hs : (scan .whole text).2 with
  | error fault => simp [read, hs] at h
  | ok q => exact ⟨q, Prod.ext hsize.symm hs⟩

/-- A numeral is read in the same way in front of another text. -/
lemma read_append {rest rest' : List Char} (hcut : Cut rest rest') {w : List Char} {value : Float}
    (h : read (w ++ rest) = (w.length, .ok value)) : read (w ++ rest') = (w.length, .ok value) := by
  obtain ⟨q, hscan⟩ := scan_of_read h
  have hscan' := scan_append hcut hscan
  rw [read, hscan] at h
  rw [read, hscan']
  simpa using h

end Numeral

lemma takeWhile_eq_nil {p : Char → Bool} {text : List Char} :
    text.takeWhile p = [] ↔ ∀ c ∈ text.head?, p c = false := by
  cases text with
  | nil => simp
  | cons c text =>
    rw [List.takeWhile_cons]
    cases hc : p c <;> simp [hc]

/-- A run of characters ends in the same way in front of another text. -/
lemma takeWhile_append_of_cut {p : Char → Bool} (hp : ∀ b, isBlank b = true → p b = false)
    {rest rest' : List Char} (hcut : Cut rest rest') {w : List Char}
    (h : (w ++ rest).takeWhile p = w) : (w ++ rest').takeWhile p = w := by
  have hw : ∀ c ∈ w, p c = true := fun c hc => List.mem_takeWhile_imp (h ▸ hc)
  rw [List.takeWhile_append_of_pos hw] at h ⊢
  have hrest : rest.takeWhile p = [] := List.append_right_eq_self.1 h
  have hrest' := hcut.head (takeWhile_eq_nil.1 hrest) hp
  rw [takeWhile_eq_nil.2 hrest', List.append_nil]

/-- A run of characters as long as a text in front is that text. -/
lemma takeWhile_append_of_length {p : Char → Bool} {w rest : List Char}
    (h : ((w ++ rest).takeWhile p).length = w.length) : (w ++ rest).takeWhile p = w := by
  have hpre := List.prefix_of_prefix_length_le (List.takeWhile_prefix p)
    (List.prefix_append w rest) h.le
  exact hpre.eq_of_length h

lemma isNamePart_of_isBlank {b : Char} (h : isBlank b = true) : isNamePart b = false := by
  rcases isBlank_iff.1 h with rfl | rfl | rfl | rfl <;> decide

namespace Symbol

/-- A symbol is read unless it is the beginning of a longer one. -/
lemma first?_spelling_append (s : Symbol) {rest : List Char}
    (h : ∀ c ∈ rest.head?, s.spelling = ['*'] ∨ s.spelling = ['/'] → s.spelling ≠ [c]) :
    first? (s.spelling ++ rest) = some s := by
  cases rest with
  | nil => cases s <;> rfl
  | cons c rest =>
    have hc := h c rfl
    cases s with
    | star =>
      have hne : ¬ '*' = c := fun hc' => hc (.inl rfl) (by rw [← hc']; rfl)
      simp [first?, all, spelling, List.isPrefixOf, hne]
    | slash =>
      have hne : ¬ '/' = c := fun hc' => hc (.inr rfl) (by rw [← hc']; rfl)
      simp [first?, all, spelling, List.isPrefixOf, hne]
    | _ => rfl

/-- A symbol is read in the same way in front of another text. -/
lemma first?_append {s : Symbol} {w rest rest' : List Char} (hcut : Cut rest rest')
    (h : first? (w ++ rest) = some s) (hsize : s.spelling.length = w.length) :
    first? (w ++ rest') = some s ∧ w = s.spelling := by
  obtain ⟨r, hr⟩ := spelling_prefix h
  obtain ⟨rfl, rfl⟩ := List.append_inj hr hsize
  refine ⟨first?_spelling_append s (hcut.head (fun c hc hs heq => ?_) fun b hb hs heq => ?_), rfl⟩
  · obtain ⟨r, rfl⟩ := List.head?_eq_some_iff.1 hc
    rw [heq] at hs h
    rcases hs with hs | hs
    · cases hs
      have hs : s = .doubleStar := (Option.some.inj h).symm
      rw [hs] at heq
      cases heq
    · cases hs
      have hs : s = .doubleSlash := (Option.some.inj h).symm
      rw [hs] at heq
      cases heq
  · rw [heq] at hs
    rcases hs with hs | hs <;> cases hs <;> cases hb

/-- The first character of a symbol is a symbol. -/
lemma exists_spelling_eq_take (s : Symbol) : ∃ s' ∈ all, s'.spelling = s.spelling.take 1 := by
  cases s <;> decide

/-- A character that begins no symbol begins none in front of another text. -/
lemma first?_eq_none {c : Char} {rest rest' : List Char} (h : first? (c :: rest) = none) :
    first? (c :: rest') = none := by
  refine List.find?_eq_none.2 fun s _ hs => ?_
  obtain ⟨r, hr⟩ := List.isPrefixOf_iff_prefix.1 hs
  obtain ⟨s', hmem, hs'⟩ := exists_spelling_eq_take s
  have hpos := s.length_spelling_pos
  have htake : s.spelling.take 1 = [c] := by
    have hfirst : (s.spelling ++ r).take 1 = s.spelling.take 1 := List.take_append_of_le_length hpos
    rw [← hfirst, hr]
    rfl
  refine List.find?_eq_none.1 h s' hmem ?_
  rw [hs', htake]
  exact List.isPrefixOf_iff_prefix.2 ⟨rest, rfl⟩

end Symbol

namespace Lexeme

/-- A numeral without a fault has a value. -/
lemma numeral_eq_iff {text : List Char} {n : Nat} {kind : Token.Kind} :
    numeral text = ⟨n, .ok kind⟩ ↔
      ∃ value, Numeral.read text = (n, .ok value) ∧ kind = .number value := by
  unfold numeral
  obtain ⟨m, fault | value⟩ := Numeral.read text
  · simp [Except.map]
  · constructor
    · intro h
      cases h
      exact ⟨value, rfl, rfl⟩
    · rintro ⟨_, h, rfl⟩
      cases h
      rfl

/-- **A lexeme is read in the same way** in front of another text. -/
lemma first_append {c : Char} {cs rest rest' : List Char} {kind : Token.Kind}
    (hcut : Cut rest rest') (h : first c (cs ++ rest) = ⟨cs.length + 1, .ok kind⟩) :
    first c (cs ++ rest') = ⟨cs.length + 1, .ok kind⟩ := by
  unfold first at h ⊢
  split at h
  · rename_i hnum
    rw [if_pos hnum, ← List.cons_append]
    obtain ⟨value, hvalue, rfl⟩ := numeral_eq_iff.1 h
    exact numeral_eq_iff.2 ⟨value, Numeral.read_append (w := c :: cs) hcut hvalue, rfl⟩
  · rename_i hnum
    rw [if_neg hnum]
    split at h
    · rename_i hname
      rw [if_pos hname, word, ← List.cons_append]
      rw [word, ← List.cons_append] at h
      have hsize : ((c :: cs ++ rest).takeWhile isNamePart).length = (c :: cs).length :=
        (Lexeme.mk.inj h).1
      have hword := takeWhile_append_of_length hsize
      have hword' := takeWhile_append_of_cut (fun b => isNamePart_of_isBlank) hcut hword
      rw [hword] at h
      rw [hword']
      exact h
    · rename_i hname
      rw [if_neg hname]
      split at h
      · rename_i s hs
        obtain ⟨hsize, hout⟩ := Lexeme.mk.inj h
        rw [← List.cons_append] at hs ⊢
        rw [(Symbol.first?_append hcut hs hsize).1]
        exact h
      · rename_i hs
        rw [Symbol.first?_eq_none hs]
        exact h

/-- A lexeme has no blanks. -/
lemma isBlank_of_first {c : Char} {cs rest : List Char} {kind : Token.Kind}
    (hc : isBlank c = false) (h : first c (cs ++ rest) = ⟨cs.length + 1, .ok kind⟩) :
    ∀ d ∈ c :: cs, isBlank d = false := by
  unfold first at h
  split at h
  · obtain ⟨value, hvalue, _⟩ := numeral_eq_iff.1 h
    obtain ⟨q, hscan⟩ := Numeral.scan_of_read hvalue
    exact Numeral.isBlank_of_scan (w := c :: cs) hscan
  · split at h
    · rw [word, ← List.cons_append] at h
      have hsize : ((c :: cs ++ rest).takeWhile isNamePart).length = (c :: cs).length :=
        (Lexeme.mk.inj h).1
      have hword := takeWhile_append_of_length hsize
      intro d hd
      have hpart : isNamePart d = true := List.mem_takeWhile_imp (hword ▸ hd)
      refine Bool.eq_false_iff.2 fun hblank => ?_
      rw [isNamePart_of_isBlank hblank] at hpart
      cases hpart
    · split at h
      · rename_i s hs
        obtain ⟨hsize, _⟩ := Lexeme.mk.inj h
        rw [← List.cons_append] at hs
        have hcut : Cut rest rest := .inl rfl
        have hspelling := (Symbol.first?_append hcut hs hsize).2
        rw [hspelling]
        cases s <;> simp [Symbol.spelling, isBlank]
      · obtain ⟨hsize, _⟩ := Lexeme.mk.inj h
        have hcs : cs = [] := List.length_eq_zero_iff.1 (by omega)
        simpa [hcs] using hc

end Lexeme

/-! ### Layout -/

/-- Whether layout goes on in a comment behind a character, if it goes on at
all. -/
def layoutStep (inComment : Bool) (c : Char) : Option Bool :=
  if c == '\n' || c == '\r' then some false
  else if inComment || c == commentMark then some true
  else if isBlank c then some false
  else none

lemma layout_cons (inComment : Bool) (c : Char) (rest : List Char) :
    layout inComment (c :: rest) =
      (layoutStep inComment c).elim 0 fun inComment' => layout inComment' rest + 1 := by
  rw [layout]
  unfold layoutStep
  split
  · rfl
  · split
    · rfl
    · split <;> rfl

/-- Layout ends in front of a character, whatever comes behind it. -/
lemma layout_append {l rest : List Char} {c : Char} {inComment : Bool} (rest' : List Char)
    (h : layout inComment (l ++ c :: rest) = l.length) :
    layout inComment (l ++ c :: rest') = l.length := by
  induction l generalizing inComment with
  | nil =>
    rw [List.nil_append, layout_cons] at h ⊢
    cases hstep : layoutStep inComment c with
    | none => rfl
    | some inComment' =>
      rw [hstep] at h
      cases h
  | cons d l ih =>
    rw [List.cons_append, layout_cons] at h ⊢
    cases hstep : layoutStep inComment d with
    | none =>
      rw [hstep] at h
      cases h
    | some inComment' =>
      rw [hstep] at h
      exact congrArg Nat.succ (ih (Nat.succ.inj h))

/-- A line break goes on with layout, also in a comment. -/
lemma layout_append_break {l rest : List Char} {inComment : Bool} (rest' : List Char)
    (h : layout inComment (l ++ rest) = l.length) :
    layout inComment (l ++ '\n' :: rest') = layout false rest' + (l.length + 1) := by
  induction l generalizing inComment with
  | nil =>
    rw [List.nil_append, layout_cons]
    rfl
  | cons d l ih =>
    rw [List.cons_append, layout_cons] at h ⊢
    cases hstep : layoutStep inComment d with
    | none =>
      rw [hstep] at h
      cases h
    | some inComment' =>
      rw [hstep] at h
      exact congrArg Nat.succ (ih (Nat.succ.inj h))

/-- A character that begins no layout is no blank. -/
lemma isBlank_of_layout {c : Char} {rest : List Char} (h : layout false (c :: rest) = 0) :
    isBlank c = false := by
  refine Bool.eq_false_iff.2 fun hblank => ?_
  rcases isBlank_iff.1 hblank with rfl | rfl | rfl | rfl <;> cases h

/-! ### Places -/

namespace Position

/-- The place behind a text that is followed by `next`. -/
def across (p : Position) : List Char → Option Char → Position
  | [], _ => p
  | c :: cs, next => (p.after c (cs.head?.or next)).across cs next

lemma offset_across (p : Position) (text : List Char) (next : Option Char) :
    (p.across text next).offset = p.offset + String.utf8Len text := by
  induction text generalizing p with
  | nil => rfl
  | cons c cs ih =>
    rw [across, ih, offset_after, String.utf8Len_cons]
    omega

/-- Only a blank can end a line. -/
lemma after_of_not_blank {c : Char} (h : isBlank c = false) (p : Position) (next : Option Char) :
    p.after c next = ⟨p.offset + c.utf8Size, p.line, p.column + 1⟩ := by
  have hline : endsLine c next = false := by
    simp only [isBlank, Bool.or_eq_false_iff] at h
    simp [endsLine, h]
  rw [after, hline]
  rfl

/-- A text without blanks stays on its line, and what follows it does not matter. -/
lemma across_of_not_blank {text : List Char} (h : ∀ c ∈ text, isBlank c = false) (p : Position)
    (next : Option Char) : p.across text next =
      ⟨p.offset + String.utf8Len text, p.line, p.column + text.length⟩ := by
  induction text generalizing p with
  | nil => rfl
  | cons c cs ih =>
    obtain ⟨hc, hcs⟩ := List.forall_mem_cons.1 h
    rw [across, ih hcs, after_of_not_blank hc, String.utf8Len_cons, List.length_cons,
      Nat.add_comm (String.utf8Len cs), Nat.add_assoc, Nat.add_assoc, Nat.add_comm 1]

end Position

namespace Cursor

lemma advanceBy_append (w rest : List Char) (p : Position) :
    advanceBy w.length ⟨w ++ rest, p⟩ = ⟨rest, p.across w rest.head?⟩ := by
  induction w generalizing p with
  | nil => rfl
  | cons c w ih =>
    rw [List.length_cons, advanceBy, List.cons_append, advance, ih, List.head?_append]
    rfl

/-- A token behind layout. -/
lemma scan_eq {l cs rest : List Char} {c : Char} {kind : Token.Kind} (p : Position)
    (hlayout : layout false (l ++ c :: (cs ++ rest)) = l.length)
    (hfirst : Lexeme.first c (cs ++ rest) = ⟨cs.length + 1, .ok kind⟩) :
    (⟨l ++ c :: (cs ++ rest), p⟩ : Cursor).scan =
      .ok ⟨kind, p.across l (some c)⟩
        ⟨rest, (p.across l (some c)).across (c :: cs) rest.head?⟩ := by
  have hskip : skipLayout ⟨l ++ c :: (cs ++ rest), p⟩ =
      ⟨c :: (cs ++ rest), p.across l (some c)⟩ := by
    rw [skipLayout, hlayout, advanceBy_append]
    rfl
  have htake := advanceBy_append (c :: cs) rest (p.across l (some c))
  rw [scan, hskip]
  simp only [hfirst]
  rw [List.length_cons, List.cons_append] at htake
  rw [htake]

/-- The text of a token: layout, then a lexeme. -/
lemma exists_of_scan {cur mid : Cursor} {tok : Token} (h : cur.scan = .ok tok mid)
    (hkind : tok.kind ≠ .endOfInput) :
    ∃ l c cs, cur.rest = l ++ c :: (cs ++ mid.rest) ∧ layout false cur.rest = l.length ∧
      isBlank c = false ∧ Lexeme.first c (cs ++ mid.rest) = ⟨cs.length + 1, .ok tok.kind⟩ := by
  have hskip : cur.skipLayout.rest = cur.rest.drop (layout false cur.rest) := rest_advanceBy _ _
  rw [scan] at h
  simp only at h
  split at h
  · cases h
    exact absurd rfl hkind
  · rename_i c rest hc
    split at h
    · rename_i kind hout
      cases h
      have hle := Lexeme.size_first_le c rest
      obtain ⟨k, hk⟩ := Nat.exists_eq_succ_of_ne_zero (Lexeme.size_first_pos c rest).ne'
      rw [hk, List.length_cons] at hle
      have hfin : (cur.skipLayout.advanceBy (Lexeme.first c rest).size).rest = rest.drop k := by
        rw [rest_advanceBy, hc, hk]
        rfl
      have hlength : (rest.take k).length = k :=
        List.length_take_of_le (Nat.le_of_succ_le_succ hle)
      have hlayout := layout_drop_layout false cur.rest
      rw [← hskip, hc] at hlayout
      refine ⟨cur.rest.take (layout false cur.rest), c, rest.take k, ?_, ?_, ?_, ?_⟩
      · rw [hfin, List.take_append_drop, ← hc, hskip, List.take_append_drop]
      · exact (List.length_take_of_le (layout_le_length false cur.rest)).symm
      · exact isBlank_of_layout hlayout
      · have hfirst : Lexeme.first c rest = ⟨k + 1, .ok kind⟩ :=
          calc
            Lexeme.first c rest = ⟨(Lexeme.first c rest).size, (Lexeme.first c rest).outcome⟩ := rfl
            _ = ⟨k + 1, .ok kind⟩ := by rw [hk, hout]
        rw [hfin, List.take_append_drop, hlength, hfirst]
    · cases h

/-- Where a token stands, and what is behind it. -/
lemma pos_eq_across_of_scan {cur mid : Cursor} {tok : Token} {l cs : List Char} {c : Char}
    (h : cur.scan = .ok tok mid) (hrest : cur.rest = l ++ c :: (cs ++ mid.rest))
    (hlayout : layout false cur.rest = l.length)
    (hfirst : Lexeme.first c (cs ++ mid.rest) = ⟨cs.length + 1, .ok tok.kind⟩) :
    tok.pos = cur.pos.across l (some c) ∧ mid.pos = tok.pos.across (c :: cs) mid.rest.head? := by
  have hscan := scan_eq cur.pos (hrest ▸ hlayout) hfirst
  rw [← hrest] at hscan
  obtain ⟨htok, hmid⟩ := EStateM.Result.ok.inj (h.symm.trans hscan)
  have hpos : tok.pos = cur.pos.across l (some c) := congrArg Token.pos htok
  refine ⟨hpos, ?_⟩
  rw [hpos]
  exact congrArg Cursor.pos hmid

/-- **A token is read in the same way** in front of another text. -/
lemma scan_append {cur mid : Cursor} {tok : Token} (h : cur.scan = .ok tok mid)
    (hkind : tok.kind ≠ .endOfInput) :
    ∃ pre, cur.rest = pre ++ mid.rest ∧
      mid.pos.offset = cur.pos.offset + String.utf8Len pre ∧ ∀ rest', Cut mid.rest rest' →
        (⟨pre ++ rest', cur.pos⟩ : Cursor).scan = .ok tok ⟨rest', mid.pos⟩ := by
  obtain ⟨l, c, cs, hrest, hlayout, hblank, hfirst⟩ := exists_of_scan h hkind
  have hblanks := Lexeme.isBlank_of_first hblank hfirst
  obtain ⟨htok, hmid⟩ := pos_eq_across_of_scan h hrest hlayout hfirst
  rw [hrest] at hlayout
  refine ⟨l ++ c :: cs, by simp [hrest], ?_, fun rest' hcut => ?_⟩
  · rw [hmid, htok, Position.offset_across, Position.offset_across, String.utf8Len_append,
      Nat.add_assoc]
  have hscan := scan_eq cur.pos (layout_append (cs ++ rest') hlayout)
    (Lexeme.first_append hcut hfirst)
  have hpos : mid.pos = tok.pos.across (c :: cs) rest'.head? := by
    rw [hmid, Position.across_of_not_blank hblanks, Position.across_of_not_blank hblanks]
  rw [List.append_assoc, List.cons_append, hscan, hpos, ← htok]

/-- **Tokens are read in the same way** in front of another text. -/
lemma Reads.replace {cur mid : Cursor} {ts : List Token} (h : cur.Reads ts mid) :
    ∃ pre, cur.rest = pre ++ mid.rest ∧
      mid.pos.offset = cur.pos.offset + String.utf8Len pre ∧ ∀ rest', Cut mid.rest rest' →
        (⟨pre ++ rest', cur.pos⟩ : Cursor).Reads ts ⟨rest', mid.pos⟩ := by
  induction h with
  | nil cur => exact ⟨[], rfl, rfl, fun rest' _ => .nil _⟩
  | @cons cur mid fin tok ts hscan hkind _ ih =>
    obtain ⟨pre, hpre, hoffset, hfirst⟩ := scan_append hscan hkind
    obtain ⟨pre', hpre', hoffset', hlater⟩ := ih
    refine ⟨pre ++ pre', by rw [hpre, hpre', List.append_assoc], ?_, fun rest' hcut => ?_⟩
    · rw [hoffset', hoffset, String.utf8Len_append, Nat.add_assoc]
    have hcut' : Cut mid.rest (pre' ++ rest') := by
      rw [hpre']
      exact hcut.append pre'
    rw [List.append_assoc]
    exact .cons (hfirst _ hcut') hkind (hlater rest' hcut)

/-- Layout in front of a line break is skipped with it. -/
lemma scan_break {l rest : List Char} (rest' : List Char) (p : Position)
    (h : layout false (l ++ rest) = l.length) :
    (⟨l ++ '\n' :: rest', p⟩ : Cursor).scan =
      (⟨rest', p.across (l ++ ['\n']) rest'.head?⟩ : Cursor).scan := by
  have hskip : skipLayout ⟨l ++ '\n' :: rest', p⟩ =
      skipLayout ⟨rest', p.across (l ++ ['\n']) rest'.head?⟩ := by
    have hsplit : l ++ '\n' :: rest' = (l ++ ['\n']) ++ rest' := by simp
    have hlength : (l ++ ['\n']).length = l.length + 1 := by simp
    rw [skipLayout, layout_append_break rest' h, Nat.add_comm, advanceBy_add, hsplit, ← hlength,
      advanceBy_append]
    rfl
  rw [scan, scan, hskip]

/-- Where a token begins: behind the layout in front of it. -/
lemma pos_of_scan {cur mid : Cursor} {tok : Token} (h : cur.scan = .ok tok mid) :
    ∃ l rest, cur.rest = l ++ rest ∧ layout false cur.rest = l.length ∧
      tok.pos = cur.pos.across l rest.head? := by
  have hsplit := List.take_append_drop (layout false cur.rest) cur.rest
  have hlength : (cur.rest.take (layout false cur.rest)).length = layout false cur.rest :=
    List.length_take_of_le (layout_le_length false cur.rest)
  refine ⟨_, _, hsplit.symm, hlength.symm, ?_⟩
  have hadvance := advanceBy_append (cur.rest.take (layout false cur.rest))
    (cur.rest.drop (layout false cur.rest)) cur.pos
  rw [hsplit, hlength] at hadvance
  have hpos : tok.pos = cur.skipLayout.pos := by
    rw [scan] at h
    simp only at h
    split at h
    · cases h
      rfl
    · split at h
      · cases h
        rfl
      · cases h
  rw [hpos, skipLayout, hadvance]

end Cursor

end ClosureCalc
