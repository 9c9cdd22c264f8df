/-
Layout.

Blanks, comments and line breaks separate tokens, and a line break ends a `return`.
In all else they do not matter: texts with the same tokens, in which the same
`return`s end with their line, are parsed alike and answer the same.

* `SameIndex`: places of tokens with the same number in two lists.
* `BreaksAlike`: behind a `return` the line ends in both lists of tokens, or in
  neither.
* `Cursor.inStep_of_tokens`: texts with such tokens are in step.
* `layout_is_immaterial`: they are parsed alike and answer the same.
-/
import ClosureCalc.Proofs.InStep

namespace ClosureCalc

/-- The places of tokens that have the same number in two lists. -/
def SameIndex (ts ts' : List Token) (p p' : Position) : Prop :=
  ∃ (i : Nat) (tok tok' : Token),
    ts[i]? = some tok ∧ ts'[i]? = some tok' ∧ p = tok.pos ∧ p' = tok'.pos

/-- **Lines end alike behind a `return`**: the token behind it is on its line in both
lists, or in neither. -/
def BreaksAlike (ts ts' : List Token) : Prop :=
  ∀ i tok tok' next next', ts[i]? = some tok → ts'[i]? = some tok' → tok.kind = .keyword .ret →
    ts[i + 1]? = some next → ts'[i + 1]? = some next' →
      (next.pos.line = tok.pos.line ↔ next'.pos.line = tok'.pos.line)

section Lists

variable {tok tok' : Token} {ts ts' : List Token} {p p' : Position}

lemma sameIndex_head : SameIndex (tok :: ts) (tok' :: ts') tok.pos tok'.pos :=
  ⟨0, tok, tok', rfl, rfl, rfl, rfl⟩

lemma SameIndex.cons (h : SameIndex ts ts' p p') : SameIndex (tok :: ts) (tok' :: ts') p p' := by
  obtain ⟨i, t, t', ht, ht', hp, hp'⟩ := h
  exact ⟨i + 1, t, t', ht, ht', hp, hp'⟩

lemma BreaksAlike.tail (h : BreaksAlike (tok :: ts) (tok' :: ts')) : BreaksAlike ts ts' :=
  fun i => h (i + 1)

end Lists

namespace Cursor

variable {cur cur' : Cursor} {ts ts' : List Token} {m m' : Nat}

/-- The first token of a text and those behind it. -/
lemma tokens_eq_ok (h : cur.tokens m = .ok ts) :
    ∃ tok mid, cur.scan = .ok tok mid ∧
      (tok.kind = .endOfInput ∧ ts = [tok] ∨
        ∃ n us, tok.kind ≠ .endOfInput ∧ mid.tokens n = .ok us ∧ ts = tok :: us) := by
  cases m with
  | zero => cases h
  | succ n =>
    rw [tokens] at h
    rcases hscan : cur.scan with ⟨tok, mid⟩ | ⟨e, mid⟩
    · simp only [hscan] at h
      refine ⟨tok, mid, rfl, ?_⟩
      split at h
      · rename_i hkind
        cases h
        exact .inl ⟨hkind, rfl⟩
      · rename_i hkind
        rcases hus : mid.tokens n with e | us
        · rw [hus] at h
          cases h
        · rw [hus] at h
          cases h
          exact .inr ⟨n, us, hkind, hus, rfl⟩
    · simp only [hscan] at h
      cases h

/-- The first of the tokens is the one that comes next. -/
lemma head_tokens (h : cur.tokens m = .ok ts) {tok : Token} {mid : Cursor}
    (hscan : cur.scan = .ok tok mid) : ts[0]? = some tok := by
  obtain ⟨tok', mid', hscan', ⟨-, rfl⟩ | ⟨n, us, -, -, rfl⟩⟩ := tokens_eq_ok h
  · rw [hscan] at hscan'
    cases hscan'
    rfl
  · rw [hscan] at hscan'
    cases hscan'
    rfl

/-- **Texts with tokens of the same kinds are in step** if lines end alike behind each
`return`. -/
lemma inStep_of_tokens {P : Position → Position → Prop} (h : cur.tokens m = .ok ts)
    (h' : cur'.tokens m' = .ok ts') (hkinds : ts'.map (·.kind) = ts.map (·.kind))
    (hP : ∀ p p', SameIndex ts ts' p p' → P p p') (hbreaks : BreaksAlike ts ts') :
    ∃ n, cur.InStep P n cur' := by
  induction ts generalizing cur cur' m m' ts' with
  | nil =>
    obtain ⟨tok, mid, -, ⟨-, hts⟩ | ⟨n, us, -, -, hts⟩⟩ := tokens_eq_ok h
    · cases hts
    · cases hts
  | cons tok ts ih =>
    obtain ⟨tok', mid', hscan', hrest'⟩ := tokens_eq_ok h'
    obtain ⟨_, mid, hscan, ⟨hkind, hts⟩ | ⟨n, us, hkind, hus, hts⟩⟩ := tokens_eq_ok h
    · cases hts
      obtain ⟨hkind', rfl⟩ | ⟨n, us, hkind', -, rfl⟩ := hrest'
      · exact ⟨0, .last hscan hscan' hkind hkind' (hP _ _ sameIndex_head)⟩
      · exact absurd ((List.cons.inj hkinds).1.trans hkind) hkind'
    · cases hts
      obtain ⟨hkind', rfl⟩ | ⟨n', us', hkind', hus', rfl⟩ := hrest'
      · exact absurd ((List.cons.inj hkinds).1.symm.trans hkind') hkind
      · obtain ⟨hhead, htail⟩ := List.cons.inj hkinds
        obtain ⟨k, hk⟩ := ih hus hus' htail (fun p p' hp => hP p p' hp.cons) hbreaks.tail
        refine ⟨k + 1, .token hscan hscan' hhead hkind (hP _ _ sameIndex_head) ?_ hk⟩
        intro hret next next' fin fin' hnext hnext'
        exact hbreaks 0 tok tok' next next' rfl rfl hret (head_tokens hus hnext)
          (head_tokens hus' hnext')

end Cursor

/-- **Layout does not matter** except behind a `return`. Let two texts have tokens of
the same kinds, where behind each `return` the line ends in both or in neither. Then
they are parsed to trees that are the same but for their places, or up to the same
fault at tokens with the same number. Run in the same scope, both come to the same
value, a declared function being the same but for its places, and declare the same
names, or stop with errors of the same kind and the same message, or at the limit on
nested calls. -/
theorem layout_is_immaterial {source source' : String} {ts ts' : List Token}
    (h : tokenize source = .ok ts) (h' : tokenize source' = .ok ts')
    (hkinds : ts'.map (·.kind) = ts.map (·.kind)) (hbreaks : BreaksAlike ts ts') :
    SameParse (SameIndex ts ts') (parse source) (parse source') ∧
      ∀ s : Store, s.WellFormed → ∀ root < s.frames.size, ∀ limit,
        SameAnswer (fun p p' => p' = p ∨ SameIndex ts ts' p p')
          (interpret releaseOnExit limit root source s)
          (interpret releaseOnExit limit root source' s) := by
  obtain ⟨n, hstep⟩ := Cursor.inStep_of_tokens h h' hkinds (fun _ _ hp => hp) hbreaks
  refine ⟨hstep.parse, fun s hs root hroot limit => ?_⟩
  have hself := hs.mirrors_self (P := fun p p' => p' = p ∨ SameIndex ts ts' p p') fun _ => .inl rfl
  exact hstep.parse.sameAnswer (fun _ _ hp => .inr hp) hself (Renaming.mem_below.2 ⟨rfl, hroot⟩)
    limit

/-- A declaration and a `return` without a value, on several lines and with
comments. -/
theorem layout_is_immaterial_return :
    let ts : List Token := [⟨.keyword .var, ⟨0, 1, 1⟩⟩, ⟨.identifier "x", ⟨4, 1, 5⟩⟩,
      ⟨.keyword .ret, ⟨6, 1, 7⟩⟩, ⟨.identifier "x", ⟨13, 2, 1⟩⟩, ⟨.endOfInput, ⟨14, 2, 2⟩⟩]
    let ts' : List Token := [⟨.keyword .var, ⟨0, 1, 1⟩⟩, ⟨.identifier "x", ⟨4, 2, 1⟩⟩,
      ⟨.keyword .ret, ⟨6, 2, 3⟩⟩, ⟨.identifier "x", ⟨18, 4, 2⟩⟩, ⟨.endOfInput, ⟨19, 4, 3⟩⟩]
    let s := Session.standard ⟨0⟩
    tokenize "var x return\nx" = .ok ts ∧ tokenize "var\nx return #c\r\r\tx" = .ok ts' ∧
      ts'.map (·.kind) = ts.map (·.kind) ∧ BreaksAlike ts ts' ∧ s.store.WellFormed ∧
      s.root < s.store.frames.size ∧
      SameParse (SameIndex ts ts') (parse "var x return\nx") (parse "var\nx return #c\r\r\tx") ∧
      SameAnswer (fun p p' => p' = p ∨ SameIndex ts ts' p p')
        (interpret releaseOnExit 10 s.root "var x return\nx" s.store)
        (interpret releaseOnExit 10 s.root "var\nx return #c\r\r\tx" s.store) := by
  intro ts ts' s
  have h : tokenize "var x return\nx" = .ok ts := by decide +kernel
  have h' : tokenize "var\nx return #c\r\r\tx" = .ok ts' := by decide +kernel
  have hkinds : ts'.map (·.kind) = ts.map (·.kind) := rfl
  have hbreaks : BreaksAlike ts ts' := by
    intro i tok tok' next next' htok htok' hret hnext hnext'
    rcases i with _ | _ | _ | _ | _ | i
    · cases htok
      cases hret
    · cases htok
      cases hret
    · cases htok
      cases htok'
      cases hnext
      cases hnext'
      decide
    · cases htok
      cases hret
    · cases htok
      cases hret
    · cases htok
  have hs := Session.wellFormed_standard ⟨0⟩
  obtain ⟨hparse, hrun⟩ := layout_is_immaterial h h' hkinds hbreaks
  exact ⟨h, h', hkinds, hbreaks, hs.store, hs.root_lt, hparse, hrun _ hs.store _ hs.root_lt 10⟩

end ClosureCalc
