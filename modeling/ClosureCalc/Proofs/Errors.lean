/-
Errors and their places.

A text that is not parsed has an error at one of its tokens, or at a numeral. A text
that is parsed and stops has an error at a node of a program, which is that of the
text itself or that of an earlier one, since functions keep their bodies from unit
to unit.

* `TokenAt`, `NumeralAt`: a place where a token begins, and a place in front of a
  numeral or behind it.
* `numeralAt_of_fails`: where lexical errors are reported.
* `Expr.places_eq`, `Stmt.places_sublist`: the places in a tree are places of its
  tokens.
* `OfSources`: a node of the program of one of some texts; `sourceDiscipline`: all
  functions come from these texts, and so does all that is run.
* `errors_are_placed`: the errors of a session.
-/
import ClosureCalc.Proofs.Culprits
import ClosureCalc.Proofs.Joining
import ClosureCalc.Proofs.Tokenizing

namespace ClosureCalc

/-! ### Tokens and numerals -/

/-- A token of a text begins at a place. -/
def TokenAt (source : String) (p : Position) : Prop :=
  ∃ ts tok mid fin, (Cursor.ofString source).Reads ts mid ∧ mid.scan = .ok tok fin ∧ tok.pos = p

/-- **A place at a numeral.** Behind some tokens and layout, a text goes on with a
numeral `w`, as far as numerals go on, and the place is in front of it or directly
behind it. -/
def NumeralAt (source : String) (p : Position) : Prop :=
  ∃ ts mid front w behind, (Cursor.ofString source).Reads ts mid ∧
    mid.skipLayout.rest = w ++ behind ∧ source.toList = front ++ (w ++ behind) ∧
    (∃ c ∈ w.head?, (c.isDigit || c == '.') = true) ∧
    (Numeral.scan .whole (w ++ behind)).1 = w.length ∧
    (p.Marks front (w ++ behind) ∨ p.Marks (front ++ w) behind)

section Texts

variable {source : String} {p : Position}

lemma TokenAt.rightIn (h : TokenAt source p) : p.RightIn source.toList := by
  obtain ⟨ts, tok, mid, fin, hts, hscan, rfl⟩ := h
  have hscanned := (hts.rests (Cursor.rests_ofString source)).scan
  rw [hscan] at hscanned
  exact hscanned.1

lemma NumeralAt.rightIn (h : NumeralAt source p) : p.RightIn source.toList := by
  obtain ⟨ts, mid, front, w, behind, -, -, hsource, -, -, hmarks | hmarks⟩ := h
  · exact ⟨front, w ++ behind, hsource, hmarks⟩
  · exact ⟨front ++ w, behind, by rw [hsource, List.append_assoc], hmarks⟩

/-- Only numerals have faults. -/
lemma Lexeme.numeral_of_error {c : Char} {rest : List Char} {fault : LexFault}
    (h : (first c rest).outcome = .error fault) :
    (c.isDigit || c == '.') = true ∧
      (first c rest).size = (Numeral.scan .whole (c :: rest)).1 := by
  unfold first at h ⊢
  split at h
  · rename_i hnum
    rw [if_pos hnum]
    exact ⟨hnum, size_numeral _⟩
  · split at h
    · cases h
    · split at h <;> cases h

/-- A cursor at rest marks the place behind the text in front of it. -/
lemma Cursor.Rests.marks {text before : List Char} {cur : Cursor} (h : cur.Rests text)
    (htext : text = before ++ cur.rest) : cur.pos.Marks before cur.rest := by
  obtain ⟨before', hpassed, hwhole⟩ := h
  obtain rfl : before' = before :=
    List.append_cancel_right (hpassed.text.symm.trans htext)
  rw [hpassed.pos]
  exact Position.marks_across hwhole

/-- **Lexical errors are reported at numerals.** -/
lemma numeralAt_of_fails {fault : LexFault}
    (h : (Cursor.ofString source).Fails (.lex fault p)) : NumeralAt source p := by
  obtain ⟨ts, mid, fin, hts, hscan⟩ := h
  obtain ⟨_, hmid, -⟩ := hts.rests (Cursor.rests_ofString source)
  have hbegin := hmid.skipLayout
  rw [Cursor.scan] at hscan
  simp only at hscan
  split at hscan
  · cases hscan
  · rename_i c rest hrest
    split at hscan
    · cases hscan
    · rename_i fault' hout
      cases hscan
      obtain ⟨hnum, hsize⟩ := Lexeme.numeral_of_error hout
      have hblank : isBlank c = false := isBlank_of_layout (hrest ▸ mid.layout_rest_skipLayout)
      obtain ⟨front, hfront, -⟩ := id hbegin
      have hfinish := hfront.lexeme hrest hblank
      have hle := Lexeme.size_first_le c rest
      have hpos := Lexeme.size_first_pos c rest
      have hafter := Cursor.rest_advanceBy (Lexeme.first c rest).size mid.skipLayout
      generalize (Lexeme.first c rest).size = n at *
      have hsplit : (c :: rest).take n ++ (c :: rest).drop n = c :: rest :=
        List.take_append_drop n _
      rw [hrest] at hafter
      have hsource : source.toList = front ++ ((c :: rest).take n ++ (c :: rest).drop n) := by
        rw [hsplit, ← hrest, hfront.text]
      refine ⟨ts, mid, front, (c :: rest).take n, (c :: rest).drop n, hts, ?_, hsource, ?_, ?_, ?_⟩
      · rw [hsplit, hrest]
      · exact ⟨c, by simp [List.head?_take, hpos.ne'], hnum⟩
      · rw [hsplit, List.length_take_of_le hle, hsize]
      · split
        · have hmarks := hbegin.marks hfront.text
          rw [hrest, ← hsplit] at hmarks
          exact .inl hmarks
        · have hmarks := hfinish.marks (by rw [hafter, List.append_assoc]; exact hsource)
          rw [hafter] at hmarks
          exact .inr hmarks

end Texts

/-! ### Places of trees -/

mutual

/-- The places in an expression are those of the tokens that it keeps. -/
lemma Expr.places_eq : ∀ e : Expr, e.places = e.leaves.filterMap Leaf.pos?
  | .number p x => rfl
  | .identifier p name => rfl
  | .unary p op target => by
      have h := target.places_eq
      cases op <;> simp [places, leaves, Leaf.located, Leaf.unlocated, h]
  | .binary p op left right => by
      simp [places, leaves, Leaf.unlocated, left.places_eq, right.places_eq]
  | .call p callee args => by
      simp [places, leaves, callee.places_eq, Expr.placesAll_eq_leaves args]

lemma Expr.placesAll_eq_leaves :
    ∀ es : List Expr, Expr.placesAll es = (Expr.leavesAll es).filterMap Leaf.pos?
  | [] => rfl
  | e :: es => by
      simp [placesAll, leavesAll, e.places_eq, Expr.placesAll_eq_leaves es]

end

mutual

/-- The places in a statement are among those of the tokens that it keeps; a body has
its brace besides. -/
lemma Stmt.places_sublist :
    ∀ st : Stmt, st.Placed → st.places.Sublist (st.leaves.filterMap Leaf.pos?)
  | .var p name none, _ => by
      simp [places, leaves, Leaf.located, Leaf.unlocated, Expr.placesAll]
  | .var p name (some e), _ => by
      simp [places, leaves, Leaf.located, Leaf.unlocated, Expr.placesAll, e.places_eq]
  | .ret p none, _ => by
      simp [places, leaves, Leaf.located, Expr.placesAll]
  | .ret p (some e), _ => by
      simp [places, leaves, Leaf.located, Expr.placesAll, e.places_eq]
  | .func p name params bodyPos body, .func _ _ _ _ hplaced => by
      have hbody := (Stmt.placesAll_sublist body hplaced).cons bodyPos
      simpa [places, leaves, Leaf.located, Leaf.unlocated, List.filterMap_map, Function.comp_def]
        using hbody
  | .block p _ body, .block hpos hplaced => by
      subst hpos
      have hbody := Stmt.placesAll_sublist body hplaced
      simpa [places, leaves, Leaf.located, Leaf.unlocated] using hbody
  | .expr p e, _ => by
      simp [places, leaves, e.places_eq]

lemma Stmt.placesAll_sublist : ∀ sts : List Stmt, (∀ st ∈ sts, st.Placed) →
    (Stmt.placesAll sts).Sublist ((Stmt.leavesAll sts).filterMap Leaf.pos?)
  | [], _ => by simp [placesAll]
  | st :: sts, hplaced => by
      obtain ⟨hst, hsts⟩ := List.forall_mem_cons.1 hplaced
      rw [placesAll, leavesAll, List.filterMap_append]
      exact (st.places_sublist hst).append (Stmt.placesAll_sublist sts hsts)

end

/-- Each leaf is a token. -/
lemma Accounts.exists_token {leaves : List Leaf} {ts : List Token} (h : Accounts leaves ts)
    {leaf : Leaf} (hleaf : leaf ∈ leaves) : ∃ tok ∈ ts, leaf.Fits tok := by
  obtain ⟨i, hi, rfl⟩ := List.mem_iff_getElem.1 hleaf
  obtain ⟨hlength, hfits⟩ := List.forall₂_iff_get.1 h
  have hmem := List.getElem_mem (hlength ▸ hi)
  exact ⟨_, (List.mem_filter.1 hmem).1, hfits i hi (hlength ▸ hi)⟩

/-- Each of the tokens that are read is one that comes next behind others. -/
lemma Cursor.Reads.exists_scan {cur fin : Cursor} {ts : List Token} {tok : Token}
    (h : cur.Reads ts fin) (htok : tok ∈ ts) :
    ∃ us mid mid', cur.Reads us mid ∧ mid.scan = .ok tok mid' := by
  induction h with
  | nil => cases htok
  | @cons cur mid fin tok' ts hscan hkind _ ih =>
    rcases List.mem_cons.1 htok with rfl | htok
    · exact ⟨[], cur, mid, .nil cur, hscan⟩
    · obtain ⟨us, mid', fin', hus, hscan'⟩ := ih htok
      exact ⟨tok' :: us, mid', fin', .cons hscan hkind hus, hscan'⟩

/-- **Nodes begin with tokens.** -/
lemma tokenAt_of_encloses {source : String} {p : Program} (hp : parse source = .ok p)
    {unit : Nat} {ks : List Construct} {node : Node} (h : Encloses unit p ks node) :
    TokenAt source node.pos := by
  obtain ⟨-, ts, eof, mid, fin, hts, -, -, hseq⟩ := sequence_of_parse hp
  have hfst : (Stmt.marksAll unit [] p.body).map Prod.fst = Stmt.placesAll p.body :=
    Stmt.map_fst_marksAll [] p.body
  have hplace : node.pos ∈ Stmt.placesAll p.body := by
    rw [← hfst]
    exact List.mem_map_of_mem (h.marks_subset (h.placed (placed_of_parse hp)).mem_marks)
  have hleaf := (Stmt.placesAll_sublist p.body (placed_of_parse hp)).subset hplace
  obtain ⟨leaf, hmem, hpos⟩ := List.mem_filterMap.1 hleaf
  obtain ⟨tok, htok, hfits⟩ := hseq.accounts.exists_token hmem
  obtain ⟨us, mid', fin', hus, hscan⟩ := hts.exists_scan htok
  exact ⟨us, tok, mid', fin', hus, hscan, (hfits.pos _ hpos).symm⟩

/-! ### Programs of texts -/

/-- **A node of the program of one of some texts.** -/
def OfSources (sources : List String) (node : Node) : Prop :=
  ∃ source ∈ sources, ∃ p, parse source = .ok p ∧ ∃ unit ks, Encloses unit p ks node

section Sources

variable {sources : List String}

lemma OfSources.part {e e' : Expr} (h : OfSources sources (.expr e)) (he : e' ∈ e.parts) :
    OfSources sources (.expr e') :=
  let ⟨source, hmem, p, hp, unit, ks, henc⟩ := h
  ⟨source, hmem, p, hp, unit, ks, henc.part he⟩

lemma OfSources.ofStmt {st : Stmt} {e : Expr} (h : OfSources sources (.stmt st))
    (he : e ∈ st.parts) : OfSources sources (.expr e) :=
  let ⟨source, hmem, p, hp, unit, ks, henc⟩ := h
  ⟨source, hmem, p, hp, unit, ks, henc.ofStmt he⟩

/-- What is in a block or a function belongs to the same program. -/
lemma OfSources.body {st st' : Stmt} (h : OfSources sources (.stmt st))
    (hst : ∀ unit, ∃ k, st.construct? unit = some k ∧ st' ∈ k.body) :
    OfSources sources (.stmt st') := by
  obtain ⟨source, hmem, p, hp, unit, ks, henc⟩ := h
  obtain ⟨k, hk, hbody⟩ := hst unit
  exact ⟨source, hmem, p, hp, unit, k :: ks, henc.inner hk hbody⟩

/-- A function value was declared in one of some texts. -/
def Value.OfSources (sources : List String) (v : Value) : Prop :=
  ∀ decl closure, v = .function decl closure → ∃ bodyPos,
    ClosureCalc.OfSources sources
      (.stmt (.func decl.pos decl.name decl.params bodyPos decl.body))

/-- What holds of the values in all slots holds of them when one is added. -/
lemma Value.OfSources.bind {s : Store} (hs : ∀ i, (s.slot i).OfSources sources) {v : Value}
    (hv : v.OfSources sources) (f : FrameId) (name : String) (i : SlotId) :
    ((s.bind f name v).slot i).OfSources sources := by
  rw [Store.slot_bind]
  split
  · exact hv
  · exact hs i

variable (sources) in
/-- **Where functions come from, as a discipline**: all functions in the store were
declared in the given texts, and so was all that is evaluated or executed. -/
def sourceDiscipline : Discipline where
  Happens _ := True
  Holds s := ∀ i, (s.slot i).OfSources sources
  Admits v _ := v.OfSources sources
  Places _ _ node _ := OfSources sources node

/-- **Single operations keep functions in the given texts.** -/
lemma sound_sourceDiscipline : (sourceDiscipline sources).Sound where
  plain h := fun decl closure hv => absurd hv (h decl closure)
  slot hs := hs
  admits_later _ _ hv := hv
  places_later _ _ h := h
  places_part h he := h.part he
  places_expr h he := h.ofStmt he
  same hs _ hslots i := by
    rw [Store.slot, hslots]
    exact hs i
  leave hs f result i := by
    rw [Store.slot_leave]
    exact hs i
  closure := by
    rintro unit f p name params bodyPos body s h decl closure hv
    cases hv
    exact ⟨bodyPos, h⟩
  declare hs _ _ _ hv := Value.OfSources.bind hs hv _ _
  param _ hs _ _ hv := Value.OfSources.bind hs hv _ _
  enter_block hs h _ := ⟨hs, fun _ hst => h.body fun _ => ⟨_, rfl, hst⟩⟩
  enter_call := by
    intro decl closure s hs hv _
    obtain ⟨bodyPos, h⟩ := hv decl closure rfl
    exact ⟨hs, fun _ hst => h.body fun _ => ⟨_, rfl, hst⟩⟩

/-- The statements of the given texts may be executed. -/
lemma beginsWith_sourceDiscipline {source : String} (hsource : source ∈ sources)
    (root : FrameId) : (sourceDiscipline sources).BeginsWith root source :=
  fun unit p _ hp _ _ _ hst => ⟨source, hsource, p, hp, unit, [], .top hst⟩

end Sources

/-! ### Sessions -/

/-- Where no function was declared yet, all that is run in a session comes from its
texts. -/
lemma Session.Fresh.ofSources {start : Session} (h : start.Fresh) (limit : Nat)
    (sources : List String) {ev : Event} (hev : ev ∈ start.events releaseOnExit limit sources)
    {node : Node} (hnode : ev.node? = some node) : OfSources sources node := by
  have hstart : (sourceDiscipline sources).Holds start.store := fun i decl closure hv =>
    absurd hv (h.no_function i decl closure)
  obtain ⟨hobs, -⟩ := sound_sourceDiscipline.keeps_session_of limit
    (fun _ hsource => beginsWith_sourceDiscipline hsource start.root) hstart fun _ _ => trivial
  have hplace := hobs ev hev
  cases ev with
  | evaluates unit f e s =>
    cases hnode
    exact hplace.2
  | executes unit f st s =>
    cases hnode
    exact hplace.2
  | _ => cases hnode

/-- A unit stops because its text does. -/
lemma Session.interpret_of_step {s : Session} {exit : ExitRule} {limit : Nat} {source : String}
    {stop : Stop} (h : (s.step exit limit source).1 = .error stop) :
    ∃ s', interpret exit limit s.root source s.store = .error stop s' := by
  rw [step] at h
  split at h
  · cases h
  · rename_i stop' s' hrun
    cases h
    exact ⟨s', hrun⟩

/-- What a unit stops with if it is parsed. -/
lemma Session.Fresh.blames {start : Session} (h : start.Fresh) (limit : Nat)
    (before : List String) {source : String} {program : Program} (hp : parse source = .ok program)
    {e : Error} (he : ((start.after releaseOnExit limit before).step releaseOnExit limit source).1 =
      .error (.error e)) :
    e.kind.IsOfRun ∧
      ∃ node, OfSources (before ++ [source]) node ∧ e.pos? = some node.pos := by
  obtain ⟨s', hrun⟩ := Session.interpret_of_step he
  rw [Session.root_after, interpret, hp] at hrun
  obtain ⟨hkind, p, hp' | ⟨ev, hev, node, hnode, rfl⟩, hpos⟩ :=
    blames_runProgram limit start.root program _ e s' hrun
  · exact hp'.elim
  · refine ⟨hkind, node, h.ofSources limit (before ++ [source]) ?_ hnode, hpos⟩
    rw [Session.events_append, List.mem_append]
    refine .inr (List.mem_append_left _ ?_)
    rwa [interpretEvents, hp, Session.root_after]

/-- **Errors are of the right phase, and have a place in a source text.** In a session
where no function was declared before, let some units be run, and then one more. If
it is not parsed, its error is lexical, at a numeral, or one of parsing, at the
beginning of a token, both in the text of this unit, and nothing is changed. If it is
parsed and stops with an error, this is about a name, a number of arguments or a
value, and it is reported at the place of a node of a program, which is that of this
unit or of one before. So an error of the first unit is reported at a token or a
numeral of its text. -/
theorem errors_are_placed {start : Session} (h : start.Fresh) (limit : Nat)
    (before : List String) (source : String) :
    let session := start.after releaseOnExit limit before
    (∀ e, parse source = .error e →
        session.step releaseOnExit limit source = (.error (.error e), session) ∧
          ∃ p, e.pos? = some p ∧ p.RightIn source.toList ∧
            (e.kind = .lex ∧ NumeralAt source p ∨ e.kind = .parse ∧ TokenAt source p)) ∧
      (∀ program e, parse source = .ok program →
        (session.step releaseOnExit limit source).1 = .error (.error e) →
          e.kind.IsOfRun ∧
            ∃ node, OfSources (before ++ [source]) node ∧ e.pos? = some node.pos) ∧
      (before = [] → ∀ e, (session.step releaseOnExit limit source).1 = .error (.error e) →
        ∃ p, e.pos? = some p ∧ (TokenAt source p ∨ NumeralAt source p)) := by
  intro session
  have hunparsed : ∀ e, parse source = .error e →
      session.step releaseOnExit limit source = (.error (.error e), session) ∧
        ∃ p, e.pos? = some p ∧ p.RightIn source.toList ∧
          (e.kind = .lex ∧ NumeralAt source p ∨ e.kind = .parse ∧ TokenAt source p) := by
    intro e he
    refine ⟨by rw [Session.step, interpret, he]; rfl, ?_⟩
    obtain ⟨fault, p, rfl⟩ | ⟨fault, p, rfl⟩ := parse_error_cases he
    · have hplace := numeralAt_of_fails (fails_of_parse_error he)
      exact ⟨p, rfl, hplace.rightIn, .inl ⟨rfl, hplace⟩⟩
    · obtain ⟨ts, tok, mid, fin, hts, hscan, hpos, -⟩ := blames_of_parse_error he
      have hplace : TokenAt source p := ⟨ts, tok, mid, fin, hts, hscan, hpos⟩
      exact ⟨p, rfl, hplace.rightIn, .inr ⟨rfl, hplace⟩⟩
  refine ⟨hunparsed, fun program e hp he => h.blames limit before hp he, ?_⟩
  rintro rfl e he
  cases hp : parse source with
  | error e' =>
    obtain ⟨hstep, p, hpos, -, hplace⟩ := hunparsed e' hp
    rw [hstep] at he
    cases he
    exact ⟨p, hpos, hplace.symm.imp And.right And.right⟩
  | ok program =>
    obtain ⟨-, node, ⟨text, hmem, q, hq, unit, ks, henc⟩, hpos⟩ := h.blames limit [] hp he
    obtain rfl : text = source := List.mem_singleton.1 hmem
    exact ⟨node.pos, hpos, .inl (tokenAt_of_encloses hq henc)⟩

/-- A numeral without the digits of its exponent, an unknown name in a function that
was declared before, and one in a first unit. -/
theorem errors_are_placed_earlier :
    let start := Session.bare ⟨0⟩
    let before := ["func f(x)\x7breturn y\x7d"]
    let session := start.after releaseOnExit 4 before
    start.Fresh ∧
      (session.step releaseOnExit 4 "f(1e)" =
          (.error (.error (.lex .openExponent ⟨4, 1, 5⟩)), session) ∧
        NumeralAt "f(1e)" ⟨4, 1, 5⟩) ∧
      (∃ node, OfSources (before ++ ["f(f)"]) node ∧ node.pos = ⟨17, 1, 18⟩) ∧
      (TokenAt "# é\ny" ⟨5, 2, 1⟩ ∨ NumeralAt "# é\ny" ⟨5, 2, 1⟩) := by
  intro start before session
  have hfresh : start.Fresh := Session.fresh_bare ⟨0⟩
  have hlex : parse "f(1e)" = .error (.lex .openExponent ⟨4, 1, 5⟩) :=
    parse_of_parseError? (by decide +kernel)
  have hcall : (parse "f(f)").toBool = true := by decide +kernel
  have hstop : (session.step releaseOnExit 4 "f(f)").1 =
      .error (.error (.name (.unknown "y") ⟨17, 1, 18⟩)) :=
    eq_error_of_stopsFor (by decide +kernel)
  have hfirst : (start.step releaseOnExit 4 "# é\ny").1 =
      .error (.error (.name (.unknown "y") ⟨5, 2, 1⟩)) :=
    eq_error_of_stopsFor (by decide +kernel)
  refine ⟨hfresh, ?_, ?_, ?_⟩
  · obtain ⟨hstep, p, hpos, -, hplace⟩ := (errors_are_placed hfresh 4 before "f(1e)").1 _ hlex
    cases hpos
    exact ⟨hstep, hplace.elim And.right fun hparse => nomatch hparse.1⟩
  · cases hp : parse "f(f)" with
    | error e =>
      rw [hp] at hcall
      cases hcall
    | ok program =>
      obtain ⟨-, node, hnode, hpos⟩ :=
        (errors_are_placed hfresh 4 before "f(f)").2.1 program _ hp hstop
      exact ⟨node, hnode, (Option.some.inj hpos).symm⟩
  · obtain ⟨p, hpos, hplace⟩ := (errors_are_placed hfresh 4 [] "# é\ny").2.2 rfl _ hfirst
    cases hpos
    exact hplace

end ClosureCalc
