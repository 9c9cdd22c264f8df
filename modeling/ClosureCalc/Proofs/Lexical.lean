/-
Lexical scoping.

During a run the frames around the current one are those of the constructs
around what is evaluated, followed by the root frame and what is around it.

* `NestedIn`: the frames around a frame up to the root belong to the given
  constructs, one each.
* `Lexical`: the invariant of the store. Every function value was declared
  in a frame nested in the constructs around its declaration, and every name
  of a frame is declared by the construct that the frame belongs to.
* `lexicalDiscipline`: what is evaluated or executed runs in a frame nested in
  the constructs around it.
* `evaluate_identifier_eq_ok_iff`: a name is answered with the content of its slot.
* `scoping_is_lexical`: every session observes this discipline, and so names are
  found in the frames of the constructs around them.
-/
import ClosureCalc.Proofs.Constructs
import ClosureCalc.Proofs.WellFormed
import Mathlib.Data.List.Forall2

namespace ClosureCalc

/-! ### Frames nested like constructs -/

/-- A program that was read from a text begins as the given unit. -/
def Began (T : List Event) (unit : Nat) (p : Program) : Prop :=
  (∃ source, parse source = .ok p) ∧ ∃ s, .begins unit p s ∈ T

/-- A frame is entered for a construct. -/
def Entered (T : List Event) (g : FrameId) (k : Construct) : Prop :=
  ∃ s, .enters g k s ∈ T

/-- The constructs around a node of the program that runs as the given unit. -/
def Around (T : List Event) (unit : Nat) (ks : List Construct) (node : Node) : Prop :=
  ∃ p, Began T unit p ∧ Encloses unit p ks node

/-- **Frames nested like constructs**: around the frame, itself included, there
is one frame for each construct, innermost first, then the root and what is
around it. -/
structure NestedIn (T : List Event) (root : FrameId) (s : Store) (f : FrameId)
    (ks : List Construct) : Prop where
  lt : f < s.frames.size
  chain : ∃ gs, s.chain f = gs ++ s.chain root ∧ List.Forall₂ (Entered T) gs ks

/-- A part of an expression has the same constructs around it. -/
lemma Around.part {T : List Event} {unit : Nat} {ks : List Construct} {e e' : Expr}
    (h : Around T unit ks (.expr e)) (he : e' ∈ e.parts) : Around T unit ks (.expr e') :=
  let ⟨p, hp, henc⟩ := h
  ⟨p, hp, henc.part he⟩

lemma Around.ofStmt {T : List Event} {unit : Nat} {ks : List Construct} {st : Stmt}
    {e : Expr} (h : Around T unit ks (.stmt st)) (he : e ∈ st.parts) :
    Around T unit ks (.expr e) :=
  let ⟨p, hp, henc⟩ := h
  ⟨p, hp, henc.ofStmt he⟩

lemma Around.inner {T : List Event} {unit : Nat} {ks : List Construct} {k : Construct}
    {st st' : Stmt} (h : Around T unit ks (.stmt st)) (hk : st.construct? unit = some k)
    (hst : st' ∈ k.body) : Around T unit (k :: ks) (.stmt st') :=
  let ⟨p, hp, henc⟩ := h
  ⟨p, hp, henc.inner hk hst⟩

section Invariant

variable (T : List Event) (root : FrameId)

/-- A function value was declared in a frame nested in the constructs around
its declaration. -/
def Value.InScope (v : Value) (s : Store) : Prop :=
  ∀ decl closure, v = .function decl closure →
    ∃ ks bodyPos,
      Around T decl.unit ks (.stmt (.func decl.pos decl.name decl.params bodyPos decl.body)) ∧
        NestedIn T root s closure ks

/-- **The invariant of lexical scoping**: function values are in scope where
they were declared, and frames have only names that their constructs
declare. -/
structure Lexical (s : Store) : Prop where
  root_lt : root < s.frames.size
  slots : ∀ i, (s.slot i).InScope T root s
  names : ∀ g : Nat, g < s.frames.size → ∀ k, Entered T g k →
    ∀ name ∈ s.names g, k.Declares name

variable {T root} {s s' : Store} {f : FrameId} {ks : List Construct} {v : Value}

lemma NestedIn.later (h : NestedIn T root s f ks) (hroot : root < s.frames.size)
    (hs : s.Later s') : NestedIn T root s' f ks := by
  obtain ⟨gs, hchain, hgs⟩ := h.chain
  refine ⟨h.lt.trans_le hs.frames_le, gs, ?_, hgs⟩
  calc s'.chain f = s.chain f := hs.chain_eq f h.lt
    _ = gs ++ s.chain root := hchain
    _ = gs ++ s'.chain root := by rw [hs.chain_eq root hroot]

lemma nestedIn_root (hroot : root < s.frames.size) : NestedIn T root s root [] :=
  ⟨hroot, [], rfl, .nil⟩

/-- A new frame is nested in one construct more. -/
lemma NestedIn.extend (h : NestedIn T root s f ks) (hroot : root < s.frames.size)
    {k : Construct} (hk : Entered T s.frames.size k) :
    NestedIn T root (s.extend f).2 s.frames.size (k :: ks) := by
  obtain ⟨gs, hchain, hgs⟩ := h.chain
  have hsame := (s.extends_extend ∅ f).chain_eq hroot
  refine ⟨by simp, s.frames.size :: gs, ?_, .cons hk hgs⟩
  calc (s.extend f).2.chain s.frames.size = s.frames.size :: s.chain f := by
        rw [Store.chain, Store.frame_extend, if_pos rfl]
    _ = s.frames.size :: (gs ++ s.chain root) := by rw [hchain]
    _ = s.frames.size :: gs ++ (s.extend f).2.chain root := by rw [hsame, List.cons_append]

lemma Value.InScope.later (h : v.InScope T root s) (hroot : root < s.frames.size)
    (hs : s.Later s') : v.InScope T root s' := by
  intro decl closure hv
  obtain ⟨ks, bodyPos, haround, hnested⟩ := h decl closure hv
  exact ⟨ks, bodyPos, haround, hnested.later hroot hs⟩

/-- A value that is no declared function is in scope everywhere. -/
lemma inScope_of_ne (h : ∀ decl closure, v ≠ .function decl closure) :
    v.InScope T root s :=
  fun decl closure hv => absurd hv (h decl closure)

namespace Lexical

lemma extend (h : Lexical T root s) (f : FrameId) : Lexical T root (s.extend f).2 := by
  have hs := (s.extends_extend ∅ f).later
  refine ⟨h.root_lt.trans_le hs.frames_le, fun i => (h.slots i).later h.root_lt hs, ?_⟩
  intro g hg k hk name hname
  rw [Store.names, Store.frame_extend] at hname
  split at hname
  · simp at hname
  · rename_i hne
    rw [Store.size_frames_extend] at hg
    exact h.names g (lt_of_le_of_ne (Nat.lt_succ_iff.1 hg) hne) k hk name hname

lemma leave (h : Lexical T root s) (f : FrameId) (result : Option Value) :
    Lexical T root (s.leave f result) := by
  have hs := s.later_leave f result
  refine ⟨h.root_lt.trans_le hs.frames_le, fun i => ?_, fun g hg k hk name hname => ?_⟩
  · rw [Store.slot_leave]
    exact (h.slots i).later h.root_lt hs
  · rw [Store.size_frames_leave] at hg
    refine h.names g hg k hk name ?_
    -- a frame that is left has the names it had, or none
    rw [Store.leave] at hname
    split at hname
    · exact hname
    · rw [Store.names, Store.frame_release] at hname
      split at hname
      · simp at hname
      · exact hname

lemma bind (h : Lexical T root s) (hv : v.InScope T root s) {f : FrameId} {name : String}
    (hf : ∀ k, Entered T f k → k.Declares name) : Lexical T root (s.bind f name v) := by
  have hs := (s.extends_bind (Set.mem_singleton f) name v).later
  refine ⟨h.root_lt.trans_le hs.frames_le, fun i => ?_, fun g hg k hk other hother => ?_⟩
  · rw [Store.slot_bind]
    split
    · exact hv.later h.root_lt hs
    · exact (h.slots i).later h.root_lt hs
  · rw [Store.size_frames_bind] at hg
    rw [Store.names, Store.frame_bind] at hother
    split at hother
    · rename_i hgf
      rw [List.map_append, List.mem_append] at hother
      rcases hother with hother | hother
      · exact h.names g hg k hk other (by rw [hgf.1]; exact hother)
      · rw [List.map_singleton, List.mem_singleton] at hother
        rw [hother]
        exact hf k (hgf.1 ▸ hk)
    · exact h.names g hg k hk other hother

/-- The invariant speaks of frames and slots only. -/
lemma of_eq (h : Lexical T root s) (hframes : s'.frames = s.frames)
    (hslots : s'.slots = s.slots) : Lexical T root s' := by
  obtain ⟨frames, slots, units, generator⟩ := s'
  cases hframes
  cases hslots
  have hs : s.Later ⟨s.frames, s.slots, units, generator⟩ :=
    ⟨Nat.le_refl _, fun _ _ => rfl⟩
  exact ⟨h.root_lt, fun i => (h.slots i).later h.root_lt hs, h.names⟩

end Lexical

/-- A frame between the current one and the root belongs to one of the
constructs. -/
lemma exists_of_forall₂ {gs : List FrameId} (h : List.Forall₂ (Entered T) gs ks) {g : FrameId}
    (hg : g ∈ gs) : ∃ k ∈ ks, Entered T g k := by
  induction h with
  | nil => simp at hg
  | cons hk _ ih =>
    rcases List.mem_cons.1 hg with rfl | hg
    · exact ⟨_, by simp, hk⟩
    · obtain ⟨k, hmem, hgk⟩ := ih hg
      exact ⟨k, by simp [hmem], hgk⟩

/-- No frame is entered twice, nor the root at all, and no unit begins twice. -/
structure Once (T : List Event) (root : FrameId) : Prop where
  entered : ∀ g k k', Entered T g k → Entered T g k' → k = k'
  root : ∀ k, ¬ Entered T root k
  began : ∀ unit p p', Began T unit p → Began T unit p' → p = p'

/-- The constructs around a node are determined. -/
lemma Once.around_unique (hT : Once T root) {unit : Nat} {ks' : List Construct} {node : Node}
    (h : Around T unit ks node) (h' : Around T unit ks' node) : ks' = ks := by
  obtain ⟨p, hp, henc⟩ := h
  obtain ⟨p', hp', henc'⟩ := h'
  obtain rfl := hT.began unit p p' hp hp'
  obtain ⟨source, hsource⟩ := hp.1
  exact henc'.unique hsource henc

/-- The frame itself belongs to the innermost construct. -/
lemma NestedIn.entered {k : Construct} (h : NestedIn T root s f (k :: ks)) : Entered T f k := by
  obtain ⟨gs, hchain, hgs⟩ := h.chain
  cases hgs with
  | cons hk _ =>
    rw [Store.chain, List.cons_append] at hchain
    rwa [(List.cons.inj hchain).1]

lemma NestedIn.eq_root (h : NestedIn T root s f []) : f = root := by
  obtain ⟨gs, hchain, hgs⟩ := h.chain
  cases hgs
  exact (List.cons.inj hchain).1

/-- What a statement declares is declared by the construct that its frame
belongs to. -/
lemma NestedIn.declares (h : NestedIn T root s f ks) (hT : Once T root) {unit : Nat}
    {st : Stmt} (hst : Around T unit ks (.stmt st)) {name : String}
    (hd : st.declared? = some name) : ∀ k, Entered T f k → k.Declares name := by
  intro k hk
  cases ks with
  | nil => exact absurd (h.eq_root ▸ hk) (hT.root k)
  | cons k' ks =>
    obtain ⟨p, -, hp⟩ := hst
    rw [hT.entered f k k' hk h.entered]
    exact .inr ⟨st, hp.mem_body, hd⟩

/-! ### The discipline -/

variable (T root) in
/-- **Lexical scoping as a discipline**: a node is evaluated or executed in a
frame nested in the constructs around it. -/
def lexicalDiscipline : Discipline where
  Happens ev := ev ∈ T
  Holds := Lexical T root
  Admits := Value.InScope T root
  Places unit f node s := ∃ ks, Around T unit ks node ∧ NestedIn T root s f ks

/-- **Single operations keep scoping lexical.** -/
lemma sound_lexicalDiscipline (hT : Once T root) : (lexicalDiscipline T root).Sound where
  plain := inScope_of_ne
  slot hs := hs.slots
  admits_later hs hlater hv := hv.later hs.root_lt hlater
  places_later hs hlater := fun ⟨ks, haround, hf⟩ => ⟨ks, haround, hf.later hs.root_lt hlater⟩
  places_part := fun ⟨ks, haround, hf⟩ he => ⟨ks, haround.part he, hf⟩
  places_expr := fun ⟨ks, haround, hf⟩ he => ⟨ks, haround.ofStmt he, hf⟩
  same := Lexical.of_eq
  leave := Lexical.leave
  closure := by
    rintro unit f p name params bodyPos body s ⟨ks, haround, hf⟩ decl closure hv
    cases hv
    exact ⟨ks, bodyPos, haround, hf⟩
  declare := by
    rintro unit f st name v s hs ⟨ks, haround, hf⟩ hd - hv
    exact hs.bind hv (hf.declares hT haround hd)
  param := by
    intro f decl name v s s₀ hf hs hname _ hv
    refine hs.bind hv fun k hk => ?_
    rw [hT.entered f k _ hk ⟨s₀, hf⟩]
    exact .inl hname
  enter_block := by
    rintro unit f p bodyPos body s hs ⟨ks, haround, hf⟩ hentered
    refine ⟨hs.extend f, fun st hst => ?_⟩
    exact ⟨_, haround.inner rfl hst, hf.extend hs.root_lt ⟨s, hentered⟩⟩
  enter_call := by
    intro decl closure s hs hv hentered
    obtain ⟨ks, bodyPos, haround, hf⟩ := hv decl closure rfl
    refine ⟨hs.extend closure, fun st hst => ?_⟩
    exact ⟨_, haround.inner rfl hst, hf.extend hs.root_lt ⟨s, hentered⟩⟩

/-- The statements of a unit have no construct around them. -/
lemma begins_lexicalDiscipline : (lexicalDiscipline T root).Begins root :=
  fun _ source p s hp hbegan hs _ hst =>
    ⟨[], ⟨p, ⟨⟨source, hp⟩, s, hbegan⟩, .top hst⟩, nestedIn_root hs.root_lt⟩

end Invariant

/-! ### Sessions -/

/-- The invariant holds where no function was declared yet and nothing has
run. -/
lemma Session.Fresh.lexical {s : Session} (h : s.Fresh) {T : List Event}
    (hT : ∀ g k, Entered T g k → s.store.frames.size ≤ g) : Lexical T s.root s.store where
  root_lt := h.wellFormed.root_lt
  slots i decl closure hv := absurd hv (h.no_function i decl closure)
  names g hg k hk := absurd (hT g k hk) (Nat.not_le.2 hg)

/-- The frames that are entered during a session are new. -/
lemma Session.size_le_of_entered (s : Session) (limit : Nat) (sources : List String) {g : FrameId}
    {k : Construct} (h : Entered (s.events releaseOnExit limit sources) g k) :
    s.store.frames.size ≤ g := by
  obtain ⟨s₀, h⟩ := h
  exact ((s.effect limit sources).frames.mem _ h g k rfl).1

/-- In a session each frame is entered once, and each unit begins once. -/
lemma Session.once {s : Session} (h : s.root < s.store.frames.size) (limit : Nat)
    (sources : List String) : Once (s.events releaseOnExit limit sources) s.root where
  entered g k k' := by
    rintro ⟨s₀, h₀⟩ ⟨s₁, h₁⟩
    exact (s.effect limit sources).frames.unique _ h₀ _ h₁ g k k' rfl rfl
  root k hk := (s.size_le_of_entered limit sources hk).not_gt h
  began unit p p' := by
    rintro ⟨-, s₀, h₀⟩ ⟨-, s₁, h₁⟩
    exact (s.effect limit sources).units.unique _ h₀ _ h₁ unit p p' rfl rfl

/-- **A node is in its place** in a frame: there is exactly one list of constructs
around it in its program, and the frame is nested like these. -/
def InPlace (T : List Event) (root : FrameId) (unit : Nat) (f : FrameId) (node : Node)
    (s : Store) : Prop :=
  ∃ ks, Around T unit ks node ∧ (∀ ks', Around T unit ks' node → ks' = ks) ∧
    NestedIn T root s f ks

/-- **A slot is declared around a node** that is evaluated in a frame: it is that
of a name in one of the frames around, entered for a construct around the node
that declares the name; or it is that of a name in the root frame or around
it. -/
def DeclaredAround (T : List Event) (root : FrameId) (unit : Nat) (f : FrameId) (node : Node)
    (name : String) (s : Store) (i : SlotId) : Prop :=
  (∃ ks, Around T unit ks node ∧ ∃ k ∈ ks, k.Declares name ∧
    ∃ g ∈ s.chain f, Entered T g k ∧ s.slotIn name g = some i) ∨
  ∃ g ∈ s.chain root, s.slotIn name g = some i

/-- **The slot of a name** is declared around a node whose frame is nested in the constructs
around it. -/
lemma Lexical.declaredAround {T : List Event} {root : FrameId} {unit : Nat} {f : FrameId}
    {node : Node} {ks : List Construct} {name : String} {s : Store} {i : SlotId}
    (hs : Lexical T root s) (haround : Around T unit ks node) (hf : NestedIn T root s f ks)
    (hi : s.lookup f name = some i) : DeclaredAround T root unit f node name s i := by
  obtain ⟨gs, hchain, hgs⟩ := hf.chain
  obtain ⟨g, hg, hgi⟩ := List.exists_of_findSome?_eq_some hi
  rw [hchain, List.mem_append] at hg
  rcases hg with hg | hg
  · -- the slot is that of a binding, so the frame exists, and its construct declares the name
    obtain ⟨k, hk, hgk⟩ := exists_of_forall₂ hgs hg
    have hb := Store.mem_bindings_of_slotIn hgi
    have hlt : g < s.frames.size := by
      refine Nat.lt_of_not_le fun hle => ?_
      rw [Store.frame_of_size_le hle] at hb
      simp at hb
    have hdeclares := hs.names g hlt k hgk name (List.mem_map_of_mem hb)
    refine .inl ⟨ks, haround, k, hk, hdeclares, g, ?_, hgk, hgi⟩
    rw [hchain]
    exact List.mem_append_left _ hg
  · exact .inr ⟨g, hg, hgi⟩

/-- **A name is answered with the content of the slot** that it is looked up to, and with
nothing else. -/
lemma evaluate_identifier_eq_ok_iff {call : Caller} {f : FrameId} {p : Position} {name : String}
    {s s' : Store} {v : Value} :
    evaluate call f (.identifier p name) s = .ok v s' ↔
      s' = s ∧ ∃ i, s.lookup f name = some i ∧ v = s.slot i := by
  rw [evaluate_identifier, Store.get?]
  cases s.lookup f name with
  | none => simp
  | some i => simp [and_comm, eq_comm]

/-- **Scoping is lexical.** Whatever is evaluated or executed in a session, the
frames around the current one, up to the root, are one frame for each block and
function around it in its program, innermost first, entered for that block or
for a call of that function. So a name stands for a slot in a frame whose
construct declares it, or in the root or around it, and what its evaluation
answers is the content of that slot. -/
theorem scoping_is_lexical {start : Session} (h : start.Fresh) (limit : Nat)
    (sources : List String) :
    let T := start.events releaseOnExit limit sources
    (∀ unit f e s, .evaluates unit f e s ∈ T → InPlace T start.root unit f (.expr e) s) ∧
      (∀ unit f st s, .executes unit f st s ∈ T → InPlace T start.root unit f (.stmt st) s) ∧
      (∀ unit f p name s i, .evaluates unit f (.identifier p name) s ∈ T →
        s.lookup f name = some i →
          DeclaredAround T start.root unit f (.expr (.identifier p name)) name s i) ∧
      ∀ unit f p name s, .evaluates unit f (.identifier p name) s ∈ T → ∀ call v s',
        (evaluate call f (.identifier p name) s = .ok v s' ↔
          s' = s ∧ ∃ i, s.lookup f name = some i ∧ v = s.slot i ∧
            DeclaredAround T start.root unit f (.expr (.identifier p name)) name s i) := by
  intro T
  have hT : Once T start.root := Session.once h.wellFormed.root_lt limit sources
  have hlex := h.lexical fun g k hg => start.size_le_of_entered limit sources hg
  obtain ⟨hplaced, -⟩ := (sound_lexicalDiscipline hT).keeps_session begins_lexicalDiscipline
    limit hlex fun ev hev => hev
  have hplace : ∀ unit f node s, (lexicalDiscipline T start.root).Places unit f node s →
      InPlace T start.root unit f node s := fun unit f node s ⟨ks, haround, hf⟩ =>
    ⟨ks, haround, fun ks' h' => hT.around_unique haround h', hf⟩
  have hslots : ∀ unit f p name s i, .evaluates unit f (.identifier p name) s ∈ T →
      s.lookup f name = some i →
        DeclaredAround T start.root unit f (.expr (.identifier p name)) name s i := by
    intro unit f p name s i hev hi
    obtain ⟨hs, ks, haround, hf⟩ := hplaced _ hev
    exact hs.declaredAround haround hf hi
  refine ⟨fun unit f e s hev => hplace unit f _ s (hplaced _ hev).2,
    fun unit f st s hev => hplace unit f _ s (hplaced _ hev).2, hslots,
    fun unit f p name s hev call v s' => ?_⟩
  rw [evaluate_identifier_eq_ok_iff]
  constructor
  · rintro ⟨hs, i, hi, hv⟩
    exact ⟨hs, i, hi, hv, hslots unit f p name s i hev hi⟩
  · rintro ⟨hs, i, hi, hv, -⟩
    exact ⟨hs, i, hi, hv⟩

/-- A function that is called from inside another one, in which its name `x` is
declared too. -/
theorem scoping_is_lexical_shadowed :
    let start := Session.bare ⟨0⟩
    let sources := ["var x func f()\x7breturn x\x7d", "func g(x)\x7breturn f()\x7d g(f)"]
    let T := start.events releaseOnExit 3 sources
    start.Fresh ∧ ∀ unit f p name s, .evaluates unit f (.identifier p name) s ∈ T →
      ∀ call v s', (evaluate call f (.identifier p name) s = .ok v s' ↔
        s' = s ∧ ∃ i, s.lookup f name = some i ∧ v = s.slot i ∧
          DeclaredAround T start.root unit f (.expr (.identifier p name)) name s i) :=
  ⟨Session.fresh_bare ⟨0⟩, (scoping_is_lexical (Session.fresh_bare ⟨0⟩) 3 _).2.2.2⟩

end ClosureCalc
