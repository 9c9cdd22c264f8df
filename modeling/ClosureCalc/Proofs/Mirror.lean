/-
Stores that mirror each other.

Two runs of programs that are alike may start from stores that differ: frames
and slots go by other numbers, and there may be frames that neither run gets to
see. What can be reached in one store has its mirror image in the other.

* `Likeness`: which parts of two programs count as alike;
  `Likeness.Sound`: parts that are alike have the same shape, and their parts are
  alike again. With `Likeness.same` only what is the same is alike.
* `Renaming`: the frames of one store with their numbers in the other.
* `Value.Mirrors`, `Store.Mirrors`: values and stores that are the same up to a
  renaming. Frames that are renamed point to such frames only, so whatever can
  be reached from them is renamed as well.
* `Store.Mirrors.get?`, `Store.Mirrors.bind`, `Store.Mirrors.extend`,
  `Store.Mirrors.leave`: mirrored stores find mirrored values, and stay mirrored
  when a name is bound, and when a frame is added or left.
-/
import ClosureCalc.Proofs.Effect
import Mathlib.Data.List.Forall2
import Mathlib.Data.PEquiv

namespace ClosureCalc

/-! ### Programs that are alike -/

/-- **A likeness** of the programs of two runs: which places, units, parts of
programs and declarations count as alike, which root frames built-in functions
may come from, and whether these functions may draw random numbers. -/
structure Likeness where
  places : Position → Position → Prop
  units : Nat → Nat → Prop
  exprs : Expr → Expr → Prop
  stmts : Stmt → Stmt → Prop
  bodies : List Stmt → List Stmt → Prop
  decls : Declaration → Declaration → Prop
  homes : FrameId → FrameId → Prop
  draws : Prop

/-- **Sound likenesses**: parts of programs that are alike have the same shape,
and their parts are alike. Statements behind a `return` do not count. -/
structure Likeness.Sound (L : Likeness) : Prop where
  pos : ∀ {e e'}, L.exprs e e' → L.places e.pos e'.pos
  number : ∀ {p x e'}, L.exprs (.number p x) e' → ∃ p', e' = .number p' x
  identifier : ∀ {p name e'}, L.exprs (.identifier p name) e' →
    ∃ p', e' = .identifier p' name ∧ L.places p p'
  unary : ∀ {p op target e'}, L.exprs (.unary p op target) e' →
    ∃ p' target', e' = .unary p' op target' ∧ L.places p p' ∧ L.exprs target target'
  binary : ∀ {p op left right e'}, L.exprs (.binary p op left right) e' →
    ∃ p' left' right', e' = .binary p' op left' right' ∧ L.exprs left left' ∧
      L.exprs right right'
  call : ∀ {p callee args e'}, L.exprs (.call p callee args) e' →
    ∃ p' callee' args', e' = .call p' callee' args' ∧ L.places p p' ∧ L.exprs callee callee' ∧
      List.Forall₂ L.exprs args args'
  var : ∀ {p name init st'}, L.stmts (.var p name init) st' →
    ∃ p' init', st' = .var p' name init' ∧ L.places p p' ∧ Option.Rel L.exprs init init'
  ret : ∀ {p value st'}, L.stmts (.ret p value) st' →
    ∃ p' value', st' = .ret p' value' ∧ Option.Rel L.exprs value value'
  func : ∀ {p name params bodyPos body st' unit unit'},
    L.stmts (.func p name params bodyPos body) st' → L.units unit unit' →
      ∃ p' bodyPos' body', st' = .func p' name params bodyPos' body' ∧ L.places p p' ∧
        L.decls ⟨unit, p, name, params, body⟩ ⟨unit', p', name, params, body'⟩
  block : ∀ {p bodyPos body st'}, L.stmts (.block p bodyPos body) st' →
    ∃ p' bodyPos' body', st' = .block p' bodyPos' body' ∧ L.bodies body body'
  expr : ∀ {p e st'}, L.stmts (.expr p e) st' → ∃ p' e', st' = .expr p' e' ∧ L.exprs e e'
  nil : ∀ {sts'}, L.bodies [] sts' → sts' = []
  cons : ∀ {st rest sts'}, L.bodies (st :: rest) sts' →
    ∃ st' rest', sts' = st' :: rest' ∧ L.stmts st st' ∧
      ((∀ p value, st ≠ .ret p value) → L.bodies rest rest')
  decl : ∀ {decl decl'}, L.decls decl decl' →
    decl'.params = decl.params ∧ L.units decl.unit decl'.unit ∧ L.bodies decl.body decl'.body

/-- Only what is the same is alike, and nothing is drawn. The root frames of
built-in functions may be renamed. -/
def Likeness.same (homes : FrameId → FrameId → Prop) : Likeness where
  places := Eq
  units := Eq
  exprs := Eq
  stmts := Eq
  bodies := Eq
  decls := Eq
  homes := homes
  draws := False

lemma Likeness.sound_same (homes : FrameId → FrameId → Prop) : (same homes).Sound where
  pos h := congrArg Expr.pos h
  number := by
    rintro p x _ rfl
    exact ⟨p, rfl⟩
  identifier := by
    rintro p name _ rfl
    exact ⟨p, rfl, rfl⟩
  unary := by
    rintro p op target _ rfl
    exact ⟨p, target, rfl, rfl, rfl⟩
  binary := by
    rintro p op left right _ rfl
    exact ⟨p, left, right, rfl, rfl, rfl⟩
  call := by
    rintro p callee args _ rfl
    exact ⟨p, callee, args, rfl, rfl, rfl, List.forall₂_same.2 fun _ _ => rfl⟩
  var := by
    rintro p name init _ rfl
    refine ⟨p, init, rfl, rfl, ?_⟩
    cases init <;> constructor
    rfl
  ret := by
    rintro p value _ rfl
    refine ⟨p, value, rfl, ?_⟩
    cases value <;> constructor
    rfl
  func := by
    rintro p name params bodyPos body _ unit _ rfl rfl
    exact ⟨p, bodyPos, body, rfl, rfl, rfl⟩
  block := by
    rintro p bodyPos body _ rfl
    exact ⟨p, bodyPos, body, rfl, rfl⟩
  expr := by
    rintro p e _ rfl
    exact ⟨p, e, rfl, rfl⟩
  nil h := h.symm
  cons := by
    rintro st rest _ rfl
    exact ⟨st, rest, rfl, rfl, fun _ => rfl⟩
  decl := by
    rintro decl _ rfl
    exact ⟨rfl, rfl, rfl⟩

/-- The same error at places that are alike. -/
inductive Error.Like (places : Position → Position → Prop) : Error → Error → Prop
  | name {p p' : Position} (fault : NameFault) (hp : places p p') :
      Like places (.name fault p) (.name fault p')
  | arity {p p' : Position} (required supplied : Nat) (hp : places p p') :
      Like places (.arity required supplied p) (.arity required supplied p')
  | type {p p' : Position} (fault : TypeFault) (hp : places p p') :
      Like places (.type fault p) (.type fault p')

lemma Error.Like.eq {e e' : Error} (h : e.Like Eq e') : e = e' := by
  cases h with
  | name fault hp => rw [hp]
  | arity required supplied hp => rw [hp]
  | type fault hp => rw [hp]

/-! ### Renamings -/

/-- **A renaming** of frames: the numbers of some frames of one store, with
their numbers in another. No two frames get the same number. -/
abbrev Renaming := PEquiv FrameId FrameId

namespace Renaming

/-- The renaming with one more frame. -/
def insert (ρ : Renaming) (f f' : FrameId) (hf : ρ f = none) (hf' : ρ.symm f' = none) :
    Renaming where
  toFun := Function.update ρ f (some f')
  invFun := Function.update ρ.symm f' (some f)
  inv g g' := by
    by_cases hg : g = f
    · by_cases hg' : g' = f'
      · simp [hg, hg']
      · have hne : ρ.symm g' ≠ some f := fun h => by
          rw [ρ.eq_some_iff, hf] at h
          cases h
        simp [hg, hg', hne, Ne.symm hg']
    · by_cases hg' : g' = f'
      · have hne : ρ g ≠ some f' := fun h => by
          rw [← ρ.eq_some_iff, hf'] at h
          cases h
        simp [hg, hg', hne, Ne.symm hg]
      · simp [hg, hg', ρ.eq_some_iff]

variable {ρ : Renaming} {f f' : FrameId} {hf : ρ f = none} {hf' : ρ.symm f' = none}

lemma mem_insert {g g' : FrameId} :
    g' ∈ ρ.insert f f' hf hf' g ↔ g = f ∧ g' = f' ∨ g' ∈ ρ g := by
  by_cases hg : g = f
  · subst hg
    simp [insert, hf, eq_comm]
  · simp [insert, hg]

lemma le_insert : ρ ≤ ρ.insert f f' hf hf' :=
  fun _ _ hg => mem_insert.2 (.inr hg)

end Renaming

/-! ### Mirrored values -/

/-- Whether a built-in function draws a random number. -/
def Builtin.Draws (b : Builtin) : Prop := b = .random ∨ b = .randomRange

/-- **Mirrored values**: the same up to a renaming of frames. -/
inductive Value.Mirrors (L : Likeness) (ρ : Renaming) : Value → Value → Prop
  | number (n : Number) : Mirrors L ρ (.number n) (.number n)
  | function {decl decl' : Declaration} {closure closure' : FrameId}
      (hdecl : L.decls decl decl') (hclosure : closure' ∈ ρ closure) :
      Mirrors L ρ (.function decl closure) (.function decl' closure')
  | builtin {b : Builtin} {home home' : FrameId} (hb : b.Draws → L.draws)
      (hhome : L.homes home home') : Mirrors L ρ (.builtin b home) (.builtin b home')
  | undefined : Mirrors L ρ .undefined .undefined

section Values

variable {L : Likeness} {ρ ρ' : Renaming} {v v' : Value} {vs vs' : List Value}

lemma Value.Mirrors.mono (h : v.Mirrors L ρ v') (hρ : ρ ≤ ρ') : v.Mirrors L ρ' v' := by
  cases h with
  | number n => exact .number n
  | function hdecl hclosure => exact .function hdecl (hρ _ _ hclosure)
  | builtin hb hhome => exact .builtin hb hhome
  | undefined => exact .undefined

/-- Some values with their mirror images. -/
def MirrorsAll (L : Likeness) (ρ : Renaming) : List Value → List Value → Prop :=
  List.Forall₂ (Value.Mirrors L ρ)

lemma MirrorsAll.mono (h : MirrorsAll L ρ vs vs') (hρ : ρ ≤ ρ') : MirrorsAll L ρ' vs vs' :=
  h.imp fun _ _ hv => hv.mono hρ

/-- Lists that are related item by item are related at every index. -/
lemma rel_getElem? {α β : Type} {R : α → β → Prop} {as : List α} {bs : List β}
    (h : List.Forall₂ R as bs) (i : Nat) : Option.Rel R as[i]? bs[i]? := by
  induction h generalizing i with
  | nil => exact .none
  | cons hab _ ih =>
    cases i with
    | zero => exact .some hab
    | succ i => exact ih i

/-- Mirrored arguments are read alike. -/
lemma MirrorsAll.numberAt (h : MirrorsAll L ρ vs vs') (i : Nat) :
    numberAt vs' i = numberAt vs i := by
  have hi := rel_getElem? h i
  rw [ClosureCalc.numberAt, ClosureCalc.numberAt]
  generalize vs[i]? = found, vs'[i]? = found' at hi
  cases hi with
  | none => rfl
  | some hv => cases hv <;> rfl

lemma foldNumbers_congr (hargs : ∀ i, ClosureCalc.numberAt vs' i = ClosureCalc.numberAt vs i)
    (f : Number → Number → Number) (n i : Nat) (acc : Number) :
    foldNumbers f vs' n i acc = foldNumbers f vs n i acc := by
  induction n generalizing i acc with
  | zero => rfl
  | succ n ih =>
    rw [foldNumbers, foldNumbers, hargs]
    exact bind_congr fun x => ih (i + 1) (f acc x)

/-- **Built-in functions compute alike** from mirrored arguments. -/
lemma MirrorsAll.apply (h : MirrorsAll L ρ vs vs') (b : Builtin) (g : Generator) :
    b.apply vs' g = b.apply vs g := by
  have hargs := h.numberAt
  have hfold := foldNumbers_congr hargs
  have hlength : vs'.length = vs.length := (List.Forall₂.length_eq h).symm
  cases b <;> simp only [Builtin.apply, hargs, hfold, hlength]

/-- A built-in function that draws nothing leaves the generator as it is, and
does not depend on it. -/
lemma Builtin.apply_of_not_draws {b : Builtin} (hb : ¬ b.Draws) (args : List Value)
    (g g' : Generator) :
    b.apply args g' = (fun result => (result.1, g')) <$> b.apply args g := by
  cases b with
  | random => exact absurd (.inl rfl) hb
  | randomRange => exact absurd (.inr rfl) hb
  | log =>
    simp only [apply, map_bind]
    refine bind_congr fun x => ?_
    split <;> simp only [map_bind, map_pure]
  | clamp =>
    simp only [apply, map_bind]
    refine bind_congr fun x => bind_congr fun low => bind_congr fun high => ?_
    split <;> rfl
  | _ => simp only [apply, map_bind, map_pure]

end Values

/-! ### Mirrored stores -/

namespace Store

/-- Two bindings of the same name, to slots that hold mirrored values. -/
structure SameBinding (L : Likeness) (ρ : Renaming) (s t : Store) (b b' : String × SlotId) :
    Prop where
  name : b'.1 = b.1
  lt : b.2 < s.slots.size
  lt' : b'.2 < t.slots.size
  value : (s.slot b.2).Mirrors L ρ (t.slot b'.2)

/-- Bindings stay the same where slots are added. -/
lemma SameBinding.later {L : Likeness} {A B : Set FrameId} {ρ ρ' : Renaming} {s t s' t' : Store}
    {b b' : String × SlotId} (hb : SameBinding L ρ s t b b') (hρ : ρ ≤ ρ')
    (hs : s.Extends A s') (ht : t.Extends B t') : SameBinding L ρ' s' t' b b' where
  name := hb.name
  lt := hb.lt.trans_le hs.slots_le
  lt' := hb.lt'.trans_le ht.slots_le
  value := by
    rw [hs.slot _ hb.lt, ht.slot _ hb.lt']
    exact hb.value.mono hρ

/-- **Mirrored stores**: frames that are renamed exist in both stores, lie inside
frames that are renamed alike, and declare the same names with mirrored values.
Nothing is known of the other frames. -/
structure Mirrors (L : Likeness) (ρ : Renaming) (s t : Store) : Prop where
  lt : ∀ f f', f' ∈ ρ f → f < s.frames.size ∧ f' < t.frames.size
  outer : ∀ f f', f' ∈ ρ f →
    List.Forall₂ (fun g g' => g' ∈ ρ g) (s.frame f).outer (t.frame f').outer
  bindings : ∀ f f', f' ∈ ρ f →
    List.Forall₂ (SameBinding L ρ s t) (s.frame f).bindings (t.frame f').bindings
  generator : L.draws → t.generator = s.generator

namespace Mirrors

variable {L : Likeness} {ρ : Renaming} {s t : Store} {f f' : FrameId}

lemma chain (h : s.Mirrors L ρ t) (hf : f' ∈ ρ f) :
    List.Forall₂ (fun g g' => g' ∈ ρ g) (s.chain f) (t.chain f') :=
  .cons hf (h.outer f f' hf)

/-- A frame is around another one exactly if the renamed frame is around the
renamed other one. -/
lemma mem_iff {gs gs' : List FrameId} (hgs : List.Forall₂ (fun g g' => g' ∈ ρ g) gs gs')
    (hf : f' ∈ ρ f) : f ∈ gs ↔ f' ∈ gs' := by
  induction hgs with
  | nil => simp
  | @cons g g' _ _ hg _ ih =>
    have hhead : f = g ↔ f' = g' := by
      constructor
      · rintro rfl
        exact Option.mem_unique hf hg
      · rintro rfl
        exact ρ.inj hf hg
    rw [List.mem_cons, List.mem_cons, hhead, ih]

/-- Bindings of the same names are found alike. -/
lemma rel_lookup {bs bs' : List (String × SlotId)}
    (hbs : List.Forall₂ (SameBinding L ρ s t) bs bs') (name : String) :
    Option.Rel (fun i i' => (s.slot i).Mirrors L ρ (t.slot i')) (bs.lookup name)
      (bs'.lookup name) := by
  induction hbs with
  | nil => exact .none
  | @cons b b' _ _ hb _ ih =>
    obtain ⟨n, i⟩ := b
    obtain ⟨n', i'⟩ := b'
    obtain rfl : n' = n := hb.name
    rw [List.lookup_cons, List.lookup_cons]
    cases name == n' with
    | true => exact .some hb.value
    | false => exact ih

lemma slotIn (h : s.Mirrors L ρ t) (hf : f' ∈ ρ f) (name : String) :
    Option.Rel (fun i i' => (s.slot i).Mirrors L ρ (t.slot i')) (s.slotIn name f)
      (t.slotIn name f') :=
  rel_lookup (h.bindings f f' hf) name

/-- **Names stand for mirrored values.** -/
lemma get? (h : s.Mirrors L ρ t) (hf : f' ∈ ρ f) (name : String) :
    Option.Rel (Value.Mirrors L ρ) (s.get? f name) (t.get? f' name) := by
  have hchain := h.chain hf
  rw [Store.get?, Store.get?, lookup, lookup]
  generalize s.chain f = gs, t.chain f' = gs' at hchain
  induction hchain with
  | nil => exact .none
  | @cons g g' _ _ hg _ ih =>
    have hslot := h.slotIn hg name
    rw [List.findSome?_cons, List.findSome?_cons]
    generalize s.slotIn name g = found, t.slotIn name g' = found' at hslot
    cases hslot with
    | none => exact ih
    | some hv => exact .some hv

lemma canDeclare (h : s.Mirrors L ρ t) (hf : f' ∈ ρ f) (name : String) :
    t.canDeclare f' name = s.canDeclare f name := by
  have hslot := h.slotIn hf name
  rw [Store.canDeclare, Store.canDeclare]
  generalize s.slotIn name f = found, t.slotIn name f' = found' at hslot
  cases hslot <;> rfl

/-- A value is kept with a frame exactly if its mirror image is. -/
lemma captures (h : s.Mirrors L ρ t) (hf : f' ∈ ρ f) {v v' : Value} (hv : v.Mirrors L ρ v') :
    t.captures v' f' = s.captures v f := by
  cases hv with
  | function hdecl hclosure =>
    have hiff := mem_iff (h.chain hclosure) hf
    rw [Store.captures, Store.captures, isWithin, isWithin]
    exact decide_eq_decide.2 hiff.symm
  | _ => rfl

/-- **A name is bound in both stores.** -/
lemma bind (h : s.Mirrors L ρ t) (hf : f' ∈ ρ f) (name : String) {v v' : Value}
    (hv : v.Mirrors L ρ v') : (s.bind f name v).Mirrors L ρ (t.bind f' name v') where
  lt g g' hg := by
    rw [size_frames_bind, size_frames_bind]
    exact h.lt g g' hg
  outer g g' hg := by
    rw [Store.bind, Store.bind, outer_setBindings, outer_setBindings]
    exact h.outer g g' hg
  bindings g g' hg := by
    have hs := extends_bind (Set.mem_singleton f) s name v
    have ht := extends_bind (Set.mem_singleton f') t name v'
    have hold : List.Forall₂ (SameBinding L ρ (s.bind f name v) (t.bind f' name v'))
        (s.frame g).bindings (t.frame g').bindings :=
      (h.bindings g g' hg).imp fun _ _ hb => hb.later le_rfl hs ht
    obtain ⟨hlt, hlt'⟩ := h.lt f f' hf
    rw [frame_bind, frame_bind]
    by_cases hgf : g = f
    · obtain rfl := hgf
      obtain rfl := Option.mem_unique hf hg
      rw [if_pos ⟨rfl, hlt⟩, if_pos ⟨rfl, hlt'⟩]
      refine List.rel_append hold (.cons ⟨rfl, ?_, ?_, ?_⟩ .nil)
      · simp
      · simp
      · simpa [slot_bind] using hv
    · have hgf' : g' ≠ f' := by
        rintro rfl
        exact hgf (ρ.inj hg hf)
      rw [if_neg fun hc => hgf hc.1, if_neg fun hc => hgf' hc.1]
      exact hold
  generator := h.generator

/-- **A frame is added to both stores.** It gets a number of its own in each. -/
lemma extend (h : s.Mirrors L ρ t) (hf : f' ∈ ρ f) :
    ∃ ρ', ρ ≤ ρ' ∧ t.frames.size ∈ ρ' s.frames.size ∧
      (s.extend f).2.Mirrors L ρ' (t.extend f').2 := by
  have hnone : ρ s.frames.size = none := by
    refine Option.eq_none_iff_forall_not_mem.2 fun g' hg => ?_
    exact Nat.lt_irrefl _ (h.lt _ _ hg).1
  have hnone' : ρ.symm t.frames.size = none := by
    refine Option.eq_none_iff_forall_not_mem.2 fun g hg => ?_
    exact Nat.lt_irrefl _ (h.lt _ _ (ρ.mem_iff_mem.1 hg)).2
  have hle : ρ ≤ ρ.insert _ _ hnone hnone' := Renaming.le_insert
  have hs := s.extends_extend ∅ f
  have ht := t.extends_extend ∅ f'
  have hold : ∀ g g', g' ∈ ρ g → (s.extend f).2.frame g = s.frame g ∧
      (t.extend f').2.frame g' = t.frame g' := fun g g' hg =>
    ⟨hs.frame_eq (h.lt g g' hg).1 (Set.notMem_empty g),
      ht.frame_eq (h.lt g g' hg).2 (Set.notMem_empty g')⟩
  refine ⟨ρ.insert _ _ hnone hnone', hle, Renaming.mem_insert.2 (.inl ⟨rfl, rfl⟩), ?_, ?_, ?_,
    h.generator⟩
  · intro g g' hg
    rw [size_frames_extend, size_frames_extend]
    rcases Renaming.mem_insert.1 hg with ⟨rfl, rfl⟩ | hg
    · exact ⟨Nat.lt_succ_self _, Nat.lt_succ_self _⟩
    · have hlt := h.lt g g' hg
      exact ⟨Nat.lt_succ_of_lt hlt.1, Nat.lt_succ_of_lt hlt.2⟩
  · intro g g' hg
    rcases Renaming.mem_insert.1 hg with ⟨rfl, rfl⟩ | hg
    · rw [frame_extend, frame_extend, if_pos rfl, if_pos rfl]
      exact (h.chain hf).imp fun _ _ hk => hle _ _ hk
    · rw [(hold g g' hg).1, (hold g g' hg).2]
      exact (h.outer g g' hg).imp fun _ _ hk => hle _ _ hk
  · intro g g' hg
    rcases Renaming.mem_insert.1 hg with ⟨rfl, rfl⟩ | hg
    · rw [frame_extend, frame_extend, if_pos rfl, if_pos rfl]
      exact .nil
    · rw [(hold g g' hg).1, (hold g g' hg).2]
      exact (h.bindings g g' hg).imp fun _ _ hb => hb.later hle hs ht

/-- A frame loses its names in both stores. -/
lemma release (h : s.Mirrors L ρ t) (hf : f' ∈ ρ f) :
    (s.release f).Mirrors L ρ (t.release f') where
  lt g g' hg := by
    rw [size_frames_release, size_frames_release]
    exact h.lt g g' hg
  outer g g' hg := by
    rw [Store.release, Store.release, outer_setBindings, outer_setBindings]
    exact h.outer g g' hg
  bindings g g' hg := by
    obtain ⟨hlt, hlt'⟩ := h.lt f f' hf
    rw [frame_release, frame_release]
    by_cases hgf : g = f
    · obtain rfl := hgf
      obtain rfl := Option.mem_unique hf hg
      rw [if_pos ⟨rfl, hlt⟩, if_pos ⟨rfl, hlt'⟩]
      exact .nil
    · have hgf' : g' ≠ f' := by
        rintro rfl
        exact hgf (ρ.inj hg hf)
      rw [if_neg fun hc => hgf hc.1, if_neg fun hc => hgf' hc.1]
      exact (h.bindings g g' hg).imp fun _ _ hb => ⟨hb.name, hb.lt, hb.lt', hb.value⟩
  generator := h.generator

/-- **A frame is left in both stores** with mirrored results: it is emptied in
both, or kept in both. -/
lemma leave (h : s.Mirrors L ρ t) (hf : f' ∈ ρ f) {result result' : Option Value}
    (hresult : Option.Rel (Value.Mirrors L ρ) result result') :
    (s.leave f result).Mirrors L ρ (t.leave f' result') := by
  have hcaptures : result'.any (t.captures · f') = result.any (s.captures · f) := by
    cases hresult with
    | none => rfl
    | some hv => exact h.captures hf hv
  rw [Store.leave, Store.leave, hcaptures]
  split
  · exact h
  · exact h.release hf

/-- The generator may move on, where it does not matter. -/
lemma of_generator (h : s.Mirrors L ρ t) {g g' : Generator} (hg : L.draws → g' = g) :
    Mirrors L ρ { s with generator := g } { t with generator := g' } where
  lt := h.lt
  outer := h.outer
  bindings f f' hf := (h.bindings f f' hf).imp fun _ _ hb => ⟨hb.name, hb.lt, hb.lt', hb.value⟩
  generator := hg

end Mirrors

end Store

end ClosureCalc
