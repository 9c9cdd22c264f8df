/-
Environments.

An environment is a frame of the store. Environments are made, extended, filled
and emptied, and runs happen in them, in any order. Whatever is done to it, the
store keeps its form.

* `Store.ancestor`: the frames around a frame, from parent to parent.
* `Store.Regular`: the invariant of the store. Every frame has the frames of its
  parent around it, its table was made by steps on tables, and no slot has two
  names.
  `sound_environmentDiscipline`: runs keep it.
* `Operation`: what can be done to environments. `Operation.Valid`, `Store.Allows`:
  an operation, and one after the other, on what exists.
* `Store.Intact`: what the invariant says about names, slots and frames.
* `environments_stay_intact`: after every sequence of operations the store is
  intact, no operation moves a frame, and a name is declared exactly where it
  can be declared.
-/
import ClosureCalc.Proofs.Tables
import ClosureCalc.Proofs.WellFormed

namespace ClosureCalc

namespace Store

/-! ### From parent to parent -/

/-- The frame that is the given number of steps around `f`, from parent to
parent; none if the root is closer. -/
def ancestor (s : Store) : FrameId → Nat → Option FrameId
  | f, 0 => some f
  | f, n + 1 => (s.parent? f).bind fun p => s.ancestor p n

/-- Behind a declaration the store has one name more, or it is as it was. -/
lemma declare_cases (s : Store) (f : FrameId) (name : String) (v : Value) :
    (s.canDeclare f name = true ∧ (s.declare f name v).toOption.getD s = s.bind f name v) ∨
      (s.declare f name v).toOption.getD s = s := by
  rw [declare]
  cases s.canDeclare f name with
  | true => exact .inl ⟨rfl, rfl⟩
  | false => exact .inr rfl

lemma later_declare (s : Store) (f : FrameId) (name : String) (v : Value) :
    s.Later ((s.declare f name v).toOption.getD s) := by
  rcases s.declare_cases f name v with ⟨-, hd⟩ | hd
  · rw [hd]
    exact (s.extends_bind (Set.mem_singleton f) name v).later
  · rw [hd]
    exact .refl s

lemma later_declareEach (s : Store) (f : FrameId) (names : List (String × Value)) :
    s.Later (s.declareEach f names) := by
  induction names generalizing s with
  | nil => exact .refl s
  | cons nv rest ih => exact (s.later_declare f nv.1 nv.2).trans (ih _)

lemma standardRoot_snd (s : Store) :
    s.standardRoot.2 = s.newRoot.2.declareEach s.newRoot.1 (standardNames s.newRoot.1) := by
  rw [standardRoot]

/-- Behind an assignment one slot may have another value. -/
lemma set_cases (s : Store) (f : FrameId) (name : String) (v : Value) :
    (∃ i, (s.set? f name v).getD s = s.setSlot i v) ∨ (s.set? f name v).getD s = s := by
  rw [set?]
  cases s.lookup f name with
  | some i => exact .inl ⟨i, rfl⟩
  | none => exact .inr rfl

/-- The bindings of a frame behind a new one. -/
lemma mem_bindings_of_bind {s : Store} {f g : FrameId} {name : String} {v : Value}
    {b : String × SlotId} (hb : b ∈ ((s.bind f name v).frame g).bindings) :
    b ∈ (s.frame g).bindings ∨ g = f ∧ b = (name, s.slots.size) := by
  rw [frame_bind] at hb
  split at hb
  · rename_i hg
    rcases List.mem_append.1 hb with hb | hb
    · exact .inl (hg.1 ▸ hb)
    · exact .inr ⟨hg.1, List.mem_singleton.1 hb⟩
  · exact .inl hb

/-! ### The invariant -/

/-- **Regular stores**: around a frame are its parent, which is older, and what
is around that; its table was made by steps on tables; and a slot has at most one
name in all frames together. -/
structure Regular (s : Store) : Prop extends WellFormed s where
  nested : ∀ g : Nat, (s.frame g).outer = [] ∨ ∃ p < g, (s.frame g).outer = s.chain p
  made : ∀ f, (s.table f).Made
  slot_once : ∀ f g name name' i, (name, i) ∈ (s.frame f).bindings →
    (name', i) ∈ (s.frame g).bindings → f = g ∧ name = name'

lemma regular_empty (g : Generator) : (empty g).Regular where
  toWellFormed := wellFormed_empty g
  nested f := .inl (by simp [empty, frame])
  made f := by
    have hf : (empty g).table f = .empty := by simp [empty, table, frame, Table.of]
    exact hf ▸ .empty
  slot_once f f' name name' i hi := by simp [empty, frame] at hi

namespace Regular

variable {s : Store}

/-- It matters only what is around the frames. -/
lemma nested_of_outer (h : s.Regular) {s' : Store}
    (ho : ∀ g, (s'.frame g).outer = (s.frame g).outer) (g : Nat) :
    (s'.frame g).outer = [] ∨ ∃ p < g, (s'.frame g).outer = s'.chain p := by
  have hchain : ∀ p, s'.chain p = s.chain p := fun p => by rw [chain, chain, ho]
  rcases h.nested g with hg | ⟨p, hp, hg⟩
  · exact .inl (by rw [ho, hg])
  · exact .inr ⟨p, hp, by rw [ho, hg, hchain]⟩

/-- Bindings may go. -/
lemma slot_once_of_subset (h : s.Regular) {s' : Store}
    (hsub : ∀ g, (s'.frame g).bindings ⊆ (s.frame g).bindings) (f g : FrameId)
    (name name' : String) (i : SlotId) (hi : (name, i) ∈ (s'.frame f).bindings)
    (hi' : (name', i) ∈ (s'.frame g).bindings) : f = g ∧ name = name' :=
  h.slot_once f g name name' i (hsub f hi) (hsub g hi')

/-- A new frame has nothing around it, or an existing frame and what is around
that. -/
lemma addFrame (h : s.Regular) {outer : List FrameId}
    (ho : outer = [] ∨ ∃ p < s.frames.size, outer = s.chain p) :
    (s.addFrame outer).2.Regular where
  toWellFormed := by
    rcases ho with rfl | ⟨p, hp, rfl⟩
    · exact h.toWellFormed.newRoot
    · exact h.toWellFormed.extend hp
  nested g := by
    have hchain := (s.later_addFrame outer).chain_eq
    rw [frame_addFrame]
    split
    · rename_i hg
      rcases ho with ho | ⟨p, hp, ho⟩
      · exact .inl ho
      · exact .inr ⟨p, hg ▸ hp, by rw [hchain p hp, ho]⟩
    · rcases h.nested g with hg | ⟨p, hp, hg⟩
      · exact .inl hg
      · have hlt : p < s.frames.size := h.outer_lt_size (g := g) (by rw [hg, chain]; simp)
        exact .inr ⟨p, hp, by rw [hchain p hlt, hg]⟩
  made f := by
    rw [table_addFrame]
    split
    · exact .empty
    · exact h.made f
  slot_once := h.slot_once_of_subset fun g => by
    rw [frame_addFrame]
    split
    · exact List.nil_subset _
    · exact List.Subset.refl _

lemma newRoot (h : s.Regular) : s.newRoot.2.Regular := h.addFrame (.inl rfl)

lemma extend (h : s.Regular) {f : FrameId} (hf : f < s.frames.size) : (s.extend f).2.Regular :=
  h.addFrame (.inr ⟨f, hf, rfl⟩)

/-- A new name has a new slot. -/
lemma bind (h : s.Regular) {v : Value} (hv : v.Within s.frames.size) {f : FrameId} {name : String}
    (hc : s.canDeclare f name = true) : (s.bind f name v).Regular where
  toWellFormed := h.toWellFormed.bind hv f name
  nested := h.nested_of_outer fun g => outer_setBindings _ f g _
  made g := by
    by_cases hg : g = f ∧ f < s.frames.size
    · obtain ⟨rfl, hlt⟩ := hg
      have hd := declare_table hlt name v
      rw [declare, if_pos hc] at hd
      exact (h.made g).declare hd
    · rw [table_bind, if_neg hg]
      exact h.made g
  slot_once g g' n n' i hi hi' := by
    -- slots that were there have smaller numbers than the new one
    rcases mem_bindings_of_bind hi with hb | ⟨hg, he⟩ <;>
      rcases mem_bindings_of_bind hi' with hb' | ⟨hg', he'⟩
    · exact h.slot_once g g' n n' i hb hb'
    · cases he'
      have hlt := h.slot_lt g _ hb
      exact (Nat.lt_irrefl _ hlt).elim
    · cases he
      have hlt := h.slot_lt g' _ hb'
      exact (Nat.lt_irrefl _ hlt).elim
    · cases he
      cases he'
      exact ⟨hg.trans hg'.symm, rfl⟩

lemma release (h : s.Regular) (f : FrameId) : (s.release f).Regular where
  toWellFormed := h.toWellFormed.setBindings (by simp) f
  nested := h.nested_of_outer fun g => outer_setBindings s f g []
  made g := by
    by_cases hg : g = f
    · rw [hg]
      exact (h.made f).release (s.release_table f)
    · rw [table_release, if_neg fun hf => hg hf.1]
      exact h.made g
  slot_once := h.slot_once_of_subset fun g => by
    rw [frame_release]
    split
    · exact List.nil_subset _
    · exact List.Subset.refl _

lemma leave (h : s.Regular) (f : FrameId) (result : Option Value) : (s.leave f result).Regular := by
  rw [Store.leave]
  split
  · exact h
  · exact h.release f

/-- What is in the slots does not matter, if its frame exists. -/
lemma setSlot (h : s.Regular) {v : Value} (hv : v.Within s.frames.size) (i : SlotId) :
    (s.setSlot i v).Regular :=
  ⟨h.toWellFormed.setSlot hv i, h.nested, h.made, h.slot_once⟩

lemma of_eq {s' : Store} (h : s.Regular) (hframes : s'.frames = s.frames)
    (hslots : s'.slots = s.slots) : s'.Regular := by
  obtain ⟨frames, slots, units, generator⟩ := s'
  cases hframes
  cases hslots
  exact ⟨h.toWellFormed.of_eq rfl rfl, h.nested, h.made, h.slot_once⟩

lemma declare (h : s.Regular) {v : Value} (hv : v.Within s.frames.size) (f : FrameId)
    (name : String) : ((s.declare f name v).toOption.getD s).Regular := by
  rcases s.declare_cases f name v with ⟨hc, hd⟩ | hd
  · rw [hd]
    exact h.bind hv hc
  · rw [hd]
    exact h

lemma declareEach {names : List (String × Value)} (h : s.Regular)
    (hv : ∀ nv ∈ names, nv.2.Within s.frames.size) (f : FrameId) :
    (s.declareEach f names).Regular := by
  induction names generalizing s with
  | nil => exact h
  | cons nv rest ih =>
    refine ih (h.declare (hv nv (by simp)) f nv.1) fun w hw => ?_
    exact (hv w (List.mem_cons_of_mem _ hw)).later (s.later_declare f nv.1 nv.2)

end Regular

end Store

/-! ### Runs -/

/-- **Regularity as a discipline** of runs that find `n` frames. -/
def environmentDiscipline (n : Nat) : Discipline :=
  { wellFormedDiscipline n with Holds := Store.Regular }

/-- **Single operations keep the store regular.** -/
lemma sound_environmentDiscipline (n : Nat) : (environmentDiscipline n).Sound where
  plain := (sound_wellFormedDiscipline n).plain
  slot hs := hs.slot_within
  admits_later _ hlater hv := hv.later hlater
  places_later _ hlater hf := hf.trans_le hlater.frames_le
  places_part hf _ := hf
  places_expr hf _ := hf
  same := Store.Regular.of_eq
  leave := Store.Regular.leave
  closure hf := by
    intro decl closure hv
    cases hv
    exact hf
  declare hs _ _ hc hv := hs.bind hv hc
  param _ hs _ hc hv := hs.bind hv hc
  enter_block hs hf _ :=
    ⟨hs.extend hf, fun _ _ => by simp [environmentDiscipline, wellFormedDiscipline]⟩
  enter_call hs hv _ :=
    ⟨hs.extend (hv _ _ rfl), fun _ _ => by simp [environmentDiscipline, wellFormedDiscipline]⟩

/-- A run that keeps the discipline leaves a regular store behind, also if it
stops early. -/
lemma Store.Regular.after {α : Type} {A : Set FrameId} {x : Eval α} {r : Record}
    {Q : α → Store → Prop} {s : Store} (h : s.Regular) (ha : x.Affects A r)
    (hx : (environmentDiscipline s.frames.size).Keeps x r Q s) : (x.after s).Regular := by
  have hT : ∀ ev ∈ r s, (environmentDiscipline s.frames.size).Happens ev := fun ev hev =>
    ((ha s).before ev hev).frames_le
  exact (hx h hT).2.holds_after

/-! ### Operations -/

/-- **What can be done to environments.** Runs nest calls at most as deep as the
limit they come with. -/
inductive Operation where
  | newRoot
  | standardRoot
  | extend (f : FrameId)
  | declare (f : FrameId) (name : String) (v : Value)
  | set (f : FrameId) (name : String) (v : Value)
  | release (f : FrameId)
  | setSlot (i : SlotId) (v : Value)
  | interpret (limit : Nat) (f : FrameId) (source : String)
  | evaluate (limit : Nat) (f : FrameId) (e : Expr)
  | call (limit : Nat) (v : Value) (args : List Value) (p : Position)

namespace Operation

/-- The store behind an operation. One that fails may have changed it before. -/
def apply (s : Store) : Operation → Store
  | newRoot => s.newRoot.2
  | standardRoot => s.standardRoot.2
  | extend f => (s.extend f).2
  | declare f name v => (s.declare f name v).toOption.getD s
  | set f name v => (s.set? f name v).getD s
  | release f => s.release f
  | setSlot i v => s.setSlot i v
  | interpret limit f source => (ClosureCalc.interpret releaseOnExit limit f source).after s
  | evaluate limit f e => (ClosureCalc.evaluate (ClosureCalc.call releaseOnExit limit) f e).after s
  | call limit v args p => (ClosureCalc.call releaseOnExit limit v args p).after s

/-- An operation is valid if the frames and slots it is about exist. -/
def Valid (s : Store) : Operation → Prop
  | newRoot => True
  | standardRoot => True
  | extend f => f < s.frames.size
  | declare f _ v => f < s.frames.size ∧ v.Within s.frames.size
  | set f _ v => f < s.frames.size ∧ v.Within s.frames.size
  | release f => f < s.frames.size
  | setSlot i v => i < s.slots.size ∧ v.Within s.frames.size
  | interpret _ f _ => f < s.frames.size
  | evaluate _ f _ => f < s.frames.size
  | call _ v args _ => v.Within s.frames.size ∧ ∀ w ∈ args, w.Within s.frames.size

/-- No operation moves a frame that exists. -/
lemma later (op : Operation) (s : Store) : s.Later (op.apply s) := by
  cases op with
  | newRoot => exact s.later_addFrame []
  | standardRoot =>
    rw [apply, Store.standardRoot_snd]
    exact (s.later_addFrame []).trans (Store.later_declareEach _ _ _)
  | extend f => exact s.later_addFrame (s.chain f)
  | declare f name v => exact s.later_declare f name v
  | set f name v =>
    rcases s.set_cases f name v with ⟨i, hi⟩ | hi
    · rw [apply, hi]
      exact ⟨Nat.le_refl _, fun g _ => rfl⟩
    · rw [apply, hi]
      exact .refl s
  | release f => exact ⟨(s.size_frames_release f).ge, fun g _ => s.chain_release f g⟩
  | setSlot i v => exact ⟨Nat.le_refl _, fun g _ => rfl⟩
  | interpret limit f source => exact (affects_interpret limit f source s).grows.later
  | evaluate limit f e => exact (affects_evaluate (affects_call limit) 0 f e s).grows.later
  | call limit v args p => exact (affects_call limit v args p s).grows.later

/-- **Valid operations keep the store regular**, also those that stop early. -/
lemma regular {op : Operation} {s : Store} (h : s.Regular) (hop : op.Valid s) :
    (op.apply s).Regular := by
  have hD := sound_environmentDiscipline s.frames.size
  cases op with
  | newRoot => exact h.newRoot
  | standardRoot =>
    rw [apply, Store.standardRoot_snd]
    exact h.newRoot.declareEach (within_standardNames _ _) _
  | extend f => exact h.extend hop
  | declare f name v => exact h.declare hop.2 f name
  | set f name v =>
    rcases s.set_cases f name v with ⟨i, hi⟩ | hi
    · rw [apply, hi]
      exact h.setSlot hop.2 i
    · rw [apply, hi]
      exact h
  | release f => exact h.release f
  | setSlot i v => exact h.setSlot hop.2 i
  | interpret limit f source =>
    have hroot : (environmentDiscipline s.frames.size).BeginsWith f source :=
      fun _ _ _ _ hle _ _ _ => hop.trans_le hle
    exact h.after (affects_interpret limit f source) (hD.keeps_interpret hroot limit)
  | evaluate limit f e =>
    exact h.after (affects_evaluate (affects_call limit) 0 f e)
      (hD.keeps_evaluate (hD.keeps_call limit) hop)
  | call limit v args p =>
    exact h.after (affects_call limit v args p) ((hD.keeps_call limit).keeps v args p s hop.1 hop.2)

end Operation

namespace Store

/-- The store behind operations, one after the other. -/
def perform (s : Store) : List Operation → Store
  | [] => s
  | op :: ops => (op.apply s).perform ops

/-- Each of the operations is valid when its turn comes. -/
def Allows (s : Store) : List Operation → Prop
  | [] => True
  | op :: ops => op.Valid s ∧ (op.apply s).Allows ops

lemma Regular.perform {s : Store} {ops : List Operation} (h : s.Regular) (hops : s.Allows ops) :
    (s.perform ops).Regular := by
  induction ops generalizing s with
  | nil => exact h
  | cons op ops ih => exact ih (Operation.regular h hops.1) hops.2

/-! ### What the invariant says -/

/-- **Intact stores.** The two containers of every frame were written to by
declarations and releases only; the names in order are distinct, and they are
those with a slot, where they are found. No slot has two names. From parent to
parent every frame reaches a root in as many steps as it is deep, one step more
than its parent; it lies within the frames on this way, and that is a partial
order. -/
structure Intact (s : Store) : Prop where
  table_made : ∀ f, (s.table f).Made
  names_eq : ∀ f, s.names f = (s.table f).order
  names_nodup : ∀ f, (s.names f).Nodup
  mem_names : ∀ f name, name ∈ s.names f ↔ name ∈ (s.table f).slots
  slot_found : ∀ f name, s.slotIn name f = (s.table f).slots.lookup name
  slot_once : ∀ f g name name' i, (s.table f).slots.lookup name = some i →
    (s.table g).slots.lookup name' = some i → f = g ∧ name = name'
  root : ∀ f, ∃ r, s.ancestor f (s.depth f) = some r ∧ s.parent? r = none
  depth_parent : ∀ f p, s.parent? f = some p → s.depth f = s.depth p + 1
  within_iff : ∀ f g, s.isWithin f g = true ↔ ∃ n, s.ancestor f n = some g
  within_order : IsPartialOrder FrameId fun f g => s.isWithin f g = true

namespace Regular

variable {s : Store}

lemma names_nodup (h : s.Regular) (f : FrameId) : (s.names f).Nodup := by
  rw [← order_table]
  exact (h.made f).coherent.nodup

/-- A frame is a root, or has its parent and what is around that around it. -/
lemma parent?_cases (h : s.Regular) (f : FrameId) :
    (s.parent? f = none ∧ (s.frame f).outer = []) ∨
      ∃ p, s.parent? f = some p ∧ (s.frame f).outer = s.chain p := by
  rcases h.nested f with hf | ⟨p, -, hf⟩
  · exact .inl ⟨by rw [parent?, hf]; rfl, hf⟩
  · exact .inr ⟨p, by rw [parent?, hf]; rfl, hf⟩

/-- The frames from parent to parent are those around the frame, in order. -/
lemma ancestor_eq (h : s.Regular) (f : FrameId) (n : Nat) : s.ancestor f n = (s.chain f)[n]? := by
  induction n generalizing f with
  | zero => rfl
  | succ n ih =>
    rcases h.parent?_cases f with ⟨hp, ho⟩ | ⟨p, hp, ho⟩
    · rw [ancestor, hp, chain, ho]
      rfl
    · calc s.ancestor f (n + 1) = s.ancestor p n := by rw [ancestor, hp, Option.bind_some]
        _ = (s.chain p)[n]? := ih p
        _ = (s.chain f)[n + 1]? := by rw [← ho, chain, List.getElem?_cons_succ]

lemma depth_eq (h : s.Regular) {f p : FrameId} (hp : s.parent? f = some p) :
    s.depth f = s.depth p + 1 := by
  rcases h.parent?_cases f with ⟨hnone, -⟩ | ⟨q, hq, ho⟩
  · rw [hnone] at hp
    cases hp
  · rw [hq, Option.some.injEq] at hp
    calc s.depth f = (s.chain p).length := by rw [depth, ho, hp]
      _ = s.depth p + 1 := by rw [chain, List.length_cons, depth]

/-- The way from parent to parent ends at a root. -/
lemma exists_root (h : s.Regular) (f : FrameId) :
    ∃ r, s.ancestor f (s.depth f) = some r ∧ s.parent? r = none := by
  generalize hn : s.depth f = n
  induction n generalizing f with
  | zero => exact ⟨f, rfl, by rw [parent?, List.length_eq_zero_iff.1 hn]; rfl⟩
  | succ n ih =>
    rcases h.parent?_cases f with ⟨-, ho⟩ | ⟨p, hp, -⟩
    · rw [depth, ho] at hn
      cases hn
    · have hdepth : s.depth p = n := by
        have hd := h.depth_eq hp
        omega
      obtain ⟨r, hr, hroot⟩ := ih p hdepth
      exact ⟨r, by rw [ancestor, hp]; exact hr, hroot⟩

lemma isWithin_iff (h : s.Regular) (f g : FrameId) :
    s.isWithin f g = true ↔ ∃ n, s.ancestor f n = some g := by
  rw [isWithin, decide_eq_true_iff, List.mem_iff_getElem?]
  exact exists_congr fun n => by rw [h.ancestor_eq]

/-- Frames lie within older frames only. -/
lemma le_of_isWithin (h : s.Regular) {f g : Nat} (hfg : s.isWithin f g = true) : g ≤ f := by
  rw [isWithin, decide_eq_true_iff] at hfg
  rcases List.mem_cons.1 hfg with rfl | hfg
  · exact Nat.le_refl _
  · exact (h.outer_lt f g hfg).le

lemma isWithin_trans (h : s.Regular) {f g k : FrameId} (hfg : s.isWithin f g = true)
    (hgk : s.isWithin g k = true) : s.isWithin f k = true := by
  rw [isWithin, decide_eq_true_iff] at hfg hgk ⊢
  rcases List.mem_cons.1 hfg with rfl | hfg
  · exact hgk
  · exact List.mem_cons_of_mem f ((h.outer_suffix f g hfg).subset hgk)

lemma intact (h : s.Regular) : s.Intact where
  table_made := h.made
  names_eq f := (s.order_table f).symm
  names_nodup := h.names_nodup
  mem_names f name := by
    rw [← order_table]
    exact (h.made f).coherent.mem_order name
  slot_found f name := (Table.lookup_of (h.names_nodup f) name).symm
  slot_once f g name name' i hi hi' :=
    h.slot_once f g name name' i (Table.mem_of_lookup hi) (Table.mem_of_lookup hi')
  root := h.exists_root
  depth_parent f p := h.depth_eq
  within_iff := h.isWithin_iff
  within_order :=
    { refl := fun f => by simp [isWithin, chain]
      trans := fun f g k => h.isWithin_trans
      antisymm := fun f g hfg hgf =>
        Nat.le_antisymm (h.le_of_isWithin hgf) (h.le_of_isWithin hfg) }

end Regular

end Store

/-- **Environments stay intact.** After any operations on environments that
exist at their turn, in any order, the store is intact; no operation changes
which of the existing frames a frame lies within; and a name is declared
exactly where it can be declared, which is where it is not declared yet. A
declaration writes to both containers of the frame; one that fails leaves the
store and them as they were. -/
theorem environments_stay_intact (g : Generator) (ops : List Operation)
    (h : (Store.empty g).Allows ops) :
    let s := (Store.empty g).perform ops
    s.Intact ∧
      (∀ op : Operation, ∀ f < s.frames.size, ∀ k, (op.apply s).isWithin f k = s.isWithin f k) ∧
      ∀ f < s.frames.size, ∀ name v,
        ((∃ s', s.declare f name v = .ok s') ↔ s.canDeclare f name = true) ∧
        (s.canDeclare f name = true ↔ name ∉ s.names f) ∧
        (∀ s', s.declare f name v = .ok s' →
          Table.declare name s.slots.size (s.table f) = .ok () (s'.table f)) ∧
        ∀ fault, s.declare f name v = .error fault →
          (Operation.declare f name v).apply s = s ∧
            Table.declare name s.slots.size (s.table f) = .error fault (s.table f) := by
  intro s
  have hs : s.Regular := (Store.regular_empty g).perform h
  refine ⟨hs.intact, fun op f hf k => ?_, fun f hf name v => ⟨?_, s.canDeclare_iff f name,
    fun s' hdeclare => ?_, fun fault hfault => ⟨?_, ?_⟩⟩⟩
  · rw [Store.isWithin, Store.isWithin, (op.later s).chain_eq f hf]
  · rw [Store.declare]
    cases s.canDeclare f name <;> simp
  · rw [Store.declare_table hf, hdeclare]
  · rw [Operation.apply, hfault]
    rfl
  · rw [Store.declare_table hf, hfault]

/-- A run stops in a call, with `f` and `x` declared; then its environment is
released, and `x` is declared in it again. -/
theorem environments_stay_intact_again :
    let ops : List Operation :=
      [.newRoot, .interpret 2 0 "func f(y)\x7bvar x y()\x7d var x f(x)", .extend 0, .release 0,
        .declare 0 "x" .undefined]
    let s := (Store.empty ⟨0⟩).perform ops
    (Store.empty ⟨0⟩).Allows ops ∧ s.Intact ∧ s.names 0 = ["x"] ∧ s.depth 2 = 1 ∧
      ¬ ∃ s', s.declare 0 "x" .undefined = .ok s' := by
  intro ops s
  have hops : (Store.empty ⟨0⟩).Allows ops := by
    refine ⟨trivial, ?_, ?_, ?_, ⟨?_, nofun⟩, trivial⟩
    all_goals
      change 0 < Array.size _
      decide +kernel
  obtain ⟨hintact, -, hdeclare⟩ := environments_stay_intact ⟨0⟩ ops hops
  have hnames : s.names 0 = ["x"] := by decide +kernel
  obtain ⟨hiff, hcan, -⟩ := hdeclare 0 (by decide +kernel) "x" .undefined
  refine ⟨hops, hintact, hnames, by decide +kernel, fun hd => ?_⟩
  have hnew := hcan.1 (hiff.1 hd)
  rw [hnames] at hnew
  exact hnew List.mem_cons_self

end ClosureCalc
