/-
Names behind declarations, assignments and releases.

A name stands for the slot that the first frame declaring it, from a frame outwards,
binds it to. So a declaration is seen where its frame comes first, an assignment where
the same slot is found, and a release where the emptied frame came first.

* `Store.declarer?`: the first frame that declares a name; `Store.getBeside?`: what a
  name stands for if one frame is passed over.
* `Store.AfterDeclare`, `Store.AfterSet`, `Store.AfterRelease`: what every name stands
  for behind an operation, and what the slots hold.
* `Store.BoundIn`: a slot that is bound to names in certain frames only. No operation
  adds to these frames (`Store.BoundIn.apply`), and a release takes its frame away
  (`Store.BoundIn.release`).
* `names_follow_operations`: what declarations, assignments and releases do in every
  store that operations on environments can make.
-/
import ClosureCalc.Proofs.Environments

namespace ClosureCalc

namespace Store

/-! ### Where a name is found -/

/-- **The first frame that declares a name**, from `f` outwards. -/
def declarer? (s : Store) (f : FrameId) (name : String) : Option FrameId :=
  (s.chain f).find? fun g => decide (name ∈ s.names g)

/-- What a name stands for from `f` if the frame `e` is treated as declaring nothing. -/
def getBeside? (s : Store) (e f : FrameId) (name : String) : Option Value :=
  (((s.chain f).filter fun g => decide (g ≠ e)).findSome? (s.slotIn name)).map s.slot

/-- A name has a slot in the frames that declare it. -/
lemma isSome_slotIn (s : Store) (f : FrameId) (name : String) :
    (s.slotIn name f).isSome = decide (name ∈ s.names f) := by
  have h := s.canDeclare_iff f name
  rw [canDeclare] at h
  cases hslot : s.slotIn name f <;> simp_all

lemma declarer?_eq (s : Store) (f : FrameId) (name : String) :
    s.declarer? f name = (s.chain f).find? fun g => (s.slotIn name g).isSome := by
  rw [declarer?]
  congr 1
  funext g
  rw [isSome_slotIn]

/-- The slot of a name is the one that the first frame declaring it binds it to. -/
lemma lookup_eq (s : Store) (f : FrameId) (name : String) :
    s.lookup f name = (s.declarer? f name).bind (s.slotIn name) := by
  rw [lookup, declarer?_eq]
  induction s.chain f with
  | nil => rfl
  | cons g l ih =>
    rw [List.findSome?_cons, List.find?_cons]
    cases hslot : s.slotIn name g with
    | none => exact ih
    | some i => exact hslot.symm

/-- A name stands for a value where it is declared around. -/
lemma isSome_lookup_iff (s : Store) (f : FrameId) (name : String) :
    (s.lookup f name).isSome = true ↔ ∃ g ∈ s.chain f, name ∈ s.names g := by
  rw [lookup, List.findSome?_isSome_iff]
  exact exists_congr fun g => and_congr_right fun _ => by
    rw [isSome_slotIn, decide_eq_true_iff]

/-- A slot that is found exists. -/
lemma WellFormed.lookup_lt {s : Store} (h : s.WellFormed) {f : FrameId} {name : String}
    {i : SlotId} (hi : s.lookup f name = some i) : i < s.slots.size := by
  obtain ⟨g, -, hg⟩ := List.exists_of_findSome?_eq_some hi
  exact h.slot_lt g (name, i) (mem_bindings_of_slotIn hg)

/-- Two searches along the same frames that differ at one frame only find the same, if
what the first of them finds is not there. -/
lemma findSome?_eq_of_first_ne {p q : FrameId → Option SlotId} {e : FrameId}
    (hpq : ∀ g, g ≠ e → p g = q g) (he : (p e).isSome) {l : List FrameId}
    (hfirst : l.find? (fun g => (p g).isSome) ≠ some e) : l.findSome? p = l.findSome? q := by
  induction l with
  | nil => rfl
  | cons g l ih =>
    by_cases hg : g = e
    · subst hg
      exact absurd (List.find?_cons_of_pos (p := fun g => (p g).isSome) he) hfirst
    · rw [List.findSome?_cons, List.findSome?_cons, ← hpq g hg]
      cases hp : p g with
      | some i => rfl
      | none =>
        rw [List.find?_cons_of_neg (by simp [hp])] at hfirst
        exact ih hfirst

/-! ### Declarations -/

/-- **Behind a declaration**: the name stands for the new value wherever the frame is the
first one that declares it, and all else is as before. -/
structure AfterDeclare (s : Store) (e : FrameId) (name : String) (v : Value) (s' : Store) :
    Prop where
  get : ∀ f n, s'.get? f n =
    if n = name ∧ s'.declarer? f name = some e then some v else s.get? f n
  slot : ∀ i < s.slots.size, s'.slot i = s.slot i

lemma slotIn_bind {s : Store} {e : FrameId} {name : String} (he : e < s.frames.size)
    (hc : s.canDeclare e name = true) (v : Value) (n : String) (g : FrameId) :
    (s.bind e name v).slotIn n g =
      if n = name ∧ g = e then some s.slots.size else s.slotIn n g := by
  rw [slotIn, frame_bind]
  by_cases hg : g = e
  · subst hg
    rw [if_pos ⟨rfl, he⟩, List.lookup_append, List.lookup_cons]
    by_cases hn : n = name
    · subst hn
      rw [canDeclare, Option.isNone_iff_eq_none, slotIn] at hc
      simp [hc]
    · have hb : (n == name) = false := by simpa using hn
      rw [hb, if_neg fun h => hn h.1]
      exact Option.or_none
  · rw [if_neg fun h => hg h.1, if_neg fun h => hg h.2]
    rfl

lemma WellFormed.afterDeclare {s s' : Store} (h : s.WellFormed) {e : FrameId} {name : String}
    {v : Value} (he : e < s.frames.size) (hd : s.declare e name v = .ok s') :
    s.AfterDeclare e name v s' := by
  obtain ⟨hc, rfl⟩ : s.canDeclare e name = true ∧ s.bind e name v = s' := by
    rw [declare] at hd
    split at hd
    · rename_i hc
      exact ⟨hc, Except.ok.inj hd⟩
    · cases hd
  have hslotIn := slotIn_bind he hc v
  refine ⟨fun f n => ?_, fun i hi => by rw [slot_bind, if_neg hi.ne]⟩
  split
  · rename_i hn
    obtain ⟨rfl, hfirst⟩ := hn
    have hlookup : (s.bind e n v).lookup f n = some s.slots.size := by
      rw [lookup_eq, hfirst, Option.bind_some, hslotIn, if_pos ⟨rfl, rfl⟩]
    rw [get?, hlookup, Option.map_some, slot_bind, if_pos rfl]
  · rename_i hn
    have hlookup : (s.bind e name v).lookup f n = s.lookup f n := by
      rw [lookup, lookup, chain_bind]
      by_cases hname : n = name
      · subst hname
        refine findSome?_eq_of_first_ne (e := e) (fun g hg => ?_) ?_ fun hfirst => hn ⟨rfl, ?_⟩
        · rw [hslotIn, if_neg fun hg' => hg hg'.2]
        · rw [hslotIn, if_pos ⟨rfl, rfl⟩]
          rfl
        · rw [declarer?_eq, chain_bind]
          exact hfirst
      · congr 1
        funext g
        rw [hslotIn, if_neg fun hg => hname hg.1]
    rw [get?, get?, hlookup]
    cases hi : s.lookup f n with
    | none => rfl
    | some i => rw [Option.map_some, Option.map_some, slot_bind, if_neg (h.lookup_lt hi).ne]

/-! ### Assignments -/

/-- **Behind an assignment**: the names that stand for the same slot have the new value,
and all else is as before. -/
structure AfterSet (s : Store) (e : FrameId) (name : String) (v : Value) (s' : Store) :
    Prop where
  get : ∀ f n, s'.get? f n =
    if s.lookup f n = s.lookup e name then some v else s.get? f n
  slot : ∀ i, s'.slot i = if s.lookup e name = some i then v else s.slot i

lemma isSome_set?_iff (s : Store) (e : FrameId) (name : String) (v : Value) :
    (s.set? e name v).isSome = true ↔ ∃ g ∈ s.chain e, name ∈ s.names g := by
  rw [set?, Option.isSome_map, isSome_lookup_iff]

lemma WellFormed.afterSet {s s' : Store} (h : s.WellFormed) {e : FrameId} {name : String}
    {v : Value} (hset : s.set? e name v = some s') : s.AfterSet e name v s' := by
  obtain ⟨i, hi, rfl⟩ := Option.map_eq_some_iff.1 hset
  have hslot := slot_setSlot (h.lookup_lt hi) v
  refine ⟨fun f n => ?_, fun j => ?_⟩
  · have hlookup : (s.setSlot i v).lookup f n = s.lookup f n := rfl
    rw [get?, get?, hlookup, hi]
    cases hj : s.lookup f n with
    | none => rfl
    | some j =>
      rw [Option.map_some, hslot]
      by_cases hji : j = i <;> simp [hji]
  · rw [hslot, hi]
    simp only [Option.some.injEq, eq_comm]

/-! ### Releases -/

/-- **Behind a release**: names stand for what they stand for without the frame, which
is what they stood for unless that frame came first. The slots hold what they held. -/
structure AfterRelease (s : Store) (e : FrameId) (s' : Store) : Prop where
  get : ∀ f n, s'.get? f n = s.getBeside? e f n
  get_eq : ∀ f n, s.declarer? f n ≠ some e → s'.get? f n = s.get? f n
  slot : ∀ i, s'.slot i = s.slot i

lemma slotIn_release (s : Store) (e : FrameId) (n : String) (g : FrameId) :
    (s.release e).slotIn n g = if g = e then none else s.slotIn n g := by
  rw [slotIn, frame_release]
  by_cases hg : g = e
  · subst hg
    rw [if_pos rfl]
    split
    · rfl
    · rename_i he
      rw [frame_of_size_le (Nat.not_lt.1 fun hlt => he ⟨rfl, hlt⟩)]
      rfl
  · rw [if_neg fun h => hg h.1, if_neg hg]
    rfl

lemma afterRelease (s : Store) (e : FrameId) : s.AfterRelease e (s.release e) := by
  have hslotIn := slotIn_release s e
  have hslot : (s.release e).slot = s.slot := funext (slot_release s e)
  refine ⟨fun f n => ?_, fun f n hfirst => ?_, slot_release s e⟩
  · rw [get?, lookup, chain_release, getBeside?, hslot]
    congr 1
    induction s.chain f with
    | nil => rfl
    | cons g l ih =>
      rw [List.findSome?_cons, List.filter_cons, hslotIn]
      by_cases hg : g = e
      · simpa [hg] using ih
      · simp only [hg, if_false, ne_eq, not_false_eq_true, decide_true, if_true,
          List.findSome?_cons, ih]
  · rw [get?, get?, lookup, lookup, chain_release, hslot]
    congr 1
    have hne : ∀ g, g ≠ e → s.slotIn n g = (s.release e).slotIn n g := fun g hg => by
      rw [hslotIn, if_neg hg]
    by_cases he : (s.slotIn n e).isSome
    · rw [declarer?_eq] at hfirst
      exact (findSome?_eq_of_first_ne hne he hfirst).symm
    · -- a frame that does not declare the name does not matter
      have hnone : s.slotIn n e = none := by simpa using he
      congr 1
      funext g
      by_cases hg : g = e
      · rw [hslotIn, if_pos hg, hg, hnone]
      · exact (hne g hg).symm

/-! ### Slots that no name leads to -/

/-- **A slot is bound in frames of `F` only**, if to any names at all. -/
structure BoundIn (s : Store) (i : SlotId) (F : Set FrameId) : Prop where
  lt : i < s.slots.size
  mem : ∀ g name, (name, i) ∈ (s.frame g).bindings → g ∈ F

/-- The slot of a name is bound in its frame only. -/
lemma Regular.boundIn {s : Store} (h : s.Regular) {e : FrameId} {name : String} {i : SlotId}
    (hi : s.slotIn name e = some i) : s.BoundIn i {e} := by
  have hb := mem_bindings_of_slotIn hi
  exact ⟨h.slot_lt e _ hb, fun g n hn => (h.slot_once g e n name i hn hb).1⟩

namespace BoundIn

variable {s s' : Store} {i : SlotId} {F : Set FrameId}

lemma later (h : s.BoundIn i F) (hslots : s.slots.size ≤ s'.slots.size)
    (hsub : ∀ g, (s'.frame g).bindings ⊆ (s.frame g).bindings) : s'.BoundIn i F :=
  ⟨h.lt.trans_le hslots, fun g name hn => h.mem g name (hsub g hn)⟩

/-- A new name has a new slot. -/
lemma bind (h : s.BoundIn i F) (f : FrameId) (name : String) (v : Value) :
    (s.bind f name v).BoundIn i F := by
  refine ⟨by rw [size_slots_bind]; exact Nat.lt_succ_of_lt h.lt, fun g n hn => ?_⟩
  rcases mem_bindings_of_bind hn with hn | ⟨-, he⟩
  · exact h.mem g n hn
  · exact absurd (Prod.mk.inj he).2 h.lt.ne

lemma addFrame (h : s.BoundIn i F) (outer : List FrameId) : (s.addFrame outer).2.BoundIn i F := by
  refine h.later (Nat.le_refl _) fun g => ?_
  rw [frame_addFrame]
  split
  · exact List.nil_subset _
  · exact List.Subset.refl _

/-- A frame that is released binds the slot no longer. -/
lemma release (h : s.BoundIn i F) (e : FrameId) : (s.release e).BoundIn i (F \ {e}) := by
  refine ⟨h.lt, fun g name hn => ?_⟩
  rw [frame_release] at hn
  split at hn
  · cases hn
  · rename_i hg
    refine ⟨h.mem g name hn, fun he => hg ?_⟩
    obtain rfl : g = e := he
    refine ⟨rfl, Nat.lt_of_not_le fun hle => ?_⟩
    rw [frame_of_size_le hle] at hn
    cases hn

lemma leave (h : s.BoundIn i F) (f : FrameId) (result : Option Value) :
    (s.leave f result).BoundIn i F :=
  h.later (by rw [slots_leave]) fun _ _ => mem_bindings_of_leave

lemma of_eq (h : s.BoundIn i F) (hframes : s'.frames = s.frames) (hslots : s'.slots = s.slots) :
    s'.BoundIn i F := by
  refine h.later (by rw [hslots]) fun g => ?_
  rw [frame, frame, hframes]
  exact List.Subset.refl _

lemma declareEach (h : s.BoundIn i F) (f : FrameId) (names : List (String × Value)) :
    (s.declareEach f names).BoundIn i F := by
  induction names generalizing s with
  | nil => exact h
  | cons nv rest ih =>
    refine ih ?_
    rcases s.declare_cases f nv.1 nv.2 with ⟨-, hd⟩ | hd
    · rw [hd]
      exact h.bind f nv.1 nv.2
    · rw [hd]
      exact h

/-- A slot without names is found by no name. -/
lemma lookup_ne (h : s.BoundIn i ∅) (f : FrameId) (name : String) : s.lookup f name ≠ some i := by
  intro hi
  obtain ⟨g, -, hg⟩ := List.exists_of_findSome?_eq_some hi
  exact h.mem g name (mem_bindings_of_slotIn hg)

end BoundIn

/-- **Being bound in certain frames only, as a discipline** of runs. -/
def boundDiscipline (i : SlotId) (F : Set FrameId) : Discipline where
  Happens _ := True
  Holds s := s.BoundIn i F
  Admits _ _ := True
  Places _ _ _ _ := True

/-- **Single operations bind no slot again.** -/
lemma sound_boundDiscipline (i : SlotId) (F : Set FrameId) : (boundDiscipline i F).Sound where
  plain _ := trivial
  slot _ _ := trivial
  admits_later _ _ _ := trivial
  places_later _ _ _ := trivial
  places_part _ _ := trivial
  places_expr _ _ := trivial
  same := BoundIn.of_eq
  leave := BoundIn.leave
  closure _ := trivial
  declare hs _ _ _ _ := hs.bind _ _ _
  param _ hs _ _ _ := hs.bind _ _ _
  enter_block hs _ _ := ⟨hs.addFrame _, fun _ _ => trivial⟩
  enter_call hs _ _ := ⟨hs.addFrame _, fun _ _ => trivial⟩

namespace BoundIn

variable {s : Store} {i : SlotId} {F : Set FrameId}

/-- **No operation binds a slot again**, not even one that runs a program. -/
lemma apply (h : s.BoundIn i F) (op : Operation) : (op.apply s).BoundIn i F := by
  have hD := sound_boundDiscipline i F
  have hafter : ∀ {α : Type} {x : Eval α} {r : Record} {Q : α → Store → Prop},
      (boundDiscipline i F).Keeps x r Q s → (x.after s).BoundIn i F :=
    fun hx => (hx h fun _ _ => trivial).2.holds_after
  cases op with
  | newRoot => exact h.addFrame []
  | standardRoot =>
    rw [Operation.apply, standardRoot_snd]
    exact (h.addFrame []).declareEach _ _
  | extend f => exact h.addFrame (s.chain f)
  | declare f name v =>
    rcases s.declare_cases f name v with ⟨-, hd⟩ | hd
    · rw [Operation.apply, hd]
      exact h.bind f name v
    · rw [Operation.apply, hd]
      exact h
  | set f name v =>
    rcases s.set_cases f name v with ⟨j, hj⟩ | hj
    · rw [Operation.apply, hj]
      exact ⟨h.lt.trans_eq Array.size_setIfInBounds.symm, h.mem⟩
    · rw [Operation.apply, hj]
      exact h
  | release f =>
    have hr := h.release f
    exact ⟨hr.lt, fun g name hn => (hr.mem g name hn).1⟩
  | setSlot j v => exact ⟨h.lt.trans_eq Array.size_setIfInBounds.symm, h.mem⟩
  | interpret limit f source =>
    exact hafter (hD.keeps_interpret (fun _ _ _ _ _ _ _ _ => trivial) limit)
  | evaluate limit f e =>
    have he : (boundDiscipline i F).Places 0 f (.expr e) s := trivial
    exact hafter (hD.keeps_evaluate (hD.keeps_call limit) he)
  | call limit v args p =>
    exact hafter ((hD.keeps_call limit).keeps v args p s trivial fun _ _ => trivial)

lemma perform (h : s.BoundIn i F) (ops : List Operation) : (s.perform ops).BoundIn i F := by
  induction ops generalizing s with
  | nil => exact h
  | cons op ops ih => exact ih (h.apply op)

/-- The value of a slot outlasts declarations. -/
lemma slot_declareEach_eq (h : s.BoundIn i F) (f : FrameId) (names : List (String × Value)) :
    (s.declareEach f names).slot i = s.slot i := by
  induction names generalizing s with
  | nil => rfl
  | cons nv rest ih =>
    rw [Store.declareEach]
    rcases s.declare_cases f nv.1 nv.2 with ⟨-, hd⟩ | hd
    · rw [hd, ih (h.bind f nv.1 nv.2), slot_bind, if_neg h.lt.ne]
    · rw [hd, ih h]

/-- A slot that no name leads to is changed by nothing but setting the slot itself. -/
lemma slot_apply (h : s.BoundIn i ∅) {op : Operation} (hop : ∀ w, op ≠ .setSlot i w) :
    (op.apply s).slot i = s.slot i := by
  have hother : ∀ j w, j ≠ i → (s.setSlot j w).slot i = s.slot i := fun j w hj => by
    simp [Store.slot, Store.setSlot, hj]
  cases op with
  | newRoot => rfl
  | standardRoot =>
    rw [Operation.apply, standardRoot_snd]
    exact (h.addFrame []).slot_declareEach_eq s.newRoot.1 (standardNames s.newRoot.1)
  | extend f => rfl
  | declare f name v =>
    rcases s.declare_cases f name v with ⟨-, hd⟩ | hd
    · rw [Operation.apply, hd, slot_bind, if_neg h.lt.ne]
    · rw [Operation.apply, hd]
  | set f name v =>
    rw [Operation.apply, set?]
    cases hj : s.lookup f name with
    | none => rfl
    | some j => exact hother j v fun he => h.lookup_ne f name (he ▸ hj)
  | release f => rfl
  | setSlot j v => exact hother j v fun he => hop v (he ▸ rfl)
  | interpret limit f source => exact (affects_interpret limit f source s).grows.slot i h.lt
  | evaluate limit f e =>
    exact (affects_evaluate (affects_call limit) 0 f e s).grows.slot i h.lt
  | call limit v args p => exact (affects_call limit v args p s).grows.slot i h.lt

lemma slot_perform (h : s.BoundIn i ∅) {ops : List Operation} (hops : ∀ w, .setSlot i w ∉ ops) :
    (s.perform ops).slot i = s.slot i := by
  induction ops generalizing s with
  | nil => rfl
  | cons op ops ih =>
    have hop : ∀ w, op ≠ .setSlot i w := fun w he => hops w (he ▸ List.mem_cons_self)
    rw [Store.perform, ih (h.apply op) fun w hw => hops w (List.mem_cons_of_mem op hw),
      h.slot_apply hop]

/-- Setting a slot that no name leads to is not seen from any frame. -/
lemma get?_setSlot (h : s.BoundIn i ∅) (w : Value) (f : FrameId) (name : String) :
    (s.setSlot i w).get? f name = s.get? f name := by
  have hne := h.lookup_ne f name
  have hlookup : (s.setSlot i w).lookup f name = s.lookup f name := rfl
  rw [get?, get?, hlookup]
  cases hj : s.lookup f name with
  | none => rfl
  | some j =>
    have hji : j ≠ i := fun he => hne (hj.trans (congrArg some he))
    rw [Option.map_some, Option.map_some, slot_setSlot h.lt, if_neg hji]

end BoundIn

lemma perform_append (s : Store) (ops ops' : List Operation) :
    s.perform (ops ++ ops') = (s.perform ops).perform ops' := by
  induction ops generalizing s with
  | nil => rfl
  | cons op ops ih => exact ih (op.apply s)

/-- **A slot of a frame that was released** is bound to no name ever after. -/
lemma Regular.boundIn_release {s : Store} (h : s.Regular) {e : FrameId} {name : String}
    {i : SlotId} (hi : s.slotIn name e = some i) (before after : List Operation) :
    ((s.perform before).release e).BoundIn i ∅ ∧
      (s.perform (before ++ .release e :: after)).BoundIn i ∅ := by
  have hreleased : ((s.perform before).release e).BoundIn i ∅ := by
    have hb := ((h.boundIn hi).perform before).release e
    rwa [Set.sdiff_self] at hb
  refine ⟨hreleased, ?_⟩
  rw [perform_append]
  exact hreleased.perform after

end Store

/-- **Names follow the operations.** In every store that valid operations make, a
declaration that succeeds changes what a name stands for exactly where its frame is the
first one to declare it. An assignment succeeds exactly where the name is declared, and
changes the names that stand for the same slot; one that fails changes nothing. A release
takes the frame out of every search. A slot that a released frame had keeps its value,
and whatever is done in between and afterwards, setting it is not seen from any frame. -/
theorem names_follow_operations (g : Generator) (ops : List Operation)
    (h : (Store.empty g).Allows ops) :
    let s := (Store.empty g).perform ops
    (∀ e < s.frames.size, ∀ name v s', s.declare e name v = .ok s' →
        s.AfterDeclare e name v s') ∧
      (∀ e name v, ((s.set? e name v).isSome = true ↔ ∃ k ∈ s.chain e, name ∈ s.names k) ∧
        (∀ s', s.set? e name v = some s' → s.AfterSet e name v s') ∧
        (s.set? e name v = none → (Operation.set e name v).apply s = s)) ∧
      (∀ e, s.AfterRelease e (s.release e)) ∧
      ∀ e name i, s.slotIn name e = some i → ∀ before after : List Operation,
        let s' := s.perform (before ++ .release e :: after)
        (∀ w f n, (s'.setSlot i w).get? f n = s'.get? f n) ∧
          ((∀ w, .setSlot i w ∉ after) → s'.slot i = (s.perform before).slot i) := by
  intro s
  have hs : s.Regular := (Store.regular_empty g).perform h
  refine ⟨fun e he name v s' hd => hs.afterDeclare he hd, fun e name v =>
    ⟨s.isSome_set?_iff e name v, fun s' hset => hs.afterSet hset, fun hset => ?_⟩,
    s.afterRelease, fun e name i hi before after => ?_⟩
  · rw [Operation.apply, hset]
    rfl
  · obtain ⟨hreleased, hafter⟩ := hs.boundIn_release hi before after
    refine ⟨hafter.get?_setSlot, fun hnot => ?_⟩
    rw [Store.perform_append]
    exact hreleased.slot_perform hnot

/-- A frame shadows `x`, and a frame lies within it. -/
theorem names_follow_operations_shadowed :
    let ops : List Operation :=
      [.newRoot, .declare 0 "x" .undefined, .extend 0, .declare 1 "x" (.number .signal), .extend 1]
    let s := (Store.empty ⟨0⟩).perform ops
    (Store.empty ⟨0⟩).Allows ops ∧
      (∃ s', s.declare 2 "x" .undefined = .ok s' ∧ s'.get? 2 "x" = some .undefined) ∧
      (∃ s', s.set? 2 "x" .undefined = some s' ∧ s'.get? 1 "x" = some .undefined) ∧
      (Operation.set 2 "y" .undefined).apply s = s ∧
      (s.release 1).get? 2 "x" = some .undefined ∧
      ∀ w, ((s.perform [.extend 0, .release 1, .extend 1]).setSlot 1 w).get? 2 "x" =
        some .undefined := by
  intro ops s
  have hops : (Store.empty ⟨0⟩).Allows ops := by
    refine ⟨trivial, ⟨?_, nofun⟩, ?_, ⟨?_, nofun⟩, ?_, trivial⟩
    all_goals
      change _ < Array.size _
      decide +kernel
  obtain ⟨hdeclare, hset, hrelease, hslot⟩ := names_follow_operations ⟨0⟩ ops hops
  refine ⟨hops, ⟨s.bind 2 "x" .undefined, rfl, ?_⟩, ⟨s.setSlot 1 .undefined, rfl, ?_⟩,
    (hset 2 "y" .undefined).2.2 rfl, ?_, fun w => ?_⟩
  · exact (hdeclare 2 (by decide +kernel) "x" .undefined _ rfl).get 2 "x"
  · exact ((hset 2 "x" .undefined).2.1 _ rfl).get 1 "x"
  · exact (hrelease 1).get 2 "x"
  · exact (hslot 1 "x" 1 rfl [.extend 0] [.extend 1]).1 w 2 "x"

end ClosureCalc
