/-
Stores that agree on some of their frames.

Of two runs of the same program, one may have emptied frames that the other
kept. What matters is what can still be reached.

* `Store.Agree`: two stores with the same slots agree on a closed set of frames,
  none of which lost its names. They go on to agree when a name is bound
  (`Store.Agree.bind`) and when a frame is added (`Store.Agree.extend`).
* `Event.Safe`: an exit that empties no frame under a value that reaches it;
  `lost`: the frames emptied by safe exits.
* `ExitsAlike`: what the exit rule of the second run has to be like. It may keep
  frames (`exitsAlike_keepOnExit`) or empty them too
  (`exitsAlike_releaseOnExit`).
* `Store.Agree.exit`: stores go on to agree behind an exit.
-/
import ClosureCalc.Proofs.Reach
import Mathlib.Data.List.Basic

namespace ClosureCalc

/-! ### Stores that agree -/

/-- A function value was declared in one of the frames of `K`. -/
def Value.Inside (v : Value) (K : Set FrameId) : Prop :=
  ∀ decl closure, v = .function decl closure → closure ∈ K

lemma Value.Inside.mono {v : Value} {K K' : Set FrameId} (h : v.Inside K) (hK : K ⊆ K') :
    v.Inside K' :=
  fun decl closure hv => hK (h decl closure hv)

lemma inside_of_ne {v : Value} (h : ∀ decl closure, v ≠ .function decl closure)
    (K : Set FrameId) : v.Inside K :=
  fun decl closure hv => absurd hv (h decl closure)

namespace Store

/-- **Stores that agree** on the frames of `K`, while those of `D` lost names.
What can be reached from `K` is in `K`, and nothing of it is in `D`. -/
structure Agree (D K : Set FrameId) (s t : Store) : Prop where
  frames_size : t.frames.size = s.frames.size
  slots : t.slots = s.slots
  units : t.units = s.units
  generator : t.generator = s.generator
  frame : ∀ g ∈ K, t.frame g = s.frame g
  closed : ∀ g ∈ K, ∀ h, s.Points g h → h ∈ K
  slot_lt : ∀ g ∈ K, ∀ b ∈ (s.frame g).bindings, b.2 < s.slots.size
  lt : ∀ g ∈ K, g < s.frames.size
  clean : ∀ g ∈ K, g ∉ D
  lost_lt : ∀ g ∈ D, g < s.frames.size

namespace Agree

variable {D K : Set FrameId} {s t : Store} {f : FrameId}

lemma slot (h : Agree D K s t) (i : SlotId) : t.slot i = s.slot i := by
  rw [Store.slot, Store.slot, h.slots]

lemma chain_subset (h : Agree D K s t) (hf : f ∈ K) : ∀ g ∈ s.chain f, g ∈ K := by
  intro g hg
  rcases List.mem_cons.1 hg with rfl | hg
  · exact hf
  · exact h.closed f hf g (.outer hg)

lemma chain (h : Agree D K s t) (hf : f ∈ K) : t.chain f = s.chain f := by
  rw [Store.chain, Store.chain, h.frame f hf]

lemma names (h : Agree D K s t) (hf : f ∈ K) : t.names f = s.names f := by
  rw [Store.names, Store.names, h.frame f hf]

/-- A name stands for the same value in both stores. -/
lemma get? (h : Agree D K s t) (hf : f ∈ K) (name : String) : t.get? f name = s.get? f name := by
  have hslotIn : ∀ g ∈ s.chain f, t.slotIn name g = s.slotIn name g := fun g hg => by
    rw [slotIn, slotIn, h.frame g (h.chain_subset hf g hg)]
  have hslot : t.slot = s.slot := funext h.slot
  rw [Store.get?, Store.get?, lookup, lookup, h.chain hf, hslot, ← List.head?_filterMap,
    ← List.head?_filterMap, List.filterMap_congr hslotIn]

/-- A name in a frame of `K` stands for a value from inside `K`. -/
lemma inside_of_get? (h : Agree D K s t) (hf : f ∈ K) {name : String} {v : Value}
    (hv : s.get? f name = some v) : v.Inside K := by
  obtain ⟨i, hi, rfl⟩ := Option.map_eq_some_iff.1 hv
  obtain ⟨g, hg, hgi⟩ := List.exists_of_findSome?_eq_some hi
  intro decl closure hc
  exact h.closed g (h.chain_subset hf g hg) closure (.closure (mem_bindings_of_slotIn hgi) hc)

lemma canDeclare (h : Agree D K s t) (hf : f ∈ K) (name : String) :
    t.canDeclare f name = s.canDeclare f name := by
  rw [Store.canDeclare, Store.canDeclare, slotIn, slotIn, h.frame f hf]

/-- The bindings of a frame behind a declaration. -/
lemma mem_bindings_bind {name : String} {v : Value} {g : FrameId} {b : String × SlotId}
    (hb : b ∈ ((s.bind f name v).frame g).bindings) :
    b ∈ (s.frame g).bindings ∨ b = (name, s.slots.size) := by
  rw [frame_bind] at hb
  split at hb
  · rename_i hg
    rw [hg.1]
    exact (List.mem_append.1 hb).imp_right List.mem_singleton.1
  · exact .inl hb

/-- The same new name is bound in both stores. -/
lemma bind (h : Agree D K s t) (hf : f ∈ K) (name : String) {v : Value} (hv : v.Inside K) :
    Agree D K (s.bind f name v) (t.bind f name v) where
  frames_size := by rw [size_frames_bind, size_frames_bind, h.frames_size]
  slots := by
    change t.slots.push v = s.slots.push v
    rw [h.slots]
  units := h.units
  generator := h.generator
  frame g hg := by
    rw [frame_bind, frame_bind, h.frames_size, h.frame f hf, h.frame g hg, h.slots]
  closed g hg k hp := by
    cases hp with
    | outer hk =>
      rw [Store.bind, outer_setBindings] at hk
      exact h.closed g hg k (.outer hk)
    | @closure b decl _ hb hc =>
      -- the slot of the new name holds the new value, the others hold what they held
      rcases (mem_bindings_bind hb) with hb | rfl
      · rw [slot_bind, if_neg (h.slot_lt g hg b hb).ne] at hc
        exact h.closed g hg k (.closure hb hc)
      · rw [slot_bind, if_pos rfl] at hc
        exact hv decl k hc
  slot_lt g hg b hb := by
    rw [size_slots_bind]
    rcases mem_bindings_bind hb with hb | rfl
    · exact Nat.lt_succ_of_lt (h.slot_lt g hg b hb)
    · exact Nat.lt_succ_self _
  lt g hg := by
    rw [size_frames_bind]
    exact h.lt g hg
  clean := h.clean
  lost_lt g hg := by
    rw [size_frames_bind]
    exact h.lost_lt g hg

/-- A new frame inside a frame of `K` becomes part of it. -/
lemma extend (h : Agree D K s t) (hf : f ∈ K) :
    Agree D (insert s.frames.size K) (s.extend f).2 (t.extend f).2 := by
  have hold : ∀ g ∈ K, (s.extend f).2.frame g = s.frame g := fun g hg => by
    rw [frame_extend, if_neg (h.lt g hg).ne]
  have hnew : (s.extend f).2.frame s.frames.size = ⟨s.chain f, []⟩ := by
    rw [frame_extend, if_pos rfl]
  refine ⟨?_, h.slots, h.units, h.generator, ?_, ?_, ?_, ?_, ?_, ?_⟩
  · rw [size_frames_extend, size_frames_extend, h.frames_size]
  · rintro g (rfl | hg)
    · rw [hnew, frame_extend, if_pos h.frames_size.symm, h.chain hf]
    · rw [hold g hg, frame_extend, if_neg (h.frames_size.symm ▸ (h.lt g hg).ne), h.frame g hg]
  · rintro g (rfl | hg) k hp
    · cases hp with
      | outer hk =>
        rw [hnew] at hk
        exact .inr (h.chain_subset hf k hk)
      | closure hb _ =>
        rw [hnew] at hb
        simp at hb
    · refine .inr (h.closed g hg k ?_)
      cases hp with
      | outer hk =>
        rw [hold g hg] at hk
        exact .outer hk
      | closure hb hc =>
        rw [hold g hg] at hb
        exact .closure hb hc
  · rintro g (rfl | hg) b hb
    · rw [hnew] at hb
      simp at hb
    · rw [hold g hg] at hb
      exact h.slot_lt g hg b hb
  · rintro g (rfl | hg) <;> rw [size_frames_extend]
    · exact Nat.lt_succ_self _
    · exact Nat.lt_succ_of_lt (h.lt g hg)
  · rintro g (rfl | hg)
    · exact fun hD => absurd (h.lost_lt _ hD) (Nat.lt_irrefl _)
    · exact h.clean g hg
  · intro g hg
    rw [size_frames_extend]
    exact Nat.lt_succ_of_lt (h.lost_lt g hg)

/-- Frames and slots may stay as they are. -/
lemma of_eq (h : Agree D K s t) {s' t' : Store} (hs : s'.frames = s.frames)
    (hslots : s'.slots = s.slots) (ht : t'.frames = t.frames) (htslots : t'.slots = t.slots)
    (hunits : t'.units = s'.units) (hgenerator : t'.generator = s'.generator) :
    Agree D K s' t' := by
  obtain ⟨frames, slots, units, generator⟩ := s'
  obtain ⟨frames', slots', units', generator'⟩ := t'
  cases hs
  cases hslots
  cases ht
  cases htslots
  refine ⟨h.frames_size, h.slots, hunits, hgenerator, h.frame, fun f hf k hp => ?_, h.slot_lt,
    h.lt, h.clean, h.lost_lt⟩
  refine h.closed f hf k ?_
  cases hp with
  | outer hk => exact .outer hk
  | closure hb hv => exact .closure hb hv

/-- The stores agree on fewer frames, if these are closed. -/
lemma restrict (h : Agree D K s t) {K' : Set FrameId} (hK : K' ⊆ K)
    (hclosed : ∀ g ∈ K', ∀ k, s.Points g k → k ∈ K') : Agree D K' s t :=
  { h with
    frame := fun g hg => h.frame g (hK hg)
    closed := hclosed
    slot_lt := fun g hg => h.slot_lt g (hK hg)
    lt := fun g hg => h.lt g (hK hg)
    clean := fun g hg => h.clean g (hK hg) }

/-- Frames that are not among those agreed on may count as lost. -/
lemma lose (h : Agree D K s t) {E : Set FrameId} (hE : ∀ g ∈ E, g ∉ K ∧ g < s.frames.size) :
    Agree (D ∪ E) K s t :=
  { h with
    clean := fun g hg hD => hD.elim (h.clean g hg) fun he => (hE g he).1 hg
    lost_lt := fun g hD => hD.elim (h.lost_lt g) fun he => (hE g he).2 }

/-- The stores go on to agree when a frame is left, as far as the frames are the
same. -/
lemma leave (h : Agree D K s t) {result : Option Value} {t' : Store}
    (hsize : t'.frames.size = t.frames.size) (hslots : t'.slots = t.slots)
    (hunits : t'.units = t.units) (hgenerator : t'.generator = t.generator)
    (hframe : ∀ g ∈ K, t'.frame g = (s.leave f result).frame g) :
    Agree D K (s.leave f result) t' where
  frames_size := by rw [hsize, size_frames_leave, h.frames_size]
  slots := by rw [hslots, slots_leave, h.slots]
  units := by rw [hunits, units_leave, h.units]
  generator := by rw [hgenerator, generator_leave, h.generator]
  frame := hframe
  closed g hg k hp := h.closed g hg k (points_of_leave hp)
  slot_lt g hg b hb := by
    rw [slots_leave]
    exact h.slot_lt g hg b (mem_bindings_of_leave hb)
  lt g hg := by
    rw [size_frames_leave]
    exact h.lt g hg
  clean := h.clean
  lost_lt g hD := by
    rw [size_frames_leave]
    exact h.lost_lt g hD

/-- A frame that is not among those agreed on may be emptied in one store. -/
lemma leave_left (h : Agree D K s t) {result : Option Value} (hf : s.Empties f result → f ∉ K) :
    Agree D K (s.leave f result) t := by
  refine h.leave rfl rfl rfl rfl fun g hg => (h.frame g hg).trans ?_
  by_cases hgf : g = f
  · exact (frame_leave_of_not_empties (fun he => hf he (hgf ▸ hg)) g).symm
  · exact (frame_leave_of_ne hgf s result).symm

/-- A frame may be left in both stores. Whether it is emptied depends on the
value that leaves it, which is from inside the frames agreed on. -/
lemma leave_both (h : Agree D K s t) {result : Option Value}
    (hresult : ∀ v, result = some v → v.Inside K) :
    Agree D K (s.leave f result) (t.leave f result) := by
  have hcaptures : result.any (t.captures · f) = result.any (s.captures · f) := by
    rcases result with - | v
    · rfl
    · cases v with
      | function decl closure =>
        rw [Option.any_some, Option.any_some, captures, captures, isWithin, isWithin,
          h.chain (hresult _ rfl decl closure rfl)]
      | _ => rfl
  refine h.leave (size_frames_leave t f result) (slots_leave t f result)
    (units_leave t f result) (generator_leave t f result) fun g hg => ?_
  rw [Store.leave, Store.leave, hcaptures]
  split
  · exact h.frame g hg
  · rw [frame_release, frame_release, h.frames_size]
    split
    · rename_i hgf
      rw [← hgf.1, h.frame g hg]
    · exact h.frame g hg

/-- What was agreed on before goes on to be closed in a later store. -/
lemma closed_later (h : Agree D K s t) {s' : Store} (hs : s.Extends ∅ s') :
    ∀ g ∈ K, ∀ k, s'.Points g k → k ∈ K := by
  intro g hg k hp
  have hframe := hs.frame_eq (h.lt g hg) (Set.notMem_empty g)
  refine h.closed g hg k ?_
  cases hp with
  | outer hk =>
    rw [hframe] at hk
    exact .outer hk
  | closure hb hv =>
    rw [hframe] at hb
    rw [hs.slot _ (h.slot_lt g hg _ hb)] at hv
    exact .closure hb hv

end Agree

end Store

/-- **Safe exits**: a frame that loses names can not be reached from the value
that leaves it, as when that is a function from an older frame. -/
def Event.Safe (ev : Event) : Prop :=
  ∀ f decl, ∀ closure : Nat, ∀ s, ev = .leaves f (some (.function decl closure)) s →
    s.Empties f (some (.function decl closure)) → closure < f ∨ ¬ s.Reach closure f

/-- The frames that are emptied by safe exits. -/
def lost (τ : List Event) : Set FrameId := {g | ∃ ev ∈ τ, ev.Empties g ∧ ev.Safe}

@[simp]
lemma lost_nil : lost [] = ∅ := by
  simp [lost]

@[simp]
lemma lost_append (τ τ' : List Event) : lost (τ ++ τ') = lost τ ∪ lost τ' := by
  ext g
  simp [lost, or_and_right, exists_or]

lemma lost_cons (ev : Event) (τ : List Event) :
    lost (ev :: τ) = {g | ev.Empties g ∧ ev.Safe} ∪ lost τ := by
  ext g
  simp [lost]

/-- An event that empties no frame. -/
lemma lost_cons_of_not_empties {ev : Event} (h : ∀ g, ¬ ev.Empties g) (τ : List Event) :
    lost (ev :: τ) = lost τ := by
  have hnone : {g | ev.Empties g ∧ ev.Safe} = ∅ :=
    Set.eq_empty_of_forall_notMem fun g hg => h g hg.1
  rw [lost_cons, hnone, Set.empty_union]

/-- **What survives an exit.** Of the frames agreed on when a new frame is left,
those of before and those that the value leaving it reaches go on to be closed.
If the frame is emptied and the exit is safe, it is not among them. -/
lemma Store.Agree.survivors {D D' K K' : Set FrameId} {s t s' t' : Store}
    {result : Option Value} (h : s.Agree D K t) (hs : s.Extends ∅ s') (h' : s'.Agree D' K' t')
    (hK : insert s.frames.size K ⊆ K')
    (hnew : ∀ g ∈ K', g ∉ K → s.frames.size ≤ g)
    (hresult : ∀ v, result = some v → v.Inside K') :
    ∃ K₁, K ⊆ K₁ ∧ K₁ ⊆ K' ∧ (∀ g ∈ K₁, ∀ k, s'.Points g k → k ∈ K₁) ∧
      (∀ v, result = some v → v.Inside K₁) ∧
      (s'.Empties s.frames.size result → Event.Safe (.leaves s.frames.size result s') →
        s.frames.size ∉ K₁) := by
  have hclosed := h.closed_later hs
  have hout : s.frames.size ∉ K := fun hg => Nat.lt_irrefl _ (h.lt _ hg)
  refine ⟨{g | g ∈ K ∨ ∃ v, result = some v ∧ v.Reaches s' g}, fun g hg => .inl hg, ?_, ?_, ?_,
    fun he hsafe => ?_⟩
  · rintro g (hg | ⟨v, hv, decl, closure, rfl, hr⟩)
    · exact hK (.inr hg)
    · exact hr.mem h'.closed (hresult _ hv decl closure rfl)
  · rintro g (hg | ⟨v, hv, decl, closure, rfl, hr⟩) k hp
    · exact .inl (hclosed g hg k hp)
    · exact .inr ⟨_, hv, decl, closure, rfl, hr.tail hp⟩
  · rintro v hv decl closure rfl
    exact .inr ⟨_, hv, decl, closure, rfl, .refl⟩
  · rintro (hg | ⟨v, hv, decl, closure, rfl, hr⟩)
    · exact hout hg
    · subst hv
      -- the value does not reach the frame: at worst it is older, and so is all it reaches
      rcases hsafe _ decl closure s' rfl he with hlt | hnot
      · have hc : closure ∈ K := by
          by_contra hc
          exact (hnew closure (hresult _ rfl decl closure rfl) hc).not_gt hlt
        exact hout (hr.mem hclosed hc)
      · exact hnot hr

/-! ### Exit rules -/

/-- **An exit rule for the second run**: stores that agree go on to do so, when
the first run leaves a frame by an allowed exit. If it is emptied by a safe
exit, it is not among the frames agreed on. -/
def ExitsAlike (exit : ExitRule) (Allowed : Event → Prop) : Prop :=
  ∀ (D K : Set FrameId) (s t : Store) (f : FrameId) (result : Option Value), s.Agree D K t →
    (∀ v, result = some v → v.Inside K) → Allowed (.leaves f result s) →
    (s.Empties f result → Event.Safe (.leaves f result s) → f ∉ K) →
      ∃ t', exit f result t = .ok () t' ∧ (s.leave f result).Agree D K t'

/-- The second run may keep its frames, if the exits of the first are safe. -/
lemma exitsAlike_keepOnExit : ExitsAlike keepOnExit Event.Safe :=
  fun _ _ _ t _ _ h _ hsafe hf => ⟨t, rfl, h.leave_left fun he => hf he hsafe⟩

/-- The second run may empty its frames like the first. -/
lemma exitsAlike_releaseOnExit : ExitsAlike releaseOnExit fun _ => True :=
  fun _ _ _ t f result h hresult _ _ =>
    ⟨t.leave f result, Store.leave_eq f result t, h.leave_both hresult⟩

/-- **Behind an exit** the stores agree on what survives it. -/
lemma Store.Agree.exit {exit : ExitRule} {Allowed : Event → Prop}
    (hexit : ExitsAlike exit Allowed) {D D' K K' : Set FrameId} {s t s' t' : Store}
    {result : Option Value} (h : s.Agree D K t) (hs : s.Extends ∅ s') (h' : s'.Agree D' K' t')
    (hK : insert s.frames.size K ⊆ K')
    (hnew : ∀ g ∈ K', g ∉ insert s.frames.size K → s.frames.size ≤ g)
    (hresult : ∀ v, result = some v → v.Inside K')
    (hallowed : Allowed (.leaves s.frames.size result s')) :
    ∃ K₁ t₁, exit s.frames.size result t' = .ok () t₁ ∧ K ⊆ K₁ ∧
      (∀ g ∈ K₁, g ∉ K → s.frames.size ≤ g) ∧
      (s'.leave s.frames.size result).Agree
        (D' ∪ lost [.leaves s.frames.size result s']) K₁ t₁ ∧
      ∀ v, result = some v → v.Inside K₁ := by
  have hnew' : ∀ g ∈ K', g ∉ K → s.frames.size ≤ g := fun g hg hgK => by
    by_cases hgs : g = s.frames.size
    · exact hgs.ge
    · exact hnew g hg fun hg' => hg'.elim hgs hgK
  obtain ⟨K₁, hKK₁, hK₁, hclosed, hinside, hout⟩ := h.survivors hs h' hK hnew' hresult
  obtain ⟨t₁, ht₁, hagree⟩ := hexit _ _ _ _ _ _ (h'.restrict hK₁ hclosed) hinside hallowed hout
  refine ⟨K₁, t₁, ht₁, hKK₁, fun g hg => hnew' g (hK₁ hg), hagree.lose ?_, hinside⟩
  rintro g ⟨ev, hev, he, hsafe⟩
  obtain rfl := List.mem_singleton.1 hev
  obtain ⟨rfl, he⟩ := he
  refine ⟨hout he hsafe, ?_⟩
  rw [Store.size_frames_leave]
  exact h'.lt _ (hK (.inl rfl))

end ClosureCalc
