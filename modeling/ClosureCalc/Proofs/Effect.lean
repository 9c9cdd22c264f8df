/-
What changes in the store during a run.

A run only adds frames and slots. The frames that were there keep their
place, their names and the slots of these; only the frame that statements are
executed in gains names, and a frame that was entered during the run may lose
its names when it is left.

* `Store.leave`: the store behind a frame that is left; `emptied`: the frames
  that lose their names with the events of a run.
* `Store.Extends`: the stores that come later, with the frames that may have
  gained names; `Store.KeepsNames`: the same where some frames were emptied.
* `Numbered`: what is numbered during a run, frames and units, takes the numbers
  in order.
* `Effect`: what is known of a run from its events. The store at each event
  lies between the two ends, and no frame is entered and no unit begins twice.
  Effects add up (`Effect.trans`), and a frame that is entered and left has
  none outside (`Effect.newFrame`).
-/
import ClosureCalc.Proofs.Trace
import Mathlib.Data.Set.Insert
import Mathlib.Tactic.Lemma

namespace ClosureCalc

/-! ### Leaving a frame -/

namespace Store

/-- The store behind a frame that is left with a result. -/
def leave (s : Store) (f : FrameId) (result : Option Value) : Store :=
  if result.any (s.captures · f) then s else s.release f

/-- Leaving the frame takes slots away from it. -/
def Empties (s : Store) (f : FrameId) (result : Option Value) : Prop :=
  result.any (s.captures · f) = false ∧ (s.frame f).bindings ≠ []

instance (s : Store) (f : FrameId) (result : Option Value) :
    Decidable (s.Empties f result) :=
  inferInstanceAs (Decidable (_ ∧ _))

lemma leave_eq (f : FrameId) (result : Option Value) (s : Store) :
    releaseOnExit f result s = .ok () (s.leave f result) := by
  cases result <;> rfl

@[simp]
lemma size_frames_leave (s : Store) (f : FrameId) (result : Option Value) :
    (s.leave f result).frames.size = s.frames.size := by
  rw [leave]
  split
  · rfl
  · exact size_frames_release s f

@[simp]
lemma slots_leave (s : Store) (f : FrameId) (result : Option Value) :
    (s.leave f result).slots = s.slots := by
  rw [leave]
  split <;> rfl

@[simp]
lemma slot_leave (s : Store) (f : FrameId) (result : Option Value) (i : SlotId) :
    (s.leave f result).slot i = s.slot i := by
  rw [slot, slots_leave, slot]

@[simp]
lemma outer_leave (s : Store) (f : FrameId) (result : Option Value) (g : FrameId) :
    ((s.leave f result).frame g).outer = (s.frame g).outer := by
  rw [leave]
  split
  · rfl
  · exact outer_setBindings s f g []

@[simp]
lemma units_leave (s : Store) (f : FrameId) (result : Option Value) :
    (s.leave f result).units = s.units := by
  rw [leave]
  split <;> rfl

@[simp]
lemma generator_leave (s : Store) (f : FrameId) (result : Option Value) :
    (s.leave f result).generator = s.generator := by
  rw [leave]
  split <;> rfl

/-- Leaving a frame adds no bindings. -/
lemma mem_bindings_of_leave {s : Store} {f g : FrameId} {result : Option Value}
    {b : String × SlotId} (hb : b ∈ ((s.leave f result).frame g).bindings) :
    b ∈ (s.frame g).bindings := by
  rw [leave] at hb
  split at hb
  · exact hb
  · rw [frame_release] at hb
    split at hb
    · simp at hb
    · exact hb

/-- Only the frame itself can change. -/
lemma frame_leave_of_ne {f g : FrameId} (h : g ≠ f) (s : Store) (result : Option Value) :
    (s.leave f result).frame g = s.frame g := by
  rw [leave]
  split
  · rfl
  · rw [frame_release, if_neg fun hg => h hg.1]

/-- A frame without slots has none to lose. -/
lemma frame_leave_of_not_empties {s : Store} {f : FrameId} {result : Option Value}
    (h : ¬ s.Empties f result) (g : FrameId) : (s.leave f result).frame g = s.frame g := by
  rw [leave]
  split
  · rfl
  · rename_i hc
    have hb : (s.frame f).bindings = [] := by
      by_contra hne
      exact h ⟨by simpa using hc, hne⟩
    rw [frame_release]
    split
    · rename_i hg
      rw [hg.1, ← hb]
    · rfl

end Store

/-- The frame that loses slots with an event. -/
def Event.Empties : Event → FrameId → Prop
  | .leaves f result s, g => f = g ∧ s.Empties f result
  | _, _ => False

instance (ev : Event) (g : FrameId) : Decidable (ev.Empties g) :=
  match ev with
  | .leaves f result s => inferInstanceAs (Decidable (f = g ∧ s.Empties f result))
  | .begins _ _ _ => inferInstanceAs (Decidable False)
  | .evaluates _ _ _ _ => inferInstanceAs (Decidable False)
  | .executes _ _ _ _ => inferInstanceAs (Decidable False)
  | .enters _ _ _ => inferInstanceAs (Decidable False)

/-- The frame that is entered with an event, and what it is entered for. -/
def Event.entered? : Event → Option (Nat × Construct)
  | .enters f k _ => some (f, k)
  | _ => none

/-- The unit that begins with an event, and its program. -/
def Event.begun? : Event → Option (Nat × Program)
  | .begins unit p _ => some (unit, p)
  | _ => none

/-- With the event a node is about to be evaluated or executed. -/
def Event.Plain : Event → Prop
  | .evaluates _ _ _ _ => True
  | .executes _ _ _ _ => True
  | _ => False

namespace Event.Plain

variable {ev : Event}

lemma entered?_eq_none (h : ev.Plain) : ev.entered? = none := by
  cases ev with
  | enters f k s => exact h.elim
  | _ => rfl

lemma begun?_eq_none (h : ev.Plain) : ev.begun? = none := by
  cases ev with
  | begins unit p s => exact h.elim
  | _ => rfl

lemma not_empties (h : ev.Plain) (g : FrameId) : ¬ ev.Empties g := by
  cases ev with
  | leaves f result s => exact h.elim
  | _ => exact id

end Event.Plain

/-- The frames that lost slots. -/
def emptied (τ : List Event) : Set FrameId := {g | ∃ ev ∈ τ, ev.Empties g}

instance (τ : List Event) (g : FrameId) : Decidable (g ∈ emptied τ) :=
  inferInstanceAs (Decidable (∃ ev ∈ τ, ev.Empties g))

@[simp]
lemma emptied_append (τ τ' : List Event) : emptied (τ ++ τ') = emptied τ ∪ emptied τ' := by
  ext g
  simp [emptied, or_and_right, exists_or]

lemma emptied_cons (ev : Event) (τ : List Event) :
    emptied (ev :: τ) = {g | ev.Empties g} ∪ emptied τ := by
  ext g
  simp [emptied]

/-! ### Later stores -/

namespace Store

/-- **Later stores**: frames and slots were added, and of the frames that were
there only those of `A` gained names. -/
structure Extends (A : Set FrameId) (s s' : Store) : Prop where
  frames_le : s.frames.size ≤ s'.frames.size
  slots_le : s.slots.size ≤ s'.slots.size
  outer : ∀ g < s.frames.size, (s'.frame g).outer = (s.frame g).outer
  kept : ∀ g < s.frames.size, g ∉ A → (s'.frame g).bindings = (s.frame g).bindings
  grown : ∀ g < s.frames.size, (s.frame g).bindings <+: (s'.frame g).bindings
  slot : ∀ i < s.slots.size, s'.slot i = s.slot i

/-- The frames that were there stay where they are, and those outside of `D`
keep their names. -/
def KeepsNames (D : Set FrameId) (s s' : Store) : Prop :=
  s.frames.size ≤ s'.frames.size ∧
    ∀ g < s.frames.size, (s'.frame g).outer = (s.frame g).outer ∧
      (g ∉ D → (s.frame g).bindings <+: (s'.frame g).bindings)

variable {A B D D' : Set FrameId} {s s' s'' : Store}

namespace Extends

lemma refl (A : Set FrameId) (s : Store) : s.Extends A s :=
  ⟨Nat.le_refl _, Nat.le_refl _, fun _ _ => rfl, fun _ _ _ => rfl,
    fun _ _ => List.prefix_rfl, fun _ _ => rfl⟩

/-- What changes besides frames and slots does not matter. -/
lemma of_eq (A : Set FrameId) (hframes : s'.frames = s.frames) (hslots : s'.slots = s.slots) :
    s.Extends A s' := by
  have hframe : ∀ g, s'.frame g = s.frame g := fun g => by rw [frame, hframes, frame]
  have hslot : ∀ i, s'.slot i = s.slot i := fun i => by
    rw [Store.slot, hslots, Store.slot]
  refine ⟨by rw [hframes], by rw [hslots], fun g _ => by rw [hframe], fun g _ _ => by rw [hframe],
    fun g _ => hframe g ▸ List.prefix_rfl, fun i _ => hslot i⟩

lemma trans (h : s.Extends A s') (h' : s'.Extends A s'') : s.Extends A s'' where
  frames_le := h.frames_le.trans h'.frames_le
  slots_le := h.slots_le.trans h'.slots_le
  outer g hg := (h'.outer g (hg.trans_le h.frames_le)).trans (h.outer g hg)
  kept g hg hA := (h'.kept g (hg.trans_le h.frames_le) hA).trans (h.kept g hg hA)
  grown g hg := (h.grown g hg).trans (h'.grown g (hg.trans_le h.frames_le))
  slot i hi := (h'.slot i (hi.trans_le h.slots_le)).trans (h.slot i hi)

lemma mono (h : s.Extends A s') (hAB : A ⊆ B) : s.Extends B s' :=
  { h with kept := fun g hg hB => h.kept g hg fun hA => hB (hAB hA) }

/-- Names that frames gain that were not there yet do not count. -/
lemma trans_new (h : s.Extends A s') (h' : s'.Extends B s'')
    (hB : ∀ g ∈ B, s.frames.size ≤ g) : s.Extends A s'' where
  frames_le := h.frames_le.trans h'.frames_le
  slots_le := h.slots_le.trans h'.slots_le
  outer g hg := (h'.outer g (hg.trans_le h.frames_le)).trans (h.outer g hg)
  kept g hg hA :=
    (h'.kept g (hg.trans_le h.frames_le) fun hgB => (hB g hgB).not_gt hg).trans
      (h.kept g hg hA)
  grown g hg := (h.grown g hg).trans (h'.grown g (hg.trans_le h.frames_le))
  slot i hi := (h'.slot i (hi.trans_le h.slots_le)).trans (h.slot i hi)

/-- A frame that was there is the same, unless it is one of `A`. -/
lemma frame_eq (h : s.Extends A s') {g : FrameId} (hg : g < s.frames.size) (hA : g ∉ A) :
    s'.frame g = s.frame g := by
  have ho := h.outer g hg
  have hb := h.kept g hg hA
  cases hs : s.frame g
  cases hs' : s'.frame g
  simp_all

lemma chain_eq (h : s.Extends A s') {g : FrameId} (hg : g < s.frames.size) :
    s'.chain g = s.chain g := by
  rw [chain, chain, h.outer g hg]

lemma keepsNames (h : s.Extends A s') (D : Set FrameId) : s.KeepsNames D s' :=
  ⟨h.frames_le, fun g hg => ⟨h.outer g hg, fun _ => h.grown g hg⟩⟩

/-- A frame that was not there yet can be left again. -/
lemma leave (h : s.Extends A s') {f : FrameId} (hf : s.frames.size ≤ f)
    (result : Option Value) : s.Extends A (s'.leave f result) where
  frames_le := by simpa using h.frames_le
  slots_le := by simpa using h.slots_le
  outer g hg := by rw [outer_leave, h.outer g hg]
  kept g hg hA := by rw [frame_leave_of_ne (hg.trans_le hf).ne, h.kept g hg hA]
  grown g hg := by rw [frame_leave_of_ne (hg.trans_le hf).ne]; exact h.grown g hg
  slot i hi := by rw [slot_leave, h.slot i hi]

end Extends

lemma KeepsNames.trans (h : s.KeepsNames D s') (h' : s'.KeepsNames D' s'') :
    s.KeepsNames (D ∪ D') s'' := by
  refine ⟨h.1.trans h'.1, fun g hg => ?_⟩
  obtain ⟨ho, hb⟩ := h.2 g hg
  obtain ⟨ho', hb'⟩ := h'.2 g (hg.trans_le h.1)
  refine ⟨ho'.trans ho, fun hD => ?_⟩
  rw [Set.mem_union, not_or] at hD
  exact (hb hD.1).trans (hb' hD.2)

lemma KeepsNames.mono (h : s.KeepsNames D s') (hD : D ⊆ D') : s.KeepsNames D' s' :=
  ⟨h.1, fun g hg => ⟨(h.2 g hg).1, fun hg' => (h.2 g hg).2 fun hgD => hg' (hD hgD)⟩⟩

lemma keepsNames_leave (s : Store) (f : FrameId) (result : Option Value) :
    s.KeepsNames {g | f = g ∧ s.Empties f result} (s.leave f result) := by
  refine ⟨(size_frames_leave s f result).ge, fun g _ => ⟨outer_leave s f result g, fun hg => ?_⟩⟩
  have hsame : (s.leave f result).frame g = s.frame g := by
    by_cases hfg : g = f
    · subst hfg
      exact frame_leave_of_not_empties (fun he => hg ⟨rfl, he⟩) g
    · exact frame_leave_of_ne hfg s result
  exact hsame ▸ List.prefix_rfl

/-! ### One operation -/

lemma extends_extend (A : Set FrameId) (s : Store) (f : FrameId) :
    s.Extends A (s.extend f).2 := by
  have hframe : ∀ g < s.frames.size, (s.extend f).2.frame g = s.frame g := fun g hg => by
    rw [frame_extend, if_neg hg.ne]
  refine ⟨?_, Nat.le_refl _, ?_, ?_, ?_, fun _ _ => rfl⟩
  · rw [size_frames_extend]
    exact Nat.le_succ _
  · exact fun g hg => by rw [hframe g hg]
  · exact fun g hg _ => by rw [hframe g hg]
  · exact fun g hg => hframe g hg ▸ List.prefix_rfl

lemma extends_bind {f : FrameId} (hf : f ∈ A) (s : Store) (name : String) (v : Value) :
    s.Extends A (s.bind f name v) := by
  have hne : ∀ g, g ∉ A → g ≠ f := fun g hg h => hg (h ▸ hf)
  refine ⟨?_, ?_, ?_, ?_, ?_, ?_⟩
  · exact (size_frames_bind s f name v).ge
  · rw [size_slots_bind]
    exact Nat.le_succ _
  · intro g _
    rw [frame_bind]
    split
    · rename_i hg
      rw [hg.1]
    · rfl
  · intro g _ hg
    rw [frame_bind, if_neg fun h => hne g hg h.1]
  · intro g _
    rw [frame_bind]
    split
    · rename_i hg
      rw [hg.1]
      exact List.prefix_append _ _
    · exact List.prefix_rfl
  · intro i hi
    rw [slot_bind, if_neg hi.ne]

end Store

/-! ### Numbers that are given out -/

/-- **Numbers are given out in order**: those that are given out with the events
`τ` are the ones from `lo` to `hi`, each for one thing only. -/
structure Numbered {α : Type} (num : Event → Option (Nat × α)) (lo : Nat) (τ : List Event)
    (hi : Nat) : Prop where
  le : lo ≤ hi
  mem : ∀ ev ∈ τ, ∀ n a, num ev = some (n, a) → lo ≤ n ∧ n < hi
  unique : ∀ ev ∈ τ, ∀ ev' ∈ τ, ∀ n a a', num ev = some (n, a) → num ev' = some (n, a') → a = a'

namespace Numbered

variable {α : Type} {num : Event → Option (Nat × α)} {lo mid hi : Nat} {τ τ' : List Event}

lemma nil (h : lo ≤ hi) : Numbered num lo [] hi :=
  ⟨h, by simp, by simp⟩

lemma append (h : Numbered num lo τ mid) (h' : Numbered num mid τ' hi) :
    Numbered num lo (τ ++ τ') hi where
  le := h.le.trans h'.le
  mem ev hev n a ha := by
    have hle := h.le
    have hle' := h'.le
    rcases List.mem_append.1 hev with hev | hev
    · have hn := h.mem ev hev n a ha
      omega
    · have hn := h'.mem ev hev n a ha
      omega
  unique ev hev ev' hev' n a a' ha ha' := by
    -- the numbers of the two halves lie on different sides of the one in between
    rcases List.mem_append.1 hev with hev | hev <;> rcases List.mem_append.1 hev' with hev' | hev'
    · exact h.unique ev hev ev' hev' n a a' ha ha'
    · have hn := h.mem ev hev n a ha
      have hn' := h'.mem ev' hev' n a' ha'
      omega
    · have hn := h'.mem ev hev n a ha
      have hn' := h.mem ev' hev' n a' ha'
      omega
    · exact h'.unique ev hev ev' hev' n a a' ha ha'

/-- An event without a number. -/
lemma cons {ev : Event} (hev : num ev = none) (h : Numbered num lo τ hi) :
    Numbered num lo (ev :: τ) hi := by
  have hnone : Numbered num lo [ev] lo := ⟨Nat.le_refl _, by simp [hev], by simp [hev]⟩
  exact hnone.append h

/-- An event takes the next number. -/
lemma cons_next {ev : Event} {a : α} (hev : num ev = some (lo, a))
    (h : Numbered num (lo + 1) τ hi) : Numbered num lo (ev :: τ) hi := by
  have hone : Numbered num lo [ev] (lo + 1) := by
    refine ⟨Nat.le_succ _, ?_, ?_⟩
    · simp only [List.mem_singleton, forall_eq, hev, Option.some.injEq, Prod.mk.injEq]
      rintro n b ⟨rfl, -⟩
      omega
    · simp only [List.mem_singleton, forall_eq, hev, Option.some.injEq, Prod.mk.injEq]
      rintro n b b' ⟨-, rfl⟩ ⟨-, rfl⟩
      rfl
  exact hone.append h

/-- An event without a number at the end. -/
lemma concat {ev : Event} (h : Numbered num lo τ hi) (hev : num ev = none) :
    Numbered num lo (τ ++ [ev]) hi :=
  h.append (cons hev (nil (Nat.le_refl hi)))

end Numbered

/-! ### The effect of a run -/

/-- **The effect of a run** from the store `s` to the store `s'` with the
events `τ`. The store at each event lies between the two, except that frames
may be emptied; the frames that are entered and the units that begin are new,
each is entered or begins once. -/
structure Effect (A : Set FrameId) (s : Store) (τ : List Event) (s' : Store) : Prop where
  grows : s.Extends A s'
  before : ∀ ev ∈ τ, s.Extends A ev.store
  behind : ∀ ev ∈ τ, ev.store.KeepsNames (emptied τ) s'
  frames : Numbered Event.entered? s.frames.size τ s'.frames.size
  units : Numbered Event.begun? s.units τ s'.units

namespace Effect

variable {A B : Set FrameId} {s s' s'' : Store} {τ τ' : List Event}

/-- Nothing happens but what an operation does. -/
lemma quiet (h : s.Extends A s') (hunits : s.units ≤ s'.units) : Effect A s [] s' :=
  ⟨h, by simp, by simp, .nil h.frames_le, .nil hunits⟩

lemma refl (A : Set FrameId) (s : Store) : Effect A s [] s :=
  .quiet (.refl A s) (Nat.le_refl _)

lemma mono (h : Effect A s τ s') (hAB : A ⊆ B) : Effect B s τ s' :=
  ⟨h.grows.mono hAB, fun ev hev => (h.before ev hev).mono hAB, h.behind, h.frames, h.units⟩

lemma trans (h : Effect A s τ s') (h' : Effect A s' τ' s'') :
    Effect A s (τ ++ τ') s'' where
  grows := h.grows.trans h'.grows
  before ev hev := by
    rcases List.mem_append.1 hev with hev | hev
    · exact h.before ev hev
    · exact h.grows.trans (h'.before ev hev)
  behind ev hev := by
    rw [emptied_append]
    rcases List.mem_append.1 hev with hev | hev
    · exact (h.behind ev hev).trans (h'.grows.keepsNames _)
    · exact (h'.behind ev hev).mono Set.subset_union_right
  frames := h.frames.append h'.frames
  units := h.units.append h'.units

/-- A plain event at the beginning. -/
lemma cons {ev : Event} (hs : ev.store = s) (hev : ev.Plain) (h : Effect A s τ s') :
    Effect A s (ev :: τ) s' where
  grows := h.grows
  before ev' hev' := by
    rcases List.mem_cons.1 hev' with rfl | hev'
    · rw [hs]
      exact .refl A s
    · exact h.before ev' hev'
  behind ev' hev' := by
    rw [emptied_cons]
    rcases List.mem_cons.1 hev' with rfl | hev'
    · rw [hs]
      exact h.grows.keepsNames _
    · exact (h.behind ev' hev').mono Set.subset_union_right
  frames := h.frames.cons hev.entered?_eq_none
  units := h.units.cons hev.begun?_eq_none

/-- A new frame is entered, its statements run, and it is left. Nothing of it
is seen from before. -/
lemma newFrame {f : FrameId} {result : Option Value} (k : Construct)
    (h : Effect {s.frames.size} (s.extend f).2 τ s') :
    Effect ∅ s
      (.enters s.frames.size k s :: (τ ++ [.leaves s.frames.size result s']))
      (s'.leave s.frames.size result) := by
  have hnew : ∀ g ∈ ({s.frames.size} : Set FrameId), s.frames.size ≤ g := by simp
  have hs : s.Extends ∅ s' := (s.extends_extend ∅ f).trans_new h.grows hnew
  have hleave := hs.leave (Nat.le_refl _) result
  refine ⟨hleave, fun ev hev => ?_, fun ev hev => ?_, ?_, ?_⟩
  · simp only [List.mem_cons, List.mem_append, List.not_mem_nil, or_false] at hev
    rcases hev with rfl | hev | rfl
    · exact .refl ∅ s
    · exact (s.extends_extend ∅ f).trans_new (h.before ev hev) hnew
    · exact hs
  · rw [emptied_cons, emptied_append, emptied_cons]
    simp only [List.mem_cons, List.mem_append, List.not_mem_nil, or_false] at hev
    rcases hev with rfl | hev | rfl
    · exact hleave.keepsNames _
    · refine ((h.behind ev hev).trans (s'.keepsNames_leave _ result)).mono ?_
      intro g hg
      rcases hg with hg | hg
      · exact .inr (.inl hg)
      · exact .inr (.inr (.inl hg))
    · refine (s'.keepsNames_leave _ result).mono fun g hg => ?_
      exact .inr (.inr (.inl hg))
  · have hframes := h.frames
    rw [Store.size_frames_extend] at hframes
    rw [Store.size_frames_leave]
    exact (hframes.concat rfl).cons_next rfl
  · rw [Store.units_leave]
    exact (h.units.concat rfl).cons rfl

/-- A unit takes the next number and begins. -/
lemma newUnit (p : Program) (h : Effect A s.newUnit.2 τ s') :
    Effect A s (.begins s.units p s.newUnit.2 :: τ) s' := by
  have hnew : s.Extends A s.newUnit.2 := .of_eq A rfl rfl
  refine ⟨hnew.trans h.grows, fun ev hev => ?_, fun ev hev => ?_, h.frames.cons rfl,
    h.units.cons_next rfl⟩
  · rcases List.mem_cons.1 hev with rfl | hev
    · exact hnew
    · exact hnew.trans (h.before ev hev)
  · rw [emptied_cons]
    rcases List.mem_cons.1 hev with rfl | hev
    · exact h.grows.keepsNames _
    · exact (h.behind ev hev).mono Set.subset_union_right

end Effect

end ClosureCalc
