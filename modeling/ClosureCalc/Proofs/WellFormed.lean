/-
Well-formed stores.

* `Store.WellFormed`: every reference in the store leads to something that
  exists. The frames around a frame are older than it and nested in each other,
  the slots of its names are there, and so are the frames that functions were
  declared in.
* `wellFormedDiscipline`: every run keeps the store well formed.
* `Session.WellFormed`: such a store with a root frame in it
  (`Session.WellFormed.session`).
* `Session.Fresh`: no function was declared yet. The two sessions that a program
  can begin with are of this kind (`Session.fresh_bare`,
  `Session.fresh_standard`).
-/
import ClosureCalc.Proofs.Discipline

namespace ClosureCalc

/-- The frame that a function value was declared in exists. -/
def Value.Within (v : Value) (n : Nat) : Prop :=
  ∀ decl, ∀ closure : Nat, v = .function decl closure → closure < n

namespace Store

/-- **Well-formed stores**: all references lead to what exists, and the frames
around a frame are older than it, each with the frames around it. -/
structure WellFormed (s : Store) : Prop where
  outer_lt : ∀ g, ∀ h ∈ (s.frame g).outer, h < g
  outer_suffix : ∀ g, ∀ h ∈ (s.frame g).outer, s.chain h <:+ (s.frame g).outer
  slot_lt : ∀ g, ∀ b ∈ (s.frame g).bindings, b.2 < s.slots.size
  slot_within : ∀ i, (s.slot i).Within s.frames.size

lemma wellFormed_empty (g : Generator) : (empty g).WellFormed where
  outer_lt f h hh := by simp [empty, frame] at hh
  outer_suffix f h hh := by simp [empty, frame] at hh
  slot_lt f b hb := by simp [empty, frame] at hb
  slot_within i decl closure h := by simp [empty, slot] at h

namespace WellFormed

variable {s : Store}

/-- What lies around a frame exists. -/
lemma outer_lt_size (h : s.WellFormed) {g k : Nat} (hk : k ∈ (s.frame g).outer) :
    k < s.frames.size := by
  refine (h.outer_lt g k hk).trans (Nat.lt_of_not_le fun hg => ?_)
  rw [frame_of_size_le hg] at hk
  simp at hk

/-- A new frame lies inside existing frames, nested in each other. -/
lemma addFrame (h : s.WellFormed) {outer : List FrameId} (hlt : ∀ k ∈ outer, k < s.frames.size)
    (hsuffix : ∀ k ∈ outer, s.chain k <:+ outer) : (s.addFrame outer).2.WellFormed where
  outer_lt g k hk := by
    rw [frame_addFrame] at hk
    split at hk
    · rename_i hg
      rw [hg]
      exact hlt k hk
    · exact h.outer_lt g k hk
  outer_suffix g k hk := by
    have hchain := (s.later_addFrame outer).chain_eq
    rw [frame_addFrame] at hk ⊢
    split at hk
    · rw [if_pos (by assumption), hchain k (hlt k hk)]
      exact hsuffix k hk
    · rw [if_neg (by assumption), hchain k (h.outer_lt_size hk)]
      exact h.outer_suffix g k hk
  slot_lt g b hb := by
    rw [frame_addFrame] at hb
    split at hb
    · simp at hb
    · exact h.slot_lt g b hb
  slot_within i decl closure hi := by
    have hlt := h.slot_within i decl closure hi
    have hsize : (s.addFrame outer).2.frames.size = s.frames.size + 1 := Array.size_push _
    omega

/-- A new root refers to nothing. -/
lemma newRoot (h : s.WellFormed) : s.newRoot.2.WellFormed :=
  h.addFrame (by simp) (by simp)

lemma extend (h : s.WellFormed) {f : FrameId} (hf : f < s.frames.size) :
    (s.extend f).2.WellFormed := by
  refine h.addFrame (fun k hk => ?_) fun k hk => ?_
  · rcases List.mem_cons.1 hk with rfl | hk
    · exact hf
    · exact h.outer_lt_size hk
  · rcases List.mem_cons.1 hk with rfl | hk
    · exact List.suffix_rfl
    · exact (h.outer_suffix f k hk).trans (List.suffix_cons f _)

/-- Bindings may go, and come if they are bound to slots that exist. -/
lemma setBindings (h : s.WellFormed) {bs : List (String × SlotId)}
    (hbs : ∀ b ∈ bs, b.2 < s.slots.size) (f : FrameId) : (s.setBindings f bs).WellFormed where
  outer_lt g k hk := by
    rw [outer_setBindings] at hk
    exact h.outer_lt g k hk
  outer_suffix g k hk := by
    rw [outer_setBindings] at hk ⊢
    rw [chain_setBindings]
    exact h.outer_suffix g k hk
  slot_lt g b hb := by
    rw [frame_setBindings] at hb
    split at hb
    · exact hbs b hb
    · exact h.slot_lt g b hb
  slot_within i decl closure hi := by
    have hsize : (s.setBindings f bs).frames.size = s.frames.size := Array.size_setIfInBounds
    rw [hsize]
    exact h.slot_within i decl closure hi

/-- A slot may be added. -/
lemma pushSlot (h : s.WellFormed) {v : Value} (hv : v.Within s.frames.size) :
    ({ s with slots := s.slots.push v } : Store).WellFormed where
  outer_lt := h.outer_lt
  outer_suffix := h.outer_suffix
  slot_lt g b hb := by
    rw [Array.size_push]
    exact Nat.lt_succ_of_lt (h.slot_lt g b hb)
  slot_within i := by
    change Value.Within ((s.slots.push v)[i]?.getD .undefined) _
    rw [Array.getElem?_push]
    split
    · exact hv
    · exact h.slot_within i

/-- A name is bound to a slot that is new, and to a value whose frame exists. -/
lemma bind (h : s.WellFormed) {v : Value} (hv : v.Within s.frames.size) (f : FrameId)
    (name : String) : (s.bind f name v).WellFormed := by
  refine (h.pushSlot hv).setBindings (fun b hb => ?_) f
  rw [Array.size_push]
  rcases List.mem_append.1 hb with hb | hb
  · exact Nat.lt_succ_of_lt (h.slot_lt f b hb)
  · rw [List.mem_singleton.1 hb]
    exact Nat.lt_succ_self _

/-- A slot is overwritten by a value whose frame exists. -/
lemma setSlot (h : s.WellFormed) {v : Value} (hv : v.Within s.frames.size) (i : SlotId) :
    (s.setSlot i v).WellFormed where
  outer_lt := h.outer_lt
  outer_suffix := h.outer_suffix
  slot_lt g b hb := by
    change b.2 < (s.slots.setIfInBounds i v).size
    rw [Array.size_setIfInBounds]
    exact h.slot_lt g b hb
  slot_within j := by
    change Value.Within ((s.slots.setIfInBounds i v)[j]?.getD .undefined) _
    rw [Array.getElem?_setIfInBounds]
    split
    · split
      · exact hv
      · simp [Value.Within]
    · exact h.slot_within j

lemma leave (h : s.WellFormed) (f : FrameId) (result : Option Value) :
    (s.leave f result).WellFormed := by
  rw [Store.leave]
  split
  · exact h
  · exact h.setBindings (by simp) f

/-- Only frames and slots matter. -/
lemma of_eq {s' : Store} (h : s.WellFormed) (hframes : s'.frames = s.frames)
    (hslots : s'.slots = s.slots) : s'.WellFormed := by
  obtain ⟨frames, slots, units, generator⟩ := s'
  cases hframes
  cases hslots
  exact ⟨h.outer_lt, h.outer_suffix, h.slot_lt, h.slot_within⟩

lemma declareEach {names : List (String × Value)} (h : s.WellFormed)
    (hv : ∀ nv ∈ names, nv.2.Within s.frames.size) (f : FrameId) :
    (s.declareEach f names).WellFormed ∧
      (s.declareEach f names).frames.size = s.frames.size := by
  induction names generalizing s with
  | nil => exact ⟨h, rfl⟩
  | cons nv rest ih =>
    obtain ⟨name, v⟩ := nv
    have hrest := fun w hw => hv w (List.mem_cons_of_mem _ hw)
    rw [Store.declareEach, declare]
    split
    · have hb := h.bind (hv (name, v) (by simp)) f name
      have := ih hb (by simpa using hrest)
      simpa [Except.toOption] using this
    · simpa [Except.toOption] using ih h hrest

end WellFormed

/-- What holds of the values in the slots and of the declared ones holds of all
values behind the declarations. -/
lemma slot_declareEach {P : Value → Prop} {names : List (String × Value)} {s : Store}
    (h : ∀ i, P (s.slot i)) (hv : ∀ nv ∈ names, P nv.2) (f : FrameId) (i : SlotId) :
    P ((s.declareEach f names).slot i) := by
  induction names generalizing s with
  | nil => exact h i
  | cons nv rest ih =>
    have hrest := fun w hw => hv w (List.mem_cons_of_mem _ hw)
    rw [Store.declareEach, declare]
    split
    · refine ih (fun j => ?_) hrest
      change P ((s.bind f nv.1 nv.2).slot j)
      rw [slot_bind]
      split
      · exact hv nv (by simp)
      · exact h j
    · exact ih h hrest

end Store

/-! ### The discipline -/

/-- A value whose frame exists goes on to exist. -/
lemma Value.Within.later {v : Value} {s s' : Store} (h : v.Within s.frames.size)
    (hs : s.Later s') : v.Within s'.frames.size :=
  fun decl closure hv => (h decl closure hv).trans_le hs.frames_le

/-- **Well-formedness as a discipline** of runs that find `n` frames: a node is
evaluated or executed in a frame that exists. -/
def wellFormedDiscipline (n : Nat) : Discipline where
  Happens ev := n ≤ ev.store.frames.size
  Holds := Store.WellFormed
  Admits v s := v.Within s.frames.size
  Places _ f _ s := f < s.frames.size

/-- **Single operations keep the store well formed.** -/
lemma sound_wellFormedDiscipline (n : Nat) : (wellFormedDiscipline n).Sound where
  plain h := fun decl closure hv => absurd hv (h decl closure)
  slot hs := hs.slot_within
  admits_later _ hlater hv := hv.later hlater
  places_later _ hlater hf := hf.trans_le hlater.frames_le
  places_part hf _ := hf
  places_expr hf _ := hf
  same := Store.WellFormed.of_eq
  leave := Store.WellFormed.leave
  closure := by
    intro unit f p name params bodyPos body s hf decl closure hv
    cases hv
    exact hf
  declare hs _ _ _ hv := hs.bind hv _ _
  param _ hs _ _ hv := hs.bind hv _ _
  enter_block hs hf _ := ⟨hs.extend hf, fun _ _ => by simp [wellFormedDiscipline]⟩
  enter_call hs hv _ := ⟨hs.extend (hv _ _ rfl), fun _ _ => by simp [wellFormedDiscipline]⟩

/-! ### Sessions -/

/-- A session whose store is well formed and has the root frame. -/
structure Session.WellFormed (s : Session) : Prop where
  store : s.store.WellFormed
  root_lt : s.root < s.store.frames.size

/-- **Sessions keep their store well formed**, at each event and behind the
units. -/
theorem Session.WellFormed.session {start : Session} (h : start.WellFormed) (limit : Nat)
    (sources : List String) :
    (∀ ev ∈ start.events releaseOnExit limit sources,
        (wellFormedDiscipline start.store.frames.size).Observes ev) ∧
      (start.after releaseOnExit limit sources).WellFormed := by
  have heffect := start.effect limit sources
  obtain ⟨hobs, hlast⟩ := (sound_wellFormedDiscipline _).keeps_session
    (fun _ _ _ _ _ hn _ _ _ => h.root_lt.trans_le hn) limit h.store
    fun ev hev => (heffect.before ev hev).frames_le
  refine ⟨hobs, hlast, ?_⟩
  rw [Session.root_after]
  exact h.root_lt.trans_le heffect.grows.frames_le

/-- An empty scope refers to nothing. -/
lemma Session.wellFormed_bare (g : Generator) : (bare g).WellFormed :=
  ⟨(Store.wellFormed_empty g).newRoot, Nat.zero_lt_one⟩

/-- The standard names are names of numbers and built-in functions. -/
lemma within_standardNames (home : FrameId) (n : Nat) :
    ∀ nv ∈ standardNames home, nv.2.Within n := by
  intro nv hnv decl closure h
  rw [standardNames, List.mem_append] at hnv
  rcases hnv with hnv | hnv
  · simp only [standardNames.constants, List.mem_cons, List.not_mem_nil, or_false] at hnv
    rcases hnv with rfl | rfl | rfl | rfl | rfl <;> cases h
  · obtain ⟨b, -, rfl⟩ := List.mem_map.1 hnv
    cases h

lemma Session.wellFormed_standard (g : Generator) : (standard g).WellFormed := by
  have hw := (Store.wellFormed_empty g).newRoot
  have hlt : (Store.empty g).newRoot.1 < (Store.empty g).newRoot.2.frames.size :=
    Nat.zero_lt_one
  simp only [standard, Store.standardRoot]
  generalize (Store.empty g).newRoot = r at hw hlt
  obtain ⟨root, store⟩ := r
  obtain ⟨h, hsize⟩ := hw.declareEach (within_standardNames root _) root
  exact ⟨by simpa only using h, by simpa only [hsize] using hlt⟩

/-- **Fresh sessions**: no function was declared yet. -/
structure Session.Fresh (s : Session) : Prop where
  wellFormed : s.WellFormed
  no_function : ∀ i decl closure, s.store.slot i ≠ .function decl closure

lemma Session.fresh_bare (g : Generator) : (bare g).Fresh :=
  ⟨wellFormed_bare g, fun i decl closure => by simp [bare, Store.newRoot, Store.addFrame,
    Store.empty, Store.slot]⟩

lemma Session.fresh_standard (g : Generator) : (standard g).Fresh := by
  refine ⟨wellFormed_standard g, fun i => ?_⟩
  have hslot : ∀ j, ((Store.empty g).newRoot.2.slot j).Within 0 := fun j => by
    simp [Value.Within, Store.newRoot, Store.addFrame, Store.empty, Store.slot]
  simp only [standard, Store.standardRoot]
  generalize (Store.empty g).newRoot = r at hslot
  obtain ⟨root, store⟩ := r
  intro decl closure h
  have := Store.slot_declareEach (P := fun v => v.Within 0) hslot
    (within_standardNames root 0) root i
  exact absurd (this decl closure h) (Nat.not_lt_zero _)

end ClosureCalc
