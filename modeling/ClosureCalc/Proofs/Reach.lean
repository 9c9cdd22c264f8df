/-
What frames and values lead to.

* `Store.Points`: a frame points to the frames around it, and to the frames of
  the functions that its names stand for.
* `Store.Reach`: what can be reached along these; `Value.Reaches`,
  `Value.LeadsTo`: the same from a function value, `Store.Live`: what a root
  frame and an answer lead to.
* `Store.Reach.mem`: what pointers pass on holds of all that can be reached;
  `Store.WellFormed.lt_of_points`, `Store.points_of_leave`: pointers lead to frames that
  exist, and emptying a frame adds none.
-/
import ClosureCalc.Proofs.WellFormed
import Mathlib.Logic.Relation

namespace ClosureCalc

/-- The frame that a function value was declared in. -/
def Value.closure? : Value → Option FrameId
  | .function _ closure => some closure
  | _ => none

lemma Value.closure?_eq_some {v : Value} {closure : FrameId} :
    v.closure? = some closure ↔ ∃ decl, v = .function decl closure := by
  cases v <;> simp [closure?, eq_comm]

/-- A frame points to the frames around it, and to the frames of the functions
in the slots of its names. -/
inductive Store.Points (s : Store) (g : FrameId) : FrameId → Prop
  | outer {h : FrameId} (hh : h ∈ (s.frame g).outer) : Points s g h
  | closure {b : String × SlotId} {decl : Declaration} {h : FrameId}
      (hb : b ∈ (s.frame g).bindings) (hv : s.slot b.2 = .function decl h) : Points s g h

/-- **Reachable frames.** -/
def Store.Reach (s : Store) : FrameId → FrameId → Prop := Relation.ReflTransGen s.Points

/-- The frame can be reached from the frame of a function value. -/
def Value.Reaches (v : Value) (s : Store) (f : FrameId) : Prop :=
  ∃ decl closure, v = .function decl closure ∧ s.Reach closure f

/-- A value leads to itself, and a function to what is in the slots of the
frames that can be reached from its own. -/
def Value.LeadsTo (v : Value) (s : Store) (w : Value) : Prop :=
  w = v ∨ ∃ decl closure g, v = .function decl closure ∧ s.Reach closure g ∧
    ∃ b ∈ (s.frame g).bindings, w = s.slot b.2

/-- **Live values**: what is in the slots of the frames that can be reached from
the root, and what the answer leads to. -/
def Store.Live (s : Store) (root : FrameId) (answer : Option Value) (w : Value) : Prop :=
  (∃ g, s.Reach root g ∧ ∃ b ∈ (s.frame g).bindings, w = s.slot b.2) ∨
    ∃ v, answer = some v ∧ v.LeadsTo s w

namespace Store

variable {s : Store} {f g h : FrameId}

/-- Pointers lead to frames that exist. -/
lemma WellFormed.lt_of_points (hs : s.WellFormed) (hp : s.Points g h) : h < s.frames.size := by
  cases hp with
  | outer hh => exact hs.outer_lt_size hh
  | closure _ hv => exact hs.slot_within _ _ _ hv

/-- What holds of a frame and is passed on by pointers holds of all that can be
reached. -/
lemma Reach.mem {K : Set FrameId} (hclosed : ∀ g ∈ K, ∀ h, s.Points g h → h ∈ K)
    (hg : g ∈ K) (hr : s.Reach g h) : h ∈ K := by
  induction hr with
  | refl => exact hg
  | tail _ hp ih => exact hclosed _ ih _ hp

/-- Emptying a frame adds no pointers. -/
lemma points_of_leave {result : Option Value} (hp : (s.leave f result).Points g h) :
    s.Points g h := by
  cases hp with
  | outer hh =>
    rw [outer_leave] at hh
    exact .outer hh
  | closure hb hv =>
    rw [slot_leave] at hv
    exact .closure (mem_bindings_of_leave hb) hv

end Store

end ClosureCalc
