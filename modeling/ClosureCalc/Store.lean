/-
Scopes.

The store holds frames and slots, both numbered in the order in which they
were made. A frame knows the frames around it, innermost first, and the names
declared in it, in order, each bound to a slot of its own; a slot holds a
value.

* `Store.lookup`: the slot of a name, in the nearest frame that declares it.
* `Store.declare`, `Store.set`: bind a new name, overwrite a bound one.
* `Store.release`: forget all names of a frame. The slots stay, and so does
  whatever else refers to them.
* `Store.captures`: whether a value is a function declared in a frame or
  inside it.

Neither `bind` nor `release` moves a frame (`Store.chain_bind`,
`Store.chain_release`); they change the names of one frame
(`Store.names_bind`, `Store.names_release`).
-/
import ClosureCalc.Error
import ClosureCalc.Value
import ClosureCalc.Numeric.Generator

namespace ClosureCalc

/-- A frame: the frames around it, innermost first, and its names in order of
declaration. -/
structure Frame where
  outer : List FrameId
  bindings : List (String × SlotId)
deriving DecidableEq, Inhabited, Repr

/-- The state of a running program: its frames and slots, the number of
program runs so far, and the source of random numbers. -/
structure Store where
  frames : Array Frame
  slots : Array Value
  units : Nat
  generator : Generator
deriving Inhabited

namespace Store

/-- A store without frames. -/
def empty (g : Generator) : Store := ⟨#[], #[], 0, g⟩

/-- A frame by its number. A number that was never given out stands for a root
without names. -/
def frame (s : Store) (f : FrameId) : Frame := s.frames[f]?.getD ⟨[], []⟩

/-- A new frame inside the given ones. -/
def addFrame (s : Store) (outer : List FrameId) : FrameId × Store :=
  (s.frames.size, { s with frames := s.frames.push ⟨outer, []⟩ })

/-- A new frame with nothing around it. -/
def newRoot (s : Store) : FrameId × Store := s.addFrame []

/-- The frame itself and the frames around it, innermost first. -/
def chain (s : Store) (f : FrameId) : List FrameId := f :: (s.frame f).outer

/-- A new frame directly inside `f`. -/
def extend (s : Store) (f : FrameId) : FrameId × Store := s.addFrame (s.chain f)

/-- The frame directly around `f`. -/
def parent? (s : Store) (f : FrameId) : Option FrameId := (s.frame f).outer.head?

/-- The number of frames around `f`. -/
def depth (s : Store) (f : FrameId) : Nat := (s.frame f).outer.length

/-- Whether `f` is `g` or lies inside it. -/
def isWithin (s : Store) (f g : FrameId) : Bool := decide (g ∈ s.chain f)

/-- The names declared in the frame itself, in order. -/
def names (s : Store) (f : FrameId) : List String := (s.frame f).bindings.map (·.1)

/-- The slot that the frame itself binds a name to. -/
def slotIn (s : Store) (name : String) (f : FrameId) : Option SlotId :=
  (s.frame f).bindings.lookup name

/-- The slot of a name, in the nearest frame that declares it. -/
def lookup (s : Store) (f : FrameId) (name : String) : Option SlotId :=
  (s.chain f).findSome? (s.slotIn name)

/-- The value in a slot. -/
def slot (s : Store) (i : SlotId) : Value := s.slots[i]?.getD .undefined

/-- Overwrites a slot. -/
def setSlot (s : Store) (i : SlotId) (v : Value) : Store :=
  { s with slots := s.slots.setIfInBounds i v }

/-- The value of a name. -/
def get? (s : Store) (f : FrameId) (name : String) : Option Value :=
  (s.lookup f name).map s.slot

/-- Overwrites the value of a name, in the nearest frame that declares it; none
if there is no such frame. -/
def set? (s : Store) (f : FrameId) (name : String) (v : Value) : Option Store :=
  (s.lookup f name).map (s.setSlot · v)

/-- Whether a name can be declared in the frame. Frames around it do not
matter. -/
def canDeclare (s : Store) (f : FrameId) (name : String) : Bool :=
  (s.slotIn name f).isNone

/-- Replaces the bindings of a frame. -/
def setBindings (s : Store) (f : FrameId) (bindings : List (String × SlotId)) : Store :=
  let outer := (s.frame f).outer
  { s with frames := s.frames.setIfInBounds f ⟨outer, bindings⟩ }

/-- Binds a name in the frame to a new slot with the given value. -/
def bind (s : Store) (f : FrameId) (name : String) (v : Value) : Store :=
  let bindings := (s.frame f).bindings ++ [(name, s.slots.size)]
  { s with slots := s.slots.push v }.setBindings f bindings

/-- Declares a name that the frame does not declare yet. -/
def declare (s : Store) (f : FrameId) (name : String) (v : Value) :
    Except NameFault Store :=
  if s.canDeclare f name then .ok (s.bind f name v) else .error (.redeclared name)

/-- Forgets all names of a frame. -/
def release (s : Store) (f : FrameId) : Store := s.setBindings f []

/-- Whether a value is a declared function whose frame is `f` or lies
inside it. -/
def captures (s : Store) (v : Value) (f : FrameId) : Bool :=
  match v with
  | .function _ closure => s.isWithin closure f
  | _ => false

/-- The number for the next program run. -/
def newUnit (s : Store) : Nat × Store := (s.units, { s with units := s.units + 1 })

/-! ### What each operation changes -/

theorem frame_addFrame (s : Store) (outer : List FrameId) (g : FrameId) :
    (s.addFrame outer).2.frame g =
      if g = s.frames.size then ⟨outer, []⟩ else s.frame g := by
  simp only [frame, addFrame, Array.getElem?_push]
  split <;> rfl

@[simp]
theorem frame_setSlot (s : Store) (i : SlotId) (v : Value) (g : FrameId) :
    (s.setSlot i v).frame g = s.frame g := rfl

theorem frame_setBindings (s : Store) (f g : FrameId) (bs : List (String × SlotId)) :
    (s.setBindings f bs).frame g =
      if g = f ∧ f < s.frames.size then ⟨(s.frame f).outer, bs⟩ else s.frame g := by
  simp only [frame, setBindings, Array.getElem?_setIfInBounds]
  by_cases hg : f = g
  · subst hg
    by_cases hf : f < s.frames.size <;> simp [hf]
  · simp [hg, Ne.symm hg]

theorem frame_extend (s : Store) (f g : FrameId) :
    (s.extend f).2.frame g =
      if g = s.frames.size then ⟨s.chain f, []⟩ else s.frame g :=
  frame_addFrame s (s.chain f) g

theorem frame_bind (s : Store) (f g : FrameId) (name : String) (v : Value) :
    (s.bind f name v).frame g =
      if g = f ∧ f < s.frames.size then
        ⟨(s.frame f).outer, (s.frame f).bindings ++ [(name, s.slots.size)]⟩
      else s.frame g :=
  frame_setBindings { s with slots := s.slots.push v } f g _

theorem frame_release (s : Store) (f g : FrameId) :
    (s.release f).frame g =
      if g = f ∧ f < s.frames.size then ⟨(s.frame f).outer, []⟩ else s.frame g :=
  frame_setBindings s f g []

/-- A number that was never given out stands for a frame without names. -/
theorem frame_of_size_le {s : Store} {g : FrameId} (h : s.frames.size ≤ g) :
    s.frame g = ⟨[], []⟩ := by
  rw [frame, Array.getElem?_eq_none h]
  rfl

@[simp]
theorem size_frames_extend (s : Store) (f : FrameId) :
    (s.extend f).2.frames.size = s.frames.size + 1 :=
  Array.size_push _

@[simp]
theorem size_frames_bind (s : Store) (f : FrameId) (name : String) (v : Value) :
    (s.bind f name v).frames.size = s.frames.size :=
  Array.size_setIfInBounds

@[simp]
theorem size_slots_bind (s : Store) (f : FrameId) (name : String) (v : Value) :
    (s.bind f name v).slots.size = s.slots.size + 1 :=
  Array.size_push _

@[simp]
theorem size_frames_release (s : Store) (f : FrameId) :
    (s.release f).frames.size = s.frames.size :=
  Array.size_setIfInBounds

/-- Bindings come and go, but frames stay where they are. -/
@[simp]
theorem outer_setBindings (s : Store) (f g : FrameId) (bs : List (String × SlotId)) :
    ((s.setBindings f bs).frame g).outer = (s.frame g).outer := by
  rw [frame_setBindings]
  split
  · rename_i h
    rw [h.1]
  · rfl

@[simp]
theorem chain_setBindings (s : Store) (f g : FrameId) (bs : List (String × SlotId)) :
    (s.setBindings f bs).chain g = s.chain g := by
  rw [chain, chain, outer_setBindings]

@[simp]
theorem chain_release (s : Store) (f g : FrameId) : (s.release f).chain g = s.chain g :=
  chain_setBindings s f g []

@[simp]
theorem chain_bind (s : Store) (f g : FrameId) (name : String) (v : Value) :
    (s.bind f name v).chain g = s.chain g :=
  chain_setBindings _ f g _

/-- A new name comes last. -/
theorem names_bind {s : Store} {f : FrameId} (hf : f < s.frames.size) (name : String)
    (v : Value) : (s.bind f name v).names f = s.names f ++ [name] := by
  simp only [bind, names, frame_setBindings]
  simp [hf, frame]

@[simp]
theorem names_release (s : Store) (f : FrameId) : (s.release f).names f = [] := by
  rw [names, release, frame_setBindings]
  by_cases hf : f < s.frames.size <;> simp [hf, frame]

theorem slot_bind (s : Store) (f : FrameId) (name : String) (v : Value) (i : SlotId) :
    (s.bind f name v).slot i = if i = s.slots.size then v else s.slot i := by
  simp only [slot, bind, setBindings, Array.getElem?_push]
  split <;> rfl

/-- A slot outlives its name. -/
@[simp]
theorem slot_release (s : Store) (f : FrameId) (i : SlotId) :
    (s.release f).slot i = s.slot i := rfl

theorem slot_setSlot {s : Store} {i : SlotId} (hi : i < s.slots.size) (v : Value)
    (j : SlotId) : (s.setSlot i v).slot j = if j = i then v else s.slot j := by
  simp only [slot, setSlot, Array.getElem?_setIfInBounds]
  by_cases hj : i = j
  · subst hj
    simp [hi]
  · simp [hj, Ne.symm hj]

/-- The slot of a name is one of the bindings of the frame. -/
theorem mem_bindings_of_slotIn {s : Store} {name : String} {f : FrameId} {i : SlotId}
    (h : s.slotIn name f = some i) : (name, i) ∈ (s.frame f).bindings := by
  rw [slotIn, List.lookup_eq_some_iff] at h
  obtain ⟨before, rest, hb, -⟩ := h
  simp [hb]

/-- A name can be declared exactly when the frame does not declare it. -/
theorem canDeclare_iff (s : Store) (f : FrameId) (name : String) :
    s.canDeclare f name = true ↔ name ∉ s.names f := by
  simp only [canDeclare, slotIn, names, Option.isNone_iff_eq_none,
    List.lookup_eq_none_iff, List.mem_map, not_exists, not_and]
  constructor
  · intro h p hp he
    have hne := h p hp
    simp [he] at hne
  · intro h p hp
    have hne := h p hp
    simp [Ne.symm hne]

end Store

end ClosureCalc
