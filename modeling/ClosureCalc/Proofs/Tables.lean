/-
Tables of names.

The store has the names of a frame and their slots in one list. A frame can
also be kept in two containers that know nothing of each other: the slots, by
name, and the names in order of declaration. Then a declaration writes to one
of them after the other, and a release empties one after the other.

* `Table`: the two containers. `Table.declare` and `Table.release` are the steps
  on them, write by write.
* `Table.Made`: the tables that such steps lead to, in any order.
* `Table.Coherent`: the names in order are the names with a slot, each of them
  once. The steps keep it, and so it holds of every table made by them
  (`Table.Made.coherent`).
* `Store.table`: the two containers of a frame of the store.
  `Store.declare_table` and `Store.release_table`: the store does to its frames
  what the steps do to the containers, failures included.
-/
import ClosureCalc.Store
import Mathlib.Data.Finmap
import Mathlib.Tactic.Lemma

namespace ClosureCalc

/-! ### Two containers -/

/-- **The table of a frame**: the slots of its names, and apart from them the
names in order of declaration. -/
structure Table where
  slots : Finmap fun _ : String => SlotId
  order : List String

namespace Table

/-- A table without names. -/
def empty : Table := ⟨∅, []⟩

/-- Steps on a table. What a step wrote stays written when it fails. -/
abbrev Step := EStateM NameFault Table

/-- Declares a name with its slot: it is looked for among the slots, entered
there, and then put at the end of the order. -/
def declare (name : String) (i : SlotId) : Step Unit := do
  if name ∈ (← get).slots then
    throw (.redeclared name)
  modify fun t => { t with slots := t.slots.insert name i }
  modify fun t => { t with order := t.order ++ [name] }

/-- Forgets all slots, then the order. -/
def release : Step Unit := do
  modify fun t => { t with slots := ∅ }
  modify fun t => { t with order := [] }

/-- The table behind both writes of a declaration. -/
def enter (t : Table) (name : String) (i : SlotId) : Table :=
  ⟨t.slots.insert name i, t.order ++ [name]⟩

variable {t t' : Table} {name : String} {i : SlotId}

/-- A declaration that fails does so before it wrote anything. -/
lemma declare_eq (name : String) (i : SlotId) (t : Table) :
    declare name i t =
      if name ∈ t.slots then .error (.redeclared name) t else .ok () (t.enter name i) := by
  change (do
    if name ∈ t.slots then throw (.redeclared name)
    modify fun t => { t with slots := t.slots.insert name i }
    modify fun t => { t with order := t.order ++ [name] } : Step Unit) t = _
  by_cases h : name ∈ t.slots
  · rw [if_pos h, if_pos h]
    rfl
  · rw [if_neg h, if_neg h]
    rfl

/-- **Coherent tables**: the names in order are those with a slot, each of them
once. -/
structure Coherent (t : Table) : Prop where
  nodup : t.order.Nodup
  mem_order : ∀ name, name ∈ t.order ↔ name ∈ t.slots

lemma coherent_empty : empty.Coherent :=
  ⟨List.nodup_nil, fun _ => iff_of_false List.not_mem_nil Finmap.notMem_empty⟩

/-- A declaration that succeeds keeps the two containers together. -/
lemma Coherent.of_declare (h : t.Coherent) (hd : declare name i t = .ok () t') : t'.Coherent := by
  rw [declare_eq] at hd
  split at hd
  · cases hd
  · rename_i hn
    cases hd
    -- the order does not have the name, since the slots do not
    have hnew : name ∉ t.order := fun ho => hn ((h.mem_order name).1 ho)
    refine ⟨?_, fun other => ?_⟩
    · rw [enter, List.nodup_append]
      refine ⟨h.nodup, List.nodup_singleton name, fun a ha b hb => ?_⟩
      rintro rfl
      exact hnew (List.mem_singleton.1 hb ▸ ha)
    · rw [enter, List.mem_append, List.mem_singleton, Finmap.mem_insert, h.mem_order]
      exact or_comm

/-- A release empties both containers, however they were. -/
lemma coherent_of_release (hr : release t = .ok () t') : t'.Coherent := by
  cases hr
  exact coherent_empty

/-- **Tables that steps lead to**: names are declared and released in any order,
and declared again in a released table. -/
inductive Made : Table → Prop
  | empty : Made .empty
  | declare {t t' : Table} {name : String} {i : SlotId} (h : Made t)
      (hd : Table.declare name i t = .ok () t') : Made t'
  | release {t t' : Table} (h : Made t) (hr : Table.release t = .ok () t') : Made t'

/-- **Steps keep tables coherent.** -/
theorem Made.coherent (h : t.Made) : t.Coherent := by
  induction h with
  | empty => exact coherent_empty
  | declare _ hd ih => exact ih.of_declare hd
  | release _ hr _ => exact coherent_of_release hr

/-! ### From the bindings of a frame -/

/-- The table with the given names and slots, entered one after the other. -/
def of (bindings : List (String × SlotId)) : Table :=
  bindings.foldl (fun t b => t.enter b.1 b.2) empty

variable {bindings : List (String × SlotId)}

lemma of_concat (bindings : List (String × SlotId)) (name : String) (i : SlotId) :
    of (bindings ++ [(name, i)]) = (of bindings).enter name i := by
  rw [of, List.foldl_append, of]
  rfl

lemma order_of (bindings : List (String × SlotId)) : (of bindings).order = bindings.map (·.1) := by
  induction bindings using List.reverseRecOn with
  | nil => rfl
  | append_singleton bindings b ih => rw [of_concat, enter, ih, List.map_append, List.map_singleton]

lemma mem_slots_of (bindings : List (String × SlotId)) (name : String) :
    name ∈ (of bindings).slots ↔ name ∈ bindings.map (·.1) := by
  induction bindings using List.reverseRecOn with
  | nil => exact iff_of_false Finmap.notMem_empty List.not_mem_nil
  | append_singleton bindings b ih =>
    rw [of_concat, enter, Finmap.mem_insert, ih, List.map_append, List.mem_append,
      List.map_singleton, List.mem_singleton]
    exact or_comm

lemma mem_of_lookup (h : (of bindings).slots.lookup name = some i) : (name, i) ∈ bindings := by
  induction bindings using List.reverseRecOn with
  | nil => simp [of, empty] at h
  | append_singleton bindings b ih =>
    rw [of_concat, enter] at h
    by_cases hb : name = b.1
    · rw [hb, Finmap.lookup_insert, Option.some.injEq] at h
      simp [hb, ← h]
    · rw [Finmap.lookup_insert_of_ne _ hb] at h
      exact List.mem_append_left _ (ih h)

/-- Of distinct names each has the slot that it was entered with. -/
lemma lookup_of (h : (bindings.map (·.1)).Nodup) (name : String) :
    (of bindings).slots.lookup name = bindings.lookup name := by
  induction bindings using List.reverseRecOn with
  | nil => simp [of, empty]
  | append_singleton bindings b ih =>
    rw [List.map_append, List.map_singleton, List.nodup_append] at h
    obtain ⟨hnodup, -, hne⟩ := h
    rw [of_concat, enter, List.lookup_append]
    by_cases hb : name = b.1
    · have hnone : bindings.lookup b.1 = none := by
        rw [List.lookup_eq_none_iff]
        intro p hp
        have hp' := hne p.1 (List.mem_map_of_mem hp) b.1 (by simp)
        simpa using hp'.symm
      rw [hb, Finmap.lookup_insert, hnone, List.lookup_cons_self]
      rfl
    · rw [Finmap.lookup_insert_of_ne _ hb, ih hnodup]
      have hb' : (name == b.1) = false := by simpa using hb
      rw [List.lookup_cons, hb', List.lookup_nil, Option.or_none]

end Table

/-! ### The tables of a store -/

namespace Store

/-- The two containers of a frame. -/
def table (s : Store) (f : FrameId) : Table := .of (s.frame f).bindings

@[simp]
lemma order_table (s : Store) (f : FrameId) : (s.table f).order = s.names f :=
  Table.order_of _

lemma mem_slots_table (s : Store) (f : FrameId) (name : String) :
    name ∈ (s.table f).slots ↔ name ∈ s.names f :=
  Table.mem_slots_of _ name

lemma table_addFrame (s : Store) (outer : List FrameId) (g : FrameId) :
    (s.addFrame outer).2.table g = if g = s.frames.size then .empty else s.table g := by
  rw [table, frame_addFrame]
  split <;> rfl

lemma table_bind (s : Store) (f g : FrameId) (name : String) (v : Value) :
    (s.bind f name v).table g =
      if g = f ∧ f < s.frames.size then (s.table f).enter name s.slots.size else s.table g := by
  rw [table, frame_bind]
  split
  · exact Table.of_concat _ name _
  · rfl

lemma table_release (s : Store) (f g : FrameId) :
    (s.release f).table g = if g = f ∧ f < s.frames.size then .empty else s.table g := by
  rw [table, frame_release]
  split <;> rfl

/-- **Declaring in the store is declaring in the table of the frame**, with the
next slot. If it fails, it fails with the same fault, and both containers are as
they were. -/
theorem declare_table {s : Store} {f : FrameId} (hf : f < s.frames.size) (name : String)
    (v : Value) :
    Table.declare name s.slots.size (s.table f) =
      match s.declare f name v with
      | .ok s' => .ok () (s'.table f)
      | .error fault => .error fault (s.table f) := by
  by_cases hn : name ∈ s.names f
  · have hc : s.canDeclare f name = false := by
      rw [← Bool.not_eq_true, canDeclare_iff]
      exact not_not_intro hn
    rw [Table.declare_eq, if_pos ((s.mem_slots_table f name).2 hn), declare, hc]
    rfl
  · have hc : s.canDeclare f name = true := (s.canDeclare_iff f name).2 hn
    rw [Table.declare_eq, if_neg (mt (s.mem_slots_table f name).1 hn), declare, if_pos hc]
    change _ = EStateM.Result.ok () ((s.bind f name v).table f)
    rw [table_bind, if_pos ⟨rfl, hf⟩]

/-- **Releasing a frame is releasing its table.** -/
theorem release_table (s : Store) (f : FrameId) :
    Table.release (s.table f) = .ok () ((s.release f).table f) := by
  have hempty : (s.release f).table f = .empty := by
    rw [table_release]
    split
    · rfl
    · -- a frame that does not exist has no names
      rename_i hf
      rw [table, frame_of_size_le (Nat.not_lt.1 fun h => hf ⟨rfl, h⟩)]
      rfl
  rw [hempty]
  rfl

end Store

end ClosureCalc
