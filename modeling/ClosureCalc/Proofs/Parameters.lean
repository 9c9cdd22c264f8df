/-
Parameters of calls.

A call of a declared function makes a frame within the one that the function was
declared in. It declares the parameters there, one after the other, and executes the
body in the same frame.

* `FirstRepeat`: the first of some names that came before.
* `Store.entries`: the names of a frame with their values.
* `declareAll_of_nodup`, `declareAll_of_repeat`: names that are declared with values, and
  names among which one is declared twice.
* `BindsParameters`: the store in which the body is executed.
* `calls_bind_parameters`: how calls end.
-/
import ClosureCalc.Proofs.Returns
import Mathlib.Data.List.Nodup
import Mathlib.Data.Nat.Find

namespace ClosureCalc

/-! ### Names that repeat -/

/-- **The first name that came before**, and its index. -/
structure FirstRepeat (names : List String) (j : Nat) (name : String) : Prop where
  get : names[j]? = some name
  mem : name ∈ names.take j
  first : ∀ i < j, ∀ other, names[i]? = some other → other ∉ names.take i

/-- Names of which none came before are distinct. -/
lemma nodup_take {names : List String} {j : Nat}
    (h : ∀ i < j, ∀ other, names[i]? = some other → other ∉ names.take i) :
    (names.take j).Nodup := by
  induction j with
  | zero => exact List.nodup_nil
  | succ j ih =>
    have hfront := ih fun i hi => h i (Nat.lt_succ_of_lt hi)
    rw [List.take_add_one]
    cases hj : names[j]? with
    | none => rwa [Option.toList_none, List.append_nil]
    | some name =>
      have hnew := h j (Nat.lt_succ_self j) name hj
      have hdiffer : ∀ other ∈ names.take j, ∀ last ∈ [name], other ≠ last := by
        intro other hother last hlast
        rw [List.mem_singleton.1 hlast]
        exact fun he => hnew (he ▸ hother)
      exact List.nodup_append.2 ⟨hfront, List.nodup_singleton name, hdiffer⟩

lemma exists_firstRepeat {names : List String} (h : ¬ names.Nodup) :
    ∃ j name, FirstRepeat names j name := by
  classical
  have hrepeat : ∃ j name, names[j]? = some name ∧ name ∈ names.take j := by
    by_contra hnot
    have hnodup : (names.take names.length).Nodup := nodup_take fun i _ other hget hmem =>
      hnot ⟨i, other, hget, hmem⟩
    rw [List.take_length] at hnodup
    exact h hnodup
  obtain ⟨name, hget, hmem⟩ := Nat.find_spec hrepeat
  exact ⟨Nat.find hrepeat, name, hget, hmem, fun i hi other hget' hmem' =>
    Nat.find_min hrepeat hi ⟨other, hget', hmem'⟩⟩

/-! ### Declaring parameters -/

/-- The names of a frame with their values, in order of declaration. -/
def Store.entries (s : Store) (f : FrameId) : List (String × Value) :=
  (s.frame f).bindings.map fun b => (b.1, s.slot b.2)

section Declaring

variable {s : Store} {f : FrameId} {names : List String} {vs : List Value}

lemma Store.entries_bind (hf : f < s.frames.size)
    (hslots : ∀ b ∈ (s.frame f).bindings, b.2 < s.slots.size) (name : String) (v : Value) :
    (s.bind f name v).entries f = s.entries f ++ [(name, v)] := by
  have hold : ∀ b ∈ (s.frame f).bindings,
      (b.1, (s.bind f name v).slot b.2) = (b.1, s.slot b.2) := fun b hb => by
    rw [slot_bind, if_neg (hslots b hb).ne]
  rw [entries, frame_bind, if_pos ⟨rfl, hf⟩, List.map_append, List.map_congr_left hold]
  simp only [List.map_cons, List.map_nil, slot_bind, if_true]
  rfl

lemma Eval.declare_of_not_mem {name : String} (h : name ∉ s.names f) (v : Value) (p : Position) :
    declare f name v p s = .ok () (s.bind f name v) := by
  rw [declare, if_pos ((s.canDeclare_iff f name).2 h)]

lemma Store.declareEach_of_not_mem {name : String} (h : name ∉ s.names f) (v : Value)
    (rest : List (String × Value)) :
    s.declareEach f ((name, v) :: rest) = (s.bind f name v).declareEach f rest := by
  rw [declareEach, declare, if_pos ((s.canDeclare_iff f name).2 h)]
  rfl

/-- **Distinct names are declared**, with their values and in order. -/
lemma declareAll_of_nodup (hf : f < s.frames.size)
    (hslots : ∀ b ∈ (s.frame f).bindings, b.2 < s.slots.size) (hlen : names.length ≤ vs.length)
    (hnodup : (s.names f ++ names).Nodup) (p : Position) :
    let s' := s.declareEach f (names.zip vs)
    Eval.declareAll f p names vs s = .ok () s' ∧ s'.entries f = s.entries f ++ names.zip vs ∧
      s'.frames.size = s.frames.size := by
  induction names generalizing s vs with
  | nil => exact ⟨rfl, (List.append_nil _).symm, rfl⟩
  | cons name names ih =>
    cases vs with
    | nil => cases hlen
    | cons v vs =>
      have hnew : name ∉ s.names f := fun hmem =>
        (List.nodup_append.1 hnodup).2.2 name hmem name List.mem_cons_self rfl
      have hslots' : ∀ b ∈ ((s.bind f name v).frame f).bindings,
          b.2 < (s.bind f name v).slots.size := by
        intro b hb
        rw [Store.frame_bind, if_pos ⟨rfl, hf⟩] at hb
        rw [Store.size_slots_bind]
        rcases List.mem_append.1 hb with hb | hb
        · exact Nat.lt_succ_of_lt (hslots b hb)
        · rw [List.mem_singleton.1 hb]
          exact Nat.lt_succ_self _
      have hnodup' : ((s.bind f name v).names f ++ names).Nodup := by
        rw [Store.names_bind hf, List.append_assoc]
        exact hnodup
      have hsize := s.size_frames_bind f name v
      obtain ⟨hdeclared, hentries, hframes⟩ :=
        ih (hsize.symm ▸ hf) hslots' (Nat.le_of_succ_le_succ hlen) hnodup'
      rw [List.zip_cons_cons, Store.declareEach_of_not_mem hnew]
      refine ⟨?_, ?_, hframes.trans hsize⟩
      · rw [Eval.declareAll, Eval.bind_ok (Eval.declare_of_not_mem hnew v p)]
        exact hdeclared
      · rw [hentries, Store.entries_bind hf hslots, List.append_assoc]
        rfl

/-- **A name that is declared already** is refused, when it is the first such name. -/
lemma declareAll_of_repeat (hf : f < s.frames.size) (hlen : names.length ≤ vs.length) {j : Nat}
    {name : String} (hget : names[j]? = some name) (hmem : name ∈ s.names f ++ names.take j)
    (hnodup : (s.names f ++ names.take j).Nodup) (p : Position) :
    ∃ s', Eval.declareAll f p names vs s = .error (.error (.name (.redeclared name) p)) s' := by
  induction names generalizing s vs j with
  | nil => cases hget
  | cons first names ih =>
    cases vs with
    | nil => cases hlen
    | cons v vs =>
      cases j with
      | zero =>
        cases hget
        rw [List.take_zero, List.append_nil] at hmem
        rw [Eval.declareAll]
        rcases declare_cases f name v p s with ⟨hc, -⟩ | hd
        · exact absurd hmem ((s.canDeclare_iff f name).1 hc)
        · exact ⟨s, Eval.bind_error hd _⟩
      | succ j =>
        rw [List.take_succ_cons] at hmem hnodup
        have hnew : first ∉ s.names f := fun hfirst =>
          (List.nodup_append.1 hnodup).2.2 first hfirst first List.mem_cons_self rfl
        have hnames : (s.bind f first v).names f ++ names.take j =
            s.names f ++ first :: names.take j := by
          rw [Store.names_bind hf, List.append_assoc]
          rfl
        rw [Eval.declareAll, Eval.bind_ok (Eval.declare_of_not_mem hnew v p)]
        exact ih ((s.size_frames_bind f first v).symm ▸ hf) (Nat.le_of_succ_le_succ hlen) hget
          (hnames ▸ hmem) (hnames ▸ hnodup)

/-- Values beyond the names do not matter. -/
lemma declareAll_take (f : FrameId) (p : Position) :
    ∀ (names : List String) (vs : List Value),
      Eval.declareAll f p names (vs.take names.length) = Eval.declareAll f p names vs
  | [], [] => rfl
  | [], v :: vs => rfl
  | name :: names, [] => rfl
  | name :: names, v :: vs => by
      rw [List.length_cons, List.take_succ_cons, Eval.declareAll, Eval.declareAll,
        declareAll_take f p names vs]

end Declaring

/-! ### Calls -/

/-- The store behind the declaration of parameters in a new frame within `closure`. -/
abbrev Store.bindParameters (s : Store) (closure : FrameId) (entries : List (String × Value)) :
    Store :=
  (s.extend closure).2.declareEach s.frames.size entries

/-- **The store in which the body of a function is executed.** A new frame directly
within `closure` declares the given names with their values; frames and slots that were
there before are as they were. -/
structure BindsParameters (s : Store) (closure : FrameId) (entries : List (String × Value))
    (s₁ : Store) : Prop where
  parent : s₁.parent? s.frames.size = some closure
  chain : s₁.chain s.frames.size = s.frames.size :: s.chain closure
  entries : s₁.entries s.frames.size = entries
  grows : s.Extends ∅ s₁
  size : s₁.frames.size = s.frames.size + 1

/-- How a call ends, by how its body ends. The frame is left, and a body that does not
return has the undefined value. -/
def Eval.endCall (inner : FrameId) :
    EStateM.Result Stop Store Flow → EStateM.Result Stop Store Value
  | .ok flow s => .ok (flow.value?.getD .undefined) (s.leave inner flow.value?)
  | .error stop s => .error stop (s.leave inner none)

section Calls

variable {caller : Caller} {decl : Declaration} {args : List Value} {s : Store}

/-- A call with arguments enough ends in the way that its parameters and its body do. -/
lemma callFunction_apply (h : decl.params.length ≤ args.length) (caller : Caller)
    (closure : FrameId) (p : Position) (s : Store) :
    callFunction releaseOnExit caller decl closure args p s = Eval.endCall s.frames.size
      (callBody releaseOnExit caller decl args p s.frames.size (s.extend closure).2) := by
  rw [callFunction_of_le h]
  rcases hbody : callBody releaseOnExit caller decl args p s.frames.size (s.extend closure).2 with
    ⟨flow, s'⟩ | ⟨stop, s'⟩
  · exact Eval.bind_ok (Eval.inNewFrame_ok hbody) _
  · exact Eval.bind_error (Eval.inNewFrame_error hbody) _

/-- Arguments beyond the parameters do not matter. -/
lemma callFunction_take (h : decl.params.length ≤ args.length) (caller : Caller)
    (closure : FrameId) (p : Position) :
    callFunction releaseOnExit caller decl closure (args.take decl.params.length) p =
      callFunction releaseOnExit caller decl closure args p := by
  have hlen : decl.params.length ≤ (args.take decl.params.length).length := by
    rw [List.length_take, Nat.min_eq_left h]
  have hbody : callBody releaseOnExit caller decl (args.take decl.params.length) p =
      callBody releaseOnExit caller decl args p := by
    funext inner
    rw [callBody, callBody, declareAll_take]
  rw [callFunction_of_le hlen, callFunction_of_le h, hbody]

/-- What a call comes to, by what its body comes to. -/
lemma Eval.answer_of_endCall {x : Eval Value} {body : Eval Flow} {inner : FrameId} {s₁ : Store}
    (h : x s = endCall inner (body s₁)) :
    x.answer s = (body.answer s₁).map fun flow => flow.value?.getD .undefined := by
  rw [answer, answer, h]
  cases body s₁ <;> rfl

lemma lt_size_extend (s : Store) (f : FrameId) : s.frames.size < (s.extend f).2.frames.size := by
  rw [Store.size_frames_extend]
  exact Nat.lt_succ_self _

lemma names_extend (s : Store) (f : FrameId) : (s.extend f).2.names s.frames.size = [] := by
  rw [Store.names, Store.frame_extend, if_pos rfl]
  rfl

/-- **Distinct parameters are bound**; then the body decides how the call ends. -/
lemma callFunction_of_nodup (h : decl.params.length ≤ args.length) (hnodup : decl.params.Nodup)
    (caller : Caller) (closure : FrameId) (p : Position) (s : Store) :
    let s₁ := s.bindParameters closure (decl.params.zip args)
    BindsParameters s closure (decl.params.zip args) s₁ ∧
      callFunction releaseOnExit caller decl closure args p s = Eval.endCall s.frames.size
        (executeAll releaseOnExit caller decl.unit s.frames.size decl.body s₁) := by
  intro s₁
  have hbindings : ((s.extend closure).2.frame s.frames.size).bindings = [] := by
    rw [Store.frame_extend, if_pos rfl]
  have hnodup' : ((s.extend closure).2.names s.frames.size ++ decl.params).Nodup := by
    rwa [names_extend, List.nil_append]
  have hlt := lt_size_extend s closure
  obtain ⟨hdeclared, hentries, hsize⟩ :=
    declareAll_of_nodup hlt (by rw [hbindings]; nofun) h hnodup' p
  have hgrows := (Eval.affects_declareAll (Set.mem_singleton s.frames.size) p decl.params args
    (s.extend closure).2).grows
  rw [Eval.after_ok hdeclared] at hgrows
  have hchain : s₁.chain s.frames.size = s.frames.size :: s.chain closure := by
    rw [hgrows.chain_eq hlt, Store.chain, Store.frame_extend, if_pos rfl]
  have houter : (s₁.frame s.frames.size).outer = s.chain closure := (List.cons.inj hchain).2
  refine ⟨⟨?_, hchain, ?_, ?_, hsize.trans (Store.size_frames_extend s closure)⟩, ?_⟩
  · rw [Store.parent?, houter]
    rfl
  · rw [hentries, Store.entries, hbindings]
    rfl
  · exact (s.extends_extend ∅ closure).trans_new hgrows (by simp)
  · rw [callFunction_apply h, callBody, Eval.bind_ok hdeclared]

/-- **A parameter that repeats** is refused, and nothing of the body is executed. -/
lemma callFunction_of_repeat (h : decl.params.length ≤ args.length) {j : Nat} {name : String}
    (hrepeat : FirstRepeat decl.params j name) (caller : Caller) (calls : CallRecord)
    (closure : FrameId) (p : Position) (s : Store) :
    ∃ s', callFunction releaseOnExit caller decl closure args p s =
        .error (.error (.name (.redeclared name) p)) (s'.leave s.frames.size none) ∧
      callFunctionEvents releaseOnExit caller calls decl closure args p s =
        [.enters s.frames.size (.function decl) s, .leaves s.frames.size none s'] := by
  have hnames := names_extend s closure
  obtain ⟨s', hs'⟩ := declareAll_of_repeat (lt_size_extend s closure) h hrepeat.get
    (by rw [hnames]; exact hrepeat.mem) (by rw [hnames]; exact nodup_take hrepeat.first) p
  have hbody : callBody releaseOnExit caller decl args p s.frames.size (s.extend closure).2 =
      .error (.error (.name (.redeclared name) p)) s' := Eval.bind_error hs' _
  refine ⟨s', ?_, ?_⟩
  · rw [callFunction_apply h, hbody]
    rfl
  · rw [callFunctionEvents, if_neg (Nat.not_lt.2 h), Eval.newFrameEvents_error hbody,
      callBodyEvents, Eval.recorded_error hs']
    rfl

/-- What a call comes to, by the first `return` in its body. -/
lemma answer_of_decides {x : Eval Value} {body : Eval Flow} {s₁ : Store} {first : Option Return}
    (h : x.answer s = (body.answer s₁).map fun flow => flow.value?.getD .undefined) :
    Decides caller first (body.answer s₁) →
      match first with
      | some r => x.answer s = r.answer caller
      | none => x.answer s = (body.answer s₁).map fun _ => .undefined := by
  intro hfirst
  cases first with
  | some r =>
    rw [Decides] at hfirst
    dsimp only
    rw [h, hfirst]
    cases r.answer caller <;> rfl
  | none =>
    dsimp only
    rw [h]
    rcases hbody : body.answer s₁ with stop | ⟨_ | v⟩
    · rfl
    · rfl
    · exact absurd hbody (hfirst v)

end Calls

/-- **Calls bind parameters.** Too few arguments are an error at the place of the call,
and the store is as before. With arguments enough, the first parameter that came before is
an error there, and no statement is executed. If the parameters are distinct, further
arguments do not matter; the parameters, with the arguments as values, are the names of a
new frame within the one that the function was declared in, and the statements of the body
are executed there. The call comes to what the first `return` among these comes to, in a
block or not; without one it has the undefined value, unless a statement fails. -/
theorem calls_bind_parameters (s : Store) (limit : Nat) (decl : Declaration) (closure : FrameId)
    (args : List Value) (p : Position) :
    let caller := call releaseOnExit limit
    let calling := call releaseOnExit (limit + 1) (.function decl closure)
    let events := callEvents releaseOnExit (limit + 1) (.function decl closure) args p s
    (args.length < decl.params.length →
        calling args p s = .error (.error (.arity decl.params.length args.length p)) s) ∧
      (decl.params.length ≤ args.length → ¬ decl.params.Nodup →
        ∃ j name, FirstRepeat decl.params j name ∧
          (NameFault.redeclared name).message = "Redeclaration of '" ++ name ++ "'" ∧
          (calling args p).answer s = .error (.error (.name (.redeclared name) p)) ∧
          ∀ ev ∈ events, ∀ unit f st t, ev ≠ .executes unit f st t) ∧
      (decl.params.length ≤ args.length → decl.params.Nodup →
        calling args p = calling (args.take decl.params.length) p ∧
          let s₁ := s.bindParameters closure (decl.params.zip args)
          let body := executeAll releaseOnExit caller decl.unit s.frames.size decl.body
          BindsParameters s closure (decl.params.zip args) s₁ ∧
            calling args p s = Eval.endCall s.frames.size (body s₁) ∧
            match firstReturn? caller decl.unit s.frames.size decl.body s₁ with
            | some r => (calling args p).answer s = r.answer caller
            | none => (calling args p).answer s = (body.answer s₁).map fun _ => .undefined) := by
  intro caller calling events
  refine ⟨fun hlt => ?_, fun hle hnodup => ?_, fun hle hnodup => ⟨?_, ?_⟩⟩
  · change callFunction releaseOnExit caller decl closure args p s = _
    rw [callFunction, if_pos hlt]
    rfl
  · obtain ⟨j, name, hrepeat⟩ := exists_firstRepeat hnodup
    obtain ⟨s', hs', hevents⟩ := callFunction_of_repeat hle hrepeat caller
      (callEvents releaseOnExit limit) closure p s
    refine ⟨j, name, hrepeat, rfl, Eval.answer_error hs', fun ev hev unit f st t => ?_⟩
    change ev ∈ callFunctionEvents releaseOnExit caller _ decl closure args p s at hev
    rw [hevents] at hev
    rintro rfl
    simp at hev
  · exact (callFunction_take hle caller closure p).symm
  · intro s₁ body
    obtain ⟨hs₁, hcall⟩ := callFunction_of_nodup hle hnodup caller closure p s
    have hcalling : calling args p s = Eval.endCall s.frames.size (body s₁) := hcall
    exact ⟨hs₁, hcalling, answer_of_decides (Eval.answer_of_endCall hcalling)
      (decides_executeAll caller decl.unit s.frames.size decl.body s₁)⟩

/-- A function that returns its second parameter, called with too few and with too many
arguments, and one that has its first parameter twice. -/
theorem calls_bind_parameters_surplus :
    let s := (Session.bare ⟨0⟩).store
    let body : List Stmt := [.ret .start (some (.identifier .start "b"))]
    let calling (params : List String) (args : List Value) :=
      call releaseOnExit 1 (.function ⟨0, .start, "f", params, body⟩ 0) args .start
    let one : Value := .builtin .log 0
    calling ["a", "b"] [one] s = .error (.error (.arity 2 1 .start)) s ∧
      (calling ["a", "b"] [.undefined, one, .undefined]).answer s = .ok one ∧
      (calling ["a", "b", "a"] [one, one, one]).answer s =
        .error (.error (.name (.redeclared "a") .start)) := by
  intro s body calling one
  have hall := fun params args =>
    calls_bind_parameters s 0 ⟨0, .start, "f", params, body⟩ 0 args .start
  refine ⟨(hall ["a", "b"] [one]).1 (by decide), ?_, ?_⟩
  · exact ((hall ["a", "b"] [.undefined, one, .undefined]).2.2 (by decide) (by decide)).2.2.2
  · obtain ⟨j, name, hrepeat, -, hanswer, -⟩ :=
      (hall ["a", "b", "a"] [one, one, one]).2.1 (by decide) (by decide)
    obtain rfl : name = "a" := by
      obtain ⟨hget, hmem, -⟩ := hrepeat
      rcases j with _ | _ | _ | j <;> simp_all
    exact hanswer

end ClosureCalc
