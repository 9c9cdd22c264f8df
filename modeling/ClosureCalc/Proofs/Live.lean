/-
Names of live functions.

A function needs the names of the frames around it. They are lost when such a
frame is emptied while the function is still in use: the exit of a frame looks
at the value that leaves it, but not at what this value leads to.

* `LeftInUse`: a frame was emptied although the value that left it reaches it.
* `Session.Finds`: whatever a frame ever declared is found from then on.
* `live_functions_keep_names`: the frames around live functions are emptied only
  if they were left in use; the names of all others are found.
* `argument_loses_names`: a function that is kept by another one as an argument
  loses its names.
-/
import ClosureCalc.Proofs.Release

namespace ClosureCalc

/-- A name that a frame of the chain declares stands for a value. -/
lemma Store.isSome_get? {s : Store} {f g : FrameId} {name : String} (hg : g ∈ s.chain f)
    (hname : name ∈ s.names g) : (s.get? f name).isSome := by
  have hslot : (s.slotIn name g).isSome := by
    by_contra hnone
    have hc : s.canDeclare g name = true := by simpa [canDeclare] using hnone
    exact (s.canDeclare_iff g name).1 hc hname
  rw [get?, Option.isSome_map, lookup, List.findSome?_isSome_iff]
  exact ⟨g, hg, hslot⟩

/-- A frame with a name exists. -/
lemma Store.lt_of_mem_names {s : Store} {g : FrameId} {name : String} (h : name ∈ s.names g) :
    g < s.frames.size := by
  refine Nat.lt_of_not_le fun hle => ?_
  rw [names, frame_of_size_le hle] at h
  simp at h

/-- **A frame was left in use**: it was emptied although the value that left it
reaches it. -/
def LeftInUse (T : List Event) (g : FrameId) : Prop :=
  ∃ v s, .leaves g (some v) s ∈ T ∧ s.Empties g (some v) ∧ v.Reaches s g

/-- A frame that was emptied and never left in use was emptied by a safe exit. -/
lemma mem_lost_of_not_leftInUse {T : List Event} {g : FrameId} (hg : g ∈ emptied T)
    (hnot : ¬ LeftInUse T g) : g ∈ lost T := by
  obtain ⟨ev, hev, he⟩ := hg
  refine ⟨ev, hev, he, ?_⟩
  rintro f decl closure s rfl -
  obtain ⟨rfl, he⟩ := he
  exact .inr fun hr => hnot ⟨_, s, hev, he, decl, closure, rfl, hr⟩

/-- What is live comes from inside the frames agreed on, if the answer does. -/
lemma Store.Agree.inside_of_live {D K : Set FrameId} {s t : Store} (h : s.Agree D K t)
    {root : FrameId} (hroot : root ∈ K) {answer : Option Value} (hanswer : AnswerInside answer K)
    {v : Value} (hv : s.Live root answer v) : v.Inside K := by
  have hslot : ∀ g ∈ K, ∀ g', s.Reach g g' → ∀ b ∈ (s.frame g').bindings,
      (s.slot b.2).Inside K := fun g hg g' hr b hb decl closure hc =>
    h.closed g' (hr.mem h.closed hg) closure (.closure hb hc)
  rcases hv with ⟨g, hr, b, hb, rfl⟩ | ⟨w, hw, rfl | ⟨decl, closure, g, rfl, hr, b, hb, rfl⟩⟩
  · exact hslot root hroot g hr b hb
  · exact hanswer v hw
  · exact hslot closure (hanswer _ hw decl closure rfl) g hr b hb

namespace Session

/-- The value of a unit, if it ends with one. -/
def answer (s : Session) (exit : ExitRule) (limit : Nat) (source : String) : Option Value :=
  (s.step exit limit source).1.toOption.bind (·.value)

/-- **A frame's names are found** in a session behind the events `T`. Every name
that the frame ever had stands for a value from then on, wherever it is evaluated
inside of that frame. -/
def Finds (session : Session) (T : List Event) (g : FrameId) : Prop :=
  ∀ ev ∈ T, ∀ name ∈ ev.store.names g, ∀ limit more unit f p s,
    .evaluates unit f (.identifier p name) s ∈ session.events releaseOnExit limit more →
      g ∈ s.chain f → (s.get? f name).isSome

variable {start : Session}

/-- Names are found in a frame that was not emptied. -/
lemma finds_of_not_mem_emptied {limit : Nat} {sources : List String} {g : FrameId}
    (hg : g < (start.after releaseOnExit limit sources).store.frames.size)
    (hnot : g ∉ emptied (start.events releaseOnExit limit sources)) :
    (start.after releaseOnExit limit sources).Finds
      (start.events releaseOnExit limit sources) g := by
  intro ev hev name hname limit' more unit f p s hlater hin
  -- the name is still there behind the units, and nothing takes it away later
  obtain ⟨-, hkept⟩ := (start.effect limit sources).behind ev hev
  have hkept := (hkept g (Store.lt_of_mem_names hname)).2 hnot
  have hgrown := (((start.after releaseOnExit limit sources).effect limit' more).before _
    hlater).grown g hg
  exact Store.isSome_get? hin (((hkept.trans hgrown).map _).subset hname)

/-- Behind the last of some units there are frames that no safe exit emptied,
closed under reachability, with the root and the answer inside. -/
lemma WellFormed.agree_after (h : start.WellFormed) (limit : Nat) (sources : List String)
    (source : String) :
    ∃ K t, (start.after releaseOnExit limit (sources ++ [source])).store.Agree
        (lost (start.events releaseOnExit limit (sources ++ [source]))) K t ∧
      start.root ∈ K ∧
      AnswerInside ((start.after releaseOnExit limit sources).answer releaseOnExit limit source)
        K := by
  have hafter : (start.after releaseOnExit limit (sources ++ [source])).store =
      ((start.after releaseOnExit limit sources).step releaseOnExit limit source).2.store := by
    rw [after_append, after, after]
  have hevents : start.events releaseOnExit limit (sources ++ [source]) =
      start.events releaseOnExit limit sources ++
        interpretEvents releaseOnExit limit (start.after releaseOnExit limit sources).root source
          (start.after releaseOnExit limit sources).store := by
    rw [events_append, events, events, List.append_nil]
  obtain ⟨-, K₁, hK₁, hagree₁⟩ := Session.alike exitsAlike_releaseOnExit rfl h.root_lt
    h.store.agree limit fun ev _ => trivial
  have hroot₁ : (start.after releaseOnExit limit sources).root ∈ K₁ := by
    rw [root_after]
    exact hK₁ h.root_lt
  obtain ⟨-, K₂, hK₂, hagree₂, hanswer⟩ := alike_step exitsAlike_releaseOnExit rfl
    hroot₁ hagree₁ limit source fun ev _ => trivial
  rw [Set.empty_union, ← lost_append, ← hevents, ← hafter] at hagree₂
  refine ⟨K₂, _, hagree₂, hK₂ (hK₁ h.root_lt), fun v hv => ?_⟩
  obtain ⟨answer, hanswered, hvalue⟩ := Option.bind_eq_some_iff.1 hv
  refine hanswer answer ?_ v hvalue
  rcases hx : ((start.after releaseOnExit limit sources).step releaseOnExit limit source).1
    with stop | answer' <;> rw [hx] at hanswered
  · cases hanswered
  · exact congrArg _ (Option.some.inj hanswered)

end Session

/-- **Live functions keep the names of all frames around them that were not left
in use**, behind each unit of a session. Such a frame was emptied exactly if it
was left in use; if not, whatever it declared is found ever after. -/
theorem live_functions_keep_names {start : Session} (h : start.WellFormed) (limit : Nat)
    (sources : List String) (source : String) :
    let T := start.events releaseOnExit limit (sources ++ [source])
    let session := start.after releaseOnExit limit (sources ++ [source])
    let answer := (start.after releaseOnExit limit sources).answer releaseOnExit limit source
    ∀ decl closure, session.store.Live start.root answer (.function decl closure) →
      ∀ g ∈ session.store.chain closure,
        (g ∈ emptied T ↔ LeftInUse T g) ∧ (¬ LeftInUse T g → session.Finds T g) := by
  intro T session answer decl closure hlive g hg
  obtain ⟨K, t, hagree, hroot, hanswer⟩ := h.agree_after limit sources source
  have hc : closure ∈ K := hagree.inside_of_live hroot hanswer hlive decl closure rfl
  have hgK : g ∈ K := hagree.chain_subset hc g hg
  have hiff : g ∈ emptied T ↔ LeftInUse T g := by
    constructor
    · intro he
      by_contra hnot
      exact hagree.clean g hgK (mem_lost_of_not_leftInUse he hnot)
    · rintro ⟨v, s, hev, he, -⟩
      exact ⟨_, hev, rfl, he⟩
  refine ⟨hiff, fun hnot => ?_⟩
  exact Session.finds_of_not_mem_emptied (hagree.lt g hgK) fun he => hnot (hiff.1 he)

/-- Whether a frame that is left with a value keeps its names. -/
def Event.keepsUnder : Event → Bool
  | .leaves f (some v) s => decide (¬ s.Empties f (some v))
  | _ => true

/-- A function is returned and kept, while a block is left behind: its frame is
emptied, those around the function are not. -/
theorem live_functions_keep_names_kept :
    let start := Session.bare ⟨0⟩
    let source := "func f(x)\x7bfunc g()\x7breturn x\x7dreturn g\x7d\x7bvar y\x7dvar h=f(f)"
    let T := start.events releaseOnExit 2 ([] ++ [source])
    let session := start.after releaseOnExit 2 ([] ++ [source])
    start.WellFormed ∧ 1 ∈ emptied T ∧
      ∀ decl closure, session.store.Live start.root
        ((start.after releaseOnExit 2 []).answer releaseOnExit 2 source) (.function decl closure) →
          ∀ g ∈ session.store.chain closure, g ∉ emptied T ∧ session.Finds T g := by
  intro start source T session
  have hall : T.all Event.keepsUnder = true := by decide +kernel
  have hnot : ∀ g, ¬ LeftInUse T g := by
    rintro g ⟨v, s, hev, he, -⟩
    have hkept : decide (¬ s.Empties g (some v)) = true := List.all_eq_true.1 hall _ hev
    exact of_decide_eq_true hkept he
  refine ⟨Session.wellFormed_bare ⟨0⟩, by decide +kernel, fun decl closure hlive g hg => ?_⟩
  obtain ⟨hiff, hfinds⟩ := live_functions_keep_names (Session.wellFormed_bare ⟨0⟩) 2 [] source
    decl closure hlive g hg
  exact ⟨fun he => hnot g (hiff.1 he), hfinds (hnot g)⟩

/-- The function `k` keeps the function `h` as the argument `f`. -/
def argumentSource : String :=
  "func m(f)\x7bfunc g()\x7breturn f()\x7dreturn g\x7d" ++
    "func o()\x7bvar x func h()\x7breturn x\x7dreturn m(h)\x7dvar k=o()"

/-- The session behind this unit. -/
def argumentSession : Session := (Session.bare ⟨0⟩).after releaseOnExit 4 [argumentSource]

/-- **An argument loses its names.** The frame of `x` is emptied when `k` leaves
it, since `k` was not declared inside of it. It is in the chain of `h`, which is
live; and so `k()` finds no `x`. -/
theorem argument_loses_names :
    (∃ decl closure, argumentSession.store.Live argumentSession.root none
        (.function decl closure) ∧
      ∃ g ∈ argumentSession.store.chain closure,
        g ∈ emptied ((Session.bare ⟨0⟩).events releaseOnExit 4 [argumentSource])) ∧
      (argumentSession.step releaseOnExit 4 "k()").1 =
        .error (.error (.name (.unknown "x") ⟨70, 1, 71⟩)) := by
  -- `k` was declared in frame 2, where `f` stands for `h`, which was declared in frame 1
  have hk : ("k", 6) ∈ (argumentSession.store.frame argumentSession.root).bindings := by
    decide +kernel
  have hf : ("f", 4) ∈ (argumentSession.store.frame 2).bindings := by decide +kernel
  obtain ⟨_, hk'⟩ : ∃ decl, argumentSession.store.slot 6 = .function decl 2 :=
    Value.closure?_eq_some.1 (by decide +kernel)
  obtain ⟨decl, hf'⟩ : ∃ decl, argumentSession.store.slot 4 = .function decl 1 :=
    Value.closure?_eq_some.1 (by decide +kernel)
  have hreach : argumentSession.store.Reach argumentSession.root 2 :=
    .single (.closure hk hk')
  refine ⟨⟨decl, 1, .inl ⟨2, hreach, _, hf, hf'.symm⟩, 1, List.mem_cons_self, ?_⟩, ?_⟩
  · decide +kernel
  · exact eq_error_of_stopsFor (by decide +kernel)

end ClosureCalc
