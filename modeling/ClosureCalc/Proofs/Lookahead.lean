/-
Looking ahead on one fixed tape.

If tokens are only taken, a text gives one fixed sequence of answers, tokens and
lexical errors, which never ends. A stream in which tokens are also looked at is no
more than a place on this tape: looking at a token stays in front of it, while
looking at an error passes it.

* `Tape`: a sequence of answers with the place where reading stops for each;
  `Lexer.tape`: what taking tokens from a text gives.
* `Lexer.perform`: one step of a stream, which asks for a token or for the place;
  `Reader.perform`: the same step of a reader that only knows its place on a tape.
* `Lexer.Follows`: a stream that stands where a reader does;
  `Lexer.Follows.perform`: one step keeps it there and replies the same.
* `Reader.takenBy_performAll`: what a reader takes is what it passes, in order.
* `lookahead_keeps_to_tape`: the replies of a stream are those of a reader, and what is
  taken from it is the beginning of the tape, each answer once.
-/
import ClosureCalc.Proofs.Whereabouts
import Mathlib.Data.List.ReduceOption
import Mathlib.Logic.Function.Iterate

namespace ClosureCalc

/-! ### The tape of a text -/

/-- A sequence of answers without an end, and the place where reading stops for each
of them. -/
structure Tape where
  answer : Nat → Except Error Token
  stop : Nat → Position

/-- The place where reading stopped before an answer. -/
def Tape.before (tape : Tape) : Nat → Position
  | 0 => .start
  | n + 1 => tape.stop n

/-- What a call answers, without the stream behind it. -/
def answerOf : EStateM.Result Error Lexer Token → Except Error Token
  | .ok tok _ => .ok tok
  | .error e _ => .error e

/-- The stream behind a call, also after an error. -/
def streamOf : EStateM.Result Error Lexer Token → Lexer
  | .ok _ lx => lx
  | .error _ lx => lx

namespace Lexer

/-- The stream behind a taken token or a lexical error. -/
def pass (lx : Lexer) : Lexer := streamOf (next lx)

/-- **The tape of a text**: what is answered if tokens are only taken. -/
def tape (source : String) : Tape where
  answer n := answerOf (next (pass^[n] (ofString source)))
  stop n := (pass^[n + 1] (ofString source)).pos

end Lexer

/-! ### Steps -/

namespace Lexer

/-- What can be done with a stream: ask for a token, or for the place where it
stands. -/
inductive Step where
  | ask (call : Call)
  | locate
deriving DecidableEq, Inhabited, Repr

/-- What a step replies. -/
inductive Reply where
  | answer (a : Except Error Token)
  | place (p : Position)

/-- One step of a stream. -/
def perform : Step → Lexer → Reply × Lexer
  | .ask call, lx => (.answer (answerOf (call.answer lx)), streamOf (call.answer lx))
  | .locate, lx => (.place lx.pos, lx)

/-- Steps in a row, with their replies, where `perform` carries out one of them. -/
def performAll {σ : Type} (perform : Step → σ → Reply × σ) : List Step → σ → List Reply × σ
  | [], s => ([], s)
  | step :: steps, s =>
    let (reply, s) := perform step s
    let (replies, s) := performAll perform steps s
    (reply :: replies, s)

/-- What a step has taken from a stream: a token that was taken, or an error. -/
def Step.taken? : Step → Reply → Option (Except Error Token)
  | .ask .next, .answer a => some a
  | .ask .peek, .answer (.error e) => some (.error e)
  | _, _ => none

/-- What steps have taken from a stream, in order. -/
def takenBy (steps : List Step) (replies : List Reply) : List (Except Error Token) :=
  (List.zipWith Step.taken? steps replies).reduceOption

end Lexer

open Lexer (Step Reply performAll takenBy)

/-- A place on a tape: the number of answers that were passed, and whether the next
one was looked at. -/
structure Reader where
  passed : Nat
  looked : Bool
deriving DecidableEq, Inhabited, Repr

namespace Reader

/-- A reader in front of the tape. -/
def start : Reader := ⟨0, false⟩

/-- **One step on a tape.** Taking passes an answer. Looking stays in front of a token
and passes an error. A token that was looked at has been read to its end. -/
def perform (tape : Tape) : Step → Reader → Reply × Reader
  | .ask .next, r => (.answer (tape.answer r.passed), ⟨r.passed + 1, false⟩)
  | .ask .peek, r =>
    match tape.answer r.passed with
    | .ok tok => (.answer (.ok tok), ⟨r.passed, true⟩)
    | .error e => (.answer (.error e), ⟨r.passed + 1, false⟩)
  | .locate, r => (.place (if r.looked then tape.stop r.passed else tape.before r.passed), r)

end Reader

/-! ### A stream follows a reader -/

namespace Lexer

/-- Taking leaves nothing that was looked at. -/
lemma peeked_pass (lx : Lexer) : lx.pass.peeked = none := by
  obtain ⟨cur, _ | tok⟩ := lx
  · rw [pass, next]
    cases cur.scan <;> rfl
  · rfl

lemma peeked_iterate_pass (source : String) (n : Nat) :
    (pass^[n] (ofString source)).peeked = none := by
  cases n with
  | zero => rfl
  | succ n =>
    rw [Function.iterate_succ_apply']
    exact peeked_pass _

variable {lx lx' : Lexer} {tok : Token}

/-- A token that could be taken is kept when it is looked at. -/
lemma peek_of_next_ok (h : lx.peeked = none) (hnext : next lx = .ok tok lx') :
    peek lx = .ok tok ⟨lx'.cursor, some tok⟩ := by
  rw [next, h] at hnext
  rw [peek, h]
  cases hscan : lx.cursor.scan with
  | ok tok' cur =>
    rw [hscan] at hnext
    cases hnext
    rfl
  | error e cur =>
    rw [hscan] at hnext
    cases hnext

/-- An error that could be taken is passed when it is looked at. -/
lemma peek_of_next_error {e : Error} (h : lx.peeked = none) (hnext : next lx = .error e lx') :
    peek lx = .error e lx' := by
  rw [next, h] at hnext
  rw [peek, h]
  cases hscan : lx.cursor.scan with
  | ok tok' cur =>
    rw [hscan] at hnext
    cases hnext
  | error e' cur =>
    rw [hscan] at hnext
    cases hnext
    rfl

/-- **A stream stands where a reader does**: behind the answers that were passed, and if
the next one was looked at, that token is kept and has been read. -/
inductive Follows (source : String) : Lexer → Reader → Prop where
  | plain (n : Nat) : Follows source (pass^[n] (ofString source)) ⟨n, false⟩
  | looked {n : Nat} {tok : Token} {lx : Lexer}
      (hnext : next (pass^[n] (ofString source)) = .ok tok lx) :
      Follows source ⟨lx.cursor, some tok⟩ ⟨n, true⟩

variable {source : String} {r : Reader} {n : Nat}

/-- Behind one more answer. -/
lemma follows_pass (n : Nat) :
    Follows source (pass^[n] (ofString source)).pass ⟨n + 1, false⟩ := by
  rw [← Function.iterate_succ_apply' pass]
  exact .plain (n + 1)

/-- Where a stream stands in front of an answer that was not looked at. -/
lemma pos_iterate_pass (source : String) (n : Nat) :
    (pass^[n] (ofString source)).pos = (tape source).before n := by
  cases n <;> rfl

/-- A token that was looked at is the next one on the tape. Reading has stopped behind
it, where it also stops if the token is taken. -/
lemma of_next_ok (hnext : next (pass^[n] (ofString source)) = .ok tok lx) :
    (tape source).answer n = .ok tok ∧ (tape source).stop n = lx.pos ∧
      (⟨lx.cursor, none⟩ : Lexer) = pass^[n + 1] (ofString source) := by
  have hpass : lx = pass^[n + 1] (ofString source) := by
    rw [Function.iterate_succ_apply', pass, hnext]
    rfl
  have hpeeked : lx.peeked = none := hpass ▸ peeked_iterate_pass source (n + 1)
  refine ⟨?_, ?_, ?_⟩
  · change answerOf (next (pass^[n] (ofString source))) = _
    rw [hnext]
    rfl
  · change (pass^[n + 1] (ofString source)).pos = _
    rw [← hpass]
  · rw [← hpass, ← hpeeked]

/-- An error on the tape is passed by every call. -/
lemma of_next_error {e : Error} (hnext : next (pass^[n] (ofString source)) = .error e lx) :
    (tape source).answer n = .error e ∧ lx = pass^[n + 1] (ofString source) := by
  refine ⟨?_, ?_⟩
  · change answerOf (next (pass^[n] (ofString source))) = _
    rw [hnext]
    rfl
  · rw [Function.iterate_succ_apply', pass, hnext]
    rfl

/-- Taking from a stream that stands where a reader does. -/
lemma Follows.next (h : Follows source lx r) :
    answerOf (Lexer.next lx) = (tape source).answer r.passed ∧
      Follows source (streamOf (Lexer.next lx)) ⟨r.passed + 1, false⟩ := by
  cases h with
  | plain n => exact ⟨rfl, follows_pass n⟩
  | @looked n tok lx hnext =>
    obtain ⟨hanswer, -, hpass⟩ := of_next_ok hnext
    refine ⟨hanswer.symm, ?_⟩
    change Follows source ⟨lx.cursor, none⟩ _
    rw [hpass]
    exact .plain (n + 1)

/-- Looking ahead in a stream that stands where a reader does: it stays in front of a
token and passes an error. -/
lemma Follows.peek (h : Follows source lx r) :
    answerOf (Lexer.peek lx) = (tape source).answer r.passed ∧
      Follows source (streamOf (Lexer.peek lx))
        (match (tape source).answer r.passed with
          | .ok _ => ⟨r.passed, true⟩
          | .error _ => ⟨r.passed + 1, false⟩) := by
  cases h with
  | plain n =>
    have hpeeked := peeked_iterate_pass source n
    rcases hnext : Lexer.next (pass^[n] (ofString source)) with ⟨tok, lx⟩ | ⟨e, lx⟩
    · rw [peek_of_next_ok hpeeked hnext, (of_next_ok hnext).1]
      exact ⟨rfl, .looked hnext⟩
    · obtain ⟨hanswer, rfl⟩ := of_next_error hnext
      rw [peek_of_next_error hpeeked hnext, hanswer]
      exact ⟨rfl, .plain (n + 1)⟩
  | @looked n tok lx hnext =>
    rw [(of_next_ok hnext).1]
    exact ⟨rfl, .looked hnext⟩

/-- Where a stream stands that stands where a reader does. -/
lemma Follows.pos (h : Follows source lx r) :
    lx.pos = if r.looked then (tape source).stop r.passed else (tape source).before r.passed := by
  cases h with
  | plain n => exact pos_iterate_pass source n
  | looked hnext => exact (of_next_ok hnext).2.1.symm

/-- **One step** of a stream that stands where a reader does replies the same, and both
stand at the same place again. -/
lemma Follows.perform (h : Follows source lx r) (step : Step) :
    (lx.perform step).1 = (r.perform (tape source) step).1 ∧
      Follows source (lx.perform step).2 (r.perform (tape source) step).2 := by
  cases step with
  | ask call =>
    cases call with
    | next =>
      obtain ⟨hanswer, hfollows⟩ := h.next
      exact ⟨congrArg Reply.answer hanswer, hfollows⟩
    | peek =>
      obtain ⟨hanswer, hfollows⟩ := h.peek
      rw [Lexer.perform, Reader.perform]
      cases htape : (tape source).answer r.passed with
      | ok tok =>
        rw [htape] at hanswer hfollows
        exact ⟨congrArg Reply.answer hanswer, hfollows⟩
      | error e =>
        rw [htape] at hanswer hfollows
        exact ⟨congrArg Reply.answer hanswer, hfollows⟩
  | locate => exact ⟨congrArg Reply.place h.pos, h⟩

/-- Steps in a row of a stream that stands where a reader does. -/
lemma Follows.performAll (h : Follows source lx r) (steps : List Step) :
    (performAll Lexer.perform steps lx).1 =
      (performAll (Reader.perform (tape source)) steps r).1 := by
  induction steps generalizing lx r with
  | nil => rfl
  | cons step steps ih =>
    obtain ⟨hreply, hfollows⟩ := h.perform step
    exact List.cons_eq_cons.2 ⟨hreply, ih hfollows⟩

end Lexer

/-! ### Nothing is lost -/

namespace Reader

/-- A step takes the answer that it passes, or it takes and passes nothing. -/
lemma taken?_perform (tape : Tape) (r : Reader) (step : Step) :
    step.taken? (r.perform tape step).1 = none ∧ (r.perform tape step).2.passed = r.passed ∨
      step.taken? (r.perform tape step).1 = some (tape.answer r.passed) ∧
        (r.perform tape step).2.passed = r.passed + 1 := by
  cases step with
  | ask call =>
    cases call with
    | next => exact .inr ⟨rfl, rfl⟩
    | peek =>
      rw [perform]
      cases tape.answer r.passed with
      | ok tok => exact .inl ⟨rfl, rfl⟩
      | error e => exact .inr ⟨rfl, rfl⟩
  | locate => exact .inl ⟨rfl, rfl⟩

/-- Steps in a row take the answers that they pass, in order. -/
lemma takenBy_performAll (tape : Tape) (steps : List Step) (r : Reader) :
    ∃ n, (performAll (perform tape) steps r).2.passed = r.passed + n ∧
      takenBy steps (performAll (perform tape) steps r).1 =
        (List.range' r.passed n).map tape.answer := by
  induction steps generalizing r with
  | nil => exact ⟨0, rfl, rfl⟩
  | cons step steps ih =>
    obtain ⟨n, hpassed, htaken⟩ := ih (r.perform tape step).2
    rw [takenBy] at htaken
    rcases taken?_perform tape r step with ⟨hstep, hsame⟩ | ⟨hstep, hnext⟩
    · rw [hsame] at hpassed htaken
      refine ⟨n, hpassed, ?_⟩
      rw [takenBy, performAll, List.zipWith_cons_cons, hstep, List.reduceOption_cons_of_none]
      exact htaken
    · rw [hnext] at hpassed htaken
      refine ⟨n + 1, by rw [performAll, hpassed, Nat.add_assoc, Nat.add_comm 1], ?_⟩
      rw [takenBy, performAll, List.zipWith_cons_cons, hstep, List.reduceOption_cons_of_some,
        htaken, List.range'_succ, List.map_cons]

end Reader

/-- **A stream is a place on one tape.** Whatever is asked of it and in whatever order,
it replies what a reader replies that only knows how many answers it has passed and
whether it has looked at the next one. So what is taken, tokens and errors together, is
the beginning of the tape: nothing is lost and nothing comes twice. -/
theorem lookahead_keeps_to_tape (source : String) (steps : List Step) :
    let replies := (performAll Lexer.perform steps (Lexer.ofString source)).1
    let onTape := performAll (Reader.perform (Lexer.tape source)) steps .start
    replies = onTape.1 ∧
      takenBy steps replies = (List.range onTape.2.passed).map (Lexer.tape source).answer := by
  have hreplies := (@Lexer.Follows.plain source 0).performAll steps
  obtain ⟨n, hpassed, htaken⟩ := Reader.takenBy_performAll (Lexer.tape source) steps .start
  refine ⟨hreplies, ?_⟩
  rw [Reader.start, Nat.zero_add] at hpassed
  calc takenBy steps (performAll Lexer.perform steps (Lexer.ofString source)).1
      = takenBy steps (performAll (Reader.perform (Lexer.tape source)) steps .start).1 :=
        congrArg (takenBy steps) hreplies
    _ = (List.range' 0 n).map (Lexer.tape source).answer := htaken
    _ = _ := by rw [← List.range_eq_range', ← hpassed]; rfl

end ClosureCalc
