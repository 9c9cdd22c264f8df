/-
Arguments of built-in functions.

A built-in function that is called with enough arguments reads some of them, from the
first one on, and does not look at the others. It calculates only if all that it reads are
numbers.

* `Builtin.read`: the arguments that are read.
* `numbersFrom`: the numbers that some values are, or the complaint about the first value
  that is none.
* `FirstOther`: the first of some values that is no number.
* `Builtin.apply_eq_numbersFrom`: what is read is all that counts.
* `Builtin.unusable?`, `Builtin.refusal?`: why numbers are refused as a range, and why
  arguments are refused.
* `Builtin.exists_apply`: arguments are refused or a number is calculated.
* `builtins_read_arguments`: how calls end.
-/
import ClosureCalc.Proofs.Mirror
import ClosureCalc.Proofs.Returns

namespace ClosureCalc

/-! ### Arguments that are read -/

namespace Builtin

/-- The number of arguments that are read, of those given. -/
def reads (b : Builtin) (given : Nat) : Nat :=
  match b with
  | min => given
  | max => given
  | log => Nat.min 2 given
  | _ => b.arity

/-- The arguments that are read. -/
def read (b : Builtin) (args : List Value) : List Value := args.take (b.reads args.length)

lemma arity_le_reads {b : Builtin} {given : Nat} (h : b.arity ≤ given) :
    b.arity ≤ b.reads given := by
  cases b with
  | log => exact Nat.le_min.2 ⟨by decide, h⟩
  | min => exact h
  | max => exact h
  | _ => exact le_rfl

lemma reads_le {b : Builtin} {given : Nat} (h : b.arity ≤ given) : b.reads given ≤ given := by
  cases b with
  | log => exact Nat.min_le_right 2 given
  | min => exact le_rfl
  | max => exact le_rfl
  | _ => exact h

lemma length_read {b : Builtin} {args : List Value} (h : b.arity ≤ args.length) :
    (b.read args).length = b.reads args.length := by
  rw [read, List.length_take, Nat.min_eq_left (reads_le h)]

end Builtin

/-- The numbers that some values are. The first one is the argument behind `i` others. -/
def numbersFrom : Nat → List Value → Except Complaint (List Number)
  | _, [] => .ok []
  | i, .number n :: vs => (n :: ·) <$> numbersFrom (i + 1) vs
  | i, other :: _ => .error (.notNumber (i + 1) other.kind)

/-- **The first value that is no number**, and its index. -/
structure FirstOther (values : List Value) (i : Nat) (v : Value) : Prop where
  get : values[i]? = some v
  kind : v.kind ≠ .number
  first : ∀ j < i, ∃ n, values[j]? = some (.number n)

section Reading

variable {v : Value} {vs : List Value}

lemma Value.kind_eq_number : v.kind = .number ↔ ∃ n, v = .number n := by
  cases v <;> simp [kind]

lemma exists_numbers (h : ∀ v ∈ vs, v.kind = .number) :
    ∃ ns : List Number, vs = ns.map .number := by
  induction vs with
  | nil => exact ⟨[], rfl⟩
  | cons v vs ih =>
    obtain ⟨n, rfl⟩ := Value.kind_eq_number.1 (h v List.mem_cons_self)
    obtain ⟨ns, rfl⟩ := ih fun w hw => h w (List.mem_cons_of_mem _ hw)
    exact ⟨n :: ns, rfl⟩

@[simp]
lemma numbersFrom_map (i : Nat) (ns : List Number) :
    numbersFrom i (ns.map .number) = .ok ns := by
  induction ns generalizing i with
  | nil => rfl
  | cons n ns ih => rw [List.map_cons, numbersFrom, ih]; rfl

lemma bind_numbersFrom_map {α : Type} (k : List Value → Except Complaint α) (i : Nat)
    (ns : List Number) :
    (numbersFrom i (ns.map .number) >>= fun ms => k (ms.map .number)) = k (ns.map .number) := by
  rw [numbersFrom_map]
  rfl

/-- The complaint is about the first value that is no number. -/
lemma numbersFrom_of_firstOther {k : Nat} (h : FirstOther vs k v) (i : Nat) :
    numbersFrom i vs = .error (.notNumber (i + k + 1) v.kind) := by
  induction k generalizing i vs with
  | zero =>
    obtain ⟨hget, hkind, -⟩ := h
    cases vs with
    | nil => exact absurd hget (by simp)
    | cons w vs =>
      obtain rfl : w = v := Option.some.inj hget
      cases w <;> first | rfl | exact absurd rfl hkind
  | succ k ih =>
    cases vs with
    | nil => exact absurd h.get (by simp)
    | cons w vs =>
      obtain ⟨n, hn⟩ := h.first 0 k.succ_pos
      obtain rfl : w = .number n := Option.some.inj hn
      have hrest : FirstOther vs k v :=
        ⟨h.get, h.kind, fun j hj => h.first (j + 1) (Nat.succ_lt_succ hj)⟩
      rw [numbersFrom, ih hrest, show i + 1 + k + 1 = i + (k + 1) + 1 by omega]
      rfl

/-- Values of which one is no number have a first one. -/
lemma exists_firstOther (h : ¬ ∀ v ∈ vs, v.kind = .number) :
    ∃ i v, FirstOther vs i v := by
  induction vs with
  | nil => exact absurd (by simp) h
  | cons w vs ih =>
    by_cases hw : w.kind = .number
    · obtain ⟨n, rfl⟩ := Value.kind_eq_number.1 hw
      obtain ⟨i, v, hget, hkind, hfirst⟩ :=
        ih fun hall => h (List.forall_mem_cons.2 ⟨hw, hall⟩)
      refine ⟨i + 1, v, hget, hkind, fun j hj => ?_⟩
      cases j with
      | zero => exact ⟨n, rfl⟩
      | succ j => exact hfirst j (Nat.lt_of_succ_lt_succ hj)
    · exact ⟨0, w, rfl, hw, fun j hj => absurd hj j.not_lt_zero⟩

/-- Arguments are combined as the numbers that they are. -/
lemma foldNumbers_eq (f : Number → Number → Number) {args : List Value} {n i : Nat}
    (h : i + n ≤ args.length) (acc : Number) :
    foldNumbers f args n i acc =
      (List.foldl f acc ·) <$> numbersFrom i ((args.drop i).take n) := by
  induction n generalizing i acc with
  | zero => rfl
  | succ n ih =>
    have hi : i < args.length := by omega
    rw [foldNumbers, numberAt, List.getElem?_eq_getElem hi, List.drop_eq_getElem_cons hi,
      List.take_succ_cons]
    cases hv : args[i] with
    | number m =>
      calc foldNumbers f args n (i + 1) (f acc m)
          = (List.foldl f (f acc m) ·) <$> numbersFrom (i + 1) ((args.drop (i + 1)).take n) :=
            ih (by omega) (f acc m)
        _ = (List.foldl f acc ·) <$>
              numbersFrom i (.number m :: (args.drop (i + 1)).take n) := by
            rw [numbersFrom, ← comp_map]
            rfl
    | _ => rfl

lemma foldNumbers_cons (f : Number → Number → Number) (n : Number) (rest : List Value) :
    foldNumbers f (.number n :: rest) ((Value.number n :: rest).length - 1) 1 n =
      (List.foldl f n ·) <$> numbersFrom 1 rest := by
  rw [foldNumbers_eq f (by simp; omega)]
  simp

/-! ### Calculations with one, two, three or all arguments -/

variable {α : Type}

lemma bind_numberAt_one (k : Number → Except Complaint α) (v : Value) (rest : List Value) :
    numberAt (v :: rest) 0 >>= k =
      numbersFrom 0 [v] >>= fun ns => numberAt (ns.map .number) 0 >>= k := by
  cases v <;> rfl

lemma bind_numberAt_two (k : Number → Number → Except Complaint α) (v w : Value)
    (rest : List Value) :
    (numberAt (v :: w :: rest) 0 >>= fun x => numberAt (v :: w :: rest) 1 >>= k x) =
      numbersFrom 0 [v, w] >>= fun ns =>
        numberAt (ns.map .number) 0 >>= fun x => numberAt (ns.map .number) 1 >>= k x := by
  cases v <;> cases w <;> rfl

lemma bind_numberAt_three (k : Number → Number → Number → Except Complaint α) (v w u : Value)
    (rest : List Value) :
    (numberAt (v :: w :: u :: rest) 0 >>= fun x => numberAt (v :: w :: u :: rest) 1 >>= fun y =>
        numberAt (v :: w :: u :: rest) 2 >>= k x y) =
      numbersFrom 0 [v, w, u] >>= fun ns =>
        numberAt (ns.map .number) 0 >>= fun x => numberAt (ns.map .number) 1 >>= fun y =>
          numberAt (ns.map .number) 2 >>= k x y := by
  cases v <;> cases w <;> cases u <;> rfl

lemma bind_foldNumbers_cons (f : Number → Number → Number) (k : Number → Except Complaint α)
    (n : Number) (rest : List Value) :
    (numberAt (.number n :: rest) 0 >>= fun x =>
        foldNumbers f (.number n :: rest) ((Value.number n :: rest).length - 1) 1 x >>= k) =
      numbersFrom 1 rest >>= fun ns => k (ns.foldl f n) := by
  change foldNumbers f (.number n :: rest) ((Value.number n :: rest).length - 1) 1 n >>= k = _
  rw [foldNumbers_cons, bind_map_left]

lemma bind_foldNumbers (f : Number → Number → Number) (k : Number → Except Complaint α)
    (v : Value) (rest : List Value) :
    (numberAt (v :: rest) 0 >>= fun x =>
        foldNumbers f (v :: rest) ((v :: rest).length - 1) 1 x >>= k) =
      numbersFrom 0 (v :: rest) >>= fun ns =>
        numberAt (ns.map .number) 0 >>= fun x =>
          foldNumbers f (ns.map .number) ((ns.map Value.number).length - 1) 1 x >>= k := by
  cases v with
  | number n =>
    rw [bind_foldNumbers_cons, numbersFrom, bind_map_left]
    refine bind_congr fun ns => ?_
    rw [List.map_cons, bind_foldNumbers_cons, numbersFrom_map]
    rfl
  | _ => rfl

end Reading

namespace Builtin

lemma exists_two {α : Type} {xs : List α} (h : 2 ≤ xs.length) :
    ∃ x y rest, xs = x :: y :: rest := by
  obtain ⟨x, tail, rfl⟩ := List.exists_cons_of_length_pos (Nat.zero_lt_of_lt h)
  obtain ⟨y, rest, rfl⟩ := List.exists_cons_of_length_pos (Nat.le_of_succ_le_succ h)
  exact ⟨x, y, rest, rfl⟩

lemma apply_log_two (v w : Value) (rest : List Value) (g : Generator) :
    log.apply (v :: w :: rest) g =
      numberAt (v :: w :: rest) 0 >>= fun x => numberAt (v :: w :: rest) 1 >>= fun base =>
        pure (↑(x.toFloat.log / base.toFloat.log), g) := by
  rw [apply]
  exact bind_congr fun x => if_neg (by simp)

lemma apply_randomRange (args : List Value) (g : Generator) :
    randomRange.apply args g =
      numberAt args 0 >>= fun low => numberAt args 1 >>= fun high =>
        (rangeComplaint? low.toFloat high.toFloat).elim
          (.ok (↑(g.between low.toFloat high.toFloat).1, (g.between low.toFloat high.toFloat).2))
          .error := by
  rw [apply]
  refine bind_congr fun low => bind_congr fun high => ?_
  dsimp only
  cases rangeComplaint? low.toFloat high.toFloat <;> rfl

lemma apply_log_two_eq (v w : Value) (rest : List Value) (g : Generator) :
    log.apply (v :: w :: rest) g =
      numbersFrom 0 [v, w] >>= fun ns => log.apply (ns.map .number) g := by
  calc log.apply (v :: w :: rest) g
      = log.apply [v, w] g := by
        rw [apply_log_two, apply_log_two, bind_numberAt_two, bind_numberAt_two]
    _ = numbersFrom 0 [v, w] >>= fun ns => log.apply (ns.map .number) g := by
        cases v with
        | number x =>
          cases w with
          | number y => exact (bind_numbersFrom_map (log.apply · g) 0 [x, y]).symm
          | _ => rfl
        | _ => rfl

/-- **What is read is all that counts.** -/
lemma apply_eq_numbersFrom {b : Builtin} {args : List Value} (h : b.arity ≤ args.length)
    (g : Generator) :
    b.apply args g =
      numbersFrom 0 (b.read args) >>= fun ns => b.apply (ns.map .number) g := by
  cases b with
  | random => rfl
  | elementary f =>
    obtain ⟨v, rest, rfl⟩ := List.exists_cons_of_length_pos h
    exact bind_numberAt_one _ v rest
  | min =>
    obtain ⟨v, rest, rfl⟩ := List.exists_cons_of_length_pos h
    rw [read, reads, List.take_length]
    exact bind_foldNumbers lesser (fun m => pure (m, g)) v rest
  | max =>
    obtain ⟨v, rest, rfl⟩ := List.exists_cons_of_length_pos h
    rw [read, reads, List.take_length]
    exact bind_foldNumbers greater (fun m => pure (m, g)) v rest
  | log =>
    obtain ⟨v, rest, rfl⟩ := List.exists_cons_of_length_pos h
    cases rest with
    | nil => cases v <;> rfl
    | cons w rest => exact apply_log_two_eq v w rest g
  | clamp =>
    obtain ⟨v, tail, rfl⟩ := List.exists_cons_of_length_pos (Nat.zero_lt_of_lt h)
    obtain ⟨w, u, rest, rfl⟩ := exists_two (Nat.le_of_succ_le_succ h)
    exact bind_numberAt_three _ v w u rest
  | _ =>
    obtain ⟨v, w, rest, rfl⟩ := exists_two h
    exact bind_numberAt_two _ v w rest

/-! ### Arguments that are refused -/

/-- Why a function that is given bounds refuses the range between them. -/
def unusable? : Builtin → List Number → Option Complaint
  | clamp, _ :: low :: high :: _ =>
    if low.toFloat ≤ high.toFloat then none
    else some (.invalidRange low.toFloat high.toFloat)
  | randomRange, low :: high :: _ => rangeComplaint? low.toFloat high.toFloat
  | _, _ => none

end Builtin

/-- Complaints about a range. -/
def Complaint.AboutRange : Complaint → Prop
  | notNumber _ _ => False
  | missing _ => False
  | _ => True

namespace Builtin

variable {b : Builtin} {args : List Value} {ns : List Number} {c : Complaint}

lemma rangeComplaint?_aboutRange {low high : Float} (h : rangeComplaint? low high = some c) :
    c.AboutRange := by
  rw [rangeComplaint?] at h
  split_ifs at h <;> obtain rfl := Option.some.inj h <;> trivial

lemma aboutRange_of_unusable? (h : b.unusable? ns = some c) :
    (b = clamp ∨ b = randomRange) ∧ c.AboutRange := by
  unfold unusable? at h
  split at h
  · split_ifs at h
    obtain rfl := Option.some.inj h
    exact ⟨.inl rfl, trivial⟩
  · exact ⟨.inr rfl, rangeComplaint?_aboutRange h⟩
  · exact absurd h (by simp)

/-- Numbers are refused only as a range. -/
lemma exists_apply_numbers (h : b.arity ≤ ns.length) (g : Generator) :
    ∃ result, b.apply (ns.map .number) g = (b.unusable? ns).elim (.ok result) .error := by
  cases b with
  | random => exact ⟨(↑g.unit.1, g.unit.2), rfl⟩
  | elementary f =>
    obtain ⟨x, rest, rfl⟩ := List.exists_cons_of_length_pos h
    exact ⟨(f.apply x, g), rfl⟩
  | min =>
    obtain ⟨x, rest, rfl⟩ := List.exists_cons_of_length_pos h
    refine ⟨(rest.foldl lesser x, g), (bind_foldNumbers_cons lesser _ x _).trans ?_⟩
    rw [numbersFrom_map]
    rfl
  | max =>
    obtain ⟨x, rest, rfl⟩ := List.exists_cons_of_length_pos h
    refine ⟨(rest.foldl greater x, g), (bind_foldNumbers_cons greater _ x _).trans ?_⟩
    rw [numbersFrom_map]
    rfl
  | log =>
    obtain _ | ⟨x, _ | ⟨base, rest⟩⟩ := ns
    · exact absurd h (by decide)
    · exact ⟨(x.toFloat.log, g), rfl⟩
    · exact ⟨(↑(x.toFloat.log / base.toFloat.log), g), apply_log_two _ _ _ g⟩
  | atan2 =>
    obtain ⟨y, x, rest, rfl⟩ := exists_two h
    exact ⟨(↑(y.toFloat.atan2 x.toFloat), g), rfl⟩
  | hypot =>
    obtain ⟨x, y, rest, rfl⟩ := exists_two h
    exact ⟨(hypotenuse x y, g), rfl⟩
  | clamp =>
    obtain ⟨x, tail, rfl⟩ := List.exists_cons_of_length_pos (Nat.zero_lt_of_lt h)
    obtain ⟨low, high, rest, rfl⟩ := exists_two (Nat.le_of_succ_le_succ h)
    refine ⟨(clampTo low high x, g), ?_⟩
    by_cases hle : low.toFloat ≤ high.toFloat
    · rw [show unusable? clamp (x :: low :: high :: rest) = none from if_pos hle]
      exact if_pos hle
    · rw [show unusable? clamp (x :: low :: high :: rest) =
        some (.invalidRange low.toFloat high.toFloat) from if_neg hle]
      exact if_neg hle
  | randomRange =>
    obtain ⟨low, high, rest, rfl⟩ := exists_two h
    exact ⟨_, apply_randomRange _ g⟩

/-- Why the function refuses its arguments. -/
def refusal? (b : Builtin) (args : List Value) : Option Complaint :=
  match numbersFrom 0 (b.read args) with
  | .ok ns => b.unusable? ns
  | .error c => some c

lemma refusal?_of_numbers (h : b.read args = ns.map .number) :
    b.refusal? args = b.unusable? ns := by
  rw [refusal?, h, numbersFrom_map]

lemma refusal?_of_firstOther {i : Nat} {v : Value} (h : FirstOther (b.read args) i v) :
    b.refusal? args = some (.notNumber (i + 1) v.kind) := by
  rw [refusal?, numbersFrom_of_firstOther h, Nat.zero_add]

/-- **Arguments are refused or a number is calculated**, whatever the generator is. -/
lemma exists_apply (hlen : b.arity ≤ args.length) (g : Generator) :
    ∃ result, b.apply args g = (b.refusal? args).elim (.ok result) .error := by
  rw [apply_eq_numbersFrom hlen]
  by_cases hall : ∀ v ∈ b.read args, v.kind = .number
  · obtain ⟨ns, hns⟩ := exists_numbers hall
    have hlen' : b.arity ≤ ns.length := by
      calc b.arity ≤ b.reads args.length := arity_le_reads hlen
        _ = (b.read args).length := (length_read hlen).symm
        _ = ns.length := by rw [hns, List.length_map]
    rw [refusal?_of_numbers hns, hns, bind_numbersFrom_map (b.apply · g)]
    exact exists_apply_numbers hlen' g
  · obtain ⟨i, v, hfirst⟩ := exists_firstOther hall
    rw [refusal?_of_firstOther hfirst, numbersFrom_of_firstOther hfirst, Nat.zero_add]
    exact ⟨default, rfl⟩

lemma apply_eq_of_read {args' : List Value} (hlen : b.arity ≤ args.length)
    (hlen' : b.arity ≤ args'.length) (hread : b.read args' = b.read args) (g : Generator) :
    b.apply args' g = b.apply args g := by
  rw [apply_eq_numbersFrom hlen', apply_eq_numbersFrom hlen, hread]

end Builtin

/-! ### Messages -/

/-- A text goes on, but its characters stay. -/
lemma getElem?_toList_append {text : String} {i : Nat} {c : Char}
    (h : text.toList[i]? = some c) (rest : String) : (text ++ rest).toList[i]? = some c := by
  have hi : i < text.toList.length := (List.getElem?_eq_some_iff.1 h).1
  rw [String.toList_append, List.getElem?_append_left hi, h]

/-- The wording for an argument that is missing belongs to no other complaint. -/
lemma Complaint.missing_of_message {c : Complaint}
    (h : "missing argument ".toList <+: c.message.toList) : ∃ i, c = .missing i := by
  have hs : c.message.toList[2]? = some 's' := by
    obtain ⟨rest, hrest⟩ := h
    rw [← hrest]
    rfl
  have hdiffers : ∀ d, c.message.toList[2]? = some d → d = 's' := fun d hd =>
    Option.some.inj (hd.symm.trans hs)
  cases c with
  | missing i => exact ⟨i, rfl⟩
  | notNumber i found =>
    have hg : "argument ".toList[2]? = some 'g' := rfl
    have := hdiffers 'g' (getElem?_toList_append (getElem?_toList_append
      (getElem?_toList_append (getElem?_toList_append hg _) _) _) _)
    exact absurd this (by decide)
  | invalidRange low high =>
    exact absurd (hdiffers 'v' (getElem?_toList_append rfl _)) (by decide)
  | unboundedRange low high =>
    exact absurd (hdiffers 'u' (getElem?_toList_append rfl _)) (by decide)
  | emptyRange => exact absurd (hdiffers 'n' rfl) (by decide)
  | wideRange low high =>
    have hn : "range ".toList[2]? = some 'n' := rfl
    have := hdiffers 'n' (getElem?_toList_append (getElem?_toList_append hn _) _)
    exact absurd this (by decide)

lemma TypeFault.message_notNumber (b : Builtin) (i : Nat) (found : ValueKind) :
    (builtin b (.notNumber i found)).message =
      b.name ++ ": argument " ++ i.repr ++ " must be a number, found '" ++ found.name ++ "'" := by
  change b.name ++ ": " ++
    ("argument " ++ i.repr ++ " must be a number, found '" ++ found.name ++ "'") = _
  rw [show ": argument " = ": " ++ "argument " from rfl]
  simp only [String.append_assoc]

lemma TypeFault.prefix_message {b : Builtin} {c : Complaint}
    (h : (b.name ++ ": missing argument ").toList <+: (builtin b c).message.toList) :
    "missing argument ".toList <+: c.message.toList := by
  have hleft : (b.name ++ ": missing argument ").toList =
      (b.name ++ ": ").toList ++ "missing argument ".toList := by
    rw [← String.toList_append, String.append_assoc]
    rfl
  have hright : (builtin b c).message.toList = (b.name ++ ": ").toList ++ c.message.toList :=
    String.toList_append
  rw [hleft, hright] at h
  exact (List.prefix_append_right_inj _).1 h

/-! ### Calls -/

section Calls

variable {b : Builtin} {args : List Value} {p : Position} {s : Store}

/-- How a call of a built-in function ends, by what it holds against its arguments. -/
lemma Eval.exists_builtin (hlen : b.arity ≤ args.length) (p : Position) (s : Store) :
    ∃ n g, builtin b args p s =
      (b.refusal? args).elim (.ok (.number n) { s with generator := g })
        fun c => .error (.error (.type (.builtin b c) p)) s := by
  obtain ⟨⟨n, g⟩, happly⟩ := b.exists_apply hlen s.generator
  refine ⟨n, g, ?_⟩
  rw [builtin, if_neg (Nat.not_lt.2 hlen), happly]
  cases b.refusal? args <;> rfl

/-- What a call comes to depends on the generator only if something is drawn. -/
lemma Eval.answer_builtin_of_not_draws (hb : ¬ b.Draws) (args : List Value) (p : Position)
    (s t : Store) : (builtin b args p).answer t = (builtin b args p).answer s := by
  rw [answer, answer, builtin, builtin, b.apply_of_not_draws hb args s.generator t.generator]
  by_cases hlen : args.length < b.arity
  · rw [if_pos hlen, if_pos hlen]
  · rw [if_neg hlen, if_neg hlen]
    cases b.apply args s.generator <;> rfl

/-- Whether a call ends with an error, and with which one, does not depend on the store. -/
lemma Eval.answer_builtin_eq_error_iff (hlen : b.arity ≤ args.length) (p : Position)
    (s t : Store) (stop : Stop) :
    (builtin b args p).answer t = .error stop ↔ (builtin b args p).answer s = .error stop := by
  obtain ⟨n, g, hs⟩ := exists_builtin hlen p s
  obtain ⟨m, g', ht⟩ := exists_builtin hlen p t
  rw [answer, answer, hs, ht]
  cases b.refusal? args <;> simp

/-- No complaint is about an argument that is missing. -/
lemma Builtin.refusal?_ne_missing (b : Builtin) (args : List Value) (i : Nat) :
    b.refusal? args ≠ some (.missing i) := by
  intro h
  by_cases hall : ∀ v ∈ b.read args, v.kind = .number
  · obtain ⟨ns, hns⟩ := exists_numbers hall
    rw [refusal?_of_numbers hns] at h
    exact (aboutRange_of_unusable? h).2
  · obtain ⟨j, v, hfirst⟩ := exists_firstOther hall
    rw [refusal?_of_firstOther hfirst] at h
    exact absurd h (by simp)

end Calls

/-- **Built-in functions read their arguments** from the first one on, and calls depend on
no others. A function reads as many as it needs, but `min` and `max` read all, and `log` a
second one if there is one. But for what is drawn, nothing depends on the store. If
something that is read is no number, the first such argument is the error, at the place of
the call. If all are numbers, the call comes to a number, unless `clamp` or `random_range`
cannot use the range that it is given. No argument is ever missing. -/
theorem builtins_read_arguments (exit : ExitRule) (limit : Nat) (b : Builtin) (home : FrameId)
    {args : List Value} (hlen : b.arity ≤ args.length) (p : Position) (s : Store) :
    let calling := call exit (limit + 1) (.builtin b home)
    (∀ args', b.arity ≤ args'.length → b.read args' = b.read args →
        calling args' p s = calling args p s) ∧
      (∀ t, (¬ b.Draws → (calling args p).answer t = (calling args p).answer s) ∧
        ∀ stop, (calling args p).answer t = .error stop ↔
          (calling args p).answer s = .error stop) ∧
      ((∃ v ∈ b.read args, v.kind ≠ .number) → ∃ i v, FirstOther (b.read args) i v ∧
        ∃ e, calling args p s = .error (.error e) s ∧ e.kind = .type ∧ e.pos? = some p ∧
          e.message = b.name ++ ": argument " ++ (i + 1).repr ++ " must be a number, found '" ++
            v.kind.name ++ "'") ∧
      ((∀ v ∈ b.read args, v.kind = .number) → ∃ ns, b.read args = ns.map .number ∧
        (b.unusable? ns = none → ∃ n g,
          calling args p s = .ok (.number n) { s with generator := g }) ∧
        ∀ c, b.unusable? ns = some c → (b = .clamp ∨ b = .randomRange) ∧ c.AboutRange ∧
          calling args p s = .error (.error (.type (.builtin b c) p)) s) ∧
      ∀ e, (calling args p).answer s = .error (.error e) →
        ¬ (b.name ++ ": missing argument ").toList <+: e.message.toList := by
  intro calling
  obtain ⟨n, g, hcalling⟩ := Eval.exists_builtin hlen p s
  change calling args p s = _ at hcalling
  refine ⟨fun args' hlen' hread => ?_, fun t => ⟨fun hb => ?_, fun stop => ?_⟩,
    fun hother => ?_, fun hall => ?_, fun e he hmissing => ?_⟩
  · change Eval.builtin b args' p s = Eval.builtin b args p s
    rw [Eval.builtin, Eval.builtin, if_neg (Nat.not_lt.2 hlen), if_neg (Nat.not_lt.2 hlen'),
      b.apply_eq_of_read hlen hlen' hread]
  · exact Eval.answer_builtin_of_not_draws hb args p s t
  · exact Eval.answer_builtin_eq_error_iff hlen p s t stop
  · have hnot : ¬ ∀ v ∈ b.read args, v.kind = .number := by simpa using hother
    obtain ⟨i, v, hfirst⟩ := exists_firstOther hnot
    rw [Builtin.refusal?_of_firstOther hfirst] at hcalling
    exact ⟨i, v, hfirst, _, hcalling, rfl, rfl, TypeFault.message_notNumber b (i + 1) v.kind⟩
  · obtain ⟨ns, hns⟩ := exists_numbers hall
    rw [Builtin.refusal?_of_numbers hns] at hcalling
    refine ⟨ns, hns, fun hnone => ⟨n, g, ?_⟩, fun c hc => ?_⟩
    · rw [hcalling, hnone]
      rfl
    · obtain ⟨hb, habout⟩ := Builtin.aboutRange_of_unusable? hc
      refine ⟨hb, habout, ?_⟩
      rw [hcalling, hc]
      rfl
  · rw [Eval.answer, hcalling] at he
    cases hc : b.refusal? args with
    | none => rw [hc] at he; cases he
    | some c =>
      rw [hc] at he
      cases he
      obtain ⟨i, rfl⟩ := Complaint.missing_of_message (TypeFault.prefix_message hmissing)
      exact b.refusal?_ne_missing args i hc

/-- The least of three arguments of which the second is undefined, and a logarithm with an
argument more than is read. -/
theorem builtins_read_arguments_minimum :
    let s := (Session.bare ⟨0⟩).store
    let calling (b : Builtin) (args : List Value) :=
      call releaseOnExit 1 (.builtin b 0) args .start s
    let one : Value := .number (.ofFloat 1)
    Builtin.min.arity ≤ [one, .undefined, .undefined].length ∧
      Builtin.log.arity ≤ [one, one].length ∧
      (∃ e, calling .min [one, .undefined, .undefined] = .error (.error e) s ∧
        e.message = "min: argument 2 must be a number, found 'undefined'") ∧
      calling .log [one, one, .undefined] = calling .log [one, one] := by
  intro s calling one
  have hmin : Builtin.min.arity ≤ [one, .undefined, .undefined].length := by decide
  have hlog : Builtin.log.arity ≤ [one, one].length := by decide
  refine ⟨hmin, hlog, ?_, ?_⟩
  · obtain ⟨i, v, hfirst, e, he, -, -, hmessage⟩ :=
      (builtins_read_arguments releaseOnExit 0 .min 0 hmin .start s).2.2.1
        ⟨.undefined, .tail _ (.head _), by decide⟩
    refine ⟨e, he, ?_⟩
    obtain ⟨rfl, rfl⟩ : i = 1 ∧ v = .undefined := by
      obtain ⟨hget, hkind, hbefore⟩ := hfirst
      rcases i with _ | _ | i
      · obtain rfl : one = v := Option.some.inj hget
        exact absurd rfl hkind
      · exact ⟨rfl, (Option.some.inj hget).symm⟩
      · obtain ⟨n, hn⟩ := hbefore 1 (by omega)
        exact absurd (Option.some.inj hn) (by simp)
    exact hmessage
  · exact (builtins_read_arguments releaseOnExit 0 .log 0 hlog .start s).1
      [one, one, .undefined] (by decide) rfl

end ClosureCalc
