import Mathlib.Logic.Basic

/-!
# Asynchronous programs as trees of awaited calls

An asynchronous function runs its synchronous code without interruption and
gives control away only where it awaits a call.  What the outside does with
such a call (the order in which several functions proceed, which calls fail,
where the process dies) is not the function's own; so the function is kept as
the tree of the calls it makes, and every semantics is a reading of that tree.

* `Interface` lists the calls that leave the process and the operations on the
  memory of the process.
* `Prog I ε α` is a function over the interface `I` that ends with a value of
  `α` or an exception of `ε`.
* `Prog.tryCatch` and `Prog.tryFinally` are the two exception constructs.
* `Fate` is what becomes of one awaited call: it is carried out and answered,
  it is refused, or it is carried out and the caller still sees an error.

A loop with no bound of its own is unrolled a given number of times and ends in
`stop`, where the function is followed no further; a statement about all
numbers of unrollings is a statement about all finite parts of all runs.
-/

namespace Async

/-- What a program may ask for: calls that leave the process, each with the
type of its reply, and operations on the memory of the process, each with the
type of its result. -/
structure Interface where
  Call : Type
  Reply : Call → Type
  Local : Type
  Result : Local → Type

/-- An asynchronous program.  `sync` is an operation on process memory, `fire`
issues a call and goes on without its reply, `await` issues a call and goes on
with the reply or with the exception it rejects with. -/
inductive Prog (I : Interface) (ε α : Type) : Type where
  | done (a : α)
  | throw (e : ε)
  | stop
  | sync (l : I.Local) (k : I.Result l → Prog I ε α)
  | fire (c : I.Call) (p : Prog I ε α)
  | await (c : I.Call) (k : Except ε (I.Reply c) → Prog I ε α)

/-- What becomes of an awaited call. -/
inductive Fate (ε β : Type) : Type where
  /-- Carried out, and the reply arrives. -/
  | done (b : β)
  /-- Not carried out; the caller sees `e`. -/
  | refused (e : ε)
  /-- Carried out with reply `b`, but the caller sees `e`. -/
  | lost (b : β) (e : ε)

namespace Fate

variable {ε β : Type}

/-- What the caller sees of the call. -/
def seen : Fate ε β → Except ε β
  | done b => .ok b
  | refused e => .error e
  | lost _ e => .error e

/-- What the callee did, if it did anything. -/
def effect : Fate ε β → Option β
  | done b => some b
  | refused _ => none
  | lost b _ => some b

@[simp] theorem seen_done (b : β) : (done b : Fate ε β).seen = .ok b := rfl
@[simp] theorem seen_refused (e : ε) : (refused e : Fate ε β).seen = .error e := rfl
@[simp] theorem seen_lost (b : β) (e : ε) : (lost b e : Fate ε β).seen = .error e := rfl
@[simp] theorem effect_done (b : β) : (done b : Fate ε β).effect = some b := rfl
@[simp] theorem effect_refused (e : ε) : (refused e : Fate ε β).effect = none := rfl
@[simp] theorem effect_lost (b : β) (e : ε) : (lost b e : Fate ε β).effect = some b := rfl

/-- A reply that arrives was computed by the callee. -/
theorem effect_of_seen {f : Fate ε β} {b : β} (h : f.seen = .ok b) : f.effect = some b := by
  cases f with
  | done b' => simpa using h
  | refused e => simp at h
  | lost b' e => simp at h

end Fate

/-- The three ways a call can settle. -/
inductive Settle (ε : Type) : Type where
  | answer
  | refuse (e : ε)
  | lose (e : ε)

/-- The fate of a call whose reply would be `b`. -/
def Settle.fate {ε β : Type} : Settle ε → β → Fate ε β
  | answer, b => .done b
  | refuse e, _ => .refused e
  | lose e, b => .lost b e

/-- What the callee does is to compute the reply, if it does anything. -/
theorem Settle.fate_effect {ε β : Type} {how : Settle ε} {b b' : β}
    (h : (how.fate b).effect = some b') : b' = b := by
  cases how with
  | answer => exact (Option.some.inj h).symm
  | refuse e => cases h
  | lose e => exact (Option.some.inj h).symm

/-- The call takes effect. -/
def Settle.carriedOut {ε : Type} : Settle ε → Bool
  | refuse _ => false
  | _ => true

/-- The call is answered. -/
def Settle.answers {ε : Type} : Settle ε → Bool
  | answer => true
  | _ => false

theorem Settle.fate_isSome {ε β : Type} (how : Settle ε) (b : β) :
    (how.fate b).effect.isSome = how.carriedOut := by
  cases how <;> rfl

theorem Settle.fate_of_answers {ε β : Type} {how : Settle ε} (h : how.answers) (b : β) :
    how.fate b = .done b := by
  cases how with
  | answer => rfl
  | refuse e => cases h
  | lose e => cases h

theorem Settle.answers_of_fate {ε β : Type} {how : Settle ε} {b b' : β}
    (h : how.fate b = .done b') : how.answers := by
  cases how with
  | answer => rfl
  | refuse e => cases h
  | lose e => cases h

namespace Prog

variable {I : Interface} {ε α β : Type}

/-- Sequencing. -/
def bind : Prog I ε α → (α → Prog I ε β) → Prog I ε β
  | done a, f => f a
  | throw e, _ => throw e
  | stop, _ => stop
  | sync l k, f => sync l fun r => (k r).bind f
  | fire c p, f => fire c (p.bind f)
  | await c k, f => await c fun r => (k r).bind f

instance : Monad (Prog I ε) where
  pure := done
  bind := bind

/-- Run a handler where the program throws. -/
def tryCatch : Prog I ε α → (ε → Prog I ε α) → Prog I ε α
  | done a, _ => done a
  | throw e, h => h e
  | stop, _ => stop
  | sync l k, h => sync l fun r => (k r).tryCatch h
  | fire c p, h => fire c (p.tryCatch h)
  | await c k, h => await c fun r => (k r).tryCatch h

/-- Run `fin` after the program has returned or thrown; an exception of `fin`
replaces the outcome. -/
def tryFinally : Prog I ε α → Prog I ε Unit → Prog I ε α
  | done a, fin => fin.bind fun _ => done a
  | throw e, fin => fin.bind fun _ => throw e
  | stop, _ => stop
  | sync l k, fin => sync l fun r => (k r).tryFinally fin
  | fire c p, fin => fire c (p.tryFinally fin)
  | await c k, fin => await c fun r => (k r).tryFinally fin

/-- Settle an `Except` value: return it or throw. -/
def ofExcept : Except ε α → Prog I ε α
  | .ok a => done a
  | .error e => throw e

/-- Await a call; a rejection is thrown. -/
def request (c : I.Call) : Prog I ε (I.Reply c) := await c ofExcept

/-- Await a call and look at how it settled. -/
def attempt (c : I.Call) : Prog I ε (Except ε (I.Reply c)) := await c done

/-- Operate on process memory. -/
def perform (l : I.Local) : Prog I ε (I.Result l) := sync l done

/-- Issue a call whose promise nobody awaits. -/
def detach (c : I.Call) : Prog I ε Unit := fire c (done ())

/-- The program has nothing left to do. -/
def ended : Prog I ε α → Bool
  | done _ => true
  | throw _ => true
  | _ => false

/-- The program awaits a call or has come to its end: nothing is left to do
before the next reply. -/
def AtRest : Prog I ε α → Prop
  | sync _ _ => False
  | fire _ _ => False
  | _ => True

/-- The call the program awaits. -/
def awaited : Prog I ε α → Option I.Call
  | await c _ => some c
  | _ => none

/-- What the program has returned. -/
def value : Prog I ε α → Option α
  | done a => some a
  | _ => none

theorem value_eq_some {p : Prog I ε α} {a : α} : p.value = some a ↔ p = done a := by
  cases p <;> simp [value]

@[simp] theorem pure_eq (a : α) : (pure a : Prog I ε α) = done a := rfl

@[simp] theorem bind_eq (p : Prog I ε α) (f : α → Prog I ε β) : (p >>= f) = p.bind f := rfl

@[simp] theorem bind_done (a : α) (f : α → Prog I ε β) :
    (done a : Prog I ε α).bind f = f a := rfl

@[simp] theorem bind_throw (e : ε) (f : α → Prog I ε β) :
    (throw e : Prog I ε α).bind f = throw e := rfl

theorem bind_assoc {γ : Type} (p : Prog I ε α) (f : α → Prog I ε β) (g : β → Prog I ε γ) :
    (p.bind f).bind g = p.bind fun a => (f a).bind g := by
  induction p with
  | done a => rfl
  | throw e => rfl
  | stop => rfl
  | sync l k ih => simp only [bind, ih]
  | fire c p ih => simp only [bind, ih]
  | await c k ih => simp only [bind, ih]

theorem bind_done_right (p : Prog I ε α) : p.bind done = p := by
  induction p with
  | done a => rfl
  | throw e => rfl
  | stop => rfl
  | sync l k ih => simp only [bind, ih]
  | fire c p ih => simp only [bind, ih]
  | await c k ih => simp only [bind, ih]

/-- A handler that throws again changes nothing. -/
@[simp] theorem tryCatch_throw (p : Prog I ε α) : p.tryCatch throw = p := by
  induction p with
  | done a => rfl
  | throw e => rfl
  | stop => rfl
  | sync l k ih => simp only [tryCatch, ih]
  | fire c p ih => simp only [tryCatch, ih]
  | await c k ih => simp only [tryCatch, ih]

instance : LawfulMonad (Prog I ε) :=
  LawfulMonad.mk' (Prog I ε) bind_done_right (fun _ _ => rfl) bind_assoc

end Prog

end Async
