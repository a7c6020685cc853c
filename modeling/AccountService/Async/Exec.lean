import AccountService.Async.Protocol

/-!
# Running one program to its end

A `Machine` settles every call at once and in one way, so a program run on it
has exactly one outcome.  What the environment may choose is part of the
machine: a statement about all machines of a kind is a statement about all
behaviours of the environment.

An issued call that nobody awaits is settled where it is issued: its effect
lies between that point and the end of the run, and no other effect of the
program depends on where.

`exec_follows` reads a protocol off such a run: where the machine's state keeps
up with the protocol's, a program that follows the protocol ends in a state its
postconditions describe.
-/

namespace Async

/-- The one way every operation and every call settles. -/
structure Machine (I : Interface) (ε σ : Type) where
  act : (l : I.Local) → σ → I.Result l × σ
  answer : (c : I.Call) → σ → Fate ε (I.Reply c) × σ

/-- How a run ends. -/
inductive Outcome (ε α : Type) : Type where
  | returned (a : α)
  | threw (e : ε)
  | stopped
  deriving DecidableEq

namespace Prog

variable {I : Interface} {ε α β σ : Type}

/-- Run a program on a machine. -/
def exec (M : Machine I ε σ) : Prog I ε α → σ → Outcome ε α × σ
  | done a, w => (.returned a, w)
  | throw e, w => (.threw e, w)
  | stop, w => (.stopped, w)
  | sync l k, w => (k (M.act l w).1).exec M (M.act l w).2
  | fire c p, w => p.exec M (M.answer c w).2
  | await c k, w => (k (M.answer c w).1.seen).exec M (M.answer c w).2

variable {M : Machine I ε σ} {w : σ}

@[simp] theorem exec_done (a : α) : (done a : Prog I ε α).exec M w = (.returned a, w) := rfl

@[simp] theorem exec_throw (e : ε) : (throw e : Prog I ε α).exec M w = (.threw e, w) := rfl

@[simp] theorem exec_stop : (stop : Prog I ε α).exec M w = (.stopped, w) := rfl

@[simp] theorem exec_ite {c : Prop} [Decidable c] (p q : Prog I ε α) :
    (if c then p else q).exec M w = if c then p.exec M w else q.exec M w := by
  split <;> rfl

@[simp] theorem exec_bind (p : Prog I ε α) (f : α → Prog I ε β) :
    (p.bind f).exec M w =
      match p.exec M w with
      | (.returned a, w) => (f a).exec M w
      | (.threw e, w) => (.threw e, w)
      | (.stopped, w) => (.stopped, w) := by
  induction p generalizing w with
  | done a => rfl
  | throw e => rfl
  | stop => rfl
  | sync l k ih => exact ih _
  | fire c p ih => exact ih
  | await c k ih => exact ih _

@[simp] theorem exec_tryCatch (p : Prog I ε α) (h : ε → Prog I ε α) :
    (p.tryCatch h).exec M w =
      match p.exec M w with
      | (.returned a, w) => (.returned a, w)
      | (.threw e, w) => (h e).exec M w
      | (.stopped, w) => (.stopped, w) := by
  induction p generalizing w with
  | done a => rfl
  | throw e => rfl
  | stop => rfl
  | sync l k ih => exact ih _
  | fire c p ih => exact ih
  | await c k ih => exact ih _

@[simp] theorem exec_tryFinally (p : Prog I ε α) (fin : Prog I ε Unit) :
    (p.tryFinally fin).exec M w =
      match p.exec M w with
      | (.returned a, w) => (fin.bind fun _ => done a).exec M w
      | (.threw e, w) => (fin.bind fun _ => throw e).exec M w
      | (.stopped, w) => (.stopped, w) := by
  induction p generalizing w with
  | done a => rfl
  | throw e => rfl
  | stop => rfl
  | sync l k ih => exact ih _
  | fire c p ih => exact ih
  | await c k ih => exact ih _

@[simp] theorem exec_ofExcept (r : Except ε α) :
    (ofExcept r : Prog I ε α).exec M w =
      match r with
      | .ok a => (.returned a, w)
      | .error e => (.threw e, w) := by
  cases r <;> rfl

@[simp] theorem exec_request (c : I.Call) :
    (request c : Prog I ε _).exec M w =
      match (M.answer c w).1.seen with
      | .ok b => (.returned b, (M.answer c w).2)
      | .error e => (.threw e, (M.answer c w).2) := by
  rw [request, exec]
  cases (M.answer c w).1.seen <;> rfl

@[simp] theorem exec_attempt (c : I.Call) :
    (attempt c : Prog I ε _).exec M w =
      (.returned (M.answer c w).1.seen, (M.answer c w).2) := rfl

@[simp] theorem exec_perform (l : I.Local) :
    (perform l : Prog I ε _).exec M w = (.returned (M.act l w).1, (M.act l w).2) := rfl

@[simp] theorem exec_detach (c : I.Call) :
    (detach c : Prog I ε _).exec M w = (.returned (), (M.answer c w).2) := rfl

/-- A continuation that leaves the machine alone leaves it where the program
has. -/
theorem exec_bind_snd {p : Prog I ε α} {f : α → Prog I ε β}
    (h : ∀ a w, ((f a).exec M w).2 = w) : ((p.bind f).exec M w).2 = (p.exec M w).2 := by
  rw [exec_bind]
  rcases p.exec M w with ⟨a | e | _, w'⟩
  · exact h a w'
  · rfl
  · rfl

/-- So does a handler that leaves the machine alone. -/
theorem exec_tryCatch_snd {p : Prog I ε α} {handler : ε → Prog I ε α}
    (h : ∀ e w, ((handler e).exec M w).2 = w) :
    ((p.tryCatch handler).exec M w).2 = (p.exec M w).2 := by
  rw [exec_tryCatch]
  rcases p.exec M w with ⟨a | e | _, w'⟩
  · rfl
  · exact h e w'
  · rfl

/-! ### Programs that end -/

/-- The program returns or throws, whatever it is answered. -/
def Ends : Prog I ε α → Prop
  | done _ => True
  | throw _ => True
  | stop => False
  | sync _ k => ∀ r, (k r).Ends
  | fire _ p => p.Ends
  | await _ k => ∀ x, (k x).Ends

@[simp] theorem ends_done (a : α) : (done a : Prog I ε α).Ends := trivial

@[simp] theorem ends_throw (e : ε) : (throw e : Prog I ε α).Ends := trivial

@[simp] theorem ends_ofExcept (r : Except ε α) : (ofExcept r : Prog I ε α).Ends := by
  cases r <;> trivial

@[simp] theorem ends_request (c : I.Call) : (request c : Prog I ε _).Ends := by
  intro x
  cases x <;> trivial

@[simp] theorem ends_perform (l : I.Local) : (perform l : Prog I ε _).Ends := fun _ => trivial

@[simp] theorem ends_detach (c : I.Call) : (detach c : Prog I ε _).Ends := trivial

theorem Ends.bind {p : Prog I ε α} {f : α → Prog I ε β} (hp : p.Ends) (hf : ∀ a, (f a).Ends) :
    (p.bind f).Ends := by
  induction p with
  | done a => exact hf a
  | throw e => trivial
  | stop => exact hp.elim
  | sync l k ih => exact fun r => ih r (hp r)
  | fire c p ih => exact ih hp
  | await c k ih => exact fun x => ih x (hp x)

theorem Ends.tryCatch {p : Prog I ε α} {h : ε → Prog I ε α} (hp : p.Ends)
    (hh : ∀ e, (h e).Ends) : (p.tryCatch h).Ends := by
  induction p with
  | done a => trivial
  | throw e => exact hh e
  | stop => exact hp.elim
  | sync l k ih => exact fun r => ih r (hp r)
  | fire c p ih => exact ih hp
  | await c k ih => exact fun x => ih x (hp x)

theorem Ends.forM {γ : Type} {f : γ → Prog I ε PUnit} (hf : ∀ x, (f x).Ends) (xs : List γ) :
    (forM xs f).Ends := by
  induction xs with
  | nil => trivial
  | cons x xs ih =>
      rw [List.forM_cons, bind_eq]
      exact (hf x).bind fun _ => ih

/-- Running a program that ends leads to a result or to an exception. -/
theorem Ends.exec {p : Prog I ε α} (h : p.Ends) :
    ∀ w, (∃ a w', p.exec M w = (.returned a, w')) ∨ ∃ e w', p.exec M w = (.threw e, w') := by
  induction p with
  | done a => exact fun w => .inl ⟨a, w, rfl⟩
  | throw e => exact fun w => .inr ⟨e, w, rfl⟩
  | stop => exact h.elim
  | sync l k ih => exact fun w => ih _ (h _) _
  | fire c p ih => exact fun w => ih h _
  | await c k ih => exact fun w => ih _ (h _) _

end Prog

/-- The postcondition that applies to an outcome. -/
def Outcome.Meets {ε α S : Type} (Q : α → S → Prop) (E : ε → S → Prop) (s : S) :
    Outcome ε α → Prop
  | .returned a => Q a s
  | .threw e => E e s
  | .stopped => True

/-- The state of the machine keeps up with the state of a protocol. -/
structure Machine.Tracks {I : Interface} {ε σ S : Type} (M : Machine I ε σ)
    (T : Protocol I ε S) (R : σ → S → Prop) : Prop where
  act : ∀ l w s, T.allow s (.sync l) → R w s →
    R (M.act l w).2 (T.next s (.sync l (M.act l w).1))
  issue : ∀ c w s, T.allow s (.fire c) → R w s → R (M.answer c w).2 (T.next s (.fire c))
  answer : ∀ c w s, T.allow s (.await c) → R w s →
    R (M.answer c w).2 (T.next s (.await c (M.answer c w).1))

namespace Prog

variable {I : Interface} {ε α σ S : Type} {M : Machine I ε σ} {T : Protocol I ε S}

theorem exec_follows {R : σ → S → Prop} (tracks : M.Tracks T R) {p : Prog I ε α}
    {Q : α → S → Prop} {E : ε → S → Prop} :
    ∀ {w : σ} {s : S}, p.Follows T Q E s → R w s →
      ∃ s', R (p.exec M w).2 s' ∧ Outcome.Meets Q E s' (p.exec M w).1 := by
  induction p with
  | done a => intro w s h hR; exact ⟨s, hR, h⟩
  | throw e => intro w s h hR; exact ⟨s, hR, h⟩
  | stop => intro w s _ hR; exact ⟨s, hR, trivial⟩
  | sync l k ih => intro w s h hR; exact ih _ (h.2 _) (tracks.act l w s h.1 hR)
  | fire c p ih => intro w s h hR; exact ih h.2 (tracks.issue c w s h.1 hR)
  | await c k ih => intro w s h hR; exact ih _ (h.2 _) (tracks.answer c w s h.1 hR)

end Prog

end Async
