import AccountService.Async.Prog

/-!
# Protocols a program follows

A *protocol* is an automaton that watches what one program does: it sees every
operation and every call together with its outcome, moves accordingly, and says
in each of its states what the program may do next.  `Prog.Follows` is the
statement that a program never does anything its protocol does not allow,
whatever the replies and whichever calls fail.

A protocol is the interface between sequential code and a concurrent system:
the code is shown to follow it once, by walking through the code, and the
system's invariants are then proved about the automaton's states, where the
code no longer appears.
-/

namespace Async

/-- What a program is about to do. -/
inductive Act (I : Interface) : Type where
  | sync (l : I.Local)
  | fire (c : I.Call)
  | await (c : I.Call)

/-- What a program has done, with the outcome. -/
inductive Obs (I : Interface) (ε : Type) : Type where
  | sync (l : I.Local) (r : I.Result l)
  | fire (c : I.Call)
  | await (c : I.Call) (f : Fate ε (I.Reply c))

/-- An automaton over the behaviour of one program. -/
structure Protocol (I : Interface) (ε S : Type) where
  allow : S → Act I → Prop
  next : S → Obs I ε → S

/-- The protocol that allows certain operations and calls and remembers
nothing. -/
def Protocol.only {I : Interface} {ε : Type} (P : Act I → Prop) : Protocol I ε Unit where
  allow _ act := P act
  next _ _ := ()

namespace Prog

variable {I : Interface} {ε α β S : Type}

/-- From state `s` of the protocol on, the program does only what the protocol
allows; where it returns `a` the state meets `Q a`, where it throws `e` the
state meets `E e`. -/
def Follows (T : Protocol I ε S) :
    Prog I ε α → (α → S → Prop) → (ε → S → Prop) → S → Prop
  | done a, Q, _, s => Q a s
  | throw e, _, E, s => E e s
  | stop, _, _, _ => True
  | sync l k, Q, E, s => T.allow s (.sync l) ∧
      ∀ r, (k r).Follows T Q E (T.next s (.sync l r))
  | fire c p, Q, E, s => T.allow s (.fire c) ∧ p.Follows T Q E (T.next s (.fire c))
  | await c k, Q, E, s => T.allow s (.await c) ∧
      ∀ f, (k f.seen).Follows T Q E (T.next s (.await c f))

variable {T : Protocol I ε S} {Q : α → S → Prop} {E : ε → S → Prop} {s : S}

@[simp] theorem follows_done (a : α) : (done a : Prog I ε α).Follows T Q E s ↔ Q a s := Iff.rfl

@[simp] theorem follows_throw (e : ε) :
    (throw e : Prog I ε α).Follows T Q E s ↔ E e s := Iff.rfl

@[simp] theorem follows_stop : (stop : Prog I ε α).Follows T Q E s ↔ True := Iff.rfl

@[simp] theorem follows_ite {c : Prop} [Decidable c] (p q : Prog I ε α) :
    (if c then p else q).Follows T Q E s ↔
      if c then p.Follows T Q E s else q.Follows T Q E s := by
  split <;> rfl

/-- Weaker postconditions are met as well. -/
theorem Follows.mono {p : Prog I ε α} {Q' : α → S → Prop} {E' : ε → S → Prop}
    (h : p.Follows T Q E s) (hQ : ∀ a s, Q a s → Q' a s) (hE : ∀ e s, E e s → E' e s) :
    p.Follows T Q' E' s := by
  induction p generalizing s with
  | done a => exact hQ _ _ h
  | throw e => exact hE _ _ h
  | stop => trivial
  | sync l k ih => exact ⟨h.1, fun r => ih r (h.2 r)⟩
  | fire c p ih => exact ⟨h.1, ih h.2⟩
  | await c k ih => exact ⟨h.1, fun f => ih _ (h.2 f)⟩

/-- Sequencing: the second program starts in the state the first leaves. -/
@[simp] theorem follows_bind (p : Prog I ε β) (f : β → Prog I ε α) :
    (p.bind f).Follows T Q E s ↔
      p.Follows T (fun b s => (f b).Follows T Q E s) E s := by
  induction p generalizing s with
  | done a => rfl
  | throw e => rfl
  | stop => rfl
  | sync l k ih => simp only [bind, Follows, ih]
  | fire c p ih => simp only [bind, Follows, ih]
  | await c k ih => simp only [bind, Follows, ih]

@[simp] theorem follows_tryCatch (p : Prog I ε α) (h : ε → Prog I ε α) :
    (p.tryCatch h).Follows T Q E s ↔
      p.Follows T Q (fun e s => (h e).Follows T Q E s) s := by
  induction p generalizing s with
  | done a => rfl
  | throw e => rfl
  | stop => rfl
  | sync l k ih => simp only [tryCatch, Follows, ih]
  | fire c p ih => simp only [tryCatch, Follows, ih]
  | await c k ih => simp only [tryCatch, Follows, ih]

@[simp] theorem follows_tryFinally (p : Prog I ε α) (fin : Prog I ε Unit) :
    (p.tryFinally fin).Follows T Q E s ↔
      p.Follows T (fun a s => fin.Follows T (fun _ s => Q a s) E s)
        (fun e s => fin.Follows T (fun _ s => E e s) E s) s := by
  induction p generalizing s with
  | done a => simp only [tryFinally, follows_bind, follows_done]
  | throw e => simp only [tryFinally, follows_bind, follows_throw]
  | stop => rfl
  | sync l k ih => simp only [tryFinally, Follows, ih]
  | fire c p ih => simp only [tryFinally, Follows, ih]
  | await c k ih => simp only [tryFinally, Follows, ih]

@[simp] theorem follows_ofExcept (r : Except ε α) :
    (ofExcept r : Prog I ε α).Follows T Q E s ↔
      (∀ a, r = .ok a → Q a s) ∧ ∀ e, r = .error e → E e s := by
  cases r <;> simp [ofExcept]

theorem follows_perform (l : I.Local) {Q : I.Result l → S → Prop} :
    (perform l : Prog I ε _).Follows T Q E s ↔
      T.allow s (.sync l) ∧ ∀ r, Q r (T.next s (.sync l r)) := Iff.rfl

theorem follows_detach (c : I.Call) {Q : Unit → S → Prop} :
    (detach c : Prog I ε _).Follows T Q E s ↔
      T.allow s (.fire c) ∧ Q () (T.next s (.fire c)) := Iff.rfl

/-- A call either answers, or throws after having been carried out or not. -/
theorem follows_request (c : I.Call) {Q : I.Reply c → S → Prop} :
    (request c : Prog I ε _).Follows T Q E s ↔
      T.allow s (.await c) ∧ (∀ b, Q b (T.next s (.await c (.done b)))) ∧
        (∀ e, E e (T.next s (.await c (.refused e)))) ∧
        ∀ b e, E e (T.next s (.await c (.lost b e))) := by
  constructor
  · rintro ⟨ha, h⟩
    exact ⟨ha, fun b => h (.done b), fun e => h (.refused e), fun b e => h (.lost b e)⟩
  · rintro ⟨ha, hd, hr, hl⟩
    refine ⟨ha, fun f => ?_⟩
    cases f with
    | done b => exact hd b
    | refused e => exact hr e
    | lost b e => exact hl b e

/-- A loop over a list: `J xs b` holds before each element of the list, where
`xs` are the elements still to come and `b` is the accumulator. -/
theorem follows_foldlM {γ : Type} {f : α → γ → Prog I ε α} {E : ε → S → Prop}
    {Q : α → S → Prop} (J : List γ → α → S → Prop)
    (step : ∀ x xs b s, J (x :: xs) b s → (f b x).Follows T (fun b' s' => J xs b' s') E s)
    (last : ∀ b s, J [] b s → Q b s) :
    ∀ (xs : List γ) (b : α) (s : S), J xs b s → (xs.foldlM f b).Follows T Q E s := by
  intro xs
  induction xs with
  | nil => intro b s h; exact last b s h
  | cons x xs ih =>
      intro b s h
      rw [List.foldlM_cons, bind_eq, follows_bind]
      exact (step x xs b s h).mono (fun b' s' h' => ih b' s' h') fun _ _ h' => h'

/-- A loop over a list that returns nothing: `J xs` holds before each element,
where `xs` are the elements still to come. -/
theorem follows_forM_rest {γ : Type} {f : γ → Prog I ε PUnit} {E : ε → S → Prop}
    (J : List γ → S → Prop)
    (step : ∀ x xs s, J (x :: xs) s → (f x).Follows T (fun _ s' => J xs s') E s) :
    ∀ (xs : List γ) (s : S), J xs s → (forM xs f).Follows T (fun _ s' => J [] s') E s := by
  intro xs
  induction xs with
  | nil => intro s h; exact h
  | cons x xs ih =>
      intro s h
      rw [List.forM_cons, bind_eq, follows_bind]
      exact (step x xs s h).mono (fun _ s' h' => ih s' h') fun _ _ h' => h'

/-- A loop whose body keeps `J` keeps it altogether. -/
theorem follows_forM {γ : Type} {f : γ → Prog I ε PUnit} {E : ε → S → Prop} {J : S → Prop}
    (step : ∀ x s, J s → (f x).Follows T (fun _ s' => J s') E s) :
    ∀ (xs : List γ) (s : S), J s → (forM xs f).Follows T (fun _ s' => J s') E s :=
  follows_forM_rest (fun _ => J) fun x _ => step x

/-- A traversal whose body keeps `J` keeps it altogether. -/
theorem follows_mapM {γ δ : Type} {f : γ → Prog I ε δ} {E : ε → S → Prop} {J : S → Prop}
    (step : ∀ x s, J s → (f x).Follows T (fun _ s' => J s') E s) :
    ∀ (xs : List γ) (s : S), J s → (xs.mapM f).Follows T (fun _ s' => J s') E s := by
  intro xs
  induction xs with
  | nil => intro s h; exact h
  | cons x xs ih =>
      intro s h
      simp only [List.mapM_cons, bind_eq, pure_eq, follows_bind, follows_done]
      exact (step x s h).mono (fun _ s' h' => ih s' h') fun _ _ h' => h'

/-- A program that follows a protocol whose permissions do not move the state of
a second one stays in that state. -/
theorem Follows.still {S' : Type} {T' : Protocol I ε S'} {s' : S'} {p : Prog I ε α}
    (h : p.Follows T Q E s) (allow : ∀ s act, T.allow s act → T'.allow s' act)
    (sync : ∀ s l r, T.allow s (.sync l) → T'.next s' (.sync l r) = s')
    (fire : ∀ s c, T.allow s (.fire c) → T'.next s' (.fire c) = s')
    (await : ∀ s c f, T.allow s (.await c) → T'.next s' (.await c f) = s') :
    p.Follows T' (fun a s'' => s'' = s' ∧ ∃ s, Q a s) (fun e s'' => s'' = s' ∧ ∃ s, E e s) s' := by
  induction p generalizing s with
  | done a => exact ⟨rfl, s, h⟩
  | throw e => exact ⟨rfl, s, h⟩
  | stop => trivial
  | sync l k ih =>
      exact ⟨allow s _ h.1, fun r => by rw [sync s l r h.1]; exact ih r (h.2 r)⟩
  | fire c p ih => exact ⟨allow s _ h.1, by rw [fire s c h.1]; exact ih h.2⟩
  | await c k ih =>
      exact ⟨allow s _ h.1, fun f => by rw [await s c f h.1]; exact ih _ (h.2 f)⟩

/-- The program as far as its first `n` calls; where it would make another, the
process has died. -/
def upTo : Prog I ε α → Nat → Prog I ε α
  | done a, _ => done a
  | throw e, _ => throw e
  | stop, _ => stop
  | sync l k, n => sync l fun r => (k r).upTo n
  | fire _ _, 0 => stop
  | fire c p, n + 1 => fire c (p.upTo n)
  | await _ _, 0 => stop
  | await c k, n + 1 => await c fun r => (k r).upTo n

/-- What a program keeps to, every initial part of it keeps to. -/
theorem Follows.upTo {p : Prog I ε α} (h : p.Follows T Q E s) (n : Nat) :
    (p.upTo n).Follows T Q E s := by
  induction p generalizing s n with
  | done a => exact h
  | throw e => exact h
  | stop => trivial
  | sync l k ih => exact ⟨h.1, fun r => ih r (h.2 r) n⟩
  | fire c p ih =>
      cases n with
      | zero => trivial
      | succ n => exact ⟨h.1, ih h.2 n⟩
  | await c k ih =>
      cases n with
      | zero => trivial
      | succ n => exact ⟨h.1, fun f => ih _ (h.2 f) n⟩

/-! ### Programs that do only certain things -/

/-- Everything the program does is among `P`. -/
def Only (P : Act I → Prop) (p : Prog I ε α) : Prop :=
  p.Follows (Protocol.only P) (fun _ _ => True) (fun _ _ => True) ()

section Only

variable {P : Act I → Prop}

@[simp] theorem only_done (a : α) : Only P (done a : Prog I ε α) := trivial

@[simp] theorem only_throw (e : ε) : Only P (throw e : Prog I ε α) := trivial

@[simp] theorem only_stop : Only P (stop : Prog I ε α) := trivial

@[simp] theorem only_ofExcept (r : Except ε α) : Only P (ofExcept r : Prog I ε α) := by
  cases r <;> trivial

theorem Only.bind {p : Prog I ε β} {f : β → Prog I ε α} (hp : Only P p) (hf : ∀ b, Only P (f b)) :
    Only P (p.bind f) := by
  rw [Only, follows_bind]
  exact hp.mono (fun b _ _ => hf b) fun _ _ h => h

theorem Only.tryCatch {p : Prog I ε α} {h : ε → Prog I ε α} (hp : Only P p)
    (hh : ∀ e, Only P (h e)) : Only P (p.tryCatch h) := by
  rw [Only, follows_tryCatch]
  exact hp.mono (fun _ _ h => h) fun e _ _ => hh e

theorem Only.ite {c : Prop} [Decidable c] {p q : Prog I ε α} (hp : Only P p) (hq : Only P q) :
    Only P (if c then p else q) := by
  split
  · exact hp
  · exact hq

/-- What a program that does only certain things returns does not depend on
what else it might do. -/
theorem Follows.only_mono {P' : Act I → Prop} (hP : ∀ act, P act → P' act) {p : Prog I ε α}
    {Q : α → Unit → Prop} {E : ε → Unit → Prop} (h : p.Follows (Protocol.only P) Q E ()) :
    p.Follows (Protocol.only P') Q E () := by
  induction p with
  | done a => exact h
  | throw e => exact h
  | stop => trivial
  | sync l k ih => exact ⟨hP _ h.1, fun r => ih r (h.2 r)⟩
  | fire c p ih => exact ⟨hP _ h.1, ih h.2⟩
  | await c k ih => exact ⟨hP _ h.1, fun f => ih _ (h.2 f)⟩

/-- A program that does only what a state allows, and what does not move it,
stays in that state. -/
theorem Only.follows {p : Prog I ε α} (h : Only P p) (allow : ∀ act, P act → T.allow s act)
    (sync : ∀ l r, P (.sync l) → T.next s (.sync l r) = s)
    (fire : ∀ c, P (.fire c) → T.next s (.fire c) = s)
    (await : ∀ c f, P (.await c) → T.next s (.await c f) = s) :
    p.Follows T (fun _ s' => s' = s) (fun _ s' => s' = s) s :=
  (h.still (fun _ act => allow act) (fun _ => sync) (fun _ => fire) fun _ => await).mono
    (fun _ _ h => h.1) fun _ _ h => h.1

end Only

end Prog

end Async
