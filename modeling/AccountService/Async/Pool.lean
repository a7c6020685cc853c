import AccountService.Async.Protocol
import Mathlib.Logic.Function.Basic

/-!
# Programs running side by side

A `World` is everything the programs act upon: the memory they share and the
systems behind their calls, together with what the environment does by itself.
Every choice the world leaves open (which reply, whether a call fails, what
happens next outside) is made by a value of `χ`, so that a step is a function
of its label and a run is a list of labels.

A `Pool` is a world with a program at some of the places `ι`.  As in an event
loop, the synchronous code between two awaits runs without interruption
(`settle`), the effect of an awaited call and the continuation of its caller
are separate steps, and between any two steps every other program may move.

* `World.run_invariant` is the induction over runs.
* `World.Tracks` says that the world records, for every place, the state of the
  protocol its program follows.  Then no program ever does what its protocol
  forbids, however the programs interleave (`Pool.Following`).
* `World.Keeps` lists what an invariant of the world owes: one obligation for
  each kind of step, with the permission of the protocol at hand.
  `Tracks.run_keeps` is the invariance that follows, and the way every result
  about a pool is proved.
-/

namespace Async

/-- What the programs of a pool act upon.  `launch` starts a program at a
place, for a reason of `κ`. -/
structure World (I : Interface) (ε α ι σ χ κ : Type) where
  act : ι → (l : I.Local) → σ → I.Result l × σ
  issue : ι → I.Call → σ → σ
  answer : ι → (c : I.Call) → χ → σ → Option (Fate ε (I.Reply c) × σ)
  env : χ → σ → Option σ
  launch : κ → ι → σ → Option (Prog I ε α × σ)
  crash : σ → σ

/-- A world with the programs that run in it. -/
structure Pool (I : Interface) (ε α ι σ : Type) where
  world : σ
  task : ι → Option (Prog I ε α)

/-- One step of a pool. -/
inductive Label (ι χ κ : Type) : Type where
  /-- The environment moves. -/
  | env (x : χ)
  /-- A program is started and runs up to its first await. -/
  | start (k : κ) (i : ι)
  /-- The call awaited at place `i` settles. -/
  | reply (i : ι) (x : χ)
  /-- The program at place `i` runs on to its next await. -/
  | resume (i : ι)
  /-- The process dies, and all its programs with it. -/
  | crash

namespace World

variable {I : Interface} {ε α ι σ χ κ : Type} (W : World I ε α ι σ χ κ)

/-- Run the synchronous code at the head of a program. -/
def settle (i : ι) : Prog I ε α → σ → Prog I ε α × σ
  | .sync l k, w => settle i (k (W.act i l w).1) (W.act i l w).2
  | .fire c p, w => settle i p (W.issue i c w)
  | p, w => (p, w)

variable [DecidableEq ι]

/-- The step a label names, where it is possible. -/
def step : Label ι χ κ → Pool I ε α ι σ → Option (Pool I ε α ι σ)
  | .env x, P => (W.env x P.world).map fun w => { P with world := w }
  | .start k i, P =>
      if (P.task i).all Prog.ended then
        (W.launch k i P.world).map fun pw =>
          { world := (W.settle i pw.1 pw.2).2
            task := Function.update P.task i (some (W.settle i pw.1 pw.2).1) }
      else none
  | .reply i x, P =>
      match P.task i with
      | some (.await c k) =>
          (W.answer i c x P.world).map fun fw =>
            { world := fw.2, task := Function.update P.task i (some (k fw.1.seen)) }
      | _ => none
  | .resume i, P =>
      match P.task i with
      | some (.sync l k) =>
          some { world := (W.settle i (.sync l k) P.world).2
                 task := Function.update P.task i (some (W.settle i (.sync l k) P.world).1) }
      | some (.fire c p) =>
          some { world := (W.settle i (.fire c p) P.world).2
                 task := Function.update P.task i (some (W.settle i (.fire c p) P.world).1) }
      | _ => none
  | .crash, P => some { world := W.crash P.world, task := fun _ => none }

/-- A run: the steps of a list of labels, one after the other. -/
def run : List (Label ι χ κ) → Pool I ε α ι σ → Option (Pool I ε α ι σ)
  | [], P => some P
  | l :: ls, P => (W.step l P).bind (run ls)

/-- Every step of a run is taken where `C` allows it. -/
def Along (C : Label ι χ κ → Pool I ε α ι σ → Prop) :
    List (Label ι χ κ) → Pool I ε α ι σ → Prop
  | [], _ => True
  | l :: ls, P => C l P ∧ ∀ P' ∈ W.step l P, Along C ls P'

instance {C : Label ι χ κ → Pool I ε α ι σ → Prop} [∀ l P, Decidable (C l P)] :
    ∀ ls P, Decidable (W.Along C ls P)
  | [], _ => .isTrue trivial
  | l :: ls, P =>
      have : ∀ P', Decidable (W.Along C ls P') := instDecidableAlong ls
      inferInstanceAs (Decidable (C l P ∧ ∀ P' ∈ W.step l P, W.Along C ls P'))

theorem run_cons {l : Label ι χ κ} {ls : List (Label ι χ κ)} {P P' : Pool I ε α ι σ} :
    W.run (l :: ls) P = some P' ↔ ∃ P₁, W.step l P = some P₁ ∧ W.run ls P₁ = some P' := by
  simp [run, Option.bind_eq_some_iff]

/-- A run in two parts. -/
theorem run_append {ls ls' : List (Label ι χ κ)} {P : Pool I ε α ι σ} :
    W.run (ls ++ ls') P = (W.run ls P).bind (W.run ls') := by
  induction ls generalizing P with
  | nil => rfl
  | cons l ls ih =>
      simp only [List.cons_append, run, Option.bind_assoc]
      exact congrArg _ (funext fun P' => ih)

/-- Every run is one whose steps meet no condition. -/
theorem along_true (ls : List (Label ι χ κ)) (P : Pool I ε α ι σ) :
    W.Along (fun _ _ => True) ls P := by
  induction ls generalizing P with
  | nil => trivial
  | cons l ls ih => exact ⟨trivial, fun P' _ => ih P'⟩

/-- What holds of the labels of a run in every state holds along it. -/
theorem along_of_forall {C : Label ι χ κ → Pool I ε α ι σ → Prop} {ls : List (Label ι χ κ)}
    (h : ∀ l ∈ ls, ∀ P, C l P) {P : Pool I ε α ι σ} : W.Along C ls P := by
  induction ls generalizing P with
  | nil => trivial
  | cons l ls ih =>
      exact ⟨h l List.mem_cons_self P, fun P' _ => ih fun l' hl' => h l' (List.mem_cons_of_mem l hl')⟩

/-- A run that does not meet a condition throughout has a step that does not. -/
theorem exists_of_not_along {C : Label ι χ κ → Pool I ε α ι σ → Prop} {ls : List (Label ι χ κ)} :
    ∀ {P P' : Pool I ε α ι σ}, W.run ls P = some P' → ¬ W.Along C ls P →
      ∃ ls₁ l ls₂ P₁ P₂, ls = ls₁ ++ l :: ls₂ ∧ W.run ls₁ P = some P₁ ∧ W.step l P₁ = some P₂ ∧
        W.run ls₂ P₂ = some P' ∧ ¬ C l P₁ := by
  induction ls with
  | nil => intro P P' _ h; exact absurd trivial h
  | cons l ls ih =>
      intro P P' hrun h
      obtain ⟨P₁, hstep, hrun⟩ := (W.run_cons).mp hrun
      by_cases hC : C l P
      · have hrest : ¬ W.Along C ls P₁ := by
          intro hrest
          refine h ⟨hC, fun P₂ hP₂ => ?_⟩
          rw [Option.mem_def, hstep] at hP₂
          rwa [← Option.some.inj hP₂]
        obtain ⟨ls₁, l', ls₂, P₂, P₃, rfl, hrun₁, h₂⟩ := ih hrun hrest
        exact ⟨l :: ls₁, l', ls₂, P₂, P₃, rfl, (W.run_cons).mpr ⟨P₁, hstep, hrun₁⟩, h₂⟩
      · exact ⟨[], l, ls, P, P₁, rfl, rfl, hstep, hrun, hC⟩

/-- Two conditions at once. -/
theorem Along.and {C C' : Label ι χ κ → Pool I ε α ι σ → Prop} {ls : List (Label ι χ κ)} :
    ∀ {P : Pool I ε α ι σ}, W.Along C ls P → W.Along C' ls P →
      W.Along (fun l P => C l P ∧ C' l P) ls P := by
  induction ls with
  | nil => intro P _ _; trivial
  | cons l ls ih => intro P h h'; exact ⟨⟨h.1, h'.1⟩, fun P' hP' => ih (h.2 P' hP') (h'.2 P' hP')⟩

/-- What holds at the start and is kept by every step taken where `C` allows
it holds wherever such a run leads. -/
theorem run_invariant {C : Label ι χ κ → Pool I ε α ι σ → Prop}
    {J : Pool I ε α ι σ → Prop}
    (step : ∀ l P P', C l P → J P → W.step l P = some P' → J P') :
    ∀ {ls : List (Label ι χ κ)} {P P' : Pool I ε α ι σ},
      W.Along C ls P → J P → W.run ls P = some P' → J P' := by
  intro ls
  induction ls with
  | nil => intro P P' _ hJ h; cases h; exact hJ
  | cons l ls ih =>
      intro P P' hC hJ h
      obtain ⟨P₁, h₁, h⟩ := (W.run_cons).mp h
      exact ih (hC.2 P₁ h₁) (step l P P₁ hC.1 hJ h₁) h

end World

/-! ## Following a protocol in a pool -/

section Tracking

variable {I : Interface} {ε α ι σ χ κ : Type} {S : ι → Type}

/-- The world records at `π i` the state of the protocol followed at `i`: the
steps of place `i` move it as the protocol says, and no other step moves it. -/
structure World.Tracks (W : World I ε α ι σ χ κ) (T : ∀ i, Protocol I ε (S i))
    (Q : ∀ i, α → S i → Prop) (E : ∀ i, ε → S i → Prop) (π : ∀ i, σ → S i) : Prop where
  act : ∀ i l w, π i (W.act i l w).2 = (T i).next (π i w) (.sync l (W.act i l w).1)
  act_other : ∀ i j l w, j ≠ i → π j (W.act i l w).2 = π j w
  issue : ∀ i c w, π i (W.issue i c w) = (T i).next (π i w) (.fire c)
  issue_other : ∀ i j c w, j ≠ i → π j (W.issue i c w) = π j w
  answer : ∀ i c x w f w', W.answer i c x w = some (f, w') →
    π i w' = (T i).next (π i w) (.await c f)
  answer_other : ∀ i j c x w f w', j ≠ i → W.answer i c x w = some (f, w') → π j w' = π j w
  env : ∀ i x w w', W.env x w = some w' → π i w' = π i w
  launch : ∀ k i w p w', W.launch k i w = some (p, w') → p.Follows (T i) (Q i) (E i) (π i w')
  launch_other : ∀ k i j w p w', j ≠ i → W.launch k i w = some (p, w') → π j w' = π j w

/-- Every program of the pool follows its protocol from the recorded state on,
and where one is about to run on, that state is what an answer led to. -/
structure Pool.Following (T : ∀ i, Protocol I ε (S i)) (Q : ∀ i, α → S i → Prop)
    (E : ∀ i, ε → S i → Prop) (π : ∀ i, σ → S i) (P : Pool I ε α ι σ) : Prop where
  follows : ∀ i p, P.task i = some p → p.Follows (T i) (Q i) (E i) (π i P.world)
  answered : ∀ i p, P.task i = some p → p.AtRest ∨
    ∃ s c f, (T i).allow s (.await c) ∧ π i P.world = (T i).next s (.await c f)

/-- An empty pool is in line. -/
theorem Pool.following_empty {T : ∀ i, Protocol I ε (S i)} {Q : ∀ i, α → S i → Prop}
    {E : ∀ i, ε → S i → Prop} {π : ∀ i, σ → S i} (w : σ) :
    Pool.Following T Q E π ⟨w, fun _ => none⟩ :=
  ⟨fun _ _ h => (by cases h), fun _ _ h => (by cases h)⟩

/-- What an invariant `J` of the world owes for the steps that `C` allows.
While the program at `i` runs from one await to the next, `J` is replaced by
`K i`, which may remember what was true where it ran on. -/
structure World.Keeps (W : World I ε α ι σ χ κ) (T : ∀ i, Protocol I ε (S i))
    (π : ∀ i, σ → S i) (C : Label ι χ κ → Pool I ε α ι σ → Prop) (J : σ → Prop)
    (K : ι → σ → Prop) : Prop where
  env : ∀ x P w', C (.env x) P → J P.world → W.env x P.world = some w' → J w'
  launch : ∀ k i P p w', C (.start k i) P → (P.task i).all Prog.ended → J P.world →
    W.launch k i P.world = some (p, w') → K i w'
  resume : ∀ i P s c f, C (.resume i) P → (T i).allow s (.await c) →
    π i P.world = (T i).next s (.await c f) → J P.world → K i P.world
  act : ∀ i l w, (T i).allow (π i w) (.sync l) → K i w → K i (W.act i l w).2
  issue : ∀ i c w, (T i).allow (π i w) (.fire c) → K i w → K i (W.issue i c w)
  close : ∀ i w, K i w → J w
  answer : ∀ i x c k P f w', C (.reply i x) P → P.task i = some (.await c k) →
    (T i).allow (π i P.world) (.await c) → J P.world → W.answer i c x P.world = some (f, w') → J w'
  crash : ∀ P, C .crash P → J P.world → J (W.crash P.world)

/-- What an invariant `J` owes that no operation breaks even for a moment, where
`A` is an invariant already known. -/
structure World.Preserves (W : World I ε α ι σ χ κ) (T : ∀ i, Protocol I ε (S i))
    (π : ∀ i, σ → S i) (C : Label ι χ κ → Pool I ε α ι σ → Prop) (A J : σ → Prop) : Prop where
  env : ∀ x P w', C (.env x) P → A P.world → J P.world → W.env x P.world = some w' → J w'
  launch : ∀ k i P p w', C (.start k i) P → A P.world → J P.world →
    W.launch k i P.world = some (p, w') → J w'
  act : ∀ i l w, (T i).allow (π i w) (.sync l) → A w → J w → J (W.act i l w).2
  issue : ∀ i c w, (T i).allow (π i w) (.fire c) → A w → J w → J (W.issue i c w)
  answer : ∀ i x c k P f w', C (.reply i x) P → P.task i = some (.await c k) →
    (T i).allow (π i P.world) (.await c) → A P.world → J P.world →
      W.answer i c x P.world = some (f, w') → J w'
  crash : ∀ P, C .crash P → A P.world → J P.world → J (W.crash P.world)

namespace World

variable {W : World I ε α ι σ χ κ} {T : ∀ i, Protocol I ε (S i)} {Q : ∀ i, α → S i → Prop}
  {E : ∀ i, ε → S i → Prop} {π : ∀ i, σ → S i} {C : Label ι χ κ → Pool I ε α ι σ → Prop}
  {J : σ → Prop} {K : ι → σ → Prop}

/-- Nothing is owed for what always holds. -/
theorem preserves_true {A : σ → Prop} : W.Preserves T π C A fun _ => True where
  env _ _ _ _ _ _ _ := trivial
  launch _ _ _ _ _ _ _ _ _ := trivial
  act _ _ _ _ _ _ := trivial
  issue _ _ _ _ _ _ := trivial
  answer _ _ _ _ _ _ _ _ _ _ _ _ _ := trivial
  crash _ _ _ _ := trivial

/-- An invariant kept on its own is kept under every condition. -/
theorem Preserves.under {A : σ → Prop} (h : W.Preserves T π (fun _ _ => True) A J) :
    W.Preserves T π C A J where
  env x P w' _ := h.env x P w' trivial
  launch k i P p w' _ := h.launch k i P p w' trivial
  act := h.act
  issue := h.issue
  answer i x c k P f w' _ := h.answer i x c k P f w' trivial
  crash P _ := h.crash P trivial

/-- What is kept with the help of a weaker invariant is kept with the help of
a stronger one. -/
theorem Preserves.assuming {A A' : σ → Prop} (hA : ∀ w, A' w → A w)
    (h : W.Preserves T π C A J) : W.Preserves T π C A' J where
  env x P w' hC hA' := h.env x P w' hC (hA _ hA')
  launch k i P p w' hC hA' := h.launch k i P p w' hC (hA _ hA')
  act i l w hl hA' := h.act i l w hl (hA w hA')
  issue i c w hc hA' := h.issue i c w hc (hA w hA')
  answer i x c k P f w' hC ht hl hA' := h.answer i x c k P f w' hC ht hl (hA _ hA')
  crash P hC hA' := h.crash P hC (hA _ hA')

/-- Two invariants that need the same are kept together. -/
theorem Preserves.conj {A B J : σ → Prop} (hB : W.Preserves T π C A B)
    (hJ : W.Preserves T π C A J) : W.Preserves T π C A fun w => B w ∧ J w where
  env x P w' hC hA h hw := ⟨hB.env x P w' hC hA h.1 hw, hJ.env x P w' hC hA h.2 hw⟩
  launch k i P p w' hC hA h hw :=
    ⟨hB.launch k i P p w' hC hA h.1 hw, hJ.launch k i P p w' hC hA h.2 hw⟩
  act i l w hl hA h := ⟨hB.act i l w hl hA h.1, hJ.act i l w hl hA h.2⟩
  issue i c w hc hA h := ⟨hB.issue i c w hc hA h.1, hJ.issue i c w hc hA h.2⟩
  answer i x c k P f w' hC ht hl hA h hw :=
    ⟨hB.answer i x c k P f w' hC ht hl hA h.1 hw, hJ.answer i x c k P f w' hC ht hl hA h.2 hw⟩
  crash P hC hA h := ⟨hB.crash P hC hA h.1, hJ.crash P hC hA h.2⟩

/-- What is to be kept may be assumed. -/
theorem Preserves.whole {A : σ → Prop} (h : W.Preserves T π C (fun w => A w ∧ J w) J) :
    W.Preserves T π C A J where
  env x P w' hC hA hJ := h.env x P w' hC ⟨hA, hJ⟩ hJ
  launch k i P p w' hC hA hJ := h.launch k i P p w' hC ⟨hA, hJ⟩ hJ
  act i l w hl hA hJ := h.act i l w hl ⟨hA, hJ⟩ hJ
  issue i c w hc hA hJ := h.issue i c w hc ⟨hA, hJ⟩ hJ
  answer i x c k P f w' hC ht hl hA hJ := h.answer i x c k P f w' hC ht hl ⟨hA, hJ⟩ hJ
  crash P hC hA hJ := h.crash P hC ⟨hA, hJ⟩ hJ

/-- What is kept with the help of a known invariant is kept with it. -/
theorem Preserves.and {A B J : σ → Prop} (hB : W.Preserves T π C A B)
    (hJ : W.Preserves T π C (fun w => A w ∧ B w) J) :
    W.Preserves T π C A fun w => B w ∧ J w :=
  ((hB.assuming fun _ h => h.1).conj (hJ.assuming fun _ h => ⟨h.1, h.2.1⟩)).whole

/-- An invariant that no operation breaks is an invariant of the pool. -/
theorem Preserves.keeps (h : W.Preserves T π C (fun _ => True) J) :
    W.Keeps T π C J fun _ => J where
  env x P w' hC hJ := h.env x P w' hC trivial hJ
  launch k i P p w' hC _ hJ := h.launch k i P p w' hC trivial hJ
  resume _ _ _ _ _ _ _ _ hJ := hJ
  act i l w hl hJ := h.act i l w hl trivial hJ
  issue i c w hc hJ := h.issue i c w hc trivial hJ
  close _ _ hJ := hJ
  answer i x c k P f w' hC ht hl hJ := h.answer i x c k P f w' hC ht hl trivial hJ
  crash P hC hJ := h.crash P hC trivial hJ

/-- Running on to the next await keeps to the protocol, leaves the other places
alone and keeps whatever the single operations keep. -/
theorem Tracks.settle (tracks : W.Tracks T Q E π) (i : ι)
    (act : ∀ l w, (T i).allow (π i w) (.sync l) → J w → J (W.act i l w).2)
    (issue : ∀ c w, (T i).allow (π i w) (.fire c) → J w → J (W.issue i c w)) (p : Prog I ε α) :
    ∀ w, p.Follows (T i) (Q i) (E i) (π i w) → J w →
      (W.settle i p w).1.Follows (T i) (Q i) (E i) (π i (W.settle i p w).2) ∧
        (∀ j, j ≠ i → π j (W.settle i p w).2 = π j w) ∧ J (W.settle i p w).2 := by
  induction p with
  | done a => intro w h hJ; exact ⟨h, fun _ _ => rfl, hJ⟩
  | throw e => intro w h hJ; exact ⟨h, fun _ _ => rfl, hJ⟩
  | stop => intro w h hJ; exact ⟨h, fun _ _ => rfl, hJ⟩
  | await c k _ => intro w h hJ; exact ⟨h, fun _ _ => rfl, hJ⟩
  | sync l k ih =>
      intro w h hJ
      have hnext := h.2 (W.act i l w).1
      rw [← tracks.act] at hnext
      obtain ⟨hfollows, hother, hJ'⟩ := ih _ _ hnext (act l w h.1 hJ)
      exact ⟨hfollows, fun j hj => (hother j hj).trans (tracks.act_other i j l w hj), hJ'⟩
  | fire c p ih =>
      intro w h hJ
      have hnext := h.2
      -- the place itself moves with its protocol, the others do not
      rw [← tracks.issue] at hnext
      obtain ⟨hfollows, hother, hJ'⟩ := ih _ hnext (issue c w h.1 hJ)
      exact ⟨hfollows, fun j hj => (hother j hj).trans (tracks.issue_other i j c w hj), hJ'⟩

/-- What is left after running on is at rest. -/
theorem settle_atRest (i : ι) (p : Prog I ε α) : ∀ w, (W.settle i p w).1.AtRest := by
  induction p with
  | done a => intro w; trivial
  | throw e => intro w; trivial
  | stop => intro w; trivial
  | await c k _ => intro w; trivial
  | sync l k ih => intro w; exact ih _ _
  | fire c p ih => intro w; exact ih _

variable [DecidableEq ι]

/-- A pool stays in line with its protocols when one place moves. -/
theorem following_update {P : Pool I ε α ι σ} (h : P.Following T Q E π) {i : ι} {p : Prog I ε α}
    {w : σ} (hp : p.Follows (T i) (Q i) (E i) (π i w))
    (hrest : p.AtRest ∨ ∃ s c f, (T i).allow s (.await c) ∧ π i w = (T i).next s (.await c f))
    (hother : ∀ j, j ≠ i → π j w = π j P.world) :
    Pool.Following T Q E π { world := w, task := Function.update P.task i (some p) } := by
  refine ⟨fun j q hq => ?_, fun j q hq => ?_⟩
  · by_cases hj : j = i
    · subst hj
      simp only [Function.update_self, Option.some.injEq] at hq
      exact hq ▸ hp
    · simp only [Function.update_of_ne hj] at hq
      rw [hother j hj]
      exact h.follows j q hq
  · by_cases hj : j = i
    · subst hj
      simp only [Function.update_self, Option.some.injEq] at hq
      exact hq ▸ hrest
    · simp only [Function.update_of_ne hj] at hq
      rw [hother j hj]
      exact h.answered j q hq

/-- **A step keeps programs in line and invariants true.** -/
theorem Tracks.step_keeps (tracks : W.Tracks T Q E π) (keeps : W.Keeps T π C J K)
    {l : Label ι χ κ} {P P' : Pool I ε α ι σ} (hC : C l P) (hP : P.Following T Q E π)
    (hJ : J P.world) (hstep : W.step l P = some P') :
    P'.Following T Q E π ∧ J P'.world := by
  cases l with
  | env x =>
      simp only [step, Option.map_eq_some_iff] at hstep
      obtain ⟨w', hw', rfl⟩ := hstep
      -- no program moves, and the recorded states are as they were
      refine ⟨⟨fun i p hp => ?_, fun i p hp => ?_⟩, keeps.env x P w' hC hJ hw'⟩
      · rw [tracks.env i x P.world w' hw']
        exact hP.follows i p hp
      · rw [tracks.env i x P.world w' hw']
        exact hP.answered i p hp
  | start k i =>
      simp only [step] at hstep
      split at hstep
      · next hended =>
        simp only [Option.map_eq_some_iff] at hstep
        obtain ⟨⟨p, w'⟩, hlaunch, rfl⟩ := hstep
        obtain ⟨hfollows, hother, hJ'⟩ := tracks.settle i (keeps.act i) (keeps.issue i) p w'
          (tracks.launch k i _ p w' hlaunch) (keeps.launch k i P p w' hC hended hJ hlaunch)
        refine ⟨following_update hP hfollows (.inl (settle_atRest i p w')) fun j hj => ?_,
          keeps.close i _ hJ'⟩
        exact (hother j hj).trans (tracks.launch_other k i j _ p w' hj hlaunch)
      · cases hstep
  | reply i x =>
      simp only [step] at hstep
      split at hstep
      · next c k htask =>
        simp only [Option.map_eq_some_iff] at hstep
        obtain ⟨⟨f, w'⟩, hanswer, rfl⟩ := hstep
        have hfollows := hP.follows i _ htask
        refine ⟨following_update hP ?_ (.inr ?_) fun j hj => ?_, ?_⟩
        · rw [tracks.answer i c x _ f w' hanswer]
          exact hfollows.2 f
        · exact ⟨_, c, f, hfollows.1, tracks.answer i c x _ f w' hanswer⟩
        · exact tracks.answer_other i j c x _ f w' hj hanswer
        · exact keeps.answer i x c k P f w' hC htask hfollows.1 hJ hanswer
      · cases hstep
  | resume i =>
      simp only [step] at hstep
      split at hstep
      all_goals first
        | (next htask =>
            obtain rfl := Option.some.inj hstep
            -- the place was answered, so its state is what the answer led to
            obtain ⟨s, c, f, hallow, hs⟩ := (hP.answered i _ htask).resolve_left id
            obtain ⟨hfollows, hother, hJ'⟩ := tracks.settle i (keeps.act i) (keeps.issue i) _ _
              (hP.follows i _ htask) (keeps.resume i P s c f hC hallow hs hJ)
            exact ⟨following_update hP hfollows (.inl (settle_atRest i _ _)) hother,
              keeps.close i _ hJ'⟩)
        | cases hstep
  | crash =>
      obtain rfl := Option.some.inj hstep
      exact ⟨Pool.following_empty _, keeps.crash P hC hJ⟩

/-- **Invariance along runs.** -/
theorem Tracks.run_keeps (tracks : W.Tracks T Q E π) (keeps : W.Keeps T π C J K)
    {ls : List (Label ι χ κ)} {P P' : Pool I ε α ι σ} (hC : W.Along C ls P)
    (hP : P.Following T Q E π) (hJ : J P.world) (hrun : W.run ls P = some P') :
    P'.Following T Q E π ∧ J P'.world :=
  W.run_invariant (fun _ _ _ hC h hstep => tracks.step_keeps keeps hC h.1 h.2 hstep) hC ⟨hP, hJ⟩
    hrun

end World

end Tracking

end Async
