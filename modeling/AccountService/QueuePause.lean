import AccountService.Async.Pool
import AccountService.PublisherCourse

/-!
# The paused queue

The capacity checks of one worker over its whole life: at start-up, before each
job and from the capacity timer, any number at a time and interleaved at their
awaits, with the shutdown hook and the death of the process between any two
steps.  The pause flag of the queue outlives the process; the scheduler
registry, with the timer, does not, and it keeps the entry of a timer that has
fired.

A check that ends early leaves the queue as it finds it.  So the queue is never
left paused without a timer exactly as long as a check ends early only where
somebody else still sees to the queue.
-/

namespace AccountService

open Async

/-! ## The worker and its queue -/

/-- The life of the worker process. -/
inductive Lifecycle where
  | down
  | up
  | closing
  deriving DecidableEq

/-- Why a method of the publisher is run. -/
inductive Entry where
  | bootstrap
  | job (job : Job)
  /-- The timer in the registry fires. -/
  | timeout
  /-- A timer fires that was started but could not be registered. -/
  | strayTimeout
  | shutdown

/-- The worker: its life, the pause flag of the queue, the registry's entry for
the timer (`true` until the timer fires), the timers that run without an entry,
and how far the methods have come that were run, in the order of their start. -/
structure QueueWorld where
  life : Lifecycle
  paused : Bool
  timer : Option Bool
  strayTimers : ℕ
  phases : List PublisherPhase

namespace QueueWorld

/-- How far method `i` has come. -/
def phase (w : QueueWorld) (i : ℕ) : PublisherPhase := (w.phases[i]?).getD .absent

/-- Method `i` has done something. -/
def observe (configService : ConfigService) (w : QueueWorld) (i : ℕ) (o : Obs Worker Err) :
    QueueWorld :=
  { w with phases := w.phases.modify i fun s => s.next configService o }

/-- A method starts. -/
def enter (w : QueueWorld) (s : PublisherPhase) : QueueWorld :=
  { w with phases := w.phases ++ [s] }

/-- The result of an operation on the scheduler registry. -/
def result (w : QueueWorld) : (m : Memory) → m.Result
  | .doesExist => w.timer.isSome
  | .deleteTimeout =>
      if w.timer.isSome then .ok () else .error (.error "No Timeout was found")
  | .addTimeout _ =>
      if w.timer.isSome then .error (.error "Timeout already exists") else .ok ()
  | m => m.blank

/-- The effect of an operation on the scheduler registry.  The timer that
`addTimeout` is handed has been started before. -/
def act (w : QueueWorld) : Memory → QueueWorld
  | .deleteTimeout => { w with timer := none }
  | .addTimeout _ =>
      if w.timer.isSome then { w with strayTimers := w.strayTimers + 1 }
      else { w with timer := some true }
  | _ => w

/-- The worker before its first start. -/
def init : QueueWorld := ⟨.down, false, none, 0, []⟩

end QueueWorld

/-- The pause flag after a call has settled. -/
def pausedAfter : (c : Call) → Fate Err c.Reply → Bool → Bool
  | .pause, f, paused => paused || f.effect.isSome
  | .resume, f, paused => paused && f.effect.isNone
  | _, _, paused => paused

/-- The methods of the publisher at places of their own.  A call settles in any
way, and the process may die at any time; a job may have been handed out before
the queue was paused. -/
def publishers (configService : ConfigService) :
    World Worker Err Unit ℕ QueueWorld ((c : Call) → Fate Err c.Reply) Entry where
  act i m w := (w.result m, (w.act m).observe configService i (.sync m (w.result m)))
  issue i c w := w.observe configService i (.fire c)
  answer i c fate w :=
    some (fate c,
      { w with paused := pausedAfter c (fate c) w.paused }.observe configService i
        (.await c (fate c)))
  env _ _ := none
  launch entry i w :=
    if i = w.phases.length then
      match entry with
      | .bootstrap =>
          if w.life = .down then
            some (TransactionPublisherService.onApplicationBootstrap configService,
              { w with life := .up }.enter .checking)
          else none
      | .job job =>
          if w.life = .down then none else some (process configService job, w.enter .checking)
      | .timeout =>
          if w.timer = some true then
            some (TransactionPublisherService.onCapacityTimeout configService,
              { w with timer := some false }.enter .checking)
          else none
      | .strayTimeout =>
          if 0 < w.strayTimers then
            some (TransactionPublisherService.onCapacityTimeout configService,
              { w with strayTimers := w.strayTimers - 1 }.enter .checking)
          else none
      | .shutdown =>
          if w.life = .up then
            some (TransactionPublisherService.onApplicationShutdown,
              { w with life := .closing }.enter .closing)
          else none
    else none
  crash w := { QueueWorld.init with paused := w.paused }

/-- A pool of methods of the publisher. -/
abbrev PublisherPool := Pool Worker Err Unit ℕ QueueWorld

/-- The worker before its first start. -/
def PublisherPool.init : PublisherPool := ⟨.init, fun _ => none⟩

/-! ## Checks that end early -/

/-- The reply ends a capacity check that has neither set the timer nor resumed
the queue. -/
def EndsEarly (configService : ConfigService) (s : PublisherPhase) (c : Call)
    (f : Fate Err c.Reply) : Prop :=
  s.inProgress = true ∧ (s.next configService (.await c f)).inProgress = false ∧
    ¬(c = .resume ∧ f.effect.isSome)

/-- Somebody sees to the queue besides method `i`: the timer is still to fire,
or another check is in progress. -/
def SeenTo (w : QueueWorld) (i : ℕ) : Prop :=
  w.timer = some true ∨ ∃ j < w.phases.length, j ≠ i ∧ (w.phase j).inProgress = true

/-- A check ends early only where it leaves the queue running, or somebody else
sees to it, or the worker is being shut down. -/
def FailsSafely (configService : ConfigService) :
    Label ℕ ((c : Call) → Fate Err c.Reply) Entry → PublisherPool → Prop
  | .reply i fate, P =>
      ∀ c ∈ (P.task i).bind Prog.awaited, P.world.life = .up →
        EndsEarly configService (P.world.phase i) c (fate c) →
          pausedAfter c (fate c) P.world.paused = false ∨ SeenTo P.world i
  | _, _ => True

/-- The call resumes the queue. -/
def Call.isResume : Call → Bool
  | .resume => true
  | _ => false

theorem Call.isResume_iff {c : Call} : c.isResume = true ↔ c = .resume := by
  cases c <;> simp [Call.isResume]

instance {configService : ConfigService} {s : PublisherPhase} {c : Call}
    {f : Fate Err c.Reply} : Decidable (EndsEarly configService s c f) :=
  have : Decidable (c = .resume) := decidable_of_iff _ Call.isResume_iff
  inferInstanceAs (Decidable (_ ∧ _ ∧ ¬(_ ∧ _)))

instance {w : QueueWorld} {i : ℕ} : Decidable (SeenTo w i) :=
  inferInstanceAs (Decidable (_ ∨ ∃ j < w.phases.length, _ ∧ _))

instance {configService : ConfigService} :
    ∀ l P, Decidable (FailsSafely configService l P)
  | .reply i fate, P =>
      inferInstanceAs (Decidable (∀ c ∈ (P.task i).bind Prog.awaited, P.world.life = .up →
        EndsEarly configService (P.world.phase i) c (fate c) →
          pausedAfter c (fate c) P.world.paused = false ∨ SeenTo P.world i))
  | .env _, _ => .isTrue trivial
  | .start _ _, _ => .isTrue trivial
  | .resume _, _ => .isTrue trivial
  | .crash, _ => .isTrue trivial

/-! ## The pool keeps to the course -/

section Phases

variable {configService : ConfigService} {w : QueueWorld} {i j : ℕ} {o : Obs Worker Err}
  {s : PublisherPhase}

@[simp] theorem PublisherPhase.next_absent :
    PublisherPhase.absent.next configService o = .absent := by
  cases o with
  | sync m r => cases m <;> rfl
  | fire c => cases c <;> rfl
  | await c f => rfl

@[simp] theorem QueueWorld.phase_observe_self :
    (w.observe configService i o).phase i = (w.phase i).next configService o := by
  unfold QueueWorld.phase QueueWorld.observe
  rw [List.getElem?_modify]
  cases w.phases[i]? <;> simp

theorem QueueWorld.phase_observe_of_ne (h : j ≠ i) :
    (w.observe configService i o).phase j = w.phase j := by
  unfold QueueWorld.phase QueueWorld.observe
  rw [List.getElem?_modify]
  cases w.phases[j]? <;> simp [Ne.symm h]

@[simp] theorem QueueWorld.phase_enter_self :
    (w.enter s).phase w.phases.length = s := by
  simp [QueueWorld.phase, QueueWorld.enter]

theorem QueueWorld.phase_enter_of_ne (h : j ≠ w.phases.length) :
    (w.enter s).phase j = w.phase j := by
  unfold QueueWorld.phase QueueWorld.enter
  rw [List.getElem?_append]
  split
  · rfl
  · rw [List.getElem?_eq_none (l := w.phases) (by omega),
      List.getElem?_eq_none (by simp; omega)]

@[simp] theorem QueueWorld.phase_act (m : Memory) : (w.act m).phase i = w.phase i := by
  unfold QueueWorld.phase
  cases m with
  | addTimeout delay =>
      simp only [QueueWorld.act]
      split <;> rfl
  | _ => rfl

end Phases

/-- What the start of a method can do. -/
private theorem launch_cases {configService : ConfigService} {entry : Entry} {i : ℕ}
    {w w' : QueueWorld} {p : Svc Unit}
    (h : (publishers configService).launch entry i w = some (p, w')) :
    i = w.phases.length ∧ ∃ (w₀ : QueueWorld) (s : PublisherPhase), w' = w₀.enter s ∧ w₀.phases = w.phases ∧
      p.Follows (publisherCourse configService) (fun _ _ => True) (fun _ _ => True) s ∧
        ((s = .checking ∧ w.life = .down ∧ w₀.life = .up) ∨
          (s = .checking ∧ (w.life = .down → w.timer = some true ∨ 0 < w.strayTimers) ∧
            w₀.life = w.life) ∨
          (s = .closing ∧ w.life = .up ∧ w₀.life = .closing)) := by
  simp only [publishers, Option.ite_none_right_eq_some] at h
  obtain ⟨hi, h⟩ := h
  refine ⟨hi, ?_⟩
  cases entry <;> simp only [Option.ite_none_right_eq_some, Option.ite_none_left_eq_some,
    Option.some.injEq, Prod.mk.injEq] at h <;> obtain ⟨hguard, rfl, rfl⟩ := h
  · exact ⟨_, _, rfl, rfl, onApplicationBootstrap_follows, .inl ⟨rfl, hguard, rfl⟩⟩
  · exact ⟨_, _, rfl, rfl, process_follows _, .inr (.inl ⟨rfl, fun hd => absurd hd hguard, rfl⟩)⟩
  · exact ⟨_, _, rfl, rfl, onCapacityTimeout_follows, .inr (.inl ⟨rfl, fun _ => .inl hguard, rfl⟩)⟩
  · exact ⟨_, _, rfl, rfl, onCapacityTimeout_follows, .inr (.inl ⟨rfl, fun _ => .inr hguard, rfl⟩)⟩
  · exact ⟨_, _, rfl, rfl, onApplicationShutdown_follows, .inr (.inr ⟨rfl, hguard, rfl⟩)⟩

private theorem publishers_tracks (configService : ConfigService) :
    (publishers configService).Tracks (fun _ => publisherCourse configService)
      (fun _ _ _ => True) (fun _ _ _ => True) fun i w => w.phase i where
  act i m w := by simp [publishers]
  act_other i j m w hj := by simp [publishers, QueueWorld.phase_observe_of_ne hj]
  issue i c w := by simp [publishers]
  issue_other i j c w hj := by simp [publishers, QueueWorld.phase_observe_of_ne hj]
  answer i c x w f w' h := by
    obtain ⟨rfl, rfl⟩ := Prod.mk.inj (Option.some.inj h)
    rw [QueueWorld.phase_observe_self]
    rfl
  answer_other i j c x w f w' hj h := by
    obtain ⟨rfl, rfl⟩ := Prod.mk.inj (Option.some.inj h)
    rw [QueueWorld.phase_observe_of_ne hj]
    rfl
  env i x w w' h := by simp [publishers] at h
  launch entry i w p w' h := by
    obtain ⟨rfl, w₀, s, rfl, hphases, hfollows, -⟩ := launch_cases h
    rw [← hphases, QueueWorld.phase_enter_self]
    exact hfollows
  launch_other entry i j w p w' hj h := by
    obtain ⟨rfl, w₀, s, rfl, hphases, -, -⟩ := launch_cases h
    rw [QueueWorld.phase_enter_of_ne (by rwa [hphases])]
    unfold QueueWorld.phase
    rw [hphases]

/-! ## Somebody always sees to the queue -/

/-- A check is in progress. -/
def Checking (w : QueueWorld) : Prop :=
  ∃ j < w.phases.length, (w.phase j).inProgress = true

/-- What is true between any two steps. -/
structure Attended (w : QueueWorld) : Prop where
  down : w.life = .down → w.phases = [] ∧ w.timer ≠ some true ∧ w.strayTimers = 0
  closing : ∀ i, w.phase i = .closing → w.life = .closing
  covered : w.life = .up → w.paused = true → w.timer = some true ∨ Checking w

/-- What is true while method `i` runs: what it has seen of the registry still
stands. -/
structure AttendedBy (i : ℕ) (w : QueueWorld) : Prop extends Attended w where
  clearing : w.phase i = .clearing → w.timer.isSome
  scheduling : w.phase i = .scheduling → w.timer = none

section Steps

variable {configService : ConfigService} {w w₁ : QueueWorld} {i : ℕ} {s : PublisherPhase}

/-- The operations on the registry and where they are made. -/
private theorem allow_sync {m : Memory} (h : s.allow (.sync m)) :
    (s = .paused ∧ m = .doesExist) ∨ (s = .clearing ∧ m = .deleteTimeout) ∨
      (s = .scheduling ∧ ∃ delay, m = .addTimeout delay) ∨
        (m = .deleteTimeout ∧ ∃ gate, s = .available gate) ∨
          (s = .closing ∧ m = .deleteTimeout) := by
  cases s <;> cases m <;> simp [PublisherPhase.allow] at h ⊢

/-- A call that is issued leaves a check where it is. -/
private theorem next_fire (configService : ConfigService) {c : Call} (h : s.allow (.fire c)) :
    s.next configService (.fire c) = s ∨ s.next configService (.fire c) = .finished ∧
      s.inProgress = false := by
  cases s <;> cases c <;> simp [PublisherPhase.allow, PublisherPhase.next,
    PublisherPhase.inProgress] at h ⊢

/-- The phases a method runs through without an await, and the shutdown hook. -/
private def Unawaited (s : PublisherPhase) : Prop :=
  s = .clearing ∨ s = .scheduling ∨ s = .closing

private theorem not_unawaited_decide (details : CapacityDetails) (epoch used : ℕ) :
    ¬Unawaited (PublisherPhase.decide configService details epoch used) := by
  unfold PublisherPhase.decide
  split
  · simp [Unawaited]
  · split <;> simp [Unawaited]

/-- No reply leads into these phases. -/
private theorem not_unawaited (configService : ConfigService) {c : Call} {f : Fate Err c.Reply}
    (h : s.allow (.await c)) :
    ¬Unawaited (s.next configService (.await c f)) := by
  simp only [PublisherPhase.next]
  cases s with
  | reading details epoch =>
      cases f.seen with
      | error e => simp [PublisherPhase.answered, Unawaited]
      | ok reply =>
          cases c with
          -- the last read decides, and a decision is awaited
          | getEpochCapacity e => exact not_unawaited_decide details epoch _
          | _ => simp [PublisherPhase.answered, PublisherPhase.read, Unawaited]
  | passed gate publishing =>
      cases f.seen with
      | error e => simp [PublisherPhase.answered, Unawaited]
      | ok reply => cases c <;> simp [PublisherPhase.answered, PublisherPhase.built, Unawaited]
  | exhausted => cases f.seen <;> simp [PublisherPhase.answered, Unawaited]
  | available gate => cases f.seen <;> simp [PublisherPhase.answered, Unawaited]
  | resuming gate => simp [PublisherPhase.answered, Unawaited]
  | _ => exact h.elim

/-- Only a check pauses or resumes the queue. -/
private theorem pausedAfter_of_idle {c : Call} {f : Fate Err c.Reply} {paused : Bool}
    (h : s.allow (.await c)) (hidle : s.inProgress = false) : pausedAfter c f paused = paused := by
  cases c with
  | pause => cases s <;> first | exact h.elim | cases hidle
  | resume => cases s <;> first | exact h.elim | cases hidle
  | _ => rfl

/-- Whoever may do something has been started. -/
private theorem Attended.ne_down {act : Act Worker} (h : Attended w) (hallow : (w.phase i).allow act) :
    w.life ≠ .down := by
  intro hdown
  have habsent : w.phase i = .absent := by simp [QueueWorld.phase, (h.down hdown).1]
  rw [habsent] at hallow
  cases act <;> exact hallow

/-- A step of method `i` keeps the queue seen to, if there is still somebody
who sees to it. -/
private theorem Attended.move {o : Obs Worker Err} (h : Attended w) (hup : w.life ≠ .down)
    (hlife : w₁.life = w.life) (hphases : w₁.phases = w.phases)
    (hclosing : (w.phase i).next configService o = .closing → w.phase i = .closing)
    (hcovered : w.life = .up → w₁.paused = true →
      w₁.timer = some true ∨ ((w.phase i).next configService o).inProgress = true ∨
        ∃ j < w.phases.length, j ≠ i ∧ (w.phase j).inProgress = true) :
    Attended (w₁.observe configService i o) := by
  have hphase : ∀ j, w₁.phase j = w.phase j := fun j => by
    unfold QueueWorld.phase
    rw [hphases]
  have hlength : (w₁.observe configService i o).phases.length = w.phases.length := by
    simp [QueueWorld.observe, hphases]
  refine ⟨fun hd => absurd (hlife ▸ hd) hup, fun j hj => ?_, fun hl hp => ?_⟩
  · refine hlife.trans ?_
    by_cases hji : j = i
    · subst hji
      rw [QueueWorld.phase_observe_self, hphase] at hj
      exact h.closing j (hclosing hj)
    · rw [QueueWorld.phase_observe_of_ne hji, hphase] at hj
      exact h.closing j hj
  · rcases hcovered (hlife ▸ hl) hp with htimer | hself | ⟨j, hj, hji, hother⟩
    · exact .inl htimer
    · refine .inr ⟨i, ?_, by rwa [QueueWorld.phase_observe_self, hphase]⟩
      rw [hlength]
      by_contra hlt
      -- a method that has not been started sees to nothing
      have habsent : w.phase i = .absent := by
        simp [QueueWorld.phase, List.getElem?_eq_none (not_lt.mp hlt)]
      rw [habsent, PublisherPhase.next_absent] at hself
      cases hself
    · refine .inr ⟨j, by rwa [hlength], ?_⟩
      rwa [QueueWorld.phase_observe_of_ne hji, hphase]

/-- Who sees to the queue, with method `i` set apart. -/
private theorem Attended.covered_by (h : Attended w) (hl : w.life = .up) (hp : w.paused = true)
    (i : ℕ) : w.timer = some true ∨ (w.phase i).inProgress = true ∨
      ∃ j < w.phases.length, j ≠ i ∧ (w.phase j).inProgress = true := by
  rcases h.covered hl hp with htimer | ⟨j, hj, hin⟩
  · exact .inl htimer
  · by_cases hji : j = i
    · exact .inr (.inl (hji ▸ hin))
    · exact .inr (.inr ⟨j, hj, hji, hin⟩)

/-- A method that starts keeps the queue seen to. -/
private theorem Attended.enter {w₀ : QueueWorld} (h : Attended w) (hphases : w₀.phases = w.phases)
    (hs : s = .checking ∨ s = .closing) (hdown : w₀.life ≠ .down)
    (hclosing : w.life = .closing → w₀.life = .closing) (hshut : s = .closing → w₀.life = .closing)
    (hup : w₀.life = .up → s = .checking) :
    AttendedBy w₀.phases.length (w₀.enter s) := by
  have hself : (w₀.enter s).phase w₀.phases.length = s := QueueWorld.phase_enter_self
  refine ⟨⟨fun hd => absurd hd hdown, fun j hj => ?_, fun hl _ => .inr ?_⟩, ?_, ?_⟩
  · by_cases hji : j = w₀.phases.length
    · rw [hji, hself] at hj
      exact hshut hj
    · rw [QueueWorld.phase_enter_of_ne hji] at hj
      refine hclosing (h.closing j ?_)
      unfold QueueWorld.phase at hj ⊢
      rwa [← hphases]
  · -- while the service is up the method that starts is a check
    refine ⟨w₀.phases.length, by simp [QueueWorld.enter], ?_⟩
    rw [hself, hup hl]
    rfl
  · rw [hself]
    rcases hs with rfl | rfl <;> simp [PublisherPhase.checking]
  · rw [hself]
    rcases hs with rfl | rfl <;> simp [PublisherPhase.checking]

end Steps

private theorem publishers_keeps (configService : ConfigService) :
    (publishers configService).Keeps (fun _ => publisherCourse configService)
      (fun i w => w.phase i) (FailsSafely configService) Attended AttendedBy where
  env x P w' _ _ h := by simp [publishers] at h
  launch entry i P p w' _ _ hJ h := by
    obtain ⟨rfl, w₀, s, rfl, hphases, -, hstart⟩ := launch_cases h
    have hup : P.world.timer = some true ∨ 0 < P.world.strayTimers → P.world.life ≠ .down := by
      intro htimer hdown
      obtain ⟨-, hnone, hstray⟩ := hJ.down hdown
      exact htimer.elim hnone (by omega)
    rw [← hphases]
    rcases hstart with ⟨rfl, hdown, hlife⟩ | ⟨rfl, htimer, hlife⟩ | ⟨rfl, -, hlife⟩
    · refine hJ.enter hphases (.inl rfl) ?_ ?_ ?_ ?_ <;>
        simp [hlife, hdown, PublisherPhase.checking]
    · have hne : P.world.life ≠ .down := fun hd => hup (htimer hd) hd
      refine hJ.enter hphases (.inl rfl) ?_ ?_ ?_ ?_ <;>
        simp [hlife, hne, PublisherPhase.checking]
    · refine hJ.enter hphases (.inr rfl) ?_ ?_ ?_ ?_ <;> simp [hlife]
  resume i P s c f _ hallow hs hJ := by
    have hnot := not_unawaited configService (f := f) hallow
    rw [publisherCourse_next] at hs
    rw [← hs] at hnot
    exact ⟨hJ, fun h => absurd (.inl h) hnot, fun h => absurd (.inr (.inl h)) hnot⟩
  act i m w hallow hK := by
    have hup := hK.ne_down hallow
    have hphase : ∀ m r, (((w.act m).observe configService i (.sync m r)).phase i) =
        (w.phase i).next configService (.sync m r) := by simp
    rcases allow_sync hallow with
      ⟨hs, rfl⟩ | ⟨hs, rfl⟩ | ⟨hs, delay, rfl⟩ | ⟨rfl, gate, hs⟩ | ⟨hs, rfl⟩
    · -- `doesExist`
      simp only [publishers]
      refine ⟨hK.move hup rfl rfl ?_ fun hl hp => .inr (.inl ?_), ?_, ?_⟩
      · rw [hs]
        cases h : w.result .doesExist <;> simp [PublisherPhase.next]
      · rw [hs]
        cases h : w.result .doesExist <;> rfl
      · rw [hphase, hs]
        cases h : w.timer <;>
          simp [QueueWorld.result, PublisherPhase.next, QueueWorld.observe, QueueWorld.act, h]
      · rw [hphase, hs]
        cases h : w.timer <;>
          simp [QueueWorld.result, PublisherPhase.next, QueueWorld.observe, QueueWorld.act, h]
    · -- `deleteTimeout`, of a timer that is there
      have hsome := hK.clearing hs
      have hresult : w.result .deleteTimeout = .ok () := if_pos hsome
      simp only [publishers, hresult]
      refine ⟨hK.move hup rfl rfl ?_ fun hl hp => .inr (.inl ?_), ?_, ?_⟩
      · simp [hs, PublisherPhase.next]
      · rw [hs]
        rfl
      · simp [hphase, hs, PublisherPhase.next]
      · exact fun _ => rfl
    · -- `addTimeout`, where there is none
      have hnone := hK.scheduling hs
      have hact : w.act (.addTimeout delay) = { w with timer := some true } := by
        simp [QueueWorld.act, hnone]
      simp only [publishers]
      refine ⟨hK.move hup (by rw [hact]) (by rw [hact]) ?_ fun hl hp => .inl (by rw [hact]), ?_, ?_⟩
      · simp [hs, PublisherPhase.next]
      · simp [hphase, hs, PublisherPhase.next]
      · simp [hphase, hs, PublisherPhase.next]
    · -- `deleteTimeout`, before the queue is resumed
      simp only [publishers]
      refine ⟨hK.move hup rfl rfl ?_ fun hl hp => .inr (.inl ?_), ?_, ?_⟩
      · simp [hs, PublisherPhase.next]
      · rw [hs]
        rfl
      · simp [hphase, hs, PublisherPhase.next]
      · exact fun _ => rfl
    · -- `deleteTimeout` of the shutdown hook
      have hlife := hK.closing i hs
      simp only [publishers]
      refine ⟨hK.move hup rfl rfl (fun _ => hs) fun hl _ => ?_, ?_, ?_⟩
      · rw [hlife] at hl
        cases hl
      · simp [hphase, hs, PublisherPhase.next]
      · exact fun _ => rfl
  issue i c w hallow hK := by
    have hup := hK.ne_down hallow
    simp only [publishers]
    rcases next_fire configService hallow with hnext | ⟨hnext, hidle⟩
    · refine ⟨hK.move hup rfl rfl (fun h => hnext ▸ h) fun hl hp => ?_, ?_, ?_⟩
      · rw [hnext]
        exact hK.covered_by hl hp i
      · rw [QueueWorld.phase_observe_self, hnext]
        exact hK.clearing
      · rw [QueueWorld.phase_observe_self, hnext]
        exact hK.scheduling
    · refine ⟨hK.move hup rfl rfl (by simp [hnext]) fun hl hp => ?_, ?_, ?_⟩
      · exact (hK.covered_by hl hp i).imp_right fun h => .inr (h.resolve_left (by simp [hidle]))
      · simp [hnext]
      · simp [hnext]
  close i w hK := hK.toAttended
  answer i fate c k P f w' hC htask hallow hJ h := by
    obtain ⟨rfl, rfl⟩ := Prod.mk.inj (Option.some.inj h)
    refine hJ.move (hJ.ne_down hallow) rfl rfl (fun hclosing => ?_) fun hl hp => ?_
    · exact absurd (.inr (.inr hclosing)) (not_unawaited configService hallow)
    · by_cases hnext : ((P.world.phase i).next configService (.await c (fate c))).inProgress = true
      · exact .inr (.inl hnext)
      rw [Bool.not_eq_true] at hnext
      cases hidle : (P.world.phase i).inProgress with
      | false =>
          rw [pausedAfter_of_idle hallow hidle] at hp
          exact (hJ.covered_by hl hp i).imp_right fun h => .inr (h.resolve_left (by simp [hidle]))
      | true =>
          have hresume : ¬(c = .resume ∧ (fate c).effect.isSome) := by
            rintro ⟨rfl, hsome⟩
            have hsome : (fate .resume).effect.isNone = false := by
              rw [← Option.not_isSome, hsome]
              rfl
            simp [pausedAfter, hsome] at hp
          rcases hC c (by rw [htask]; rfl) hl ⟨hidle, hnext, hresume⟩ with hrunning | hseen
          · exact absurd hp (by simp [hrunning])
          · exact hseen.imp_right .inr
  crash P _ _ := by
    refine ⟨fun _ => ⟨rfl, by simp [publishers, QueueWorld.init], rfl⟩, fun i hi => ?_, ?_⟩
    · cases hi
    · simp [publishers, QueueWorld.init]

/-! ## The theorem -/

instance {w : QueueWorld} : Decidable (Checking w) :=
  inferInstanceAs (Decidable (∃ j < w.phases.length, _))

private theorem attended_init : Attended .init :=
  ⟨fun _ => ⟨rfl, by simp [QueueWorld.init], rfl⟩, fun i hi => (by cases hi),
    fun h => by cases h⟩

/-- **A paused queue has its timer**: as long as checks end early only where
the queue is running or somebody else sees to it, there is, whenever the worker
is up and no check is in progress, an un-fired timer for a paused queue. -/
theorem paused_queue_has_timer (configService : ConfigService)
    (ls : List (Label ℕ ((c : Call) → Fate Err c.Reply) Entry)) (P : PublisherPool)
    (hrun : (publishers configService).run ls PublisherPool.init = some P)
    (hsafe : (publishers configService).Along (FailsSafely configService) ls PublisherPool.init)
    (hup : P.world.life = .up) (hidle : ¬Checking P.world) (hpaused : P.world.paused = true) :
    P.world.timer = some true :=
  (((publishers_tracks configService).run_keeps (publishers_keeps configService) hsafe
    (Pool.following_empty _) attended_init hrun).2.covered hup hpaused).resolve_right hidle

/-- Every call is answered, and nothing is left to spend. -/
def outOfCapacity : (c : Call) → Fate Err c.Reply
  | .capacityLedger _ => .done (some ⟨0, 0⟩)
  | _ => .done default

/-- Every call is refused. -/
def unreachable (c : Call) : Fate Err c.Reply := .refused (.error "disconnected")

/-- The check at start-up finds nothing to spend, pauses the queue and sets the
timer. -/
def bootstrapPauses : List (Label ℕ ((c : Call) → Fate Err c.Reply) Entry) :=
  [.start .bootstrap 0] ++ List.replicate 7 (.reply 0 outOfCapacity) ++ [.resume 0]

/-- A job whose check fails while the timer is still to fire. -/
def jobFails : List (Label ℕ ((c : Call) → Fate Err c.Reply) Entry) :=
  bootstrapPauses ++
    [.start (.job ⟨"1", ⟨.siwfSignin, "1", "ref"⟩⟩) 1, .reply 1 unreachable]

theorem paused_queue_has_timer_jobFails : ∃ P : PublisherPool,
    (publishers (.amountLimit 1)).run jobFails PublisherPool.init = some P ∧
      P.world.timer = some true := by
  have hstate : ((publishers (.amountLimit 1)).run jobFails PublisherPool.init).map
      (fun P => (P.world.life, decide (Checking P.world), P.world.paused)) =
        some (.up, false, true) := by decide +kernel
  obtain ⟨P, hrun, hP⟩ := Option.map_eq_some_iff.mp hstate
  simp only [Prod.mk.injEq, decide_eq_false_iff_not] at hP
  obtain ⟨hup, hidle, hpaused⟩ := hP
  exact ⟨P, hrun, paused_queue_has_timer _ _ P hrun (by decide +kernel) hup hidle hpaused⟩

/-- The check of the timer fails. -/
def timeoutFails : List (Label ℕ ((c : Call) → Fate Err c.Reply) Entry) :=
  bootstrapPauses ++ [.start .timeout 1, .reply 1 unreachable]

theorem paused_queue_without_timer :
    ¬∀ (configService : ConfigService)
        (ls : List (Label ℕ ((c : Call) → Fate Err c.Reply) Entry)) (P : PublisherPool),
      (publishers configService).run ls PublisherPool.init = some P →
        P.world.life = .up → ¬Checking P.world → P.world.paused = true →
          P.world.timer = some true := by
  intro h
  have hstate : ((publishers (.amountLimit 1)).run timeoutFails PublisherPool.init).map
      (fun P => (P.world.life, decide (Checking P.world), P.world.paused, P.world.timer)) =
        some (.up, false, true, some false) := by decide +kernel
  obtain ⟨P, hrun, hP⟩ := Option.map_eq_some_iff.mp hstate
  simp only [Prod.mk.injEq, decide_eq_false_iff_not] at hP
  obtain ⟨hup, hidle, hpaused, htimer⟩ := hP
  have htrue := h _ _ P hrun hup hidle hpaused
  rw [htimer] at htrue
  cases htrue

end AccountService
