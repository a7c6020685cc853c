import AccountService.Async.Steps
import AccountService.Publisher
import Mathlib.Data.Finset.Basic
import Mathlib.Data.Finset.Card

/-!
# The jobs a worker keeps track of

`BaseConsumer` tracks the jobs that execute by the events of its worker: an id
is added when a job becomes active and deleted when it has completed or failed.
When the module is destroyed, a loop waits in short delays for the tracked jobs
to end, for so long at most.

A job that is postponed ends in neither way.  So the tracked jobs are those that
execute exactly as long as no job is postponed; whatever happens, they are among
the tracked ones, and the wait is over when none of them executes or the maximum
has been waited.
-/

namespace AccountService

open Async

/-! ## BaseConsumer -/

namespace ProcessingUtils

def MAX_WAIT_FOR_GRACE_FULL_SHUTDOWN_MS : ℤ := 6 * 1000
def DELAY_TO_CHECK_FOR_SHUTDOWN_MS : ℤ := 300

end ProcessingUtils

open ProcessingUtils

/-- The consumer: the set of the jobs it tracks. -/
structure BaseConsumer where
  actives : Finset String
  deriving DecidableEq

namespace BaseConsumer

def trackJob (consumer : BaseConsumer) (jobId : String) : BaseConsumer :=
  { consumer with actives := insert jobId consumer.actives }

def unTrackJob (consumer : BaseConsumer) (jobId : String) : BaseConsumer :=
  { consumer with actives := consumer.actives.erase jobId }

def onActive (consumer : BaseConsumer) (jobId : String) : BaseConsumer := consumer.trackJob jobId
def onCompleted (consumer : BaseConsumer) (jobId : String) : BaseConsumer :=
  consumer.unTrackJob jobId
def onFailed (consumer : BaseConsumer) (jobId : String) : BaseConsumer := consumer.unTrackJob jobId

end BaseConsumer

/-- How far `onModuleDestroy` has come; while it waits, with its `maxWaitMs`. -/
inductive Destroying where
  | notCalled
  | closing
  | waiting (maxWaitMs : ℤ)
  | returned
  | threw (e : Err)
  deriving DecidableEq

/-- The head of the loop of `onModuleDestroy`. -/
def BaseConsumer.waitFrom (consumer : BaseConsumer) (maxWaitMs : ℤ) : Destroying :=
  if 0 < consumer.actives.card ∧ 0 < maxWaitMs then .waiting maxWaitMs else .returned

/-- `onModuleDestroy` once closing the worker has settled. -/
def BaseConsumer.afterClose (consumer : BaseConsumer) : Except Err Unit → Destroying
  | .ok _ => consumer.waitFrom MAX_WAIT_FOR_GRACE_FULL_SHUTDOWN_MS
  | .error e => .threw e

/-! ## The worker -/

/-- The events a worker emits when a processor has ended.  One that throws a
`DelayedError` has postponed its job, which has then neither completed nor
failed. -/
inductive EndEvent where
  | completed
  | failed
  deriving DecidableEq

/-- The event by the outcome of the processor. -/
def endEvent : Outcome Err Unit → Option EndEvent
  | .returned _ => some .completed
  | .threw .delayed => none
  | .threw _ => some .failed
  | .stopped => none

/-- The handlers of the consumer. -/
def BaseConsumer.on (consumer : BaseConsumer) (jobId : String) : Option EndEvent → BaseConsumer
  | some .completed => consumer.onCompleted jobId
  | some .failed => consumer.onFailed jobId
  | none => consumer

/-- A worker with its consumer: the jobs whose `process` has started and not
ended, and the time the delays of `onModuleDestroy` have taken. -/
structure ConsumerWorld where
  consumer : BaseConsumer
  executing : Finset String
  destroying : Destroying
  waitedMs : ℤ
  deriving DecidableEq

/-- The worker before its first job. -/
def ConsumerWorld.init : ConsumerWorld := ⟨⟨∅⟩, ∅, .notCalled, 0⟩

inductive ConsumerLabel where
  /-- A job becomes active and its `process` starts. -/
  | active (jobId : String)
  /-- The `process` of a job ends. -/
  | ended (jobId : String) (outcome : Outcome Err Unit)
  /-- The module is destroyed, and `onModuleDestroy` closes the worker. -/
  | destroy
  /-- Closing the worker has settled. -/
  | closed (r : Except Err Unit)
  /-- A delay of the loop is over. -/
  | delayed

/-- A worker whose jobs start and end in any order, each id one activation at a
time, while it is up and while it is shut down. -/
def consumers : System ConsumerLabel ConsumerWorld where
  step
    | .active jobId, w =>
        if jobId ∈ w.executing then none
        else
          some { w with
            consumer := w.consumer.onActive jobId
            executing := insert jobId w.executing }
    | .ended jobId outcome, w =>
        if jobId ∈ w.executing ∧ outcome ≠ .stopped then
          some { w with
            consumer := w.consumer.on jobId (endEvent outcome)
            executing := w.executing.erase jobId }
        else none
    | .destroy, w =>
        if w.destroying = .notCalled then some { w with destroying := .closing } else none
    | .closed r, w =>
        if w.destroying = .closing then
          some { w with destroying := w.consumer.afterClose r }
        else none
    | .delayed, w =>
        match w.destroying with
        | .waiting maxWaitMs =>
            some { w with
              destroying := w.consumer.waitFrom (maxWaitMs - DELAY_TO_CHECK_FOR_SHUTDOWN_MS)
              waitedMs := w.waitedMs + DELAY_TO_CHECK_FOR_SHUTDOWN_MS }
        | _ => none

section Steps

variable {w w' : ConsumerWorld} {jobId : String} {outcome : Outcome Err Unit}

theorem consumers_active (h : consumers.step (.active jobId) w = some w') :
    jobId ∉ w.executing ∧
      w' = { w with
        consumer := w.consumer.onActive jobId
        executing := insert jobId w.executing } := by
  simp only [consumers, Option.ite_none_left_eq_some, Option.some.injEq] at h
  exact ⟨h.1, h.2.symm⟩

theorem consumers_ended (h : consumers.step (.ended jobId outcome) w = some w') :
    jobId ∈ w.executing ∧ outcome ≠ .stopped ∧
      w' = { w with
        consumer := w.consumer.on jobId (endEvent outcome)
        executing := w.executing.erase jobId } := by
  simp only [consumers, Option.ite_none_right_eq_some, Option.some.injEq] at h
  exact ⟨h.1.1, h.1.2, h.2.symm⟩

theorem consumers_destroy (h : consumers.step .destroy w = some w') :
    w.destroying = .notCalled ∧ w' = { w with destroying := .closing } := by
  simp only [consumers, Option.ite_none_right_eq_some, Option.some.injEq] at h
  exact ⟨h.1, h.2.symm⟩

theorem consumers_closed {r : Except Err Unit} (h : consumers.step (.closed r) w = some w') :
    w.destroying = .closing ∧ w' = { w with destroying := w.consumer.afterClose r } := by
  simp only [consumers, Option.ite_none_right_eq_some, Option.some.injEq] at h
  exact ⟨h.1, h.2.symm⟩

theorem consumers_delayed (h : consumers.step .delayed w = some w') :
    ∃ maxWaitMs, w.destroying = .waiting maxWaitMs ∧
      w' = { w with
        destroying := w.consumer.waitFrom (maxWaitMs - DELAY_TO_CHECK_FOR_SHUTDOWN_MS)
        waitedMs := w.waitedMs + DELAY_TO_CHECK_FOR_SHUTDOWN_MS } := by
  simp only [consumers] at h
  split at h
  · exact ⟨_, by assumption, (Option.some.inj h).symm⟩
  · cases h

/-- What a step does to the jobs: one becomes active, one ends, or none is
concerned. -/
theorem consumers_jobs {l : ConsumerLabel} (h : consumers.step l w = some w') :
    (∃ jobId, w'.consumer = w.consumer.onActive jobId ∧
        w'.executing = insert jobId w.executing) ∨
      (∃ jobId outcome, l = .ended jobId outcome ∧ outcome ≠ .stopped ∧
        w'.consumer = w.consumer.on jobId (endEvent outcome) ∧
          w'.executing = w.executing.erase jobId) ∨
        w'.consumer = w.consumer ∧ w'.executing = w.executing := by
  cases l with
  | active jobId =>
      obtain ⟨-, rfl⟩ := consumers_active h
      exact .inl ⟨jobId, rfl, rfl⟩
  | ended jobId outcome =>
      obtain ⟨-, hstopped, rfl⟩ := consumers_ended h
      exact .inr (.inl ⟨jobId, outcome, rfl, hstopped, rfl, rfl⟩)
  | destroy =>
      obtain ⟨-, rfl⟩ := consumers_destroy h
      exact .inr (.inr ⟨rfl, rfl⟩)
  | closed r =>
      obtain ⟨-, rfl⟩ := consumers_closed h
      exact .inr (.inr ⟨rfl, rfl⟩)
  | delayed =>
      obtain ⟨maxWaitMs, -, rfl⟩ := consumers_delayed h
      exact .inr (.inr ⟨rfl, rfl⟩)

end Steps

/-! ## The job that is postponed -/

/-- **A job whose capacity check answers no is postponed**: its `process` throws
a `DelayedError`, after which the worker emits no event. -/
theorem process_postponed {σ : Type} {configService : ConfigService} {M : Machine Worker Err σ}
    {w w' : σ} (job : Job)
    (hcheck : (checkCapacity configService).exec M w = (.returned false, w')) :
    ((process configService job).exec M w).1 = .threw .delayed ∧
      endEvent ((process configService job).exec M w).1 = none := by
  have hthrew : ((process configService job).exec M w).1 = .threw .delayed := by
    simp [process, Prog.tryCatch_throw, hcheck]
  exact ⟨hthrew, by rw [hthrew]; rfl⟩

/-! ## What is tracked -/

/-- The job of the step is not postponed. -/
def NotPostponed (l : ConsumerLabel) : Prop :=
  ∀ jobId, l ≠ .ended jobId (.threw .delayed)

/-- A job that ends otherwise ends with an event, and is tracked no longer. -/
theorem on_endEvent (consumer : BaseConsumer) (jobId : String) {outcome : Outcome Err Unit}
    (hdelayed : outcome ≠ .threw .delayed) (hstopped : outcome ≠ .stopped) :
    consumer.on jobId (endEvent outcome) = consumer.unTrackJob jobId := by
  cases outcome with
  | returned _ => rfl
  | stopped => exact absurd rfl hstopped
  | threw e =>
      cases e with
      | delayed => exact absurd rfl hdelayed
      | endOfChain _ | nullScan _ | error _ => rfl

/-- The handlers of the events delete no other job. -/
theorem erase_subset_on (consumer : BaseConsumer) (jobId : String) (event : Option EndEvent) :
    consumer.actives.erase jobId ⊆ (consumer.on jobId event).actives := by
  cases event with
  | none => exact Finset.erase_subset _ _
  | some event => cases event <;> exact Finset.Subset.refl _

/-- **Whatever executes is tracked**, postponed jobs or not. -/
theorem executing_subset_step {l : ConsumerLabel} {w w' : ConsumerWorld}
    (h : w.executing ⊆ w.consumer.actives) (hstep : consumers.step l w = some w') :
    w'.executing ⊆ w'.consumer.actives := by
  rcases consumers_jobs hstep with ⟨jobId, hconsumer, hexecuting⟩ |
    ⟨jobId, outcome, -, -, hconsumer, hexecuting⟩ | ⟨hconsumer, hexecuting⟩
  · rw [hconsumer, hexecuting]
    exact Finset.insert_subset_insert jobId h
  · rw [hconsumer, hexecuting]
    exact (Finset.erase_subset_erase jobId h).trans (erase_subset_on _ _ _)
  · rw [hconsumer, hexecuting]
    exact h

/-- The tracked jobs are those that execute. -/
def Exact (w : ConsumerWorld) : Prop := w.consumer.actives = w.executing

/-- A step that postpones no job keeps the tracking exact. -/
theorem Exact.step {l : ConsumerLabel} {w w' : ConsumerWorld} (hl : NotPostponed l)
    (h : Exact w) (hstep : consumers.step l w = some w') : Exact w' := by
  unfold Exact at h ⊢
  rcases consumers_jobs hstep with ⟨jobId, hconsumer, hexecuting⟩ |
    ⟨jobId, outcome, rfl, hstopped, hconsumer, hexecuting⟩ | ⟨hconsumer, hexecuting⟩
  · rw [hconsumer, hexecuting, ← h]
    rfl
  · have hdelayed : outcome ≠ .threw .delayed := fun heq => hl jobId (by rw [heq])
    rw [hconsumer, hexecuting, on_endEvent w.consumer jobId hdelayed hstopped, ← h]
    rfl
  · rw [hconsumer, hexecuting, h]

/-- A step that postpones a job leaves it tracked. -/
theorem notPostponed_of_exact {l : ConsumerLabel} {w w' : ConsumerWorld} (h : Exact w)
    (hstep : consumers.step l w = some w') (h' : Exact w') : NotPostponed l := by
  rintro jobId rfl
  obtain ⟨hexecuting, -, rfl⟩ := consumers_ended hstep
  have hactive : jobId ∈ w.consumer.actives := by
    rw [h]
    exact hexecuting
  have htracked : w.consumer.actives = w.executing.erase jobId := h'
  rw [htracked] at hactive
  exact Finset.notMem_erase jobId _ hactive

/-! ## The wait at shutdown -/

/-- The loop of `onModuleDestroy` keeps count of its delays. -/
structure Paced (w : ConsumerWorld) : Prop where
  before : w.destroying = .notCalled ∨ w.destroying = .closing → w.waitedMs = 0
  during : ∀ maxWaitMs, w.destroying = .waiting maxWaitMs →
    0 < maxWaitMs ∧ DELAY_TO_CHECK_FOR_SHUTDOWN_MS ∣ maxWaitMs ∧
      w.waitedMs + maxWaitMs = MAX_WAIT_FOR_GRACE_FULL_SHUTDOWN_MS
  bounded : w.waitedMs ≤ MAX_WAIT_FOR_GRACE_FULL_SHUTDOWN_MS

/-- The loop is left, at the step of a test, just where no job executes or the
maximum wait is over. -/
def LeavesWait (l : ConsumerLabel) (w' : ConsumerWorld) : Prop :=
  l = .closed (.ok ()) ∨ l = .delayed →
    (w'.destroying = .returned ↔
      w'.executing = ∅ ∨ w'.waitedMs = MAX_WAIT_FOR_GRACE_FULL_SHUTDOWN_MS)

/-- Where a step ends the wait, no job executes or the maximum wait is over. -/
def WaitsOut (w w' : ConsumerWorld) : Prop :=
  w.destroying ≠ .returned → w'.destroying = .returned →
    w'.executing = ∅ ∨ w'.waitedMs = MAX_WAIT_FOR_GRACE_FULL_SHUTDOWN_MS

theorem waitFrom_eq_waiting {consumer : BaseConsumer} {maxWaitMs left : ℤ}
    (h : consumer.waitFrom maxWaitMs = .waiting left) : left = maxWaitMs ∧ 0 < maxWaitMs := by
  unfold BaseConsumer.waitFrom at h
  split at h
  · next hcond => exact ⟨(Destroying.waiting.inj h).symm, hcond.2⟩
  · cases h

/-- The loop waits or is left. -/
theorem waitFrom_started (consumer : BaseConsumer) (maxWaitMs : ℤ) :
    consumer.waitFrom maxWaitMs = .waiting maxWaitMs ∨ consumer.waitFrom maxWaitMs = .returned := by
  unfold BaseConsumer.waitFrom
  split
  · exact .inl rfl
  · exact .inr rfl

theorem waitFrom_eq_returned {consumer : BaseConsumer} {maxWaitMs : ℤ} :
    consumer.waitFrom maxWaitMs = .returned ↔ consumer.actives = ∅ ∨ maxWaitMs ≤ 0 := by
  simp only [BaseConsumer.waitFrom, Finset.card_pos]
  by_cases hempty : consumer.actives = ∅
  · simp [hempty]
  · by_cases hwait : 0 < maxWaitMs
    · simp [Finset.nonempty_iff_ne_empty, hempty, hwait]
    · simp [hempty, hwait, not_lt.mp hwait]

theorem Paced.init : Paced .init :=
  ⟨fun _ => rfl, fun _ h => (by cases h), by decide⟩

/-- Every step keeps the count. -/
theorem Paced.step {l : ConsumerLabel} {w w' : ConsumerWorld} (h : Paced w)
    (hstep : consumers.step l w = some w') : Paced w' := by
  cases l with
  | active jobId =>
      obtain ⟨-, rfl⟩ := consumers_active hstep
      exact ⟨h.before, h.during, h.bounded⟩
  | ended jobId outcome =>
      obtain ⟨-, -, rfl⟩ := consumers_ended hstep
      exact ⟨h.before, h.during, h.bounded⟩
  | destroy =>
      obtain ⟨hcalled, rfl⟩ := consumers_destroy hstep
      exact ⟨fun _ => h.before (.inl hcalled), fun _ hwait => (by cases hwait), h.bounded⟩
  | closed r =>
      obtain ⟨hclosing, rfl⟩ := consumers_closed hstep
      have hzero := h.before (.inr hclosing)
      refine ⟨fun _ => hzero, fun maxWaitMs hwait => ?_, h.bounded⟩
      cases r with
      | error e => cases hwait
      | ok _ =>
          obtain ⟨rfl, hpos⟩ := waitFrom_eq_waiting hwait
          exact ⟨hpos, by decide, by rw [hzero, Int.zero_add]⟩
  | delayed =>
      obtain ⟨maxWaitMs, hwaiting, rfl⟩ := consumers_delayed hstep
      obtain ⟨hpos, hdvd, hsum⟩ := h.during maxWaitMs hwaiting
      -- a positive multiple of the delay is at least the delay
      have hle : DELAY_TO_CHECK_FOR_SHUTDOWN_MS ≤ maxWaitMs := Int.le_of_dvd hpos hdvd
      refine ⟨fun hbefore => ?_, fun left hwait => ?_, ?_⟩
      · rcases waitFrom_started w.consumer (maxWaitMs - DELAY_TO_CHECK_FOR_SHUTDOWN_MS)
          with hwaits | hreturns
        · exact absurd hbefore (by simp [hwaits])
        · exact absurd hbefore (by simp [hreturns])
      · obtain ⟨rfl, hleft⟩ := waitFrom_eq_waiting hwait
        exact ⟨hleft, dvd_sub hdvd (dvd_refl _), by simp only; omega⟩
      · show w.waitedMs + DELAY_TO_CHECK_FOR_SHUTDOWN_MS ≤ _
        omega

/-- A test leaves the loop just where no job is tracked or the maximum wait is
over. -/
theorem returned_iff {l : ConsumerLabel} {w w' : ConsumerWorld} (h : Paced w)
    (hstep : consumers.step l w = some w') (hl : l = .closed (.ok ()) ∨ l = .delayed) :
    w'.destroying = .returned ↔
      w'.consumer.actives = ∅ ∨ w'.waitedMs = MAX_WAIT_FOR_GRACE_FULL_SHUTDOWN_MS := by
  rcases hl with rfl | rfl
  · obtain ⟨hclosing, rfl⟩ := consumers_closed hstep
    have hzero := h.before (.inr hclosing)
    show w.consumer.waitFrom _ = .returned ↔ w.consumer.actives = ∅ ∨ w.waitedMs = _
    rw [waitFrom_eq_returned, hzero]
    exact or_congr_right (by decide)
  · obtain ⟨maxWaitMs, hwaiting, rfl⟩ := consumers_delayed hstep
    obtain ⟨-, -, hsum⟩ := h.during maxWaitMs hwaiting
    have hle := (h.step hstep).bounded
    show w.consumer.waitFrom _ = .returned ↔
      w.consumer.actives = ∅ ∨ w.waitedMs + DELAY_TO_CHECK_FOR_SHUTDOWN_MS = _
    rw [waitFrom_eq_returned]
    refine or_congr_right ?_
    simp only at hle
    omega

/-- Only a test of the loop ends the wait. -/
theorem test_of_returned {l : ConsumerLabel} {w w' : ConsumerWorld}
    (hstep : consumers.step l w = some w') (hbefore : w.destroying ≠ .returned)
    (hreturned : w'.destroying = .returned) : l = .closed (.ok ()) ∨ l = .delayed := by
  cases l with
  | active jobId =>
      obtain ⟨-, rfl⟩ := consumers_active hstep
      exact absurd hreturned hbefore
  | ended jobId outcome =>
      obtain ⟨-, -, rfl⟩ := consumers_ended hstep
      exact absurd hreturned hbefore
  | destroy =>
      obtain ⟨-, rfl⟩ := consumers_destroy hstep
      cases hreturned
  | closed r =>
      obtain ⟨-, rfl⟩ := consumers_closed hstep
      cases r with
      | ok _ => exact .inl rfl
      | error e => cases hreturned
  | delayed => exact .inr rfl

/-- Where the executing jobs are tracked, they are waited for. -/
theorem waitsOut_of_subset {l : ConsumerLabel} {w w' : ConsumerWorld}
    (h : w.executing ⊆ w.consumer.actives) (hpaced : Paced w)
    (hstep : consumers.step l w = some w') : WaitsOut w w' := by
  intro hbefore hreturned
  have htest := test_of_returned hstep hbefore hreturned
  refine ((returned_iff hpaced hstep htest).mp hreturned).imp_left fun hnone => ?_
  exact Finset.subset_empty.mp (hnone ▸ executing_subset_step h hstep)

/-- Where the tracked jobs are those that execute, the test of the loop is about
the latter. -/
theorem leavesWait_of_exact {l : ConsumerLabel} {w w' : ConsumerWorld} (h : Exact w)
    (hpaced : Paced w) (hstep : consumers.step l w = some w') : LeavesWait l w' := by
  intro htest
  have hnot : NotPostponed l := by
    rintro jobId rfl
    rcases htest with hclosed | hdelayed
    · cases hclosed
    · cases hdelayed
  have hexact : w'.consumer.actives = w'.executing := h.step hnot hstep
  rw [returned_iff hpaced hstep htest, hexact]

/-! ## Runs -/

/-- **Whatever happens**, the executing jobs are among the tracked ones, and the
wait at shutdown lasts no longer than it may and is over only when no job
executes or the maximum has been waited: it cuts no job short before that. -/
theorem executing_tracked (ls : List ConsumerLabel) :
    consumers.Throughout
        (fun w => w.executing ⊆ w.consumer.actives ∧
          w.waitedMs ≤ MAX_WAIT_FOR_GRACE_FULL_SHUTDOWN_MS) ls .init ∧
      consumers.Each (fun _ w w' => WaitsOut w w') ls .init := by
  have hboth : consumers.Throughout
      (fun w => w.executing ⊆ w.consumer.actives ∧ Paced w) ls .init := by
    refine (consumers.each_true ls .init).throughout (fun l w w' _ h hstep => ?_)
      ⟨Finset.Subset.refl _, Paced.init⟩
    exact ⟨executing_subset_step h.1 hstep, h.2.step hstep⟩
  constructor
  · exact hboth.mono fun w h => ⟨h.1, h.2.bounded⟩
  · exact hboth.each fun l w w' h hstep => waitsOut_of_subset h.1 h.2 hstep

/-- **Active jobs.**  In every state of a run the tracked jobs are those that
execute and the wait at shutdown has lasted no longer than it may, and every
test of the wait leaves it just where no job executes or the maximum is reached,
exactly if no job is postponed. -/
theorem activeJobs_exact_iff (ls : List ConsumerLabel) :
    (consumers.Throughout
        (fun w => Exact w ∧ w.waitedMs ≤ MAX_WAIT_FOR_GRACE_FULL_SHUTDOWN_MS) ls .init ∧
      consumers.Each (fun l _ w' => LeavesWait l w') ls .init) ↔
      consumers.Each (fun l _ _ => NotPostponed l) ls .init := by
  have hinit : Exact .init ∧ Paced .init := ⟨rfl, Paced.init⟩
  have hexact : consumers.Throughout
      (fun w => Exact w ∧ w.waitedMs ≤ MAX_WAIT_FOR_GRACE_FULL_SHUTDOWN_MS) ls .init ↔
      consumers.Each (fun l _ _ => NotPostponed l) ls .init := by
    refine System.throughout_iff_each (J := fun w => Exact w ∧ Paced w) hinit
      (fun w h => ⟨h.1, h.2.bounded⟩) (fun l w w' hl h hstep => ?_)
      fun l w w' h hstep h' => notPostponed_of_exact h.1 hstep h'.1
    exact ⟨h.1.step hl hstep, h.2.step hstep⟩
  constructor
  · exact fun h => hexact.mp h.1
  · intro h
    refine ⟨hexact.mpr h, ?_⟩
    have hboth : consumers.Throughout (fun w => Exact w ∧ Paced w) ls .init :=
      h.throughout (fun l w w' hl h hstep => ⟨h.1.step hl hstep, h.2.step hstep⟩) hinit
    exact hboth.each fun l w w' hw hstep => leavesWait_of_exact hw.1 hw.2 hstep

/-- The node of a provider whose capacity is used up; every call is answered. -/
def spentCapacity : Machine Worker Err Unit where
  act m _ := (m.blank, ())
  answer
    | .capacityLedger _, _ => (.done (some ⟨0, 100⟩), ())
    | _, _ => (.done default, ())

/-- A job that asks for a handle. -/
def aliceJob : Job where
  id := "1"
  data :=
    { request := .createHandle ⟨"5GrwvaEF", "alice", 100, "0x00"⟩
      providerId := "1"
      referenceId := "r" }

/-- One job becomes active and ends as its `process` does, then the module is
destroyed, and nothing happens any more but delays. -/
def postponedRun : List ConsumerLabel :=
  [.active aliceJob.id,
    .ended aliceJob.id ((process (.amountLimit 100) aliceJob).exec spentCapacity ()).1,
    .destroy, .closed (.ok ())] ++ List.replicate 20 .delayed

/-- The job is postponed and stays tracked: no job executes, and the shutdown
waits for six seconds. -/
theorem activeJobs_postponed :
    consumers.run postponedRun .init = some ⟨⟨{"1"}⟩, ∅, .returned, 6000⟩ ∧
      ¬ consumers.Throughout (fun w => Exact w) postponedRun .init := by
  have hrun : consumers.run postponedRun .init = some ⟨⟨{"1"}⟩, ∅, .returned, 6000⟩ := by
    decide +kernel
  refine ⟨hrun, fun h => ?_⟩
  have hexact : ({"1"} : Finset String) = ∅ := h.run hrun
  exact absurd hexact (by decide)

end AccountService
