import AccountService.QueuePause
import AccountService.RetryCourse

/-!
# The failed jobs of the publish queue

The publisher with the failed jobs of its queue.  Every capacity check that
finds capacity available lists the failed jobs and then invokes `retry` on those
that failed for the fee; the retries are carried out later, each at once and
only on a job that is failed then.  In between other checks list, jobs run and
fail again.

What happened to the failed jobs is recorded beside them: which failure each
`retry` was invoked for, whether the job was still failed with it, and which
failures were moved out.
-/

namespace AccountService

open Async

deriving instance DecidableEq for FailedJob

/-! ## The queue and its failed jobs -/

/-- A failure of a job.  Failures are counted, and the count tells apart two
failures of one job. -/
structure Failure where
  number : ℕ
  job : FailedJob
  deriving DecidableEq

/-- The job has failed because nobody could pay for it. -/
def Failure.forFee (f : Failure) : Bool := capacityFailed f.job

/-- Somebody has invoked `retry` on a job, for a failure that had been listed;
`standing` says whether the job was still failed with it. -/
structure Attempt where
  jobId : String
  failure : Failure
  standing : Bool
  deriving DecidableEq

/-- The failed jobs with their failures, how far each method has come with those
it has listed, and the attempts that are still to be carried out.  The attempts
made since the worker was started and the failures that a retry has moved out
are kept count of. -/
structure Retries where
  failures : ℕ
  failed : List Failure
  marks : List (RetryPhase Failure)
  inFlight : List Attempt
  attempts : List Attempt
  moved : List Failure

namespace Retries

def mark (w : Retries) (i : ℕ) : RetryPhase Failure := (w.marks[i]?).getD .absent

/-- How `getFailed` settles: where it answers, with all failed jobs. -/
def listing (w : Retries) (fate : Fate Err (List FailedJob)) : Fate Err (List FailedJob) :=
  match fate with
  | .done _ => .done (w.failed.map Failure.job)
  | .refused e => .refused e
  | .lost _ e => .lost (w.failed.map Failure.job) e

/-- How a call settles. -/
def settles (w : Retries) (fate : (c : Call) → Fate Err c.Reply) :
    (c : Call) → Fate Err c.Reply
  | .getFailed => w.listing (fate .getFailed)
  | c => fate c

/-- Method `i` has been answered. -/
def answered (w : Retries) (i : ℕ) : (c : Call) → Fate Err c.Reply → Retries
  | .getFailed, fate =>
      match w.mark i, fate.seen with
      | .before, .ok _ =>
          { w with marks := w.marks.set i (.listed (w.failed.filter Failure.forFee)) }
      | _, _ => w
  | _, _ => w

/-- Method `i` has issued a call.  A retry is for the next of the failures the
method has listed. -/
def issued (w : Retries) (i : ℕ) : Call → Retries
  | .retry jobId =>
      match w.mark i with
      | .listed (f :: left) =>
          { w with
            marks := w.marks.set i (.listed left)
            inFlight := w.inFlight ++ [⟨jobId, f, decide (f ∈ w.failed)⟩]
            attempts := w.attempts ++ [⟨jobId, f, decide (f ∈ w.failed)⟩] }
      | _ => w
  | _ => w

/-- A retry is carried out: the job is moved from the failed jobs to the waiting
ones, if it is failed. -/
def lands (w : Retries) (k : ℕ) (jobId : String) : Retries :=
  { w with
    failed := w.failed.filter fun f => f.job.id ≠ jobId
    inFlight := w.inFlight.eraseIdx k
    moved := w.moved ++ w.failed.filter fun f => f.job.id = jobId }

/-- A method starts. -/
def starts (w : Retries) : Retries := { w with marks := w.marks ++ [.before] }

/-- The process dies, with its methods and what they have invoked. -/
def dies (w : Retries) : Retries := { w with marks := [], inFlight := [], attempts := [] }

/-- A job that has not failed fails. -/
def fails (w : Retries) (job : FailedJob) : Retries :=
  { w with failures := w.failures + 1, failed := w.failed ++ [⟨w.failures, job⟩] }

end Retries

/-- The publisher and its queue, with the failed jobs of the queue. -/
structure RetryWorld where
  queue : QueueWorld
  retries : Retries

/-- What the surroundings of the publisher choose. -/
inductive RetryChoice where
  | settle (fate : (c : Call) → Fate Err c.Reply)
  | fail (job : FailedJob)
  | land (k : ℕ)

/-- The methods of the publisher with the failed jobs of the queue. -/
def retriers (configService : ConfigService) :
    World Worker Err Unit ℕ RetryWorld RetryChoice Entry where
  act i m w :=
    (((publishers configService).act i m w.queue).1,
      { w with queue := ((publishers configService).act i m w.queue).2 })
  issue i c w :=
    { queue := (publishers configService).issue i c w.queue
      retries := w.retries.issued i c }
  answer i c x w :=
    match x with
    | .settle fate =>
        ((publishers configService).answer i c (w.retries.settles fate) w.queue).map fun fq =>
          (fq.1, ⟨fq.2, w.retries.answered i c fq.1⟩)
    | _ => none
  env x w :=
    match x with
    | .fail job =>
        if job.id ∈ w.retries.failed.map (·.job.id) then none
        else some { w with retries := w.retries.fails job }
    | .land k =>
        (w.retries.inFlight[k]?).map fun a => { w with retries := w.retries.lands k a.jobId }
    | .settle _ => none
  launch entry i w :=
    if i = w.retries.marks.length then
      ((publishers configService).launch entry i w.queue).map fun pq =>
        (pq.1, ⟨pq.2, w.retries.starts⟩)
    else none
  crash w := ⟨(publishers configService).crash w.queue, w.retries.dies⟩

/-- A pool of methods of the publisher. -/
abbrev RetryPool := Pool Worker Err Unit ℕ RetryWorld

/-- The failed jobs of a queue, each failed once. -/
structure FailedSet where
  jobs : List FailedJob
  nodup : (jobs.map FailedJob.id).Nodup

/-- The failures of the jobs, in their order. -/
def FailedSet.failures (failedSet : FailedSet) : List Failure :=
  failedSet.jobs.zipIdx.map fun j => ⟨j.2, j.1⟩

/-- The worker before its first start, with the jobs that have failed so far. -/
def RetryPool.init (failedSet : FailedSet) : RetryPool :=
  ⟨⟨.init, ⟨failedSet.jobs.length, failedSet.failures, [], [], [], []⟩⟩, fun _ => none⟩

/-! ## The pool keeps to the course -/

section Marks

variable {w : Retries} {i : ℕ} {m : RetryPhase Failure}

/-- A method that is somewhere has a mark. -/
theorem Retries.getElem?_of_mark (hm : w.mark i = m) (habsent : m ≠ .absent) :
    w.marks[i]? = some m := by
  unfold Retries.mark at hm
  cases hmark : w.marks[i]? with
  | none =>
      rw [hmark] at hm
      exact absurd hm.symm habsent
  | some m' =>
      rw [hmark] at hm
      exact congrArg some hm

theorem RetryPhase.getElem?_set {marks : List (RetryPhase Failure)} (h : marks[i]? = some m)
    (m' : RetryPhase Failure) (j : ℕ) :
    ((marks.set i m')[j]?).getD .absent = if j = i then m' else (marks[j]?).getD .absent := by
  have hlt : i < marks.length := (List.getElem?_eq_some_iff.mp h).1
  by_cases hj : j = i
  · rw [hj, List.getElem?_set_self hlt, if_pos rfl]
    rfl
  · rw [List.getElem?_set_ne (Ne.symm hj), if_neg hj]

/-- Where `getFailed` answers, it lists every failed job. -/
theorem Retries.listing_seen {fate : Fate Err (List FailedJob)} {jobs : List FailedJob}
    (h : (w.listing fate).seen = .ok jobs) : jobs = w.failed.map Failure.job := by
  cases fate with
  | done _ => exact (Except.ok.inj h).symm
  | refused e => cases h
  | lost _ e => cases h

theorem Retries.listing_isOk (w : Retries) {fate : Fate Err (List FailedJob)}
    (h : fate.seen.isOk = true) : ∃ jobs, (w.listing fate).seen = .ok jobs := by
  cases fate with
  | done _ => exact ⟨_, rfl⟩
  | refused e => cases h
  | lost _ e => cases h

theorem Retries.isOk_of_listing {fate : Fate Err (List FailedJob)} {jobs : List FailedJob}
    (h : (w.listing fate).seen = .ok jobs) : fate.seen.isOk = true := by
  cases fate with
  | done _ => rfl
  | refused e => cases h
  | lost _ e => cases h

end Marks

/-- Only listing and retrying are noticed. -/
theorem RetryPhase.next_sync (s : RetryPhase FailedJob) (l : Memory) (r : l.Result) :
    s.next (.sync l r) = s := by
  cases s with
  | listed left => cases left <;> rfl
  | absent | before => rfl

theorem RetryPhase.next_fire (s : RetryPhase FailedJob) {c : Call} (h : ∀ jobId, c ≠ .retry jobId) :
    s.next (.fire c) = s := by
  cases s with
  | listed left =>
      cases left with
      | nil => rfl
      | cons job left =>
          cases c with
          | retry jobId => exact absurd rfl (h jobId)
          | _ => rfl
  | absent | before => rfl

theorem RetryPhase.next_await (s : RetryPhase FailedJob) {c : Call} (h : c ≠ .getFailed)
    (f : Fate Err c.Reply) : s.next (.await c f) = s := by
  cases s with
  | listed left => cases left <;> rfl
  | absent => rfl
  | before =>
      cases c with
      | getFailed => exact absurd rfl h
      | _ => rfl

section Tracked

variable {configService : ConfigService} {w : Retries} {i : ℕ}

/-- What the mark of a method tells of its phase. -/
def Retries.phase (w : Retries) (i : ℕ) : RetryPhase FailedJob := (w.mark i).map Failure.job

theorem phase_set {m : RetryPhase Failure} (hm : w.mark i = m) (habsent : m ≠ .absent)
    (m' : RetryPhase Failure) (j : ℕ) :
    Retries.phase { w with marks := w.marks.set i m' } j =
      if j = i then m'.map Failure.job else w.phase j := by
  unfold Retries.phase Retries.mark
  rw [RetryPhase.getElem?_set (Retries.getElem?_of_mark hm habsent)]
  split <;> rfl

/-- A retry is issued for the next of the failures a method has listed. -/
theorem issued_retry {jobId : String} {f : Failure} {left : List Failure}
    (h : w.mark i = .listed (f :: left)) :
    w.issued i (.retry jobId) =
      { w with
        marks := w.marks.set i (.listed left)
        inFlight := w.inFlight ++ [⟨jobId, f, decide (f ∈ w.failed)⟩]
        attempts := w.attempts ++ [⟨jobId, f, decide (f ∈ w.failed)⟩] } := by
  simp only [Retries.issued, h]

theorem issued_other {c : Call} (h : ∀ jobId, c ≠ .retry jobId) : w.issued i c = w := by
  cases c with
  | retry jobId => exact absurd rfl (h jobId)
  | _ => rfl

theorem issued_idle {c : Call} (h : ∀ f left, w.mark i ≠ .listed (f :: left)) :
    w.issued i c = w := by
  cases c with
  | retry jobId =>
      cases hmark : w.mark i with
      | listed failures =>
          cases failures with
          | nil => simp only [Retries.issued, hmark]
          | cons f left => exact absurd hmark (h f left)
      | absent | before => simp only [Retries.issued, hmark]
  | _ => rfl

theorem answered_getFailed {fate : Fate Err (List FailedJob)} {jobs : List FailedJob}
    (h : w.mark i = .before) (hseen : fate.seen = .ok jobs) :
    w.answered i .getFailed fate =
      { w with marks := w.marks.set i (.listed (w.failed.filter Failure.forFee)) } := by
  simp only [Retries.answered, h, hseen]

theorem answered_other {c : Call} (h : c ≠ .getFailed) (f : Fate Err c.Reply) :
    w.answered i c f = w := by
  cases c with
  | getFailed => exact absurd rfl h
  | _ => rfl

/-- What a call that is issued leads to: a retry for the next of the failures
the method has listed, or nothing. -/
theorem issued_cases (w : Retries) (i : ℕ) (c : Call) :
    (∃ jobId f left, c = .retry jobId ∧ w.mark i = .listed (f :: left) ∧
        w.issued i c =
          { w with
            marks := w.marks.set i (.listed left)
            inFlight := w.inFlight ++ [⟨jobId, f, decide (f ∈ w.failed)⟩]
            attempts := w.attempts ++ [⟨jobId, f, decide (f ∈ w.failed)⟩] }) ∨
      ((w.phase i).next (.fire c) = w.phase i ∧ w.issued i c = w) := by
  by_cases hretry : ∃ jobId, c = .retry jobId
  · obtain ⟨jobId, rfl⟩ := hretry
    by_cases hlisted : ∃ f left, w.mark i = .listed (f :: left)
    · obtain ⟨f, left, hmark⟩ := hlisted
      exact .inl ⟨jobId, f, left, rfl, hmark, issued_retry hmark⟩
    · refine .inr ⟨?_, issued_idle fun f left hmark => hlisted ⟨f, left, hmark⟩⟩
      unfold Retries.phase
      cases hmark : w.mark i with
      | listed failures =>
          cases failures with
          | nil => rfl
          | cons f left => exact absurd ⟨f, left, hmark⟩ hlisted
      | absent | before => rfl
  · have hother : ∀ jobId, c ≠ .retry jobId := fun jobId heq => hretry ⟨jobId, heq⟩
    exact .inr ⟨RetryPhase.next_fire _ hother, issued_other hother⟩

/-- What the reply to a call leads to: a listing by a method that has made none,
or nothing. -/
theorem answered_cases (w : Retries) (i : ℕ) (c : Call) (fate : (c : Call) → Fate Err c.Reply) :
    (c = .getFailed ∧ (fate .getFailed).seen.isOk = true ∧ w.mark i = .before ∧
        (w.phase i).next (.await c (w.settles fate c)) =
          .listed ((w.failed.filter Failure.forFee).map Failure.job) ∧
        w.answered i c (w.settles fate c) =
          { w with marks := w.marks.set i (.listed (w.failed.filter Failure.forFee)) }) ∨
      ((w.phase i).next (.await c (w.settles fate c)) = w.phase i ∧
        w.answered i c (w.settles fate c) = w) := by
  by_cases hc : c = .getFailed
  · subst hc
    show (_ ∧ _ ∧ _ ∧ (w.phase i).next (.await .getFailed (w.listing (fate .getFailed))) = _ ∧
      w.answered i .getFailed (w.listing (fate .getFailed)) = _) ∨
        ((w.phase i).next (.await .getFailed (w.listing (fate .getFailed))) = _ ∧
          w.answered i .getFailed (w.listing (fate .getFailed)) = _)
    by_cases hbefore : w.mark i = .before
    · have hphase : w.phase i = .before := by rw [Retries.phase, hbefore, RetryPhase.map]
      cases hseen : (w.listing (fate .getFailed)).seen with
      | ok jobs =>
          refine .inl ⟨rfl, Retries.isOk_of_listing hseen, hbefore, ?_,
            answered_getFailed hbefore hseen⟩
          simp only [hphase, RetryPhase.next, hseen, Retries.listing_seen hseen, List.filter_map]
          rfl
      | error e =>
          refine .inr ⟨?_, ?_⟩
          · simp only [hphase, RetryPhase.next, hseen]
          · simp only [Retries.answered, hbefore, hseen]
    · refine .inr ⟨?_, ?_⟩
      · unfold Retries.phase
        cases hmark : w.mark i with
        | listed failures => cases failures <;> rfl
        | absent => rfl
        | before => exact absurd hmark hbefore
      · cases hmark : w.mark i with
        | listed failures => simp only [Retries.answered, hmark]
        | absent => simp only [Retries.answered, hmark]
        | before => exact absurd hmark hbefore
  · exact .inr ⟨RetryPhase.next_await _ hc _, answered_other hc _⟩

/-- A call that is issued moves its method only. -/
theorem issued_phase (w : Retries) (i : ℕ) (c : Call) (j : ℕ) :
    (w.issued i c).phase j = if j = i then (w.phase i).next (.fire c) else w.phase j := by
  rcases issued_cases w i c with ⟨jobId, f, left, rfl, hmark, heq⟩ | ⟨hnext, heq⟩
  · have hphase : w.phase i = .listed (f.job :: left.map Failure.job) := by
      rw [Retries.phase, hmark]
      rfl
    rw [heq, hphase]
    exact phase_set hmark (by simp) (.listed left) j
  · rw [heq, hnext]
    split
    · rename_i hj
      rw [hj]
    · rfl

/-- So does the answer to a call. -/
theorem answered_phase (w : Retries) (i : ℕ) (c : Call) (fate : (c : Call) → Fate Err c.Reply)
    (j : ℕ) :
    (w.answered i c (w.settles fate c)).phase j =
      if j = i then (w.phase i).next (.await c (w.settles fate c)) else w.phase j := by
  rcases answered_cases w i c fate with ⟨-, -, hmark, hnext, heq⟩ | ⟨hnext, heq⟩
  · rw [heq, hnext]
    exact phase_set hmark (by simp) (.listed (w.failed.filter Failure.forFee)) j
  · rw [heq, hnext]
    split
    · rename_i hj
      rw [hj]
    · rfl

/-- What the start of a method does. -/
theorem retriers_launch {entry : Entry} {W W' : RetryWorld} {p : Svc Unit}
    (h : (retriers configService).launch entry i W = some (p, W')) :
    i = W.retries.marks.length ∧ W'.retries = W.retries.starts ∧
      p.Follows retryCourse (fun _ s => s.Idle) (fun _ s => s.Idle) .before := by
  simp only [retriers, Option.ite_none_right_eq_some, Option.map_eq_some_iff] at h
  obtain ⟨hi, ⟨p', queue⟩, hlaunch, heq⟩ := h
  obtain ⟨rfl, rfl⟩ := Prod.mk.inj heq
  refine ⟨hi, rfl, ?_⟩
  simp only [publishers, Option.ite_none_right_eq_some] at hlaunch
  obtain ⟨-, hlaunch⟩ := hlaunch
  cases entry <;> simp only [Option.ite_none_right_eq_some, Option.ite_none_left_eq_some,
    Option.some.injEq, Prod.mk.injEq] at hlaunch <;> obtain ⟨-, rfl, -⟩ := hlaunch
  · exact onApplicationBootstrap_retries
  · exact process_retries _
  · exact onCapacityTimeout_retries
  · exact onCapacityTimeout_retries
  · exact onApplicationShutdown_retries

/-- What the answer to a call does. -/
theorem retriers_answer {c : Call} {x : RetryChoice} {W W' : RetryWorld} {f : Fate Err c.Reply}
    (h : (retriers configService).answer i c x W = some (f, W')) :
    ∃ fate, x = .settle fate ∧ f = W.retries.settles fate c ∧
      W'.retries = W.retries.answered i c f := by
  cases x with
  | settle fate =>
      simp only [retriers, publishers, Option.map_some, Option.some.injEq, Prod.mk.injEq] at h
      obtain ⟨rfl, rfl⟩ := h
      exact ⟨fate, rfl, rfl, rfl⟩
  | fail job => cases h
  | land k => cases h

/-- What the queue does by itself. -/
theorem retriers_env {x : RetryChoice} {W W' : RetryWorld}
    (h : (retriers configService).env x W = some W') :
    (∃ job, job.id ∉ W.retries.failed.map (·.job.id) ∧ W'.retries = W.retries.fails job) ∨
      ∃ k a, W.retries.inFlight[k]? = some a ∧ W'.retries = W.retries.lands k a.jobId := by
  cases x with
  | settle fate => cases h
  | fail job =>
      simp only [retriers, Option.ite_none_left_eq_some, Option.some.injEq] at h
      obtain ⟨hjob, rfl⟩ := h
      exact .inl ⟨job, hjob, rfl⟩
  | land k =>
      simp only [retriers, Option.map_eq_some_iff] at h
      obtain ⟨a, ha, rfl⟩ := h
      exact .inr ⟨k, a, ha, rfl⟩

end Tracked

/-- **Every method keeps to its course** with respect to the failed jobs. -/
theorem retriers_tracks (configService : ConfigService) :
    (retriers configService).Tracks (fun _ => retryCourse) (fun _ _ s => s.Idle)
      (fun _ _ s => s.Idle) fun i W => W.retries.phase i where
  act i l W := (RetryPhase.next_sync _ _ _).symm
  act_other i j l W hj := rfl
  issue i c W := (issued_phase W.retries i c i).trans (if_pos rfl)
  issue_other i j c W hj := (issued_phase W.retries i c j).trans (if_neg hj)
  answer i c x W f W' h := by
    obtain ⟨fate, -, rfl, hretries⟩ := retriers_answer h
    rw [hretries]
    exact (answered_phase W.retries i c fate i).trans (if_pos rfl)
  answer_other i j c x W f W' hj h := by
    obtain ⟨fate, -, rfl, hretries⟩ := retriers_answer h
    rw [hretries]
    exact (answered_phase W.retries i c fate j).trans (if_neg hj)
  env i x W W' h := by
    rcases retriers_env h with ⟨job, -, hretries⟩ | ⟨k, a, -, hretries⟩
    · rw [hretries]
      rfl
    · rw [hretries]
      rfl
  launch entry i W p W' h := by
    obtain ⟨rfl, hretries, hfollows⟩ := retriers_launch h
    have hphase : W.retries.starts.phase W.retries.marks.length = .before := by
      simp [Retries.phase, Retries.mark, Retries.starts, RetryPhase.map]
    rw [hretries, hphase]
    exact hfollows
  launch_other entry i j W p W' hj h := by
    obtain ⟨rfl, hretries, -⟩ := retriers_launch h
    rw [hretries]
    unfold Retries.phase Retries.mark Retries.starts
    rw [List.getElem?_append]
    split
    · rfl
    · rw [List.getElem?_eq_none (l := W.retries.marks) (by omega),
        List.getElem?_eq_none (by simp; omega)]

/-- A retry that is allowed is for the next of the failures the method has
listed, by its job. -/
theorem retry_allowed {w : Retries} {i : ℕ} {jobId : String} {f : Failure} {left : List Failure}
    (hmark : w.mark i = .listed (f :: left)) (hallow : (w.phase i).allow (.fire (.retry jobId))) :
    jobId = f.job.id := by
  have hphase : w.phase i = .listed (f.job :: left.map Failure.job) := by
    rw [Retries.phase, hmark]
    rfl
  rw [hphase] at hallow
  exact hallow

/-- What an invariant `J` of the failed jobs owes in the steps that `C` allows,
where `A` is an invariant already known. -/
structure Retries.Kept (C : Label ℕ RetryChoice Entry → RetryPool → Prop) (A J : Retries → Prop) :
    Prop where
  fails : ∀ {w job}, A w → J w → job.id ∉ w.failed.map (·.job.id) → J (w.fails job)
  lands : ∀ {w k a}, A w → J w → w.inFlight[k]? = some a → J (w.lands k a.jobId)
  starts : ∀ {w}, A w → J w → J w.starts
  retries : ∀ {w i f left}, A w → J w → w.mark i = .listed (f :: left) →
    J (w.issued i (.retry f.job.id))
  lists : ∀ {i fate} {P : RetryPool}, C (.reply i (.settle fate)) P →
    (P.task i).bind Prog.awaited = some .getFailed → (fate .getFailed).seen.isOk = true →
      A P.world.retries → J P.world.retries → P.world.retries.mark i = .before →
        J { P.world.retries with
          marks := P.world.retries.marks.set i
            (.listed (P.world.retries.failed.filter Failure.forFee)) }
  dies : ∀ {P : RetryPool}, C .crash P → A P.world.retries → J P.world.retries →
    J P.world.retries.dies

/-- What every operation on the failed jobs keeps, the pool keeps. -/
theorem Retries.Kept.preserves {C : Label ℕ RetryChoice Entry → RetryPool → Prop}
    {A J : Retries → Prop} (h : Kept C A J) (configService : ConfigService) :
    (retriers configService).Preserves (fun _ => retryCourse) (fun i W => W.retries.phase i) C
      (fun W => A W.retries) fun W => J W.retries where
  env x P W' _ hA hJ henv := by
    rcases retriers_env henv with ⟨job, hjob, hretries⟩ | ⟨k, a, ha, hretries⟩
    · rw [hretries]
      exact h.fails hA hJ hjob
    · rw [hretries]
      exact h.lands hA hJ ha
  launch k i P p W' _ hA hJ hlaunch := by
    obtain ⟨-, hretries, -⟩ := retriers_launch hlaunch
    rw [hretries]
    exact h.starts hA hJ
  act i l W _ _ hJ := hJ
  issue i c W hallow hA hJ := by
    show J (W.retries.issued i c)
    rcases issued_cases W.retries i c with ⟨jobId, f, left, rfl, hmark, -⟩ | ⟨-, heq⟩
    · obtain rfl := retry_allowed hmark hallow
      exact h.retries hA hJ hmark
    · rw [heq]
      exact hJ
  answer i x c k P g W' hC htask _ hA hJ hanswer := by
    obtain ⟨fate, rfl, rfl, hretries⟩ := retriers_answer hanswer
    rw [hretries]
    rcases answered_cases P.world.retries i c fate with ⟨rfl, hok, hmark, -, heq⟩ | ⟨-, heq⟩
    · rw [heq]
      exact h.lists hC (by rw [htask]; rfl) hok hA hJ hmark
    · rw [heq]
      exact hJ
  crash P hC hA hJ := h.dies hC hA hJ

end AccountService
