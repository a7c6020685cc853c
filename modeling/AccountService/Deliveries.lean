import AccountService.Execution
import AccountService.Requests

/-!
# From a request to the node

The publish queue between the API, which adds jobs to it, and the worker, which
executes them with `process`, to the end or up to a call at which the process
dies.

A job that has run may run again: it stalls when the worker dies, a capacity
check retries it when it has failed, and a request that comes in after the
record of its completed job was evicted is queued as a new job.  Whether it is
then submitted again depends on how far it had come.  A failure for the fee
comes before anything is accepted, and a job that is postponed has submitted
nothing; so a job has at most one extrinsic accepted each time it is added, has
stalled, or is retried although it had failed for another reason than the fee.

Whatever has become of a job, what the node accepts for it is the call that was
asked for in a request that was posted.
-/

namespace AccountService

open Async

/-! ## The jobs of the queue -/

/-- The queue with the reasons its jobs have failed for, and with what has
happened: the requests that were posted, the extrinsics accepted with the id of
the job, and an entry for each time a job was added, for each time it has
stalled, and for each time it was retried although it had not failed for the
fee. -/
structure Deliveries where
  queue : PublishQueue := {}
  failedReason : String → Option String := fun _ => none
  posted : List ApiPost := []
  submitted : List (String × SubmittableExtrinsic) := []
  added : List String := []
  stalled : List String := []
  unfit : List String := []

namespace Deliveries

/-- A job has failed for the fee. -/
def forFee (w : Deliveries) (jobId : String) : Bool :=
  capacityFailed ⟨jobId, w.failedReason jobId⟩

/-- What the worker does with a job whose execution has ended, or has been cut
short; a job that is postponed stays active where the call that delays it is
lost. -/
def ended (w : Deliveries) (jobId : String) (delays : Bool) : Outcome Err Unit → Deliveries
  | .returned _ => { w with queue := (w.queue.set jobId .completed).evict }
  | .threw .delayed => { w with queue := w.queue.set jobId (if delays then .delayed else .active) }
  | .threw e =>
      { w with
        queue := w.queue.set jobId .failed
        failedReason := Function.update w.failedReason jobId e.failedReason }
  | .stopped => { w with queue := w.queue.set jobId .active }

end Deliveries

/-- The data of a job as the worker reads them. -/
def PublishQueue.dataOf (q : PublishQueue) (jobId : String) : Option TransactionData :=
  (q.jobs.find? fun job => job.id = jobId).bind fun job => job.data.read

inductive DeliveryLabel where
  /-- A request is posted. -/
  | post (post : ApiPost) (how : Settle Err)
  /-- A job waits, is paused or is delayed. -/
  | hold (jobId : String) (state : JobState)
  /-- A job is executed, as far as a number of calls. -/
  | run (jobId : String) (outcomes : NodeOutcomes) (watchList : Hash → Option ITxStatus)
      (calls : ℕ) (delays : Bool)
  /-- A job whose worker has died waits again. -/
  | stall (jobId : String)
  /-- A job whose worker has died is given up. -/
  | giveUp (jobId : String)
  /-- A `retry` is carried out. -/
  | retry (jobId : String)

/-- The job is there and nobody works on it. -/
def JobState.held : JobState → Bool
  | waiting | paused | delayed => true
  | active | completed | failed => false

/-- The API, the publish queue and its worker. -/
def deliveries (configService : ConfigService) (service : EnqueueService) :
    System DeliveryLabel Deliveries where
  step l w :=
    match l with
    | .post post how =>
        let queue := ((post.serve service).exec (queueMachine how) w.queue).2
        some { w with
          queue := queue
          posted := post :: w.posted
          added := (queue.jobs.drop w.queue.jobs.length).map QueuedJob.id ++ w.added }
    | .hold jobId state =>
        if (w.queue.stateOf jobId).any JobState.held ∧ state.held then
          some { w with queue := w.queue.set jobId state }
        else none
    | .run jobId outcomes watchList calls delays =>
        if w.queue.stateOf jobId = some .waiting then
          (w.queue.dataOf jobId).map fun data =>
            let r := ((process configService ⟨jobId, data⟩).upTo calls).exec outcomes.machine
              (.start watchList)
            { w.ended jobId delays r.1 with
              submitted := (r.2.accepted.map fun sent => (jobId, sent.2)) ++ w.submitted }
        else none
    | .stall jobId =>
        if w.queue.stateOf jobId = some .active then
          some { w with queue := w.queue.set jobId .waiting, stalled := jobId :: w.stalled }
        else none
    | .giveUp jobId =>
        if w.queue.stateOf jobId = some .active then
          some { w with
            queue := w.queue.set jobId .failed
            failedReason := Function.update w.failedReason jobId
              (some "job stalled more than allowable limit") }
        else none
    | .retry jobId =>
        if w.queue.stateOf jobId = some .failed then
          some { w with
            queue := w.queue.set jobId .waiting
            unfit := if w.forFee jobId then w.unfit else jobId :: w.unfit }
        else none

/-! ## What is due -/

namespace PublishQueue

variable {q : PublishQueue} {jobId jobId' : String}

theorem stateOf_set (q : PublishQueue) (jobId jobId' : String) (state : JobState) :
    (q.set jobId state).stateOf jobId' =
      if jobId' = jobId then (q.stateOf jobId').map fun _ => state else q.stateOf jobId' := by
  have hfind : (q.set jobId state).jobs.find? (fun job => job.id = jobId') =
      (q.jobs.find? fun job => job.id = jobId').map fun job =>
        if job.id = jobId then { job with state := state, finishedOn := q.clock } else job := by
    rw [set, List.find?_map]
    refine congrArg _ (congrArg (fun p => q.jobs.find? p) (funext fun job => ?_))
    by_cases hid : job.id = jobId <;> simp [hid]
  rw [stateOf, hfind, stateOf, Option.map_map]
  cases hjob : q.jobs.find? fun job => job.id = jobId' with
  | none => simp
  | some job =>
      have hid : job.id = jobId' := by simpa using List.find?_some hjob
      by_cases heq : jobId' = jobId <;> simp [hid, heq]

theorem stateOf_eq_none : q.stateOf jobId = none ↔ jobId ∉ q.jobs.map QueuedJob.id := by
  simp [stateOf]

theorem stateOf_add (q : PublishQueue) (jobId jobId' : String) (data : RequestData) :
    (q.add jobId data).stateOf jobId' =
      if jobId' = jobId ∧ q.stateOf jobId' = none then some .waiting else q.stateOf jobId' := by
  unfold add
  by_cases hknown : jobId ∈ q.jobs.map QueuedJob.id
  · rw [if_pos hknown, if_neg]
    rintro ⟨rfl, hnone⟩
    exact stateOf_eq_none.mp hnone hknown
  · rw [if_neg hknown]
    have hnone := stateOf_eq_none.mpr hknown
    by_cases heq : jobId' = jobId
    · subst heq
      rw [if_pos ⟨rfl, hnone⟩]
      have hfind := Option.map_eq_none_iff.mp hnone
      simp [stateOf, List.find?_append, hfind]
    · rw [if_neg fun h => heq h.1]
      simp [stateOf, List.find?_append, Ne.symm heq]

/-- The jobs that adding one adds. -/
theorem drop_add (q : PublishQueue) (jobId : String) (data : RequestData) :
    ((q.add jobId data).jobs.drop q.jobs.length).map QueuedJob.id =
      if q.stateOf jobId = none then [jobId] else [] := by
  simp only [stateOf_eq_none, add]
  split <;> simp

/-- Only completed jobs are evicted. -/
theorem stateOf_evict (hids : (q.jobs.map QueuedJob.id).Nodup) (jobId : String) :
    q.evict.stateOf jobId = q.stateOf jobId ∨
      q.stateOf jobId = some .completed ∧ q.evict.stateOf jobId = none := by
  cases hevict : q.evict.jobs.find? fun job => job.id = jobId with
  | some job =>
      left
      have hmem : job ∈ q.jobs := List.mem_of_mem_filter (List.mem_of_find?_eq_some hevict)
      have hid : job.id = jobId := by simpa using List.find?_some hevict
      -- the queue has no other job with the id
      obtain ⟨job', hjob'⟩ := Option.isSome_iff_exists.mp
        (List.find?_isSome.mpr ⟨job, hmem, by simpa using hid⟩ :
          (q.jobs.find? fun job => job.id = jobId).isSome)
      have hid' : job'.id = jobId := by simpa using List.find?_some hjob'
      have heq := List.inj_on_of_nodup_map hids (List.mem_of_find?_eq_some hjob') hmem
        (hid'.trans hid.symm)
      rw [stateOf, stateOf, hevict, hjob', heq]
  | none =>
      cases hjob : q.jobs.find? fun job => job.id = jobId with
      | none => simp [stateOf, hevict, hjob]
      | some job =>
          right
          have hid : job.id = jobId := by simpa using List.find?_some hjob
          refine ⟨?_, by simp [stateOf, hevict]⟩
          by_contra hstate
          -- a job that is not completed is kept
          have hkept : job ∈ q.evict.jobs := by
            refine List.mem_filter.mpr ⟨List.mem_of_find?_eq_some hjob, ?_⟩
            have hnot : job.state ≠ .completed := by simpa [stateOf, hjob] using hstate
            simp [hnot]
          exact List.find?_eq_none.mp hevict job hkept (by simpa using hid)

end PublishQueue

/-- A job that is given up has not failed for the fee. -/
private theorem stalled_not_fee (jobId : String) :
    capacityFailed ⟨jobId, some "job stalled more than allowable limit"⟩ = false :=
  (by decide : capacityFailed ⟨"", some "job stalled more than allowable limit"⟩ = false)

/-- What may still be accepted for a job without its being added, stalled or
retried anew: one extrinsic, where it is waiting or has failed for the fee. -/
def JobState.due (forFee : Bool) : JobState → ℕ
  | waiting | paused | delayed => 1
  | failed => if forFee then 1 else 0
  | active | completed => 0

theorem JobState.due_of_held {state : JobState} (h : state.held) (forFee : Bool) :
    state.due forFee = 1 := by
  cases state <;> first | rfl | cases h

namespace Deliveries

def due (w : Deliveries) (jobId : String) : ℕ :=
  ((w.queue.stateOf jobId).map (JobState.due (w.forFee jobId))).getD 0

/-- How many extrinsics were accepted for a job. -/
def submissions (w : Deliveries) (jobId : String) : ℕ := (w.submitted.map Prod.fst).count jobId

/-- How often a job was added, has stalled, or was retried although it had not
failed for the fee. -/
def occasions (w : Deliveries) (jobId : String) : ℕ :=
  w.added.count jobId + w.stalled.count jobId + w.unfit.count jobId

/-- No id is in the queue twice, and what was accepted for a job and what is due
have each had their occasion. -/
structure Accounted (w : Deliveries) : Prop where
  ids : (w.queue.jobs.map QueuedJob.id).Nodup
  accounted : ∀ jobId, w.submissions jobId + w.due jobId ≤ w.occasions jobId

variable {w w' : Deliveries} {jobId : String}

theorem accounted_init : Accounted {} :=
  ⟨List.nodup_nil, fun _ => by simp [submissions, due, PublishQueue.stateOf]⟩

/-- A step that concerns one job. -/
private theorem Accounted.of_job (h : Accounted w) (jobId : String)
    (hids : (w'.queue.jobs.map QueuedJob.id).Nodup)
    (hother : ∀ jobId', jobId' ≠ jobId → w'.submissions jobId' = w.submissions jobId' ∧
      w'.due jobId' ≤ w.due jobId' ∧ w'.occasions jobId' = w.occasions jobId')
    (hself : w.submissions jobId + w.due jobId ≤ w.occasions jobId →
      w'.submissions jobId + w'.due jobId ≤ w'.occasions jobId) : Accounted w' where
  ids := hids
  accounted jobId' := by
    by_cases heq : jobId' = jobId
    · rw [heq]
      exact hself (h.accounted jobId)
    · obtain ⟨hsubmissions, hdue, hoccasions⟩ := hother jobId' heq
      have hle := h.accounted jobId'
      omega

/-- The ids of the jobs are not touched by what happens to one. -/
private theorem ids_set (q : PublishQueue) (jobId : String) (state : JobState) :
    (q.set jobId state).jobs.map QueuedJob.id = q.jobs.map QueuedJob.id := by
  rw [PublishQueue.set, List.map_map]
  refine List.map_congr_left fun job _ => ?_
  simp only [Function.comp]
  split <;> rfl

/-- What is due for the other jobs stays due. -/
private theorem due_set_of_ne {state : JobState} (hqueue : w'.queue = w.queue.set jobId state)
    {jobId' : String} (hne : jobId' ≠ jobId)
    (hreason : w'.failedReason jobId' = w.failedReason jobId') : w'.due jobId' = w.due jobId' := by
  rw [due, due, hqueue, PublishQueue.stateOf_set, if_neg hne, forFee, forFee, hreason]

/-- And for the job itself what its new state says. -/
private theorem due_set_self {state state' : JobState} (hqueue : w'.queue = w.queue.set jobId state)
    (hstate : w.queue.stateOf jobId = some state') :
    w'.due jobId = state.due (w'.forFee jobId) := by
  rw [due, hqueue, PublishQueue.stateOf_set, if_pos rfl, hstate]
  rfl

/-- A job is moved to another state; where more is due than before, there is an
occasion for it. -/
private theorem Accounted.moved (h : Accounted w) {state state' : JobState}
    (hqueue : w'.queue = w.queue.set jobId state) (hstate : w.queue.stateOf jobId = some state')
    (hreason : ∀ jobId', jobId' ≠ jobId → w'.failedReason jobId' = w.failedReason jobId')
    (hsubmissions : ∀ jobId', jobId' ≠ jobId → w'.submissions jobId' = w.submissions jobId')
    (hoccasions : ∀ jobId', jobId' ≠ jobId → w'.occasions jobId' = w.occasions jobId')
    (hself : w'.submissions jobId + state.due (w'.forFee jobId) + w.occasions jobId ≤
      w.submissions jobId + state'.due (w.forFee jobId) + w'.occasions jobId) :
    Accounted w' := by
  have hdue : w.due jobId = state'.due (w.forFee jobId) := by
    rw [due, hstate]
    rfl
  refine h.of_job jobId (by rw [hqueue, ids_set]; exact h.ids) (fun jobId' hne => ?_) fun hle => ?_
  · exact ⟨hsubmissions jobId' hne, (due_set_of_ne hqueue hne (hreason jobId' hne)).le,
      hoccasions jobId' hne⟩
  · rw [due_set_self hqueue hstate]
    omega

/-- Completed jobs are evicted, for which nothing is due. -/
private theorem Accounted.evict (h : Accounted w) : Accounted { w with queue := w.queue.evict } where
  ids := (List.filter_sublist.map QueuedJob.id).nodup h.ids
  accounted jobId := by
    have hdue : due { w with queue := w.queue.evict } jobId ≤ w.due jobId := by
      rcases PublishQueue.stateOf_evict h.ids jobId with hsame | ⟨-, hnone⟩
      · exact le_of_eq (by rw [due, due, hsame]; rfl)
      · rw [due, hnone]
        exact Nat.zero_le _
    exact (Nat.add_le_add_left hdue _).trans (h.accounted jobId)

/-- A request adds a job, for which one submission is due, or changes nothing. -/
private theorem Accounted.add (h : Accounted w) (jobId : String) (data : RequestData)
    (posted : List ApiPost) :
    Accounted { w with
      queue := w.queue.add jobId data
      posted := posted
      added := ((w.queue.add jobId data).jobs.drop w.queue.jobs.length).map QueuedJob.id ++
        w.added } := by
  rw [PublishQueue.drop_add]
  by_cases hnone : w.queue.stateOf jobId = none
  · rw [if_pos hnone, List.singleton_append]
    have hadded : (w.queue.add jobId data).stateOf jobId = some .waiting := by
      rw [PublishQueue.stateOf_add, if_pos ⟨rfl, hnone⟩]
    refine h.of_job jobId ?_ (fun jobId' hne => ⟨rfl, ?_, ?_⟩) fun hle => ?_
    · have hnew : jobId ∉ w.queue.jobs.map QueuedJob.id := PublishQueue.stateOf_eq_none.mp hnone
      rw [PublishQueue.add, if_neg hnew, List.map_append, List.map_cons, List.map_nil]
      refine List.nodup_append.mpr ⟨h.ids, List.nodup_singleton _, fun a ha b hb hab => ?_⟩
      have hb' : b = jobId := List.mem_singleton.mp hb
      exact hnew (hb' ▸ hab ▸ ha)
    · refine le_of_eq ?_
      rw [due, due, PublishQueue.stateOf_add, if_neg fun h => hne h.1]
      rfl
    · simp [occasions, List.count_cons_of_ne hne.symm]
    · have hdue : w.due jobId = 0 := by simp [due, hnone]
      have hdue' : due { w with
          queue := w.queue.add jobId data
          posted := posted
          added := jobId :: w.added } jobId = 1 := by
        rw [due, hadded]
        rfl
      rw [hdue']
      simp only [occasions, List.count_cons_self] at hle ⊢
      simp only [submissions] at hle ⊢
      omega
  · have hsame : w.queue.add jobId data = w.queue := by
      have hknown : jobId ∈ w.queue.jobs.map QueuedJob.id :=
        not_not.mp (mt PublishQueue.stateOf_eq_none.mpr hnone)
      rw [PublishQueue.add, if_pos hknown]
    rw [if_neg hnone, hsame, List.nil_append]
    exact ⟨h.ids, h.accounted⟩

/-- An execution leaves as much due as it has not submitted. -/
private theorem Accounted.run (h : Accounted w) (configService : ConfigService) (job : Job)
    (hwaiting : w.queue.stateOf job.id = some .waiting) (outcomes : NodeOutcomes)
    (watchList : Hash → Option ITxStatus) (calls : ℕ) (delays : Bool) :
    let r := ((process configService job).upTo calls).exec outcomes.machine (.start watchList)
    Accounted { w.ended job.id delays r.1 with
      submitted := (r.2.accepted.map fun sent => (job.id, sent.2)) ++ w.submitted } := by
  intro r
  obtain ⟨hone, hnone⟩ := process_submits configService job outcomes watchList calls
  -- what is due of a job that waits is one submission
  have hmoved : ∀ (w' : Deliveries) (state : JobState),
      w'.queue = w.queue.set job.id state →
      (∀ jobId', jobId' ≠ job.id → w'.failedReason jobId' = w.failedReason jobId') →
      w'.submitted = (r.2.accepted.map fun sent => (job.id, sent.2)) ++ w.submitted →
      (∀ jobId', w'.occasions jobId' = w.occasions jobId') →
      r.2.accepted.length + state.due (w'.forFee job.id) ≤ 1 → Accounted w' := by
    intro w' state hqueue hreason hsubmitted hoccasions hle
    have hcount : ∀ jobId', w'.submissions jobId' =
        (List.replicate r.2.accepted.length job.id).count jobId' + w.submissions jobId' := by
      intro jobId'
      rw [submissions, hsubmitted, List.map_append, List.count_append, List.map_map]
      exact congrArg (· + _) (congrArg (List.count jobId') List.map_const')
    refine h.moved hqueue hwaiting hreason (fun jobId' hne => ?_) (fun _ _ => hoccasions _) ?_
    · rw [hcount, List.count_replicate, if_neg (by simpa using hne.symm), Nat.zero_add]
    · rw [hcount, List.count_replicate_self, hoccasions]
      have hdue : JobState.waiting.due (w.forFee job.id) = 1 := rfl
      omega
  cases hr : r.1 with
  | returned u =>
      have hcompleted := hmoved { w with
        queue := w.queue.set job.id .completed
        submitted := (r.2.accepted.map fun sent => (job.id, sent.2)) ++ w.submitted } .completed rfl
        (fun _ _ => rfl) rfl (fun _ => rfl) hone
      exact hcompleted.evict
  | stopped => exact hmoved _ .active rfl (fun _ _ => rfl) rfl (fun _ => rfl) hone
  | threw e =>
      have hfailed : e ≠ .delayed → Accounted { w with
          queue := w.queue.set job.id .failed
          failedReason := Function.update w.failedReason job.id e.failedReason
          submitted := (r.2.accepted.map fun sent => (job.id, sent.2)) ++ w.submitted } := by
        intro _
        refine hmoved _ .failed rfl (fun jobId' hne => Function.update_of_ne hne _ _) rfl
          (fun _ => rfl) ?_
        have hfee : forFee { w with
            queue := w.queue.set job.id .failed
            failedReason := Function.update w.failedReason job.id e.failedReason
            submitted := (r.2.accepted.map fun sent => (job.id, sent.2)) ++ w.submitted } job.id =
              capacityFailed ⟨job.id, e.failedReason⟩ := by
          simp [forFee]
        rw [hfee]
        cases hcapacity : capacityFailed ⟨job.id, e.failedReason⟩ with
        | false => simpa [JobState.due] using hone
        | true =>
            have hempty : r.2.accepted = [] := hnone e hr (.inr hcapacity)
            simp [JobState.due, hempty]
      cases e with
      | delayed =>
          have hempty : r.2.accepted = [] := hnone .delayed hr (.inl rfl)
          refine hmoved _ (if delays then .delayed else .active) rfl (fun _ _ => rfl) rfl
            (fun _ => rfl) ?_
          cases delays <;> simp [JobState.due, hempty]
      | _ => exact hfailed (by simp)

end Deliveries

section Runs

variable {configService : ConfigService} {service : EnqueueService}

open Deliveries

/-- **No step leaves a submission without an occasion.** -/
theorem accounted_step {l : DeliveryLabel} {w w' : Deliveries} (h : Accounted w)
    (hstep : (deliveries configService service).step l w = some w') : Accounted w' := by
  cases l with
  | post post how =>
      obtain rfl := Option.some.inj hstep
      have hsame : Accounted { w with
          posted := post :: w.posted
          added := (w.queue.jobs.drop w.queue.jobs.length).map QueuedJob.id ++ w.added } := by
        rw [List.drop_length]
        exact ⟨h.ids, h.accounted⟩
      simp only [ApiPost.serve_exec]
      cases post.job service.providerId with
      | none => exact hsame
      | some job =>
          simp only [enqueueRequest_exec]
          cases how with
          | refuse e => exact hsame
          | _ => exact h.add _ _ _
  | hold jobId state =>
      obtain ⟨⟨hheld, hstate⟩, heq⟩ := Option.ite_none_right_eq_some.mp hstep
      obtain rfl := Option.some.inj heq
      obtain ⟨state', hstate', hheld'⟩ := (Option.any_eq_true _ _).mp hheld
      refine h.moved rfl hstate' (fun _ _ => rfl) (fun _ _ => rfl) (fun _ _ => rfl) ?_
      rw [JobState.due_of_held hstate, JobState.due_of_held hheld']
      exact le_refl _
  | run jobId outcomes watchList calls delays =>
      obtain ⟨hwaiting, heq⟩ := Option.ite_none_right_eq_some.mp hstep
      obtain ⟨data, -, rfl⟩ := Option.map_eq_some_iff.mp heq
      exact h.run configService ⟨jobId, data⟩ hwaiting outcomes watchList calls delays
  | stall jobId =>
      obtain ⟨hactive, heq⟩ := Option.ite_none_right_eq_some.mp hstep
      obtain rfl := Option.some.inj heq
      refine h.moved rfl hactive (fun _ _ => rfl) (fun _ _ => rfl) (fun jobId' hne => ?_) ?_
      · simp [occasions, List.count_cons_of_ne hne.symm]
      · simp only [JobState.due, submissions, occasions, List.count_cons_self]
        omega
  | giveUp jobId =>
      obtain ⟨hactive, heq⟩ := Option.ite_none_right_eq_some.mp hstep
      obtain rfl := Option.some.inj heq
      refine h.moved rfl hactive (fun jobId' hne => Function.update_of_ne hne _ _)
        (fun _ _ => rfl) (fun _ _ => rfl) ?_
      simp [forFee, JobState.due, submissions, occasions, stalled_not_fee jobId]
  | retry jobId =>
      obtain ⟨hfailed, heq⟩ := Option.ite_none_right_eq_some.mp hstep
      obtain rfl := Option.some.inj heq
      cases hfee : w.forFee jobId with
      | true =>
          refine h.moved rfl hfailed (fun _ _ => rfl) (fun _ _ => rfl) (fun _ _ => rfl) ?_
          simp only [hfee, JobState.due, submissions, occasions, if_true]
          exact le_refl _
      | false =>
          refine h.moved rfl hfailed (fun _ _ => rfl) (fun _ _ => rfl) (fun jobId' hne => ?_) ?_
          · simp [occasions, List.count_cons_of_ne hne.symm]
          · simp only [hfee, JobState.due, submissions, occasions, List.count_cons_self,
              Bool.false_eq_true, if_false]
            omega

/-- **Every submission has its occasion.**  Throughout every run of the queue,
the node has accepted no more extrinsics for a job than the job was added, has
stalled, or was retried although it had not failed for the fee. -/
theorem submissions_le (ls : List DeliveryLabel) :
    (deliveries configService service).Throughout
      (fun w => ∀ jobId, w.submissions jobId ≤
        w.added.count jobId + w.stalled.count jobId + w.unfit.count jobId) ls {} := by
  refine ((System.each_true ls {}).throughout (fun _ _ _ _ h hstep => accounted_step h hstep)
    accounted_init).mono fun w h jobId => ?_
  exact (Nat.le_add_right _ _).trans (h.accounted jobId)

/-! ## What is submitted was asked for -/

/-- A request that was posted makes a job of an id, and asks for a call. -/
def ApiPost.Asks (service : EnqueueService) (post : ApiPost) (referenceId : String)
    (call : RuntimeCall) : Prop :=
  ∃ job request, post.job service.providerId = some job ∧
    referenceId = service.calculateJobId job.text ∧
    post.asked service.providerId = some request ∧ request.runtimeCall = some call

/-- Every job of the queue was made of a request that was posted, and what was
accepted was asked for in one. -/
structure Vouched (service : EnqueueService) (w : Deliveries) : Prop where
  jobs : ∀ job ∈ w.queue.jobs, ∃ post ∈ w.posted, ∃ r, post.job service.providerId = some r ∧
    job.id = service.calculateJobId r.text ∧ job.data = ⟨r.text, service.providerId, job.id⟩
  submitted : ∀ s ∈ w.submitted, ∃ post ∈ w.posted, post.Asks service s.1 s.2.call

/-- What moves the jobs about, and posts more, keeps what is said of them. -/
theorem Vouched.of_jobs {w w' : Deliveries} (h : Vouched service w)
    (hjobs : ∀ job' ∈ w'.queue.jobs, ∃ job ∈ w.queue.jobs, job'.id = job.id ∧ job'.data = job.data)
    (hposted : w.posted ⊆ w'.posted)
    (hsubmitted : ∀ s ∈ w'.submitted, s ∉ w.submitted →
      ∃ post ∈ w.posted, post.Asks service s.1 s.2.call) : Vouched service w' where
  jobs job' hjob' := by
    obtain ⟨job, hjob, hid, hdata⟩ := hjobs job' hjob'
    obtain ⟨post, hpost, r, hr, hjobId, heq⟩ := h.jobs job hjob
    exact ⟨post, hposted hpost, r, hr, hid.trans hjobId, by rw [hdata, heq, hid]⟩
  submitted s hs := by
    by_cases hold : s ∈ w.submitted
    · obtain ⟨post, hpost, hasks⟩ := h.submitted s hold
      exact ⟨post, hposted hpost, hasks⟩
    · obtain ⟨post, hpost, hasks⟩ := hsubmitted s hs hold
      exact ⟨post, hposted hpost, hasks⟩

private theorem jobs_set {q : PublishQueue} {jobId : String} {state : JobState} {job' : QueuedJob}
    (h : job' ∈ (q.set jobId state).jobs) :
    ∃ job ∈ q.jobs, job'.id = job.id ∧ job'.data = job.data := by
  obtain ⟨job, hjob, rfl⟩ := List.mem_map.mp h
  exact ⟨job, hjob, by split <;> rfl, by split <;> rfl⟩

/-- A job is moved to another state. -/
theorem Vouched.moved {w w' : Deliveries} (h : Vouched service w) {jobId : String}
    {state : JobState} (hqueue : w'.queue = w.queue.set jobId state)
    (hposted : w'.posted = w.posted) (hsubmitted : w'.submitted = w.submitted) :
    Vouched service w' := by
  refine h.of_jobs (fun job' hjob' => ?_) (by rw [hposted]; exact List.Subset.refl _) ?_
  · rw [hqueue] at hjob'
    exact jobs_set hjob'
  · intro s hs hnew
    rw [hsubmitted] at hs
    exact absurd hs hnew

/-- What an execution does to the queue and to the extrinsics. -/
theorem ended_jobs {w : Deliveries} {jobId : String} {delays : Bool}
    {r : Outcome Err Unit} {job' : QueuedJob} (h : job' ∈ (w.ended jobId delays r).queue.jobs) :
    ∃ job ∈ w.queue.jobs, job'.id = job.id ∧ job'.data = job.data := by
  cases r with
  | returned u => exact jobs_set (List.mem_of_mem_filter h)
  | stopped => exact jobs_set h
  | threw e => cases e <;> exact jobs_set h

theorem ended_posted (w : Deliveries) (jobId : String) (delays : Bool)
    (r : Outcome Err Unit) : (w.ended jobId delays r).posted = w.posted := by
  cases r with
  | threw e => cases e <;> rfl
  | _ => rfl

/-- The end of an execution is recorded. -/
theorem Vouched.ended {w : Deliveries} (h : Vouched service w) (jobId : String) (delays : Bool)
    (r : Outcome Err Unit) : Vouched service (w.ended jobId delays r) := by
  refine h.of_jobs (fun job' hjob' => ended_jobs hjob') ?_ fun s hs hnew => absurd ?_ hnew
  · rw [ended_posted]
    exact List.Subset.refl _
  · cases r with
    | threw e => cases e <;> exact hs
    | _ => exact hs

/-- The job of a request: its id is the digest of the text, and its data are
what was asked for. -/
def Job.IsOf (service : EnqueueService) (post : ApiPost) (job : Job) : Prop :=
  ∃ r request, post.job service.providerId = some r ∧ job.id = service.calculateJobId r.text ∧
    post.asked service.providerId = some request ∧
      job.data = ⟨request, service.providerId, job.id⟩

/-- The data that the worker reads make a job of the request. -/
theorem Vouched.isOf {w : Deliveries} (h : Vouched service w) {jobId : String}
    {data : TransactionData} (hdata : w.queue.dataOf jobId = some data) :
    ∃ post ∈ w.posted, Job.IsOf service post ⟨jobId, data⟩ := by
  obtain ⟨job, hfind, hread⟩ := Option.bind_eq_some_iff.mp hdata
  have hid : job.id = jobId := by simpa using List.find?_some hfind
  obtain ⟨post, hpost, r, hr, hjobId, heq⟩ := h.jobs job (List.mem_of_find?_eq_some hfind)
  rw [heq, ApiPost.read_job hr] at hread
  obtain ⟨request, hrequest, rfl⟩ := Option.map_eq_some_iff.mp hread
  exact ⟨post, hpost, r, request, hr, hid ▸ hjobId, hrequest, by rw [hid]⟩

/-- **The worker has the node accept what a request asks for.** -/
theorem vouched_step {l : DeliveryLabel} {w w' : Deliveries} (h : Vouched service w)
    (hstep : (deliveries configService service).step l w = some w') : Vouched service w' := by
  cases l with
  | post post how =>
      obtain rfl := Option.some.inj hstep
      have hsame : ∀ added, Vouched service { w with posted := post :: w.posted, added := added } :=
        fun added => h.of_jobs (fun job hjob => ⟨job, hjob, rfl, rfl⟩) (List.subset_cons_self _ _)
          fun s hs hnew => absurd hs hnew
      simp only [ApiPost.serve_exec]
      cases hjob : post.job service.providerId with
      | none => exact hsame _
      | some r =>
          have hadd : ∀ added, Vouched service { w with
              queue := w.queue.add (service.calculateJobId r.text)
                ⟨r.text, service.providerId, service.calculateJobId r.text⟩
              posted := post :: w.posted
              added := added } := by
            intro added
            refine { jobs := fun job' hjob' => ?_, submitted := (hsame added).submitted }
            unfold PublishQueue.add at hjob'
            split at hjob'
            · exact (hsame added).jobs job' hjob'
            · rcases List.mem_append.mp hjob' with hold | hnew
              · exact (hsame added).jobs job' hold
              · obtain rfl := List.mem_singleton.mp hnew
                exact ⟨post, List.mem_cons_self, r, hjob, rfl, rfl⟩
          simp only [enqueueRequest_exec]
          cases how with
          | refuse e => exact hsame _
          | _ => exact hadd _
  | run jobId outcomes watchList calls delays =>
      obtain ⟨-, heq⟩ := Option.ite_none_right_eq_some.mp hstep
      obtain ⟨data, hdata, rfl⟩ := Option.map_eq_some_iff.mp heq
      refine h.of_jobs (fun job' hjob' => ended_jobs hjob')
        (by rw [ended_posted]; exact List.Subset.refl _) fun s hs hnew => ?_
      have haccepted := (List.mem_append.mp hs).resolve_right hnew
      obtain ⟨sent, hsent, rfl⟩ := List.mem_map.mp haccepted
      have hasked := process_asked configService ⟨jobId, data⟩ outcomes watchList calls sent hsent
      -- the data are those of a request that was posted
      obtain ⟨post, hpost, r, request, hr, hjobId, hrequest, hdata'⟩ := h.isOf hdata
      obtain rfl : data = ⟨request, service.providerId, jobId⟩ := hdata'
      exact ⟨post, hpost, r, request, hr, hjobId, hrequest, hasked⟩
  | hold jobId state =>
      obtain ⟨-, heq⟩ := Option.ite_none_right_eq_some.mp hstep
      obtain rfl := Option.some.inj heq
      exact h.moved rfl rfl rfl
  | stall jobId =>
      obtain ⟨-, heq⟩ := Option.ite_none_right_eq_some.mp hstep
      obtain rfl := Option.some.inj heq
      exact h.moved rfl rfl rfl
  | giveUp jobId =>
      obtain ⟨-, heq⟩ := Option.ite_none_right_eq_some.mp hstep
      obtain rfl := Option.some.inj heq
      exact h.moved rfl rfl rfl
  | retry jobId =>
      obtain ⟨-, heq⟩ := Option.ite_none_right_eq_some.mp hstep
      obtain rfl := Option.some.inj heq
      exact h.moved rfl rfl rfl

theorem vouched_init : Vouched service {} :=
  ⟨fun _ h => absurd h List.not_mem_nil, fun _ h => absurd h List.not_mem_nil⟩

/-- A request that was posted stays so. -/
theorem posted_subset {l : DeliveryLabel} {w w' : Deliveries}
    (hstep : (deliveries configService service).step l w = some w') : w.posted ⊆ w'.posted := by
  cases l with
  | post post how =>
      obtain rfl := Option.some.inj hstep
      exact List.subset_cons_self _ _
  | run jobId outcomes watchList calls delays =>
      obtain ⟨-, heq⟩ := Option.ite_none_right_eq_some.mp hstep
      obtain ⟨data, -, rfl⟩ := Option.map_eq_some_iff.mp heq
      rw [ended_posted]
      exact List.Subset.refl _
  | _ =>
      obtain ⟨-, heq⟩ := Option.ite_none_right_eq_some.mp hstep
      obtain rfl := Option.some.inj heq
      exact List.Subset.refl _

private theorem vouched_throughout (ls : List DeliveryLabel) :
    (deliveries configService service).Throughout (Vouched service) ls {} :=
  (System.each_true ls _).throughout (fun _ _ _ _ h hstep => vouched_step h hstep) vouched_init

/-- **What is submitted was asked for.**  Throughout every run, whatever the node
has accepted for a job is the call that a request asks for which was posted and
has the id of the job for its reference. -/
theorem submitted_asked (ls : List DeliveryLabel) :
    (deliveries configService service).Throughout
      (fun w => ∀ s ∈ w.submitted, ∃ post ∈ w.posted, post.Asks service s.1 s.2.call) ls {} :=
  (vouched_throughout ls).mono fun _ h => h.submitted

/-- A request is known by the text of the job it makes. -/
theorem ApiPost.asked_eq {post post' : ApiPost} {job job' : Json.Object} {providerId : String}
    (h : post.job providerId = some job) (h' : post'.job providerId = some job')
    (htext : job.text = job'.text) : post.asked providerId = post'.asked providerId := by
  have hread := ApiPost.read_job h ""
  rw [htext, ApiPost.read_job h' ""] at hread
  have hinjective : Function.Injective fun request =>
      (⟨request, providerId, ""⟩ : TransactionData) :=
    fun _ _ heq => congrArg TransactionData.request heq
  exact (Option.map_injective hinjective hread).symm

/-- No two jobs that were asked for have one id, unless they are one. -/
def Deliveries.Distinct (service : EnqueueService) (w : Deliveries) : Prop :=
  ∀ post ∈ w.posted, ∀ post' ∈ w.posted, ∀ job ∈ post.job service.providerId,
    ∀ job' ∈ post'.job service.providerId,
      service.calculateJobId job.text = service.calculateJobId job'.text → job.text = job'.text

/-- **A reference stands for one call.**  Throughout every run, as long as no two
texts have had one digest, all that the node has accepted for a job is one and
the same call, however often it was posted and submitted. -/
theorem reference_one_call (ls : List DeliveryLabel) :
    (deliveries configService service).Throughout
      (fun w => w.Distinct service → ∀ s ∈ w.submitted, ∀ s' ∈ w.submitted, s.1 = s'.1 →
        s.2.call = s'.2.call) ls {} := by
  refine (vouched_throughout ls).mono fun w h hdistinct s hs s' hs' hid => ?_
  obtain ⟨post, hpost, job, request, hjob, hjobId, hasked, hcall⟩ := h.submitted s hs
  obtain ⟨post', hpost', job', request', hjob', hjobId', hasked', hcall'⟩ := h.submitted s' hs'
  have htext := hdistinct post hpost post' hpost' job hjob job' hjob'
    (hjobId.symm.trans (hid.trans hjobId'))
  rw [ApiPost.asked_eq hjob hjob' htext, hasked'] at hasked
  obtain rfl := Option.some.inj hasked
  exact Option.some.inj (hcall.symm.trans hcall')

/-- The connection is never lost. -/
def smoothNode : NodeOutcomes where
  toOutcomes := smooth
  built _ _ _ h := by cases h; rfl
  signed _ _ _ _ h := by cases h; rfl
  connection _ _ _ _ _ h := nomatch h

/-- A sign-up without calls. -/
def signUpPost : ApiPost :=
  .siwf ⟨fun _ _ => some Json.Object.empty, fun _ _ => none⟩
    (Json.Object.empty.setString "signUp" "0x")

/-- It is posted twice; the process dies when its extrinsic has been accepted, and
its job stalls and is executed again. -/
def signUpStalled : List DeliveryLabel :=
  [.post signUpPost .answer, .post signUpPost .answer, .run "a" smoothNode (fun _ => none) 13 true,
    .stall "a", .run "a" smoothNode (fun _ => none) 100 true]

/-- Its job is added once, and submitted twice for one call. -/
theorem reference_one_call_stalled : ∃ w,
    (deliveries (.amountLimit 50) ⟨"1", fun _ => "a"⟩).run signUpStalled {} = some w ∧
      w.Distinct ⟨"1", fun _ => "a"⟩ ∧ w.added = ["a"] ∧ w.submitted.map Prod.fst = ["a", "a"] ∧
        ∀ s ∈ w.submitted, ∀ s' ∈ w.submitted, s.2.call = s'.2.call := by
  have hstate : ((deliveries (.amountLimit 50) ⟨"1", fun _ => "a"⟩).run signUpStalled {}).map
      (fun w => (w.added, w.submitted.map Prod.fst,
        w.posted.map fun post => (post.job "1").map Json.Object.text)) =
      some (["a"], ["a", "a"], List.replicate 2 ((signUpPost.job "1").map Json.Object.text)) := by
    decide +kernel
  obtain ⟨w, hrun, hw⟩ := Option.map_eq_some_iff.mp hstate
  obtain ⟨hadded, hw⟩ := Prod.mk.inj hw
  obtain ⟨hsubmitted, hposted⟩ := Prod.mk.inj hw
  have htext : ∀ post ∈ w.posted, ∀ job ∈ post.job "1",
      (signUpPost.job "1").map Json.Object.text = some job.text := by
    intro post hpost job hjob
    have hmem := List.mem_map_of_mem (f := fun post : ApiPost =>
      (post.job "1").map Json.Object.text) hpost
    rw [hposted] at hmem
    rw [← List.eq_of_mem_replicate hmem, Option.mem_def.mp hjob]
    rfl
  have hdistinct : w.Distinct ⟨"1", fun _ => "a"⟩ := by
    intro post hpost post' hpost' job hjob job' hjob' _
    exact Option.some.inj ((htext post hpost job hjob).symm.trans (htext post' hpost' job' hjob'))
  have hid : ∀ s ∈ w.submitted, s.1 = "a" := by
    intro s hs
    have hmem := List.mem_map_of_mem (f := Prod.fst) hs
    rw [hsubmitted] at hmem
    simpa using hmem
  refine ⟨w, hrun, hdistinct, hadded, hsubmitted, fun s hs s' hs' => ?_⟩
  exact (reference_one_call signUpStalled).run hrun hdistinct s hs s' hs'
    ((hid s hs).trans (hid s' hs').symm)

end Runs

end AccountService
