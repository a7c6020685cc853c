import AccountService.Async.Exec
import AccountService.Async.Steps
import AccountService.Types
import Mathlib.Data.List.Nodup

/-!
# Acknowledged requests

`enqueueRequest` adds a job under an id derived from the request and answers
with that id.  The queue does nothing where it has a job with the id already,
which keeps a request from being in the queue twice.  But a job that has failed
is kept, and stands in the way of the next job for its request: that one is
acknowledged and not added.

A request is kept as the text `JSON.stringify` makes of it, which is all that
its id and the data in the queue depend on.
-/

namespace AccountService

open Async

/-! ## EnqueueService -/

/-- The data of a job: the request with what the service adds to it. -/
structure RequestData where
  request : String
  providerId : String
  referenceId : String
  deriving DecidableEq

/-- The one call adds a job to the queue. -/
structure AddJob where
  name : String
  data : RequestData
  jobId : String

@[reducible] def Enqueue : Interface where
  Call := AddJob
  Reply _ := Unit
  Local := Empty
  Result := Empty.elim

/-- The service, with the digest that makes an id of a text. -/
structure EnqueueService where
  providerId : String
  sha1 : String → String

namespace EnqueueService

def calculateJobId (service : EnqueueService) (jobWithoutId : String) : String :=
  service.sha1 jobWithoutId

/-- The answer is the reference id of the data, whatever the queue has done. -/
def enqueueRequest (service : EnqueueService) (request : String) : Prog Enqueue Err String := do
  let data : RequestData :=
    { request := request
      providerId := service.providerId
      referenceId := service.calculateJobId request }
  Prog.request (I := Enqueue) ⟨s!"Transaction Job - {data.referenceId}", data, data.referenceId⟩
  pure data.referenceId

end EnqueueService

/-! ## The queue -/

inductive JobState where
  | waiting
  | paused
  | delayed
  | active
  | completed
  | failed
  deriving DecidableEq

/-- The job is yet to be processed, or being processed. -/
def JobState.live : JobState → Bool
  | waiting | paused | delayed | active => true
  | completed | failed => false

/-- A job, and when it was completed. -/
structure QueuedJob where
  id : String
  data : RequestData
  state : JobState
  finishedOn : ℕ := 0
  deriving DecidableEq

/-- The jobs of the queue and a clock. -/
structure PublishQueue where
  jobs : List QueuedJob := []
  clock : ℕ := 0
  deriving DecidableEq

/-- How many completed jobs are kept. -/
def removeOnComplete : ℕ := 20

namespace PublishQueue

/-- A job with an id that the queue knows is not added. -/
def add (q : PublishQueue) (jobId : String) (data : RequestData) : PublishQueue :=
  if jobId ∈ q.jobs.map QueuedJob.id then q
  else { q with jobs := q.jobs ++ [{ id := jobId, data := data, state := .waiting }] }

/-- The state of a job changes. -/
def set (q : PublishQueue) (jobId : String) (state : JobState) : PublishQueue :=
  { q with
    jobs := q.jobs.map fun job =>
      if job.id = jobId then { job with state := state, finishedOn := q.clock } else job
    clock := q.clock + 1 }

/-- Of the completed jobs only the latest are kept. -/
def evict (q : PublishQueue) : PublishQueue :=
  { q with
    jobs := q.jobs.filter fun job => job.state = .completed →
      (q.jobs.filter fun other =>
        other.state = .completed ∧ job.finishedOn < other.finishedOn).length < removeOnComplete }

/-- The state of the job with an id. -/
def stateOf (q : PublishQueue) (jobId : String) : Option JobState :=
  (q.jobs.find? fun job => job.id = jobId).map QueuedJob.state

end PublishQueue

/-- A job is added, or the connection fails before or after. -/
def queueMachine (how : Settle Err) : Machine Enqueue Err PublishQueue where
  act l _ := l.elim
  answer c q :=
    let f : Fate Err Unit := how.fate ()
    (f, if f.effect.isSome then q.add c.jobId c.data else q)

/-- What happens to the queue: a request comes in, a job is moved about before
it is completed or fails, and one that has failed may be retried. -/
inductive QueueLabel where
  | enqueue (request : String) (how : Settle Err)
  | move (jobId : String) (state : JobState)
  | complete (jobId : String)
  | fail (jobId : String)
  | retry (jobId : String)

def publishQueue (service : EnqueueService) : System QueueLabel PublishQueue where
  step l q :=
    match l with
    | .enqueue request how => some ((service.enqueueRequest request).exec (queueMachine how) q).2
    | .move jobId state =>
        if (q.stateOf jobId).any JobState.live ∧ state.live then some (q.set jobId state)
        else none
    | .complete jobId =>
        if q.stateOf jobId = some .active then some (q.set jobId .completed).evict else none
    | .fail jobId =>
        if q.stateOf jobId = some .active then some (q.set jobId .failed) else none
    | .retry jobId =>
        if q.stateOf jobId = some .failed then some (q.set jobId .waiting) else none

/-! ## What is promised -/

/-- The queue holds a job for the request that has not failed. -/
def PublishQueue.Holds (q : PublishQueue) (jobId request : String) : Prop :=
  ∃ job ∈ q.jobs, job.id = jobId ∧ job.data.request = request ∧ job.state ≠ .failed

/-- A request that is acknowledged is in the queue. -/
def Acknowledged (service : EnqueueService) (l : QueueLabel) (q q' : PublishQueue) : Prop :=
  ∀ request how referenceId, l = .enqueue request how →
    ((service.enqueueRequest request).exec (queueMachine how) q).1 = .returned referenceId →
      q'.Holds referenceId request

/-- No job for the request has failed when it comes in and is answered. -/
def Untroubled (service : EnqueueService) (l : QueueLabel) (q : PublishQueue) : Prop :=
  ∀ request, l = .enqueue request .answer →
    ∀ job ∈ q.jobs, job.id = service.calculateJobId request → job.state ≠ .failed

/-- No two jobs for one request are live. -/
def OneLive (q : PublishQueue) : Prop :=
  ∀ request, (q.jobs.filter fun job => job.state.live ∧ job.data.request = request).length ≤ 1

/-- What holds of every queue: no id is there twice, and each is that of its
request. -/
structure Filed (service : EnqueueService) (q : PublishQueue) : Prop where
  ids : (q.jobs.map QueuedJob.id).Nodup
  own : ∀ job ∈ q.jobs, job.id = service.calculateJobId job.data.request

section Steps

variable {service : EnqueueService} {l : QueueLabel} {q q' : PublishQueue}

theorem enqueueRequest_exec (request : String) (how : Settle Err) :
    (service.enqueueRequest request).exec (queueMachine how) q =
      (match how with
        | .answer => .returned (service.calculateJobId request)
        | .refuse e => .threw e
        | .lose e => .threw e,
        match how with
        | .refuse _ => q
        | _ => q.add (service.calculateJobId request)
            ⟨request, service.providerId, service.calculateJobId request⟩) := by
  cases how <;> rfl

theorem filed_empty : Filed service {} := ⟨List.nodup_nil, fun _ h => absurd h List.not_mem_nil⟩

theorem Filed.add (h : Filed service q) (request : String) :
    Filed service (q.add (service.calculateJobId request)
      ⟨request, service.providerId, service.calculateJobId request⟩) := by
  unfold PublishQueue.add
  split
  · exact h
  · next hnew =>
    constructor
    · rw [List.map_append, List.nodup_append]
      refine ⟨h.ids, List.nodup_cons.mpr ⟨List.not_mem_nil, List.nodup_nil⟩, fun a ha b hb => ?_⟩
      have hb' : b = service.calculateJobId request := List.mem_singleton.mp hb
      rw [hb']
      exact fun heq => hnew (heq ▸ ha)
    · intro job hjob
      rcases List.mem_append.mp hjob with hold | hadded
      · exact h.own job hold
      · rw [List.mem_singleton.mp hadded]

theorem Filed.set (h : Filed service q) (jobId : String) (state : JobState) :
    Filed service (q.set jobId state) := by
  constructor
  · have hids : (q.set jobId state).jobs.map QueuedJob.id = q.jobs.map QueuedJob.id := by
      rw [PublishQueue.set, List.map_map]
      refine List.map_congr_left fun job _ => ?_
      simp only [Function.comp]
      split <;> rfl
    rw [hids]
    exact h.ids
  · intro job hjob
    obtain ⟨job, hmem, rfl⟩ := List.mem_map.mp hjob
    split
    · exact h.own job hmem
    · exact h.own job hmem

theorem Filed.evict (h : Filed service q) : Filed service q.evict where
  ids := (List.filter_sublist.map QueuedJob.id).nodup h.ids
  own job hjob := h.own job (List.mem_of_mem_filter hjob)

/-- Every step keeps the jobs filed. -/
theorem Filed.step (h : Filed service q) (hstep : (publishQueue service).step l q = some q') :
    Filed service q' := by
  cases l with
  | enqueue request how =>
      simp only [publishQueue, enqueueRequest_exec, Option.some.injEq] at hstep
      rw [← hstep]
      cases how with
      | answer => exact h.add request
      | refuse e => exact h
      | lose e => exact h.add request
  | move jobId state =>
      simp only [publishQueue, Option.ite_none_right_eq_some, Option.some.injEq] at hstep
      rw [← hstep.2]
      exact h.set jobId state
  | complete jobId =>
      simp only [publishQueue, Option.ite_none_right_eq_some, Option.some.injEq] at hstep
      rw [← hstep.2]
      exact (h.set jobId .completed).evict
  | fail jobId =>
      simp only [publishQueue, Option.ite_none_right_eq_some, Option.some.injEq] at hstep
      rw [← hstep.2]
      exact h.set jobId .failed
  | retry jobId =>
      simp only [publishQueue, Option.ite_none_right_eq_some, Option.some.injEq] at hstep
      rw [← hstep.2]
      exact h.set jobId .waiting

/-- Where the jobs are filed, no request has two live ones. -/
theorem Filed.oneLive (h : Filed service q) : OneLive q := by
  intro request
  have hnodup : ((q.jobs.filter fun job => job.state.live ∧ job.data.request = request).map
      QueuedJob.id).Nodup := (List.filter_sublist.map QueuedJob.id).nodup h.ids
  -- the jobs for the request have one id
  have hsame : ∀ jobId ∈ (q.jobs.filter fun job =>
      job.state.live ∧ job.data.request = request).map QueuedJob.id,
        jobId = service.calculateJobId request := by
    intro jobId hjobId
    obtain ⟨job, hjob, rfl⟩ := List.mem_map.mp hjobId
    obtain ⟨hmem, hjob⟩ := List.mem_filter.mp hjob
    rw [h.own job hmem, (of_decide_eq_true hjob).2]
  rw [List.eq_replicate_of_mem hsame, List.nodup_replicate, List.length_map] at hnodup
  exact hnodup

/-- A job that is there already keeps the request's place. -/
theorem Filed.holds_add_iff (hsha1 : Function.Injective service.sha1) (h : Filed service q)
    (request : String) :
    (q.add (service.calculateJobId request)
        ⟨request, service.providerId, service.calculateJobId request⟩).Holds
      (service.calculateJobId request) request ↔
      ∀ job ∈ q.jobs, job.id = service.calculateJobId request → job.state ≠ .failed := by
  unfold PublishQueue.add
  split
  · next hknown =>
    constructor
    · rintro ⟨job, hjob, hid, -, hstate⟩ other hother hid'
      rw [List.inj_on_of_nodup_map h.ids hother hjob (hid'.trans hid.symm)]
      exact hstate
    · intro hnone
      obtain ⟨job, hjob, hid⟩ := List.mem_map.mp hknown
      have hrequest : job.data.request = request := by
        rw [h.own job hjob] at hid
        exact hsha1 hid
      exact ⟨job, hjob, hid, hrequest, hnone job hjob hid⟩
  · next hnew =>
    constructor
    · intro _ job hjob hid
      exact absurd (hid ▸ List.mem_map_of_mem hjob) hnew
    · intro _
      exact ⟨_, List.mem_append_right _ (List.mem_singleton_self _), rfl, rfl, by simp⟩

/-- An acknowledged request is in the queue exactly if no job for it has failed
before. -/
theorem Filed.acknowledged_iff (hsha1 : Function.Injective service.sha1) (h : Filed service q)
    (hstep : (publishQueue service).step l q = some q') :
    Acknowledged service l q q' ↔ Untroubled service l q := by
  cases l with
  | enqueue request how =>
      simp only [publishQueue, Option.some.injEq] at hstep
      subst hstep
      have hiff := h.holds_add_iff hsha1 request
      constructor
      · intro hack request' hl
        obtain ⟨rfl, rfl⟩ := QueueLabel.enqueue.inj hl
        have hholds := hack request .answer (service.calculateJobId request) rfl
          (by rw [enqueueRequest_exec])
        rw [enqueueRequest_exec] at hholds
        exact hiff.mp hholds
      · intro hfree request' how' referenceId hl hreturned
        obtain ⟨rfl, rfl⟩ := QueueLabel.enqueue.inj hl
        rw [enqueueRequest_exec] at hreturned ⊢
        cases how with
        | answer =>
            rw [← Outcome.returned.inj hreturned]
            exact hiff.mpr (hfree request rfl)
        | refuse e => cases hreturned
        -- the job may be in the queue, but the request was not acknowledged
        | lose e => cases hreturned
  | _ =>
      constructor
      · intro _ request hl
        cases hl
      · intro _ request how referenceId hl
        cases hl

end Steps

/-! ## Acknowledged requests -/

/-- **Acknowledged requests.**  In a run from the empty queue no request ever
has two live jobs, and every acknowledged request is in the queue exactly if
none comes in after a job for it has failed. -/
theorem acknowledged_requests_iff (service : EnqueueService)
    (hsha1 : Function.Injective service.sha1) (ls : List QueueLabel) :
    ((publishQueue service).Throughout OneLive ls {} ∧
        (publishQueue service).Each (Acknowledged service) ls {}) ↔
      (publishQueue service).Each (fun l q _ => Untroubled service l q) ls {} := by
  have hthroughout : (publishQueue service).Throughout (Filed service) ls {} :=
    System.Each.throughout (C := fun _ _ _ => True) (fun _ _ _ _ h hstep => h.step hstep)
      (System.each_true ls _) filed_empty
  have hiff : (publishQueue service).Each (Acknowledged service) ls {} ↔
      (publishQueue service).Each (fun l q _ => Untroubled service l q) ls {} :=
    System.each_congr (fun _ _ _ _ h hstep => h.step hstep)
      (fun _ _ _ _ h hstep => h.acknowledged_iff hsha1 hstep) filed_empty
  rw [hiff]
  exact and_iff_right (hthroughout.mono fun _ h => h.oneLive)

/-- A service whose ids are the texts themselves. -/
def EnqueueService.plain : EnqueueService := ⟨"1", id⟩

/-- The job for the request `a`, in a state it has been in since `finishedOn`. -/
def plainJob (state : JobState) (finishedOn : ℕ) : QueuedJob := ⟨"a", ⟨"a", "1", "a"⟩, state, finishedOn⟩

/-- A request that comes in twice is acknowledged twice and queued once. -/
theorem acknowledged_requests_twice :
    (publishQueue .plain).Throughout OneLive [.enqueue "a" .answer, .enqueue "a" .answer] {} ∧
      (publishQueue .plain).Each (Acknowledged .plain)
        [.enqueue "a" .answer, .enqueue "a" .answer] {} := by
  refine (acknowledged_requests_iff .plain Function.injective_id _).mpr ?_
  intro q hq
  refine ⟨fun _ _ job hjob => absurd hjob List.not_mem_nil, ?_⟩
  obtain rfl : q = ⟨[plainJob .waiting 0], 0⟩ := by
    rw [← Option.some.inj hq]
    decide
  intro q' _
  refine ⟨fun _ _ job hjob _ => ?_, trivial⟩
  rw [List.mem_singleton.mp hjob]
  decide

/-- A request comes in, its job fails, and it comes in again. -/
def failedRequest : List QueueLabel :=
  [.enqueue "a" .answer, .move "a" .active, .fail "a", .enqueue "a" .answer]

/-- The second time it is acknowledged, and all there is of it has failed. -/
theorem failed_request_acknowledged :
    ((publishQueue .plain).run failedRequest {}).map PublishQueue.jobs =
        some [plainJob .failed 1] ∧
      ((EnqueueService.plain.enqueueRequest "a").exec (queueMachine .answer)
        ⟨[plainJob .failed 1], 2⟩).1 = .returned "a" ∧
      ¬ (publishQueue .plain).Each (Acknowledged .plain) failedRequest {} := by
  refine ⟨by decide, rfl, fun h => ?_⟩
  have hadded : (publishQueue .plain).step (.enqueue "a" .answer) {} =
      some ⟨[plainJob .waiting 0], 0⟩ := by decide
  have htaken : (publishQueue .plain).step (.move "a" .active) ⟨[plainJob .waiting 0], 0⟩ =
      some ⟨[plainJob .active 0], 1⟩ := by decide
  have hfailed : (publishQueue .plain).step (.fail "a") ⟨[plainJob .active 0], 1⟩ =
      some ⟨[plainJob .failed 1], 2⟩ := by decide
  have hagain : (publishQueue .plain).step (.enqueue "a" .answer) ⟨[plainJob .failed 1], 2⟩ =
      some ⟨[plainJob .failed 1], 2⟩ := by decide
  obtain ⟨job, hjob, -, -, hstate⟩ :=
    ((((h _ hadded).2 _ htaken).2 _ hfailed).2 _ hagain).1 "a" .answer "a" rfl rfl
  rw [List.mem_singleton.mp hjob] at hstate
  exact hstate rfl

end AccountService
