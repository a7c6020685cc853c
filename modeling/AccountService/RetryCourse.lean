import AccountService.Publisher

/-!
# Listing and retrying

The part of `checkCapacity` that retries, as a course of its own: a check lists
the failed jobs at most once, and the next thing it does is to retry those of
them that nobody could pay for, one after the other and each once.  What a
method of the publisher does besides is left open.
-/

namespace AccountService

open Async

/-- How far a method has come with the failed jobs: it has not listed them yet,
or it has listed them and these are left to be retried. -/
inductive RetryPhase (β : Type) where
  | absent
  | before
  | listed (left : List β)
  deriving DecidableEq

namespace RetryPhase

variable {β γ : Type}

def map (g : β → γ) : RetryPhase β → RetryPhase γ
  | absent => absent
  | before => before
  | listed left => listed (left.map g)

/-- What is left to be retried. -/
def left : RetryPhase β → List β
  | listed left => left
  | _ => []

/-- What a method may do next. -/
def allow : RetryPhase FailedJob → Act Worker → Prop
  | absent, _ => False
  | listed (job :: _), .fire (.retry jobId) => jobId = job.id
  | listed (_ :: _), _ => False
  | _, .fire (.retry _) => False
  | listed [], .await .getFailed => False
  | _, _ => True

/-- Where an operation or a call leads. -/
def next : RetryPhase FailedJob → Obs Worker Err → RetryPhase FailedJob
  | before, .await .getFailed f =>
      match f.seen with
      | .ok failedJobs => listed (failedJobs.filter capacityFailed)
      | .error _ => before
  | listed (_ :: left), .fire (.retry _) => listed left
  | s, _ => s

/-- A method has nothing to retry. -/
def Idle (s : RetryPhase FailedJob) : Prop := s = before ∨ s = listed []

end RetryPhase

/-- The course of a method with respect to the failed jobs. -/
def retryCourse : Protocol Worker Err (RetryPhase FailedJob) where
  allow := RetryPhase.allow
  next := RetryPhase.next

/-- Neither listing nor retrying. -/
def listsNothing : Act Worker → Prop
  | .fire (.retry _) => False
  | .await .getFailed => False
  | _ => True

section Course

variable {configService : ConfigService} {s : RetryPhase FailedJob}

/-- A program that neither lists nor retries leaves its method where it is. -/
theorem idle_stays {α : Type} {p : Svc α} (hp : Prog.Only listsNothing p) (hs : s.Idle) :
    p.Follows retryCourse (fun _ s' => s' = s) (fun _ s' => s' = s) s := by
  refine hp.follows ?_ ?_ ?_ ?_
  · intro act hact
    rcases hs with rfl | rfl
    · cases act with
      | fire c => cases c <;> first | exact hact.elim | trivial
      | _ => trivial
    · cases act with
      | fire c => cases c <;> first | exact hact.elim | trivial
      | await c => cases c <;> first | exact hact.elim | trivial
      | sync l => trivial
  · intro l r _
    rcases hs with rfl | rfl <;> rfl
  · intro c hc
    rcases hs with rfl | rfl <;> rfl
  · intro c f hc
    rcases hs with rfl | rfl
    · cases c <;> first | exact hc.elim | rfl
    · rfl

theorem idle_follows {α : Type} {p : Svc α} (hp : Prog.Only listsNothing p) (hs : s.Idle) :
    p.Follows retryCourse (fun _ s' => s'.Idle) (fun _ s' => s'.Idle) s :=
  (idle_stays hp hs).mono (fun _ _ h => h ▸ hs) fun _ _ h => h ▸ hs

theorem capacityInfo_listsNothing (providerId : String) :
    Prog.Only listsNothing (capacityInfo providerId) := by
  simp only [capacityInfo, Prog.bind_eq]
  repeat refine Prog.Only.bind (by simp [listsNothing]) fun _ => ?_
  trivial

theorem capacityExhausted_listsNothing (info : CapacityInfo) :
    Prog.Only listsNothing (capacityExhausted info) := by
  refine Prog.Only.bind (by simp [listsNothing]) fun _ => Prog.Only.tryCatch ?_ fun _ => trivial
  refine Prog.Only.bind (by simp [listsNothing]) fun registered => ?_
  cases registered with
  | false => exact Prog.Only.bind (by simp [listsNothing]) fun added => by simp
  | true =>
      refine Prog.Only.bind (by simp [listsNothing]) fun deleted =>
        Prog.Only.bind (by simp) fun _ => ?_
      exact Prog.Only.bind (by simp [listsNothing]) fun added => by simp

/-- **Every job that is listed for it is retried once**, and then nothing is. -/
theorem capacityAvailable_retries :
    capacityAvailable.Follows retryCourse (fun _ s => s.Idle) (fun _ s => s.Idle) .before := by
  simp only [capacityAvailable, Prog.bind_eq, Prog.follows_bind, follows_call]
  refine ⟨trivial, fun failedJobs => ?_, fun _ => .inl rfl, fun _ _ => .inl rfl⟩
  refine (Prog.follows_forM_rest (E := fun _ s => s.Idle)
    (fun jobs s => s = .listed jobs) ?_ _ _ rfl).mono ?_ fun _ _ h => h
  · rintro job jobs _ rfl
    rw [follows_unawaited]
    exact ⟨rfl, rfl⟩
  · rintro _ _ rfl
    refine (idle_follows ?_ (.inr rfl)).mono (fun _ s h => ?_) fun _ _ h => h
    · refine Prog.Only.tryCatch ?_ fun _ => trivial
      exact Prog.Only.bind (by simp [listsNothing]) fun deleted => by simp
    · exact (follows_call .resume).mp (idle_follows ((only_call .resume).mpr trivial) h)

/-- A check is done with the failed jobs when it ends. -/
theorem checkCapacity_retries :
    (checkCapacity configService).Follows retryCourse (fun _ s => s.Idle) (fun _ s => s.Idle)
      .before := by
  simp only [checkCapacity, Prog.bind_eq, Prog.follows_tryCatch, Prog.follows_bind, Prog.pure_eq,
    Prog.follows_done]
  refine (idle_stays (capacityInfo_listsNothing _) (.inl rfl)).mono ?_ fun _ _ h => .inl h
  rintro info _ rfl
  refine (idle_stays ((only_call (.getEpochCapacity info.currentEpoch)).mpr trivial)
    (.inl rfl)).mono ?_ fun _ _ h => .inl h
  rintro epochUsedCapacity _ rfl
  -- the rest of the check, for the two answers
  have hrest : ∀ outOfCapacity : Bool, (Prog.tryCatch
      (if outOfCapacity = true then
          (capacityExhausted info).bind fun _ => Prog.done (!outOfCapacity)
        else capacityAvailable.bind fun _ => Prog.done (!outOfCapacity))
      fun _ => Prog.done (!outOfCapacity)).Follows retryCourse (fun _ s => s.Idle)
      (fun _ s => s.Idle) .before := by
    intro outOfCapacity
    rw [Prog.follows_tryCatch, Prog.follows_ite]
    split
    · rw [Prog.follows_bind]
      exact idle_follows (capacityExhausted_listsNothing info) (.inl rfl)
    · rw [Prog.follows_bind]
      exact capacityAvailable_retries
  rw [Prog.follows_ite]
  split
  · exact hrest true
  · rw [Prog.follows_bind, Prog.follows_ofExcept]
    exact ⟨fun outOfCapacity _ => hrest outOfCapacity, fun _ _ => .inl rfl⟩

theorem publish_listsNothing (data : TransactionData) : Prog.Only listsNothing (publish data) := by
  have hnonce : Prog.Only listsNothing getNextNonce := by
    refine Prog.Only.bind (by simp [listsNothing]) fun nonce => ?_
    refine Prog.Only.bind (by simp [listsNothing]) fun nextNonceIndex => ?_
    exact Prog.Only.ite trivial trivial
  have hsingle : ∀ tx, Prog.Only listsNothing (processSingleTxn tx) := by
    intro tx
    refine Prog.Only.bind (by simp [listsNothing]) fun ext => Prog.Only.bind hnonce fun nonce => ?_
    exact Prog.Only.bind (by simp [listsNothing]) fun sent => trivial
  have hbatch : ∀ txns, Prog.Only listsNothing (processBatchTxn txns) := by
    intro txns
    refine Prog.Only.bind (by simp [listsNothing]) fun ext => Prog.Only.bind hnonce fun nonce => ?_
    exact Prog.Only.bind (by simp [listsNothing]) fun sent => trivial
  have hsubmit : Prog.Only listsNothing (submit data) := by
    unfold submit
    cases data.request with
    | createHandle request | changeHandle request | addKey request =>
        refine Prog.Only.bind ((only_call _).mpr trivial) fun tx => ?_
        exact Prog.Only.bind (hsingle tx) fun txHash => trivial
    | siwfSignup calls =>
        refine Prog.Only.bind ?_ fun txns => Prog.Only.bind (hbatch txns) fun sent => trivial
        exact Prog.follows_mapM (J := fun _ => True)
          (fun x _ _ => (only_call (.tx (.encoded x))).mpr trivial) _ _ trivial
    | siwfSignin => trivial
  refine Prog.Only.bind (by simp [listsNothing]) fun height => Prog.Only.bind hsubmit fun sent => ?_
  obtain ⟨tx, txHash, targetEvent⟩ := sent
  simp only
  cases tx.era.asMortalEra with
  | none => trivial
  | some era => exact (only_unawaited _).mpr trivial

theorem process_retries (job : Job) :
    (process configService job).Follows retryCourse (fun _ s => s.Idle) (fun _ s => s.Idle)
      .before := by
  simp only [process, Prog.tryCatch_throw, Prog.bind_eq, Prog.follows_bind]
  refine checkCapacity_retries.mono (fun available s hs => ?_) fun _ _ h => h
  cases available with
  | true => exact idle_follows (publish_listsNothing job.data) hs
  | false =>
      refine idle_follows (Prog.Only.bind ?_ fun _ => trivial) hs
      exact (only_unawaited _).mpr trivial

theorem onApplicationBootstrap_retries :
    (TransactionPublisherService.onApplicationBootstrap configService).Follows retryCourse
      (fun _ s => s.Idle) (fun _ s => s.Idle) .before := by
  simp only [TransactionPublisherService.onApplicationBootstrap, Prog.bind_eq, Prog.follows_bind]
  exact checkCapacity_retries.mono (fun _ _ h => h) fun _ _ h => h

theorem onCapacityTimeout_retries :
    (TransactionPublisherService.onCapacityTimeout configService).Follows retryCourse
      (fun _ s => s.Idle) (fun _ s => s.Idle) .before := by
  simp only [TransactionPublisherService.onCapacityTimeout, Prog.bind_eq, Prog.follows_bind]
  exact checkCapacity_retries.mono (fun _ _ h => h) fun _ _ h => h

theorem onApplicationShutdown_retries :
    TransactionPublisherService.onApplicationShutdown.Follows retryCourse (fun _ s => s.Idle)
      (fun _ s => s.Idle) .before := by
  refine idle_follows (Prog.Only.tryCatch ?_ fun _ => trivial) (.inl rfl)
  exact Prog.Only.bind (by simp [listsNothing]) fun deleted => by simp

end Course

end AccountService
