import AccountService.Publisher

/-!
# The course of the publisher's methods

What `checkCapacity` and `process` do, in which order and on the strength of
what: an automaton over the phases of a job, of the check at start-up, of the
callback of the capacity timer and of the shutdown hook.  A phase carries what
later steps rest on, so that the results about the queue, the watch list and
the capacity limit can be proved about phases and need not look into the code.
-/

namespace AccountService

open Async

/-- What a passed capacity check has seen: the capacity issued, the epoch and
the counter of the epoch. -/
structure Gate where
  totalCapacityIssued : ℕ
  epoch : ℕ
  epochUsedCapacity : ℕ
  deriving DecidableEq

/-- What is known of the extrinsic of a job: the finalised height read before
it was built, the largest phase of the eras of the extrinsics built, and the
hash under which the node accepted it. -/
structure Publishing where
  lastFinalizedBlockNumber : Option ℕ := none
  phase : ℕ := 0
  txHash : Option Hash := none
  deriving DecidableEq

/-- The phase of an era; the immortal era has none. -/
def ExtrinsicEra.phaseBound : ExtrinsicEra → ℕ
  | immortal => 0
  | mortal _ phase => phase

/-- How far a method has come.  `passed` is a check that answers `true`, with
what it has seen, or with nothing where it ended early. -/
inductive PublisherPhase where
  | absent
  | reading (details : CapacityDetails) (epoch : ℕ)
  | exhausted
  | paused
  | clearing
  | scheduling
  | available (gate : Gate)
  | resuming (gate : Gate)
  | blocked
  | passed (gate : Option Gate) (publishing : Publishing)
  | finished
  | closing
  deriving DecidableEq

namespace PublisherPhase

/-- A capacity check that has read nothing yet. -/
def checking : PublisherPhase := reading ⟨0, 0⟩ 0

/-- A capacity check is in progress. -/
def inProgress : PublisherPhase → Bool
  | reading _ _ | exhausted | paused | clearing | scheduling | available _ | resuming _ => true
  | _ => false

/-- What a method may do next. -/
def allow : PublisherPhase → Act Worker → Prop
  | reading _ _, .await .currentEpochInfo => True
  | reading _ _, .await .epochLength => True
  | reading _ _, .await (.capacityLedger _) => True
  | reading _ _, .await .blockNumber => True
  | reading _ _, .await .currentEpoch => True
  | reading _ epoch, .await (.getEpochCapacity e) => e = epoch
  | exhausted, .await .pause => True
  | paused, .sync .doesExist => True
  | clearing, .sync .deleteTimeout => True
  | scheduling, .sync (.addTimeout _) => True
  | available _, .await .getFailed => True
  | available _, .fire (.retry _) => True
  | available _, .sync .deleteTimeout => True
  | resuming _, .await .resume => True
  | blocked, .fire (.moveToDelayed _) => True
  | passed _ publishing, .await .getLatestFinalizedBlockNumber => publishing.txHash = none
  | passed _ _, .await (.tx _) => True
  | passed _ _, .await .accountNextIndex => True
  | passed _ _, .await (.incrementNonce _ _ _) => True
  | passed _ publishing, .await (.signAndSend _ _) => publishing.txHash = none
  | passed _ publishing, .fire (.hset txHash status) =>
      publishing.txHash = some txHash ∧ status.txHash = txHash ∧
        ∃ lastFinalizedBlockNumber,
          publishing.lastFinalizedBlockNumber = some lastFinalizedBlockNumber ∧
            status.birth ≤ max lastFinalizedBlockNumber publishing.phase
  | closing, .sync .deleteTimeout => True
  | _, _ => False

/-- What a check decides once it has read everything. -/
def decide (configService : ConfigService) (details : CapacityDetails)
    (epoch epochUsedCapacity : ℕ) : PublisherPhase :=
  if details.remainingCapacity = 0 then exhausted
  else
    match thresholdReached configService.capacityLimit details.totalCapacityIssued
        epochUsedCapacity with
    | .ok true => exhausted
    | .ok false => available ⟨details.totalCapacityIssued, epoch, epochUsedCapacity⟩
    | .error _ => passed none {}

/-- Where a reply to a read leads. -/
def read (configService : ConfigService) (details : CapacityDetails) (epoch : ℕ) :
    (c : Call) → c.Reply → PublisherPhase
  | .capacityLedger _, reply => reading (reply.getD ⟨0, 0⟩) epoch
  | .currentEpoch, reply => reading details reply
  | .getEpochCapacity _, reply => decide configService details epoch (reply.getD 0)
  | _, _ => reading details epoch

/-- Where a reply leads a job whose check has passed. -/
def built (gate : Option Gate) (publishing : Publishing) : (c : Call) → c.Reply → PublisherPhase
  | .getLatestFinalizedBlockNumber, reply =>
      passed gate { publishing with lastFinalizedBlockNumber := some reply }
  | .tx _, reply =>
      passed gate { publishing with phase := max publishing.phase reply.era.phaseBound }
  | .signAndSend _ _, reply =>
      passed gate
        { publishing with
          phase := max publishing.phase reply.2.era.phaseBound
          txHash := some reply.1 }
  | _, _ => passed gate publishing

/-- Where a call leads. -/
def answered (configService : ConfigService) (c : Call) (seen : Except Err c.Reply) :
    PublisherPhase → PublisherPhase
  | reading details epoch =>
      match seen with
      | .ok reply => read configService details epoch c reply
      | .error _ => passed none {}
  | exhausted =>
      match seen with
      | .ok _ => paused
      | .error _ => blocked
  | available gate =>
      match seen with
      | .ok _ => available gate
      | .error _ => passed (some gate) {}
  | resuming gate => passed (some gate) {}
  | passed gate publishing =>
      match seen with
      | .ok reply => built gate publishing c reply
      | .error _ => finished
  | s => s

/-- Where an operation or a call leads. -/
def next (configService : ConfigService) : PublisherPhase → Obs Worker Err → PublisherPhase
  | s, .await c f => answered configService c f.seen s
  | paused, .sync .doesExist r => if r then clearing else scheduling
  | clearing, .sync .deleteTimeout r =>
      match r with
      | .ok _ => scheduling
      | .error _ => blocked
  | scheduling, .sync (.addTimeout _) _ => blocked
  | available gate, .sync .deleteTimeout _ => resuming gate
  | passed _ _, .fire (.hset _ _) => finished
  | s, _ => s

end PublisherPhase

/-- The course of a method of the publisher. -/
def publisherCourse (configService : ConfigService) : Protocol Worker Err PublisherPhase where
  allow := PublisherPhase.allow
  next := PublisherPhase.next configService

section Course

variable {configService : ConfigService} {s : PublisherPhase}

@[simp] theorem publisherCourse_allow (act : Act Worker) :
    (publisherCourse configService).allow s act ↔ s.allow act := Iff.rfl

@[simp] theorem publisherCourse_next (obs : Obs Worker Err) :
    (publisherCourse configService).next s obs = s.next configService obs := rfl

/-- What the information of the capacity check is read into. -/
private theorem capacityInfo_follows (providerId : String) :
    (capacityInfo providerId).Follows (publisherCourse configService)
      (fun info s => s = .reading ⟨info.remainingCapacity, info.totalCapacityIssued⟩
        info.currentEpoch)
      (fun _ s => s = .passed none {}) .checking := by
  simp only [capacityInfo, Prog.bind_eq, Prog.follows_bind, follows_call, Prog.pure_eq,
    Prog.follows_done]
  refine ⟨trivial, fun epochStart => ?_, fun _ => rfl, fun _ _ => rfl⟩
  refine ⟨trivial, fun epochBlockLength => ?_, fun _ => rfl, fun _ _ => rfl⟩
  refine ⟨trivial, fun capacityDetails => ?_, fun _ => rfl, fun _ _ => rfl⟩
  refine ⟨trivial, fun currentBlock => ?_, fun _ => rfl, fun _ _ => rfl⟩
  exact ⟨trivial, fun currentEpoch => rfl, fun _ => rfl, fun _ _ => rfl⟩

/-- Pausing the queue and setting the timer ends in a check that answers
`false`, whatever fails. -/
private theorem capacityExhausted_follows (info : CapacityInfo) :
    (capacityExhausted info).Follows (publisherCourse configService) (fun _ s => s = .blocked)
      (fun _ s => s = .blocked) .exhausted := by
  simp only [capacityExhausted, Prog.bind_eq, Prog.follows_bind, Prog.follows_tryCatch,
    follows_call, follows_memory]
  refine ⟨trivial, fun _ => ?_, fun _ => rfl, fun _ _ => rfl⟩
  refine ⟨trivial, fun exists' => ?_⟩
  cases exists' with
  | false =>
      refine ⟨trivial, fun added => ?_⟩
      cases added <;> rfl
  | true =>
      refine ⟨trivial, fun deleted => ?_⟩
      cases deleted with
      | error e => rfl
      | ok _ =>
          refine ⟨trivial, fun added => ?_⟩
          cases added <;> rfl

/-- Resuming the queue ends in a check that answers `true`, whatever fails. -/
private theorem capacityAvailable_follows (gate : Gate) :
    capacityAvailable.Follows (publisherCourse configService)
      (fun _ s => s = .passed (some gate) {}) (fun _ s => s = .passed (some gate) {})
      (.available gate) := by
  simp only [capacityAvailable, Prog.bind_eq, Prog.follows_bind, Prog.follows_tryCatch,
    follows_call, follows_memory]
  refine ⟨trivial, fun failedJobs => ?_, fun _ => rfl, fun _ _ => rfl⟩
  refine (Prog.follows_forM (J := fun s => s = .available gate) (E := fun _ _ => False) ?_ _ _
    rfl).mono ?_ fun _ _ h => h.elim
  · rintro job _ rfl
    exact ⟨trivial, rfl⟩
  · rintro _ _ rfl
    refine ⟨trivial, fun deleted => ?_⟩
    cases deleted with
    | error e => exact ⟨trivial, fun _ => rfl, fun _ => rfl, fun _ _ => rfl⟩
    | ok _ => exact ⟨trivial, fun _ => rfl, fun _ => rfl, fun _ _ => rfl⟩

/-- How a check ends. -/
def PublisherPhase.Checked (available : Bool) (s : PublisherPhase) : Prop :=
  if available then ∃ gate, s = passed gate {} else s = blocked

/-- **A check returns**, whatever fails, and its answer is its phase. -/
theorem checkCapacity_follows :
    (checkCapacity configService).Follows (publisherCourse configService)
      (fun available s => s.Checked available) (fun _ _ => False) .checking := by
  simp only [checkCapacity, Prog.bind_eq, Prog.follows_tryCatch, Prog.follows_bind, follows_call,
    Prog.pure_eq, Prog.follows_done]
  refine (capacityInfo_follows _).mono ?_ fun _ s h => ⟨_, h⟩
  rintro info s rfl
  refine ⟨rfl, fun epochUsedCapacity => ?_, fun _ => ⟨_, rfl⟩, fun _ _ => ⟨_, rfl⟩⟩
  -- the rest of the check, for the two answers
  have hexhausted : (Prog.tryCatch ((capacityExhausted info).bind fun _ => Prog.done false)
      fun _ => Prog.done false).Follows (publisherCourse configService)
      (fun available s => s.Checked available) (fun _ _ => False) .exhausted := by
    simp only [Prog.follows_tryCatch, Prog.follows_bind, Prog.follows_done]
    exact capacityExhausted_follows info
  have havailable : ∀ gate, (Prog.tryCatch (capacityAvailable.bind fun _ => Prog.done true)
      fun _ => Prog.done true).Follows (publisherCourse configService)
      (fun available s => s.Checked available) (fun _ _ => False) (.available gate) := by
    intro gate
    simp only [Prog.follows_tryCatch, Prog.follows_bind, Prog.follows_done]
    exact (capacityAvailable_follows gate).mono (fun _ _ h => ⟨_, h⟩) fun _ _ h => ⟨_, h⟩
  show Prog.Follows _ _ _ _ (PublisherPhase.decide configService
    ⟨info.remainingCapacity, info.totalCapacityIssued⟩ info.currentEpoch
    (epochUsedCapacity.getD 0))
  unfold PublisherPhase.decide
  by_cases hnone : info.remainingCapacity = 0
  · rw [if_pos hnone, if_pos hnone]
    exact hexhausted.mono (fun _ _ h => h) fun _ _ h => h.elim
  · rw [if_neg hnone, if_neg hnone]
    cases hlimit : thresholdReached configService.capacityLimit info.totalCapacityIssued
        (epochUsedCapacity.getD 0) with
    | error e => exact ⟨_, rfl⟩
    | ok reached =>
        cases reached with
        | true => exact hexhausted.mono (fun _ _ h => h) fun _ _ h => h.elim
        | false => exact (havailable _).mono (fun _ _ h => h) fun _ _ h => h.elim

/-- The extrinsic of the job has been accepted under a hash, and the largest
phase is at least that of the extrinsic whose era is recorded. -/
def PublisherPhase.Submitted (gate : Option Gate) (lastFinalizedBlockNumber : ℕ)
    (sent : SubmittableExtrinsic × Hash × EventName) (s : PublisherPhase) : Prop :=
  ∃ phase, sent.1.era.phaseBound ≤ phase ∧
    s = passed gate ⟨some lastFinalizedBlockNumber, phase, some sent.2.1⟩

section Submit

variable {gate : Option Gate} {lastFinalizedBlockNumber phase : ℕ}

/-- Getting a nonce leaves the job where it is. -/
private theorem getNextNonce_passes (publishing : Publishing) :
    getNextNonce.Follows (publisherCourse configService)
      (fun _ s => s = .passed gate publishing) (fun _ _ => True) (.passed gate publishing) := by
  simp only [getNextNonce, Prog.bind_eq, Prog.follows_bind, follows_call]
  refine ⟨trivial, fun index => ?_, fun _ => trivial, fun _ _ => trivial⟩
  refine ⟨trivial, fun position => ?_, fun _ => trivial, fun _ _ => trivial⟩
  rw [Prog.follows_ite]
  split <;> rfl

private theorem processSingleTxn_follows (tx : SubmittableExtrinsic)
    (hphase : tx.era.phaseBound ≤ phase) (targetEvent : EventName) :
    (processSingleTxn tx).Follows (publisherCourse configService)
      (fun txHash s => s.Submitted gate lastFinalizedBlockNumber (tx, txHash, targetEvent))
      (fun _ _ => True) (.passed gate ⟨some lastFinalizedBlockNumber, phase, none⟩) := by
  simp only [processSingleTxn, Prog.bind_eq, Prog.follows_bind, follows_call, Prog.pure_eq,
    Prog.follows_done]
  refine ⟨trivial, fun ext => ?_, fun _ => trivial, fun _ _ => trivial⟩
  refine (getNextNonce_passes _).mono ?_ fun _ _ _ => trivial
  rintro nonce _ rfl
  refine ⟨rfl, fun sent => ⟨_, ?_, rfl⟩, fun _ => trivial, fun _ _ => trivial⟩
  exact hphase.trans ((le_max_left _ _).trans (le_max_left _ _))

private theorem processBatchTxn_follows (callVec : List SubmittableExtrinsic)
    (targetEvent : EventName) :
    (processBatchTxn callVec).Follows (publisherCourse configService)
      (fun sent s => s.Submitted gate lastFinalizedBlockNumber (sent.1, sent.2, targetEvent))
      (fun _ _ => True) (.passed gate ⟨some lastFinalizedBlockNumber, phase, none⟩) := by
  simp only [processBatchTxn, Prog.bind_eq, Prog.follows_bind, follows_call, Prog.pure_eq,
    Prog.follows_done]
  refine ⟨trivial, fun ext => ?_, fun _ => trivial, fun _ _ => trivial⟩
  refine (getNextNonce_passes _).mono ?_ fun _ _ _ => trivial
  rintro nonce _ rfl
  exact ⟨rfl, fun sent => ⟨_, le_max_right _ _, rfl⟩, fun _ => trivial, fun _ _ => trivial⟩

/-- A job that sends the call it builds by itself. -/
private theorem single_follows (c : RuntimeCall) (targetEvent : EventName) :
    ((call (.tx c)).bind fun tx => (processSingleTxn tx).bind fun txHash =>
      Prog.done (tx, txHash, targetEvent)).Follows (publisherCourse configService)
      (fun sent s => s.Submitted gate lastFinalizedBlockNumber sent) (fun _ _ => True)
      (.passed gate ⟨some lastFinalizedBlockNumber, 0, none⟩) := by
  simp only [Prog.follows_bind, follows_call, Prog.follows_done]
  exact ⟨trivial, fun tx => processSingleTxn_follows tx (le_max_right _ _) targetEvent,
    fun _ => trivial, fun _ _ => trivial⟩

private theorem submit_follows (data : TransactionData) :
    (submit data).Follows (publisherCourse configService)
      (fun sent s => s.Submitted gate lastFinalizedBlockNumber sent)
      (fun _ _ => True) (.passed gate ⟨some lastFinalizedBlockNumber, 0, none⟩) := by
  cases hrequest : data.request with
  | createHandle request => simp only [submit, hrequest]; exact single_follows _ _
  | changeHandle request => simp only [submit, hrequest]; exact single_follows _ _
  | addKey request => simp only [submit, hrequest]; exact single_follows _ _
  | siwfSignin => simp only [submit, hrequest]; trivial
  | siwfSignup calls =>
      simp only [submit, hrequest, Prog.bind_eq, Prog.follows_bind, Prog.pure_eq,
        Prog.follows_done]
      -- the calls are built one by one, and nothing is sent before the batch
      refine (Prog.follows_mapM (J := fun s => ∃ phase,
        s = .passed gate ⟨some lastFinalizedBlockNumber, phase, none⟩) ?_ _ _ ⟨0, rfl⟩).mono ?_
          fun _ _ h => h
      · rintro x _ ⟨phase, rfl⟩
        rw [follows_call]
        exact ⟨trivial, fun tx => ⟨_, rfl⟩, fun _ => trivial, fun _ _ => trivial⟩
      · rintro txns _ ⟨phase, rfl⟩
        exact processBatchTxn_follows txns _

end Submit

/-- An entry is born no later than the finalised height it was computed from
and the phase of its era. -/
private theorem birth_le_phaseBound {era : ExtrinsicEra} {mortal : MortalEra}
    (h : era.asMortalEra = some mortal) (lastFinalizedBlockNumber phase : ℕ)
    (hphase : era.phaseBound ≤ phase) :
    mortal.birth lastFinalizedBlockNumber ≤ max lastFinalizedBlockNumber phase := by
  cases era with
  | immortal => cases h
  | mortal period phase' =>
      obtain rfl := Option.some.inj h
      exact (MortalEra.birth_le _ _).trans (max_le_max le_rfl hphase)

/-- **A job keeps to its course.** -/
theorem process_follows (job : Job) :
    (process configService job).Follows (publisherCourse configService) (fun _ _ => True)
      (fun _ _ => True) .checking := by
  simp only [process, Prog.tryCatch_throw, Prog.bind_eq, Prog.follows_bind]
  refine checkCapacity_follows.mono ?_ fun _ _ h => h.elim
  intro available s hs
  cases available with
  | false =>
      obtain rfl : s = .blocked := hs
      exact ⟨trivial, trivial⟩
  | true =>
      obtain ⟨gate, rfl⟩ : ∃ gate, s = .passed gate {} := hs
      simp only [if_true, publish, Prog.bind_eq, Prog.follows_bind, follows_call]
      refine ⟨rfl, fun lastFinalizedBlockNumber => ?_, fun _ => trivial, fun _ _ => trivial⟩
      refine (submit_follows job.data).mono ?_ fun _ _ _ => trivial
      rintro ⟨tx, txHash, targetEvent⟩ _ ⟨phase, hphase, rfl⟩
      cases hera : tx.era.asMortalEra with
      | none => trivial
      | some era =>
          -- the entry is written off the finalised height that was read first
          refine ⟨⟨rfl, rfl, _, rfl, ?_⟩, trivial⟩
          exact birth_le_phaseBound hera lastFinalizedBlockNumber phase hphase

theorem onApplicationBootstrap_follows :
    (TransactionPublisherService.onApplicationBootstrap configService).Follows
      (publisherCourse configService) (fun _ _ => True) (fun _ _ => True) .checking := by
  simp only [TransactionPublisherService.onApplicationBootstrap, Prog.bind_eq, Prog.follows_bind]
  exact checkCapacity_follows.mono (fun _ _ _ => trivial) fun _ _ _ => trivial

theorem onCapacityTimeout_follows :
    (TransactionPublisherService.onCapacityTimeout configService).Follows
      (publisherCourse configService) (fun _ _ => True) (fun _ _ => True) .checking := by
  simp only [TransactionPublisherService.onCapacityTimeout, Prog.bind_eq, Prog.follows_bind]
  exact checkCapacity_follows.mono (fun _ _ _ => trivial) fun _ _ _ => trivial

theorem onApplicationShutdown_follows :
    TransactionPublisherService.onApplicationShutdown.Follows (publisherCourse configService)
      (fun _ _ => True) (fun _ _ => True) .closing := by
  simp only [TransactionPublisherService.onApplicationShutdown, Prog.bind_eq,
    Prog.follows_tryCatch, Prog.follows_bind, follows_memory]
  refine ⟨trivial, fun deleted => ?_⟩
  cases deleted <;> trivial

end Course

end AccountService
