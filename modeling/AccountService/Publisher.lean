import AccountService.Notifier

/-!
# The nonce service and the transaction publisher

`getNextNonce` reserves the first free one of fifty Redis keys following the
account's next index.  `process` checks the capacity, builds the extrinsic of
the job, wraps it so that the provider pays, submits it and writes the
watch-list entry; `checkCapacity` also pauses and resumes the queue.
-/

namespace AccountService

open Async JavaScript

/-! ## NonceService -/

def NUMBER_OF_NONCE_KEYS_TO_CHECK : ℕ := 50
def NONCE_KEY_EXPIRE_SECONDS : ℕ := 2
def CHAIN_NONCE_KEY : String := "chain:nonce"

def getNonceKey (suffix : String) : String := CHAIN_NONCE_KEY ++ ":" ++ suffix

/-- `currentNonce + i`: the index is an object, so `+` concatenates its decimal
rendering with that of `i`. -/
def indexPlus (currentNonce i : ℕ) : String := toString currentNonce ++ toString i

def getNextPossibleKeys (currentNonce : ℕ) : List String :=
  (List.range NUMBER_OF_NONCE_KEYS_TO_CHECK).map fun i => getNonceKey (indexPlus currentNonce i)

/-- `lua/incrementNonce.lua` from key `i` on: the index of the first key that
does not exist, and `-1` when all do. -/
def incrementNonceFrom (keyExists : String → Bool) : ℕ → List String → ℤ
  | _, [] => -1
  | i, nextKey :: keys =>
      if keyExists nextKey then incrementNonceFrom keyExists (i + 1) keys else i

def incrementNonce (keyExists : String → Bool) (keys : List String) : ℤ :=
  incrementNonceFrom keyExists 1 keys

def getNextNonce : Svc ℕ := do
  let nonce ← call .accountNextIndex
  let keys := getNextPossibleKeys nonce
  let nextNonceIndex ← call (.incrementNonce keys keys.length NONCE_KEY_EXPIRE_SECONDS)
  if nextNonceIndex = -1 then
    pure (nonce + NUMBER_OF_NONCE_KEYS_TO_CHECK)
  else
    pure (nonce + nextNonceIndex - 1).toNat

/-! ## Building and submitting extrinsics -/

def publishHandle (type : TransactionType) (request : HandleRequest) : Svc SubmittableExtrinsic :=
  let claimHandlePayload : ClaimHandlePayload :=
    { baseHandle := bytesOfString request.baseHandle, expiration := request.expiration }
  match type with
  | .createHandle => call (.tx (.claimHandle request.accountId request.proof claimHandlePayload))
  | .changeHandle => call (.tx (.changeHandle request.accountId request.proof claimHandlePayload))
  | _ => Prog.throw (.error "Unrecognized transaction type")

def addPublicKeyToMsa (keysRequest : KeysRequest) : Svc SubmittableExtrinsic :=
  call (.tx (.addPublicKeyToMsa keysRequest.msaOwnerAddress keysRequest.msaOwnerSignature
    keysRequest.newKeyOwnerSignature keysRequest.payload))

/-- The hash of the outer extrinsic; the signed extrinsic stays in the wrapper. -/
def processSingleTxn (tx : SubmittableExtrinsic) : Svc Hash := do
  let ext ← call (.tx (.payWithCapacity tx.call))
  let nonce ← getNextNonce
  let sent ← call (.signAndSend ext nonce)
  pure sent.1

/-- The signed outer extrinsic with its hash. -/
def processBatchTxn (callVec : List SubmittableExtrinsic) : Svc (SubmittableExtrinsic × Hash) := do
  let ext ← call (.tx (.payWithCapacityBatchAll (callVec.map SubmittableExtrinsic.call)))
  let nonce ← getNextNonce
  let sent ← call (.signAndSend ext nonce)
  pure (sent.2, sent.1)

/-! ## The capacity check -/

structure CapacityInfo where
  currentBlockNumber : ℕ
  nextEpochStart : ℕ
  remainingCapacity : ℕ
  totalCapacityIssued : ℕ
  currentEpoch : ℕ

def capacityInfo (providerId : String) : Svc CapacityInfo := do
  let epochStart ← call .currentEpochInfo
  let epochBlockLength ← call .epochLength
  let capacityDetails ← call (.capacityLedger providerId)
  let details := capacityDetails.getD ⟨0, 0⟩
  let currentBlock ← call .blockNumber
  let currentEpoch ← call .currentEpoch
  pure
    { currentEpoch := currentEpoch
      currentBlockNumber := currentBlock
      nextEpochStart := epochStart + epochBlockLength
      remainingCapacity := details.remainingCapacity
      totalCapacityIssued := details.totalCapacityIssued }

/-- Whether what was used in the epoch reaches the configured limit. -/
def thresholdReached (capacityLimit : ICapacityLimit) (totalCapacityIssued epochUsedCapacity : ℕ) :
    Except Err Bool :=
  match capacityLimit.type with
  | .percentage =>
      match capacityLimit.value.toBigInt with
      | some capacityLimitPercentage =>
          .ok (decide (Int.tdiv (totalCapacityIssued * capacityLimitPercentage) 100 ≤
            epochUsedCapacity))
      | none => .error (.error "Cannot convert to a BigInt")
  | .amount => .ok (bigIntGe epochUsedCapacity capacityLimit.value)

/-- Capacity is exhausted: pause the queue and look again in the next epoch. -/
def capacityExhausted (info : CapacityInfo) : Svc Unit := do
  call .pause
  let blocksRemaining : ℤ := info.nextEpochStart - info.currentBlockNumber
  let epochTimeout := blocksRemaining * SECONDS_PER_BLOCK * MILLISECONDS_PER_SECOND
  Prog.tryCatch
    (do
      if ← memory .doesExist then
        Prog.ofExcept (← memory .deleteTimeout)
      Prog.ofExcept (← memory (.addTimeout epochTimeout)))
    fun _ => pure ()

/-- The job failed because nobody could pay for it. -/
def capacityFailed (job : FailedJob) : Bool :=
  match job.failedReason with
  | some reason =>
      includes reason "1010: Invalid Transaction: Inability to pay some fees"
  | none => false

/-- Capacity is available: retry what failed for the lack of it and resume the
queue.  Awaiting the retries that were only started gives other continuations a
turn and nothing else. -/
def capacityAvailable : Svc Unit := do
  let failedJobs ← call .getFailed
  (failedJobs.filter capacityFailed).forM fun job => unawaited (.retry job.id)
  Prog.tryCatch (do Prog.ofExcept (← memory .deleteTimeout)) fun _ => pure ()
  call .resume

/-- `checkCapacity`.  The source has one `try` block and a flag that survives
it; an exception before the flag is set leaves it `false`, a later one leaves
it as it is, which the two nested handlers return. -/
def checkCapacity (configService : ConfigService) : Svc Bool :=
  Prog.tryCatch
    (do
      let info ← capacityInfo configService.providerId
      let epochUsedCapacity ← call (.getEpochCapacity info.currentEpoch)
      let outOfCapacity ←
        if info.remainingCapacity = 0 then pure true
        else
          Prog.ofExcept (thresholdReached configService.capacityLimit info.totalCapacityIssued
            (epochUsedCapacity.getD 0))
      Prog.tryCatch
        (do
          if outOfCapacity then capacityExhausted info else capacityAvailable
          pure (!outOfCapacity))
        fun _ => pure (!outOfCapacity))
    fun _ => pure true

/-- What a capacity check may do. -/
def ofGate : Act Worker → Prop
  | .sync _ => True
  | .fire (.retry _) => True
  | .await .currentEpochInfo | .await .epochLength | .await (.capacityLedger _) => True
  | .await .blockNumber | .await .currentEpoch | .await (.getEpochCapacity _) => True
  | .await .pause | .await .getFailed | .await .resume => True
  | _ => False

private theorem capacityExhausted_gate (info : CapacityInfo) :
    Prog.Only ofGate (capacityExhausted info) := by
  refine Prog.Only.bind (by simp [ofGate]) fun _ => Prog.Only.tryCatch ?_ fun _ => trivial
  refine Prog.Only.bind (by simp [ofGate]) fun registered => ?_
  cases registered with
  | false => exact Prog.Only.bind (by simp [ofGate]) fun added => by simp
  | true =>
      refine Prog.Only.bind (by simp [ofGate]) fun deleted => Prog.Only.bind (by simp) fun _ => ?_
      exact Prog.Only.bind (by simp [ofGate]) fun added => by simp

private theorem capacityAvailable_gate : Prog.Only ofGate capacityAvailable := by
  refine Prog.Only.bind (by simp [ofGate]) fun failedJobs => Prog.Only.bind ?_ fun _ => ?_
  · refine Prog.follows_forM (J := fun _ => True) (fun job _ _ => ?_) _ _ trivial
    exact (only_unawaited (.retry job.id)).mpr trivial
  · refine Prog.Only.bind (Prog.Only.tryCatch ?_ fun _ => trivial) fun _ => by simp [ofGate]
    exact Prog.Only.bind (by simp [ofGate]) fun deleted => by simp

/-- **A check reads, and pauses or resumes the queue**; it does nothing else. -/
theorem checkCapacity_gate (configService : ConfigService) :
    Prog.Only ofGate (checkCapacity configService) := by
  have hinfo : Prog.Only ofGate (capacityInfo configService.providerId) := by
    simp only [capacityInfo, Prog.bind_eq]
    repeat refine Prog.Only.bind (by simp [ofGate]) fun _ => ?_
    trivial
  refine Prog.Only.tryCatch (Prog.Only.bind hinfo fun info => ?_) fun _ => trivial
  refine Prog.Only.bind (by simp [ofGate]) fun epochUsedCapacity => ?_
  -- what follows the decision
  have hrest : ∀ outOfCapacity : Bool, Prog.Only ofGate (Prog.tryCatch
      (if outOfCapacity = true then (capacityExhausted info).bind fun _ => pure (!outOfCapacity)
        else capacityAvailable.bind fun _ => pure (!outOfCapacity))
      fun _ => pure (!outOfCapacity)) := by
    refine fun outOfCapacity => Prog.Only.tryCatch (Prog.Only.ite ?_ ?_) fun _ => trivial
    · exact Prog.Only.bind (capacityExhausted_gate info) fun _ => trivial
    · exact Prog.Only.bind capacityAvailable_gate fun _ => trivial
  exact Prog.Only.ite (hrest true) (Prog.Only.bind (by simp) hrest)

/-! ## Processing a job -/

/-- The submitted extrinsic whose era the entry records, its hash and the event
to wait for, for each type of job. -/
def submit (data : TransactionData) : Svc (SubmittableExtrinsic × Hash × EventName) :=
  match data.request with
  | .createHandle request => do
      let tx ← publishHandle .createHandle request
      let txHash ← processSingleTxn tx
      pure (tx, txHash, ⟨"handles", "HandleClaimed"⟩)
  | .changeHandle request => do
      let tx ← publishHandle .changeHandle request
      let txHash ← processSingleTxn tx
      pure (tx, txHash, ⟨"handles", "HandleClaimed"⟩)
  | .siwfSignup calls => do
      let txns ← (calls.getD []).mapM fun x => call (.tx (.encoded x))
      let sent ← processBatchTxn txns
      pure (sent.1, sent.2, ⟨"utility", "BatchCompleted"⟩)
  | .addKey request => do
      let tx ← addPublicKeyToMsa request
      let txHash ← processSingleTxn tx
      pure (tx, txHash, ⟨"msa", "PublicKeyAdded"⟩)
  | .siwfSignin => Prog.throw (.error "Invalid job type.")

/-- The entry of a submitted extrinsic. -/
def txStatus (data : TransactionData) (txHash : Hash) (targetEvent : EventName)
    (era : MortalEra) (lastFinalizedBlockNumber : ℕ) : ITxStatus :=
  { type := data.request.type
    referenceId := data.referenceId
    providerId := data.providerId
    txHash := txHash
    successEvent := targetEvent
    birth := era.birth lastFinalizedBlockNumber
    death := era.death lastFinalizedBlockNumber }

/-- Submit the extrinsic of a job and have it watched. -/
def publish (data : TransactionData) : Svc Unit := do
  let lastFinalizedBlockNumber ← call .getLatestFinalizedBlockNumber
  let (tx, txHash, targetEvent) ← submit data
  match tx.era.asMortalEra with
  | none => Prog.throw (.error "Cannot convert to MortalEra via asMortalEra")
  | some era =>
      unawaited (.hset txHash (txStatus data txHash targetEvent era lastFinalizedBlockNumber))

def process (configService : ConfigService) (job : Job) : Svc Unit :=
  Prog.tryCatch
    (do
      if ← checkCapacity configService then
        publish job.data
      else
        unawaited (.moveToDelayed job.id)
        Prog.throw .delayed)
    fun error => Prog.throw error

/-! ## The life of the worker -/

namespace TransactionPublisherService

/-- The check at start-up. -/
def onApplicationBootstrap (configService : ConfigService) : Svc Unit := do
  let _ ← checkCapacity configService
  pure ()

/-- The callback of the capacity timer. -/
def onCapacityTimeout (configService : ConfigService) : Svc Unit := do
  let _ ← checkCapacity configService
  pure ()

def onApplicationShutdown : Svc Unit :=
  Prog.tryCatch (do Prog.ofExcept (← memory .deleteTimeout)) fun _ => pure ()

end TransactionPublisherService

end AccountService
