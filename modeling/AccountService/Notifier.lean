import AccountService.Calls

/-!
# The block scanner and the transaction notifier

`BlockchainScannerService` is an abstract class: `scan` walks the chain from
the last seen block on and leaves to the methods of a subclass when to start,
when to stop and what to do with a block.  `TxnNotifierService` fills these in:
it looks for the extrinsics of the watch list, notifies the webhook of each one
found, adds up the capacity they used and removes them, together with the
entries that have expired, in one pipeline.

The loop of `scan` has no bound of its own and is unrolled `fuel` times.
-/

namespace AccountService

open Async JavaScript

/-! ## BlockchainScannerService -/

structure IBlockchainScanParameters where
  onlyFinalized : Option Bool := none

/-- The setter of `scanParameters` merges into what is there. -/
def IBlockchainScanParameters.merge (old new : IBlockchainScanParameters) :
    IBlockchainScanParameters :=
  { onlyFinalized := new.onlyFinalized <|> old.onlyFinalized }

/-- The methods `scan` calls on itself. -/
structure BlockchainScannerService where
  checkInitialScanParameters : Svc Unit
  getLastSeenBlockNumber : Svc ℕ
  checkScanParameters : ℕ → BlockHash → Svc Unit
  processCurrentBlock : BlockHash → ℕ → Svc Unit

namespace BlockchainScannerService

/-- The base class's `getLastSeenBlockNumber`. -/
def baseLastSeenBlockNumber : Svc ℕ := do
  let seen ← call .getLastSeen
  pure (seen.getD 0)

def setLastSeenBlockNumber (b : ℕ) : Svc Unit := call (.setLastSeen b)

/-- The base class's `checkScanParameters`. -/
def baseCheckScanParameters (scanParameters : IBlockchainScanParameters) (blockNumber : ℕ)
    (blockHash : BlockHash) : Svc Unit :=
  if blockHash.isEmpty then
    Prog.throw
      (.endOfChain s!"Empty block hash encountered; end of chain at block {blockNumber}")
  else if scanParameters.onlyFinalized = some true then do
    let lastFinalizedBlockNumber ← call .getLatestFinalizedBlockNumber
    if lastFinalizedBlockNumber < blockNumber then
      Prog.throw
        (.endOfChain s!"Latest finalized block ({lastFinalizedBlockNumber}) encountered")
    else pure ()
  else pure ()

/-- The loop of `scan`, from a block whose hash is known. -/
def scanFrom (scanner : BlockchainScannerService) : ℕ → ℕ → BlockHash → Svc Unit
  | 0, _, _ => Prog.stop
  | fuel + 1, currentBlockNumber, currentBlockHash => do
      scanner.checkScanParameters currentBlockNumber currentBlockHash
      scanner.processCurrentBlock currentBlockHash currentBlockNumber
      setLastSeenBlockNumber currentBlockNumber
      let nextHash ← call (.getBlockHash (currentBlockNumber + 1))
      scanFrom scanner fuel (currentBlockNumber + 1) nextHash

/-- The body of the `try` block of `scan`. -/
def scanBody (scanner : BlockchainScannerService) (fuel : ℕ) : Svc Unit := do
  scanner.checkInitialScanParameters
  memory (.setScanInProgress true)
  let lastSeenBlockNumber ← scanner.getLastSeenBlockNumber
  let currentBlockNumber := lastSeenBlockNumber + 1
  let currentBlockHash ← call (.getBlockHash currentBlockNumber)
  if currentBlockHash.isEmpty then
    memory (.setScanInProgress false)
  else
    scanFrom scanner fuel currentBlockNumber currentBlockHash

/-- The `catch` block of `scan`: the two ways a scan is meant to end. -/
def scanCatch : Err → Svc Unit
  | .endOfChain _ => pure ()
  | .nullScan _ => pure ()
  | e => Prog.throw e

def scan (scanner : BlockchainScannerService) (fuel : ℕ) : Svc Unit := do
  let scanInProgress ← memory .scanInProgress
  if scanInProgress then
    pure ()
  else
    ((scanner.scanBody fuel).tryCatch scanCatch).tryFinally (memory (.setScanInProgress false))

end BlockchainScannerService

/-! ## Reading a block -/

/-- The extrinsics of a block that are on the watch list, with their index. -/
def extrinsicIndices (pendingTxns : List ITxStatus) (extrinsics : List Hash) :
    List (Hash × ℕ) :=
  extrinsics.zipIdx.filter fun e => pendingTxns.any fun t => t.txHash == e.1

/-- The events of the watched extrinsics. -/
def watchedEvents (indices : List (Hash × ℕ)) (records : List EventRecord) :
    List EventRecord :=
  records.filter fun r => indices.any fun e => r.isOf e.2

/-- The capacity withdrawn in a list of events. -/
def totalCapacityWithdrawn (events : List EventRecord) : ℕ :=
  (events.filterMap fun r => r.event.withdrawnAmount).sum

/-- The entries that are too old for a block number. -/
def expiredTxns (pendingTxns : List ITxStatus) (currentBlockNumber : ℕ) : List Hash :=
  (pendingTxns.filter fun t => t.death ≤ currentBlockNumber).map ITxStatus.txHash

/-! ## The notification -/

/-- The hex rendering of a handle without its prefix, read back as UTF-8. -/
def decodeHandle (handle : List UInt8) : String :=
  utf8ToString (bufferFromHex ((bytesToHex handle).drop 2))

/-- What a result handler extracts from the events of an extrinsic. -/
structure TxnValues where
  msaId : Option String := none
  address : Option String := none
  handle : Option String := none
  newProvider : Option String := none
  newPublicKey : Option String := none
  deriving DecidableEq

def handlePublishHandleTxResult : Event → TxnValues
  | .handleClaimed msaId handle =>
      { handle := some (decodeHandle handle), msaId := some (toString msaId) }
  | _ => {}

def handlePublishKeyTxResult : Event → TxnValues
  | .publicKeyAdded msaId key => { msaId := some (toString msaId), newPublicKey := some key }
  | _ => {}

/-- One record of `handleSIWFTxnResult`. -/
def siwfRecord (values : TxnValues) (record : EventRecord) : TxnValues :=
  match record.event with
  | .msaCreated msaId key =>
      { values with msaId := some (toString msaId), address := some key }
  | .handleClaimed _ handle => { values with handle := some (decodeHandle handle) }
  | .delegationGranted providerId _ => { values with newProvider := some (toString providerId) }
  | _ => values

def handleSIWFTxnResult (txResultEvents : List EventRecord) : TxnValues :=
  txResultEvents.foldl siwfRecord {}

/-- `createWebhookRsp`, with the options spread last. -/
def createWebhookRsp (txStatus : ITxStatus) (msaId : Option String)
    (options : TxWebhookRsp) : TxWebhookRsp :=
  { options with
    transactionType := some txStatus.type
    providerId := some txStatus.providerId
    referenceId := some txStatus.referenceId
    msaId := msaId }

/-- The body posted for an extrinsic with a success event. -/
def webhookResponse (txStatus : ITxStatus) (extrinsicEvents : List EventRecord)
    (successEvent : Event) : TxWebhookRsp :=
  match txStatus.type with
  | .changeHandle | .createHandle =>
      let handleTxnValues := handlePublishHandleTxResult successEvent
      createWebhookRsp txStatus handleTxnValues.msaId { handle := handleTxnValues.handle }
  | .siwfSignup =>
      let siwfTxnValues := handleSIWFTxnResult extrinsicEvents
      createWebhookRsp txStatus siwfTxnValues.msaId
        { accountId := siwfTxnValues.address, handle := siwfTxnValues.handle }
  | .addKey =>
      let publicKeyValues := handlePublishKeyTxResult successEvent
      createWebhookRsp txStatus publicKeyValues.msaId
        { newPublicKey := publicKeyValues.newPublicKey }
  | .siwfSignin => { referenceId := some txStatus.referenceId }

/-! ## TxnNotifierService -/

def SECONDS_PER_BLOCK : ℕ := 12
def MILLISECONDS_PER_SECOND : ℕ := 1000

/-- The metadata of the chain: the name of a module error it knows.
`findMetaError` throws on any other. -/
structure Registry where
  findMetaError : ℕ × ℕ → Option String

namespace TxnNotifierService

/-- The scan parameters the constructor leaves behind. -/
def scanParameters (configService : ConfigService) : IBlockchainScanParameters :=
  ({} : IBlockchainScanParameters).merge
    { onlyFinalized := some configService.trustUnfinalizedBlocks }

def setEpochCapacity (epoch capacityWithdrawn : ℕ) : Svc Unit :=
  Prog.tryCatch
    (do
      let savedCapacity ← call (.getEpochCapacity epoch)
      let newEpochCapacity := savedCapacity.getD 0 + capacityWithdrawn
      let epochDurationBlocks ← call .epochLength
      let epochDuration := epochDurationBlocks * SECONDS_PER_BLOCK * MILLISECONDS_PER_SECOND
      call (.setexEpochCapacity epoch epochDuration newEpochCapacity))
    fun _ => pure ()

def checkInitialScanParameters : Svc Unit := do
  let pendingTxns ← call (.hlen .checkInitialScanParameters)
  if pendingTxns = 0 then
    Prog.throw (.nullScan "No pending extrinsics; no scan will be performed")
  else pure ()

def checkScanParameters (configService : ConfigService) (blockNumber : ℕ)
    (blockHash : BlockHash) : Svc Unit := do
  let pendingTxns ← call (.hlen (.checkScanParameters blockNumber))
  if pendingTxns = 0 then
    Prog.throw (.nullScan "No pending extrinsics; terminating current scan iteration")
  else
    BlockchainScannerService.baseCheckScanParameters (scanParameters configService)
      blockNumber blockHash

/-- The block after which a scan starts. -/
def startingBlock (blockNumber : ℕ) (pendingTxns : List ITxStatus) : ℕ :=
  match (pendingTxns.map ITxStatus.birth).min? with
  | some oldest => max blockNumber oldest
  | none => blockNumber

def getLastSeenBlockNumber : Svc ℕ := do
  let blockNumber ← BlockchainScannerService.baseLastSeenBlockNumber
  let pendingTxns ← call (.hvals .getLastSeenBlockNumber)
  pure (startingBlock blockNumber pendingTxns)

/-- The notification loop with `left` rounds to go. -/
def postRounds (txHash : Hash) (webhook : String) (body : TxWebhookRsp) : ℕ → Svc Unit
  | 0 => pure ()
  | left + 1 => do
      match ← settled (.post txHash webhook body) with
      | .ok _ => pure ()
      | .error _ => postRounds txHash webhook body left

/-- `while (retries < healthCheckMaxRetries)`: the condition holds for
`⌈healthCheckMaxRetries⌉` values of `retries`, counting from the present one. -/
def postFrom (configService : ConfigService) (txHash : Hash) (webhook : String)
    (body : TxWebhookRsp) (retries : ℕ) : Svc Unit :=
  postRounds txHash webhook body (⌈configService.healthCheckMaxRetries⌉₊ - retries)

/-- What is done about one watched extrinsic of the block.  `JSON.parse(null)`
is `null`, whose `successEvent` is first read when an event is compared. -/
def processExtrinsic (configService : ConfigService) (registry : Registry)
    (events : List EventRecord) (txHash : Hash) (txIndex : ℕ) : Svc Unit := do
  let extrinsicEvents := events.filter fun r => r.isOf txIndex
  match ← call (.hget txHash) with
  | none =>
      if extrinsicEvents = [] then pure ()
      else Prog.throw (.error "Cannot read properties of null")
  | some txStatus =>
      match extrinsicEvents.findSome? fun r => r.event.failure with
      | some dispatchError =>
          match dispatchError.asModule with
          | none => Prog.throw (.error "Cannot convert to Module via asModule")
          | some moduleThatErrored =>
              match registry.findMetaError moduleThatErrored with
              | none => Prog.throw (.error "findMetaError: Unable to find Error")
              | some _ => pure ()
      | none =>
          match extrinsicEvents.find? fun r => r.event.name = txStatus.successEvent with
          | some successEvent =>
              postFrom configService txHash configService.providerBaseUrl
                (webhookResponse txStatus extrinsicEvents successEvent.event) 0
          | none => pure ()

/-- The watched extrinsics of a block, one after the other; each is added to
the removal pipeline. -/
def processExtrinsics (configService : ConfigService) (registry : Registry)
    (events : List EventRecord) (indices : List (Hash × ℕ)) (pipeline : List Hash) :
    Svc (List Hash) :=
  indices.foldlM
    (fun pipeline e => do
      processExtrinsic configService registry events e.1 e.2
      pure (pipeline ++ [e.1]))
    pipeline

/-- The part of `processCurrentBlock` for a block with watched extrinsics. -/
def processFound (configService : ConfigService) (registry : Registry)
    (currentBlockHash : BlockHash) (indices : List (Hash × ℕ)) : Svc (List Hash) := do
  call (.apiAt currentBlockHash)
  let epoch ← call (.currentEpochAt currentBlockHash)
  let records ← call (.eventsAt currentBlockHash)
  let events := watchedEvents indices records
  let pipeline ← processExtrinsics configService registry events indices []
  setEpochCapacity epoch (totalCapacityWithdrawn events)
  pure pipeline

def processCurrentBlock (configService : ConfigService) (registry : Registry)
    (currentBlockHash : BlockHash) (currentBlockNumber : ℕ) : Svc Unit := do
  let pendingTxns ← call (.hvals (.processCurrentBlock currentBlockNumber))
  let extrinsics ← call (.getBlock currentBlockHash)
  let indices := extrinsicIndices pendingTxns extrinsics
  let pipeline ←
    if indices = [] then pure []
    else processFound configService registry currentBlockHash indices
  -- `slice` copies, so the loop over expired entries meets the found ones too
  call (.exec (pipeline ++ expiredTxns pendingTxns currentBlockNumber))

/-- The scanner the notifier is. -/
def scanner (configService : ConfigService) (registry : Registry) :
    BlockchainScannerService where
  checkInitialScanParameters := checkInitialScanParameters
  getLastSeenBlockNumber := getLastSeenBlockNumber
  checkScanParameters := checkScanParameters configService
  processCurrentBlock := processCurrentBlock configService registry

/-- `scan()` of the notifier, as the interval timer calls it. -/
def scan (configService : ConfigService) (registry : Registry) (fuel : ℕ) : Svc Unit :=
  (scanner configService registry).scan fuel

/-- With nothing pending, the scan continues from the finalised head. -/
def onApplicationBootstrap : Svc Unit := do
  call .isReady
  let pendingTxns ← call .hkeys
  if pendingTxns = [] then do
    let blockNumber ← call .getLatestFinalizedBlockNumber
    BlockchainScannerService.setLastSeenBlockNumber blockNumber
  else pure ()

/-- The loop as the source has it: test, attempt, leave on success, count a
failure. -/
theorem postFrom_eq (configService : ConfigService) (txHash : Hash) (webhook : String)
    (body : TxWebhookRsp) (retries : ℕ) :
    postFrom configService txHash webhook body retries =
      if (retries : ℚ) < configService.healthCheckMaxRetries then
        (settled (.post txHash webhook body)).bind fun
          | .ok _ => pure ()
          | .error _ => postFrom configService txHash webhook body (retries + 1)
      else pure () := by
  have hlt : (retries : ℚ) < configService.healthCheckMaxRetries ↔
      retries < ⌈configService.healthCheckMaxRetries⌉₊ := Nat.lt_ceil.symm
  unfold postFrom
  split
  · next h =>
    rw [hlt] at h
    obtain ⟨left, hleft⟩ : ∃ left, ⌈configService.healthCheckMaxRetries⌉₊ - retries = left + 1 :=
      ⟨⌈configService.healthCheckMaxRetries⌉₊ - retries - 1, by omega⟩
    have hnext : ⌈configService.healthCheckMaxRetries⌉₊ - (retries + 1) = left := by omega
    rw [hleft, hnext]
    rfl
  · next h =>
    rw [hlt, not_lt] at h
    rw [Nat.sub_eq_zero_of_le h]
    rfl

/-- A scan starts no earlier than after the last seen block. -/
theorem le_startingBlock (blockNumber : ℕ) (pendingTxns : List ITxStatus) :
    blockNumber ≤ startingBlock blockNumber pendingTxns := by
  unfold startingBlock
  split
  · exact le_max_left _ _
  · exact le_rfl

/-- A scan starts no later than after any entry of the list was born. -/
theorem startingBlock_le {blockNumber n : ℕ} {pendingTxns : List ITxStatus} (hle : blockNumber ≤ n)
    (h : pendingTxns = [] ∨ ∃ t ∈ pendingTxns, t.birth ≤ n) :
    startingBlock blockNumber pendingTxns ≤ n := by
  unfold startingBlock
  cases hmin : (pendingTxns.map ITxStatus.birth).min? with
  | none => exact hle
  | some oldest =>
      rcases h with rfl | ⟨t, ht, hbirth⟩
      · cases hmin
      · have holdest := (List.min?_eq_some_iff.mp hmin).2 t.birth (List.mem_map_of_mem ht)
        exact max_le hle (holdest.trans hbirth)

end TxnNotifierService

/-- What is found of a block is an extrinsic of it that is pending. -/
theorem mem_extrinsicIndices {pendingTxns : List ITxStatus} {extrinsics : List Hash}
    {e : Hash × ℕ} : e ∈ extrinsicIndices pendingTxns extrinsics ↔
      e ∈ extrinsics.zipIdx ∧ ∃ t ∈ pendingTxns, t.txHash = e.1 := by
  simp [extrinsicIndices, List.mem_filter]

/-- No index is found twice. -/
theorem nodup_indices (pendingTxns : List ITxStatus) (extrinsics : List Hash) :
    ((extrinsicIndices pendingTxns extrinsics).map Prod.snd).Nodup := by
  have hsublist : ((extrinsicIndices pendingTxns extrinsics).map Prod.snd).Sublist
      (extrinsics.zipIdx.map Prod.snd) := List.filter_sublist.map Prod.snd
  rw [List.zipIdx_map_snd] at hsublist
  exact hsublist.nodup List.nodup_range'

/-! ## The capacity of several extrinsics -/

/-- The total is what each event withdraws, added up. -/
theorem totalCapacityWithdrawn_eq (records : List EventRecord) :
    totalCapacityWithdrawn records = (records.map EventRecord.withdrawn).sum := by
  unfold totalCapacityWithdrawn
  induction records with
  | nil => rfl
  | cons r records ih =>
      rw [List.map_cons, List.sum_cons, ← ih]
      cases hamount : r.event.withdrawnAmount <;> simp [EventRecord.withdrawn, hamount]

/-- An event belongs to one index at most. -/
theorem EventRecord.isOf_inj {r : EventRecord} {i j : ℕ} (hi : r.isOf i) (hj : r.isOf j) :
    i = j := by
  have hphase : r.phase = .applyExtrinsic i := by simpa [isOf] using hi
  have hphase' : r.phase = .applyExtrinsic j := by simpa [isOf] using hj
  rw [hphase] at hphase'
  exact Phase.applyExtrinsic.inj hphase'

/-- An event counts once, whichever of several extrinsics it belongs to. -/
private theorem sum_isOf (r : EventRecord) (amount : ℕ) {indices : List (Hash × ℕ)}
    (hdistinct : (indices.map Prod.snd).Nodup) :
    (indices.map fun e => if r.isOf e.2 then amount else 0).sum =
      if indices.any fun e => r.isOf e.2 then amount else 0 := by
  induction indices with
  | nil => rfl
  | cons e indices ih =>
      rw [List.map_cons, List.nodup_cons] at hdistinct
      rw [List.map_cons, List.sum_cons, ih hdistinct.2, List.any_cons]
      by_cases he : r.isOf e.2
      · have hnone : (indices.any fun e => r.isOf e.2) = false := by
          rw [List.any_eq_false]
          intro e' he' hof
          exact hdistinct.1 (r.isOf_inj he hof ▸ List.mem_map_of_mem he')
        simp [he, hnone]
      · rw [if_neg he, Nat.zero_add, (Bool.not_eq_true _).mp he, Bool.false_or]

/-- The capacity withdrawn for several extrinsics is that of each of them, added
up.  The induction is on the events. -/
theorem totalCapacityWithdrawn_watched {indices : List (Hash × ℕ)}
    (hdistinct : (indices.map Prod.snd).Nodup) (records : List EventRecord) :
    totalCapacityWithdrawn (watchedEvents indices records) =
      (indices.map fun e =>
        ((records.filter fun r => r.isOf e.2).map EventRecord.withdrawn).sum).sum := by
  rw [totalCapacityWithdrawn_eq]
  induction records with
  | nil => simp [watchedEvents]
  | cons r records ih =>
      have hhead : ((watchedEvents indices (r :: records)).map EventRecord.withdrawn).sum =
          (if indices.any fun e => r.isOf e.2 then r.withdrawn else 0) +
            ((watchedEvents indices records).map EventRecord.withdrawn).sum := by
        unfold watchedEvents
        rw [List.filter_cons]
        split
        · rw [List.map_cons, List.sum_cons]
        · rw [Nat.zero_add]
      have heach : ∀ e : Hash × ℕ,
          (((r :: records).filter fun r => r.isOf e.2).map EventRecord.withdrawn).sum =
            (if r.isOf e.2 then r.withdrawn else 0) +
              ((records.filter fun r => r.isOf e.2).map EventRecord.withdrawn).sum := by
        intro e
        rw [List.filter_cons]
        split
        · rw [List.map_cons, List.sum_cons]
        · rw [Nat.zero_add]
      rw [hhead, ih, ← sum_isOf r _ hdistinct, ← List.sum_map_add]
      exact congrArg List.sum (List.map_congr_left fun e _ => (heach e).symm)

/-! ## What is done about the watched extrinsics -/

/-- What a pass does between reading the watch list and executing its pipeline:
it reads the block and the entries, posts, and writes the counter. -/
def ofNotification : Act Worker → Prop
  | .await (.apiAt _) | .await (.currentEpochAt _) | .await (.eventsAt _) => True
  | .await (.hget _) | .await (.post _ _ _) => True
  | .await (.getEpochCapacity _) | .await .epochLength => True
  | .await (.setexEpochCapacity _ _ _) => True
  | _ => False

section Notification

variable (configService : ConfigService) (registry : Registry)

private theorem postRounds_notification (txHash : Hash) (webhook : String) (body : TxWebhookRsp)
    (left : ℕ) :
    Prog.Only ofNotification (TxnNotifierService.postRounds txHash webhook body left) := by
  induction left with
  | zero => trivial
  | succ left ih =>
      refine Prog.Only.bind (by simp [ofNotification]) fun r => ?_
      cases r with
      | ok _ => trivial
      | error _ => exact ih

private theorem processExtrinsic_notification (events : List EventRecord) (txHash : Hash)
    (txIndex : ℕ) :
    Prog.Only ofNotification
      (TxnNotifierService.processExtrinsic configService registry events txHash txIndex) := by
  refine Prog.Only.bind (by simp [ofNotification]) fun entry => ?_
  cases entry with
  | none => exact Prog.Only.ite trivial trivial
  | some txStatus =>
      simp only
      split
      · split
        · trivial
        · split <;> trivial
      · split
        · exact postRounds_notification _ _ _ _
        · trivial

/-- **The watched extrinsics are read of and posted about**, and then all of
them are to be removed. -/
theorem processFound_notification (h : BlockHash) (indices : List (Hash × ℕ)) :
    (TxnNotifierService.processFound configService registry h indices).Follows
      (Protocol.only ofNotification) (fun pipeline _ => pipeline = indices.map Prod.fst)
      (fun _ _ => True) () := by
  simp only [TxnNotifierService.processFound, Prog.bind_eq, Prog.follows_bind, follows_call,
    Prog.pure_eq, Prog.follows_done]
  refine ⟨trivial, fun _ => ?_, fun _ => trivial, fun _ _ => trivial⟩
  refine ⟨trivial, fun epoch => ?_, fun _ => trivial, fun _ _ => trivial⟩
  refine ⟨trivial, fun records => ?_, fun _ => trivial, fun _ _ => trivial⟩
  refine Prog.follows_foldlM
    (fun todo pipeline _ => pipeline ++ todo.map Prod.fst = indices.map Prod.fst) ?_ ?_ _ _ _ rfl
  · intro e todo pipeline _ hpipeline
    simp only [Prog.bind_eq, Prog.follows_bind, Prog.pure_eq, Prog.follows_done]
    refine (processExtrinsic_notification configService registry _ e.1 e.2).mono
      (fun _ _ _ => ?_) fun _ _ _ => trivial
    simpa using hpipeline
  · intro pipeline _ hpipeline
    -- the counter is written after everything has been posted
    have hcapacity : Prog.Only ofNotification (TxnNotifierService.setEpochCapacity epoch
        (totalCapacityWithdrawn (watchedEvents indices records))) := by
      refine Prog.Only.tryCatch ?_ fun _ => trivial
      exact Prog.Only.bind (by simp [ofNotification]) fun _ =>
        Prog.Only.bind (by simp [ofNotification]) fun _ => by simp [ofNotification]
    refine hcapacity.mono (fun _ _ _ => ?_) fun _ _ _ => trivial
    simpa using hpipeline

end Notification

end AccountService
