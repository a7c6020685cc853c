import AccountService.Async.History
import AccountService.EventAttribution
import AccountService.Notifications
import AccountService.Submission
import Mathlib.Data.List.NodupEquivFin

/-!
# What a notification rests on

The service with a journal beside it: the jobs that were started, the hash the
node accepted each of their extrinsics under, and every notification that was
attempted.  The journal notes what the publisher and the notifier do; neither
reads it.

Whatever fails, and wherever the process dies, a notification is about the
extrinsic of a job: the node accepted it for that job, the chain includes it,
and the body is what the job and the events of that extrinsic make of it.  And
since the chain includes an extrinsic once, and replaces no block, all
notifications about it agree.
-/

namespace AccountService

open Async

/-! ## What is noted -/

/-- The entry is that of a job whose extrinsic was accepted under a hash. -/
structure ITxStatus.IsFor (status : ITxStatus) (data : TransactionData) (txHash : Hash) :
    Prop where
  txHash : status.txHash = txHash
  type : status.type = data.request.type
  referenceId : status.referenceId = data.referenceId
  providerId : status.providerId = data.providerId
  successEvent : status.successEvent = targetEvent data.request.type

/-- What is noted of the publisher: the job in hand and the hash its extrinsic
was accepted under. -/
structure JobNotes where
  job : Option Job := none
  txHash : Option Hash := none

/-- What is noted of the notifier: the block it reads, with its extrinsics and
its events, and the entry in hand. -/
structure BlockNotes where
  block : BlockHash := 0
  extrinsics : List Hash := []
  records : List EventRecord := []
  entry : Option (Hash × ITxStatus) := none

namespace JobNotes

/-- An extrinsic is submitted for the job in hand, and its entry is written. -/
def allow (s : JobNotes) : Act Worker → Prop
  | .fire (.hset txHash status) =>
      s.txHash = some txHash ∧ ∃ job, s.job = some job ∧ status.IsFor job.data txHash
  | .await (.signAndSend _ _) => ∃ job, s.job = some job
  | .await (.post _ _ _) => False
  | _ => True

def next (s : JobNotes) : Obs Worker Err → JobNotes
  | .await (.signAndSend _ _) f => { s with txHash := f.effect.map Prod.fst }
  | _ => s

end JobNotes

namespace BlockNotes

/-- What there is to post about an extrinsic of the block is posted, and nothing
is submitted or entered. -/
def allow (configService : ConfigService) (s : BlockNotes) : Act Worker → Prop
  | .fire _ => False
  | .await (.signAndSend _ _) => False
  | .await (.eventsAt h) => h = s.block
  | .await (.post txHash url body) =>
      url = configService.providerBaseUrl ∧
        ∃ status index, s.entry = some (txHash, status) ∧ s.extrinsics[index]? = some txHash ∧
          notification status (s.records.filter fun r => r.isOf index) = some body
  | _ => True

def next (s : BlockNotes) : Obs Worker Err → BlockNotes
  | .await (.getBlock h) f =>
      match f.seen with
      | .ok extrinsics => { s with block := h, extrinsics := extrinsics, records := [] }
      | .error _ => s
  | .await (.eventsAt _) f =>
      match f.seen with
      | .ok records => { s with records := records }
      | .error _ => s
  | .await (.hget txHash) f =>
      match f.seen with
      | .ok (some status) => { s with entry := some (txHash, status) }
      | _ => s
  | _ => s

end BlockNotes

/-- What is noted of either. -/
@[reducible] def Role.Notes : Role → Type
  | notifier => BlockNotes
  | publisher => JobNotes

/-- What the notes allow the method at a place. -/
def noteCourse (configService : ConfigService) : (r : Role) → Protocol Worker Err r.Notes
  | .notifier => ⟨BlockNotes.allow configService, BlockNotes.next⟩
  | .publisher => ⟨JobNotes.allow, JobNotes.next⟩

/-! ## The methods keep to the notes -/

section Follows

variable {configService : ConfigService} {registry : Registry}

/-- The events of a watched extrinsic are those of its phase. -/
private theorem filter_watchedEvents {indices : List (Hash × ℕ)} {e : Hash × ℕ} (he : e ∈ indices)
    (records : List EventRecord) :
    (watchedEvents indices records).filter (fun r => r.isOf e.2) =
      records.filter fun r => r.isOf e.2 := by
  unfold watchedEvents
  rw [List.filter_filter]
  refine List.filter_congr fun r _ => ?_
  by_cases hof : r.isOf e.2
  · have hany : indices.any (fun e => r.isOf e.2) = true := List.any_eq_true.mpr ⟨e, he, hof⟩
    simp [hof, hany]
  · simp [hof]

/-- The notification loop posts what the notes allow, and leaves them. -/
private theorem postRounds_notes {s : BlockNotes} {txHash : Hash} {webhook : String}
    {body : TxWebhookRsp} (hallow : s.allow configService (.await (.post txHash webhook body)))
    (left : ℕ) : (TxnNotifierService.postRounds txHash webhook body left).Follows
      (noteCourse configService .notifier) (fun _ s' => s' = s) (fun _ _ => True) s := by
  induction left with
  | zero => rfl
  | succ left ih =>
      simp only [TxnNotifierService.postRounds, Prog.bind_eq, Prog.follows_bind, follows_settled]
      refine ⟨hallow, fun f => ?_⟩
      cases f.seen with
      | ok _ => rfl
      | error _ => exact ih

/-- A watched extrinsic is posted about as its entry and its events have it. -/
private theorem processExtrinsic_notes {indices : List (Hash × ℕ)} {records : List EventRecord}
    {e : Hash × ℕ} (he : e ∈ indices) {s : BlockNotes} (hincluded : s.extrinsics[e.2]? = some e.1)
    (hrecords : s.records = records) :
    (TxnNotifierService.processExtrinsic configService registry (watchedEvents indices records)
        e.1 e.2).Follows (noteCourse configService .notifier)
      (fun _ s' => s'.extrinsics = s.extrinsics ∧ s'.records = records) (fun _ _ => True) s := by
  simp only [TxnNotifierService.processExtrinsic, filter_watchedEvents he, Prog.bind_eq,
    Prog.follows_bind, follows_call]
  refine ⟨trivial, fun entry => ?_, fun _ => trivial, fun _ _ => trivial⟩
  cases entry with
  | none =>
      rw [Prog.follows_ite]
      split
      · exact ⟨rfl, hrecords⟩
      · trivial
  | some status =>
      cases hfailure : (records.filter fun r => r.isOf e.2).findSome? fun r => r.event.failure with
      | some dispatchError =>
          simp only
          split
          · trivial
          · split
            · trivial
            · exact ⟨rfl, hrecords⟩
      | none =>
          simp only
          cases hsuccess : (records.filter fun r => r.isOf e.2).find?
              fun r => r.event.name = status.successEvent with
          | none => exact ⟨rfl, hrecords⟩
          | some successEvent =>
              have hbody : notification status (s.records.filter fun r => r.isOf e.2) =
                  some (webhookResponse status (records.filter fun r => r.isOf e.2)
                    successEvent.event) := by
                rw [hrecords]
                simp only [notification, hfailure, hsuccess, Option.map_some]
              refine (postRounds_notes (s := { s with entry := some (e.1, status) }) ?_ _).mono
                ?_ fun _ _ _ => trivial
              · exact ⟨rfl, status, e.2, rfl, hincluded, hbody⟩
              · rintro _ _ rfl
                exact ⟨rfl, hrecords⟩

/-- So is every watched extrinsic of the block that was read last. -/
private theorem processFound_notes {s : BlockNotes} {indices : List (Hash × ℕ)}
    (hincluded : ∀ e ∈ indices, s.extrinsics[e.2]? = some e.1) :
    (TxnNotifierService.processFound configService registry s.block indices).Follows
      (noteCourse configService .notifier) (fun _ _ => True) (fun _ _ => True) s := by
  simp only [TxnNotifierService.processFound, Prog.bind_eq, Prog.follows_bind, follows_call,
    Prog.pure_eq, Prog.follows_done]
  refine ⟨trivial, fun _ => ?_, fun _ => trivial, fun _ _ => trivial⟩
  refine ⟨trivial, fun epoch => ?_, fun _ => trivial, fun _ _ => trivial⟩
  refine ⟨rfl, fun records => ?_, fun _ => trivial, fun _ _ => trivial⟩
  refine Prog.follows_foldlM
    (fun todo _ (s' : BlockNotes) => (∀ e ∈ todo, e ∈ indices) ∧ s'.extrinsics = s.extrinsics ∧
      s'.records = records) ?_ ?_ _ _ _ ⟨fun _ he => he, rfl, rfl⟩
  · rintro e todo pipeline s' ⟨htodo, hextrinsics, hrecords⟩
    rw [List.forall_mem_cons] at htodo
    simp only [Prog.bind_eq, Prog.follows_bind, Prog.pure_eq, Prog.follows_done]
    refine (processExtrinsic_notes htodo.1 ?_ hrecords).mono ?_ fun _ _ _ => trivial
    · rw [hextrinsics]
      exact hincluded e htodo.1
    · rintro _ s'' ⟨hextrinsics', hrecords'⟩
      exact ⟨htodo.2, hextrinsics'.trans hextrinsics, hrecords'⟩
  · intro pipeline s' _
    simp only [TxnNotifierService.setEpochCapacity, Prog.bind_eq, Prog.follows_tryCatch,
      Prog.follows_bind, follows_call, Prog.pure_eq, Prog.follows_done]
    refine ⟨trivial, fun _ => ?_, fun _ => trivial, fun _ _ => trivial⟩
    refine ⟨trivial, fun _ => ?_, fun _ => trivial, fun _ _ => trivial⟩
    exact ⟨trivial, fun _ => trivial, fun _ => trivial, fun _ _ => trivial⟩

/-- A pass keeps to the notes, whatever they were. -/
private theorem processCurrentBlock_notes (h : BlockHash) (n : ℕ) (s : BlockNotes) :
    (TxnNotifierService.processCurrentBlock configService registry h n).Follows
      (noteCourse configService .notifier) (fun _ _ => True) (fun _ _ => True) s := by
  have hexec : ∀ (hdels : List Hash) (s : BlockNotes), (call (.exec hdels)).Follows
      (noteCourse configService .notifier) (fun _ _ => True) (fun _ _ => True) s := by
    intro hdels s
    rw [follows_call]
    exact ⟨trivial, fun _ => trivial, fun _ => trivial, fun _ _ => trivial⟩
  simp only [TxnNotifierService.processCurrentBlock, Prog.bind_eq, Prog.follows_bind, follows_call]
  refine ⟨trivial, fun pendingTxns => ?_, fun _ => trivial, fun _ _ => trivial⟩
  refine ⟨trivial, fun extrinsics => ?_, fun _ => trivial, fun _ _ => trivial⟩
  split
  · exact hexec _ _
  · rw [Prog.follows_bind]
    refine (processFound_notes (s := ⟨h, extrinsics, [], s.entry⟩) fun e he => ?_).mono
      (fun pipeline s' _ => hexec _ s') fun _ _ _ => trivial
    exact List.mem_zipIdx_iff_getElem?.mp (mem_extrinsicIndices.mp he).1

/-- What a scan does around its passes is nothing the notes look at. -/
private theorem checkScanParameters_notes (n : ℕ) (h : BlockHash) (s : BlockNotes) :
    (TxnNotifierService.checkScanParameters configService n h).Follows
      (noteCourse configService .notifier) (fun _ _ => True) (fun _ _ => True) s := by
  simp only [TxnNotifierService.checkScanParameters, Prog.bind_eq, Prog.follows_bind, follows_call]
  refine ⟨trivial, fun pendingTxns => ?_, fun _ => trivial, fun _ _ => trivial⟩
  rw [Prog.follows_ite]
  split
  · trivial
  · unfold BlockchainScannerService.baseCheckScanParameters
    rw [Prog.follows_ite, Prog.follows_ite, Prog.bind_eq, Prog.follows_bind, follows_call]
    split
    · trivial
    · split
      · refine ⟨trivial, fun finalized => ?_, fun _ => trivial, fun _ _ => trivial⟩
        rw [Prog.follows_ite]
        split <;> trivial
      · trivial

private theorem scanFrom_notes (fuel : ℕ) : ∀ (n : ℕ) (h : BlockHash) (s : BlockNotes),
    ((TxnNotifierService.scanner configService registry).scanFrom fuel n h).Follows
      (noteCourse configService .notifier) (fun _ _ => True) (fun _ _ => True) s := by
  induction fuel with
  | zero => intro n h s; trivial
  | succ fuel ih =>
      intro n h s
      simp only [BlockchainScannerService.scanFrom, Prog.bind_eq, Prog.follows_bind,
        BlockchainScannerService.setLastSeenBlockNumber, follows_call]
      refine (checkScanParameters_notes n h s).mono (fun _ s _ => ?_) fun _ _ _ => trivial
      refine (processCurrentBlock_notes h n s).mono (fun _ s _ => ?_) fun _ _ _ => trivial
      refine ⟨trivial, fun _ => ?_, fun _ => trivial, fun _ _ => trivial⟩
      exact ⟨trivial, fun nextHash => ih (n + 1) nextHash _, fun _ => trivial, fun _ _ => trivial⟩

private theorem scan_notes (fuel : ℕ) (s : BlockNotes) :
    (TxnNotifierService.scan configService registry fuel).Follows
      (noteCourse configService .notifier) (fun _ _ => True) (fun _ _ => True) s := by
  have hclear : ∀ s : BlockNotes, (memory (.setScanInProgress false)).Follows
      (noteCourse configService .notifier) (fun _ _ => True) (fun _ _ => True) s := by
    intro s
    rw [follows_memory]
    exact ⟨trivial, fun _ => trivial⟩
  simp only [TxnNotifierService.scan, BlockchainScannerService.scan, Prog.bind_eq,
    Prog.follows_bind, follows_memory]
  refine ⟨trivial, fun scanInProgress => ?_⟩
  cases scanInProgress with
  | true => trivial
  | false =>
      simp only [Bool.false_eq_true, if_false, Prog.follows_tryFinally, Prog.follows_tryCatch]
      -- the body, with the flag cleared however it ends
      have hbody : ((TxnNotifierService.scanner configService registry).scanBody fuel).Follows
          (noteCourse configService .notifier) (fun _ _ => True) (fun _ _ => True) s := by
        simp only [BlockchainScannerService.scanBody, TxnNotifierService.scanner,
          TxnNotifierService.checkInitialScanParameters, TxnNotifierService.getLastSeenBlockNumber,
          BlockchainScannerService.baseLastSeenBlockNumber, Prog.bind_eq, Prog.follows_bind,
          follows_call, follows_memory, Prog.follows_ite, Prog.pure_eq, Prog.follows_done]
        refine ⟨trivial, fun pendingTxns => ?_, fun _ => trivial, fun _ _ => trivial⟩
        split
        · trivial
        refine ⟨trivial, fun _ => ⟨trivial, fun lastSeen => ?_, fun _ => trivial,
          fun _ _ => trivial⟩⟩
        refine ⟨trivial, fun births => ?_, fun _ => trivial, fun _ _ => trivial⟩
        refine ⟨trivial, fun currentBlockHash => ?_, fun _ => trivial, fun _ _ => trivial⟩
        split
        · exact ⟨trivial, fun _ => trivial⟩
        · exact scanFrom_notes fuel _ _ _
      refine hbody.mono (fun _ s _ => hclear s) fun e s _ => ?_
      cases e <;> exact hclear s

private theorem onApplicationBootstrap_notes (s : BlockNotes) :
    TxnNotifierService.onApplicationBootstrap.Follows (noteCourse configService .notifier)
      (fun _ _ => True) (fun _ _ => True) s := by
  simp only [TxnNotifierService.onApplicationBootstrap, Prog.bind_eq, Prog.follows_bind,
    follows_call, Prog.follows_ite, BlockchainScannerService.setLastSeenBlockNumber]
  refine ⟨trivial, fun _ => ?_, fun _ => trivial, fun _ _ => trivial⟩
  refine ⟨trivial, fun pendingTxns => ?_, fun _ => trivial, fun _ _ => trivial⟩
  split
  · refine ⟨trivial, fun b => ?_, fun _ => trivial, fun _ _ => trivial⟩
    exact ⟨trivial, fun _ => trivial, fun _ => trivial, fun _ _ => trivial⟩
  · trivial

/-- What a job does between its check and its submission. -/
def ofPreparation : Act Worker → Prop
  | .await .getLatestFinalizedBlockNumber | .await (.tx _) => True
  | .await .accountNextIndex | .await (.incrementNonce _ _ _) => True
  | _ => False

private theorem prepare_only (data : TransactionData) :
    Prog.Only ofPreparation (prepare data) := by
  have hnonce : Prog.Only ofPreparation getNextNonce := by
    refine Prog.Only.bind (by simp [ofPreparation]) fun nonce => ?_
    exact Prog.Only.bind (by simp [ofPreparation]) fun _ => Prog.Only.ite trivial trivial
  have hsingle : ∀ c lastFinalizedBlockNumber, Prog.Only ofPreparation
      ((call (.tx c)).bind fun tx => prepareSingle lastFinalizedBlockNumber tx) := by
    intro c lastFinalizedBlockNumber
    refine Prog.Only.bind (by simp [ofPreparation]) fun tx => ?_
    refine Prog.Only.bind (by simp [ofPreparation]) fun ext => ?_
    exact Prog.Only.bind hnonce fun _ => trivial
  refine Prog.Only.bind (by simp [ofPreparation]) fun lastFinalizedBlockNumber => ?_
  cases data.request with
  | createHandle request => exact hsingle _ _
  | changeHandle request => exact hsingle _ _
  | addKey request => exact hsingle _ _
  | siwfSignin => trivial
  | siwfSignup calls =>
      refine Prog.Only.bind ?_ fun txns => ?_
      · exact Prog.follows_mapM (J := fun _ => True)
          (fun x _ _ => (only_call (.tx (.encoded x))).mpr trivial) _ _ trivial
      · refine Prog.Only.bind (by simp [ofPreparation]) fun ext => ?_
        exact Prog.Only.bind hnonce fun _ => trivial

/-- **A job keeps to the notes**: it submits for itself and enters what it has
submitted. -/
private theorem process_notes (job : Job) {s : JobNotes} (hjob : s.job = some job) :
    (process configService job).Follows (noteCourse configService .publisher) (fun _ _ => True)
      (fun _ _ => True) s := by
  -- neither the check nor the preparation is noted
  have hgate : (checkCapacity configService).Follows (noteCourse configService .publisher)
      (fun _ s' => s' = s) (fun _ s' => s' = s) s := by
    refine (checkCapacity_gate configService).follows (fun act h => ?_) (fun _ _ _ => rfl)
      (fun _ _ => rfl) fun c f h => ?_
    · cases act with
      | sync m => trivial
      | fire c => cases c <;> trivial
      | await c => cases c <;> trivial
    · cases c <;> first | rfl | exact h.elim
  have hprepare : (prepare job.data).Follows (noteCourse configService .publisher)
      (fun _ s' => s' = s) (fun _ s' => s' = s) s := by
    refine (prepare_only job.data).follows (fun act h => ?_) (fun _ _ _ => rfl) (fun _ _ => rfl)
      fun c f h => ?_
    · cases act with
      | sync m => exact h.elim
      | fire c => exact h.elim
      | await c => cases c <;> trivial
    · cases c <;> first | rfl | exact h.elim
  simp only [process, Prog.tryCatch_throw, Prog.bind_eq, Prog.follows_bind, Prog.follows_ite,
    publish_eq, follows_call]
  refine hgate.mono ?_ fun _ _ _ => trivial
  rintro available _ rfl
  cases available with
  | false => exact ⟨trivial, trivial⟩
  | true =>
      refine hprepare.mono ?_ fun _ _ _ => trivial
      rintro submission _ rfl
      refine ⟨⟨job, hjob⟩, fun sent => ?_, fun _ => trivial, fun _ _ => trivial⟩
      unfold record
      split
      · trivial
      · exact ⟨⟨rfl, job, hjob, rfl, rfl, rfl, rfl, rfl⟩, trivial⟩

end Follows

/-! ## The journal -/

/-- A notification that was attempted, and whether it was answered. -/
structure Post where
  txHash : Hash
  url : String
  body : TxWebhookRsp
  ok : Bool

/-- The jobs that were started, the extrinsics that were accepted for them, the
notifications that were attempted, and the notes. -/
structure Journal where
  jobs : List Job := []
  submitted : List (Hash × Job) := []
  posts : List Post := []
  publisher : JobNotes := {}
  notifier : BlockNotes := {}

namespace Journal

/-- The notes of a place. -/
def notes : (r : Role) → Journal → r.Notes
  | .notifier, t => t.notifier
  | .publisher, t => t.publisher

/-- A method starts. -/
def started (t : Journal) : Reason → Role → Journal
  | .job job, .publisher => { t with jobs := job :: t.jobs, publisher := { job := some job } }
  | _, _ => t

/-- The notes of a place are moved on. -/
def move (t : Journal) : Role → Obs Worker Err → Journal
  | .notifier, o => { t with notifier := t.notifier.next o }
  | .publisher, o => { t with publisher := t.publisher.next o }

/-- What is entered in the journal of what a method has done. -/
def enter (t : Journal) : Obs Worker Err → Journal
  | .await (.signAndSend _ _) f =>
      { t with
        submitted := (f.effect.toList.flatMap fun sent =>
          t.publisher.job.toList.map fun job => (sent.1, job)) ++ t.submitted }
  | .await (.post txHash url body) f =>
      { t with posts := ⟨txHash, url, body, f.seen.toBool⟩ :: t.posts }
  | _ => t

end Journal

/-- The journal of the service. -/
def journal : Recorder Worker Err Role Reason Journal where
  started reason r t := t.started reason r
  noted r o t := (t.enter o).move r o
  crashed t := t

/-- The service with its journal. -/
def journaled (configService : ConfigService) (registry : Registry) :
    World Worker Err Unit Role (ServiceWorld × Journal) Happening Reason :=
  (service configService registry).recording journal

/-- A pool of the service with its journal. -/
abbrev JournaledPool := Pool Worker Err Unit Role (ServiceWorld × Journal)

/-- Nothing has happened and nothing is noted. -/
def JournaledPool.init : JournaledPool := ⟨(.init, {}), fun _ => none⟩

section Charts

variable {configService : ConfigService} {registry : Registry}

/-- The journal holds the notes that the methods keep to. -/
theorem journal_charts : journal.Charts (service configService registry) (noteCourse configService)
    (fun _ _ _ => True) (fun _ _ _ => True) Journal.notes where
  noted r o t := by
    have henter : Journal.notes r (t.enter o) = Journal.notes r t := by
      cases o with
      | await c f => cases c <;> cases r <;> rfl
      | _ => rfl
    cases r with
    | notifier => exact congrArg (fun s => BlockNotes.next s o) henter
    | publisher => exact congrArg (fun s => JobNotes.next s o) henter
  noted_other r r' o t hr := by
    cases o with
    | await c f => cases c <;> cases r <;> cases r' <;> first | rfl | exact absurd rfl hr
    | _ => cases r <;> cases r' <;> rfl
  launch reason r w p w' t h := by
    cases r <;> cases reason <;> simp only [service, Option.ite_none_left_eq_some,
      Option.ite_none_right_eq_some, Option.some.injEq, Prod.mk.injEq, reduceCtorEq] at h
    · obtain ⟨-, rfl, -⟩ := h
      exact onApplicationBootstrap_notes _
    · obtain ⟨-, rfl, -⟩ := h
      exact scan_notes _ _
    · obtain ⟨rfl, -⟩ := h
      exact process_notes _ rfl
  launch_other reason r r' t hr := by
    cases reason <;> cases r <;> cases r' <;> first | rfl | exact absurd rfl hr

end Charts

/-! ## What the journal attests -/

/-- The extrinsic of a job was accepted, and the entry is about it. -/
def ITxStatus.Submitted (t : Journal) (status : ITxStatus) : Prop :=
  ∃ job, (status.txHash, job) ∈ t.submitted ∧ status.IsFor job.data status.txHash

/-- A notification is sent to the provider about the extrinsic of a job: it was
accepted for that job, a block includes it, and the body is what the entry of
the job and the events of the extrinsic make of it. -/
structure Attested (configService : ConfigService) (chain : Chain) (t : Journal) (post : Post) :
    Prop where
  url : post.url = configService.providerBaseUrl
  about : ∃ job ∈ t.jobs, (post.txHash, job) ∈ t.submitted ∧
    ∃ status : ITxStatus, status.IsFor job.data post.txHash ∧
      ∃ b ∈ chain.blocks, ∃ index, b.extrinsics[index]? = some post.txHash ∧
        notification status (b.events.filter fun r => r.isOf index) = some post.body

/-- What has been read of a block is what the chain holds of it. -/
def BlockNotes.OfBlock (chain : Chain) (s : BlockNotes) : Prop :=
  s.extrinsics ≠ [] → ∃ b ∈ chain.blocks, b.hash = s.block ∧ s.extrinsics = b.extrinsics ∧
    (s.records = [] ∨ s.records = b.events)

/-- The journal agrees with the service: what is accepted is in it, and what is
watched, read or posted rests on it. -/
structure Agrees (configService : ConfigService) (w : ServiceWorld) (t : Journal) : Prop where
  submitted : t.submitted.map Prod.fst = w.accepted.map Accepted.txHash
  jobs : ∀ e ∈ t.submitted, e.2 ∈ t.jobs
  inHand : ∀ job, t.publisher.job = some job → job ∈ t.jobs
  sent : ∀ txHash job, t.publisher.txHash = some txHash → t.publisher.job = some job →
    (txHash, job) ∈ t.submitted
  watched : ∀ status, status ∈ w.outbox ∨ status ∈ w.watchList → status.Submitted t
  entry : ∀ txHash status, t.notifier.entry = some (txHash, status) →
    status.txHash = txHash ∧ status.Submitted t
  block : t.notifier.OfBlock w.chain
  posts : ∀ post ∈ t.posts, Attested configService w.chain t post

/-- An entry that is about a submission stays so. -/
theorem ITxStatus.Submitted.mono {t t' : Journal} {status : ITxStatus} (h : status.Submitted t)
    (hsubmitted : t.submitted ⊆ t'.submitted) : status.Submitted t' := by
  obtain ⟨job, hjob, hfor⟩ := h
  exact ⟨job, hsubmitted hjob, hfor⟩

/-- A notification that is attested stays so. -/
theorem Attested.mono {configService : ConfigService} {chain chain' : Chain} {t t' : Journal}
    {post : Post} (h : Attested configService chain t post) (hblocks : chain.blocks ⊆ chain'.blocks)
    (hjobs : t.jobs ⊆ t'.jobs) (hsubmitted : t.submitted ⊆ t'.submitted) :
    Attested configService chain' t' post := by
  obtain ⟨hurl, job, hjob, hsent, status, hfor, b, hb, hincluded⟩ := h
  exact ⟨hurl, job, hjobs hjob, hsubmitted hsent, status, hfor, b, hblocks hb, hincluded⟩

namespace Agrees

variable {configService : ConfigService} {w w' : ServiceWorld} {t : Journal}

/-- The chain goes on, and entries land, are lost or are removed. -/
private theorem world (h : Agrees configService w t) (w' : ServiceWorld)
    (haccepted : w'.accepted = w.accepted)
    (hwatched : ∀ status, status ∈ w'.outbox ∨ status ∈ w'.watchList →
      status ∈ w.outbox ∨ status ∈ w.watchList)
    (hblocks : w.chain.blocks ⊆ w'.chain.blocks) : Agrees configService w' t where
  submitted := h.submitted.trans (congrArg _ haccepted.symm)
  jobs := h.jobs
  inHand := h.inHand
  sent := h.sent
  watched status hstatus := h.watched status (hwatched status hstatus)
  entry := h.entry
  block hsome := by
    obtain ⟨b, hb, hread⟩ := h.block hsome
    exact ⟨b, hblocks hb, hread⟩
  posts post hpost := (h.posts post hpost).mono hblocks (List.Subset.refl _) (List.Subset.refl _)

/-- A job is started. -/
private theorem started (h : Agrees configService w t) (job : Job) :
    Agrees configService w { t with jobs := job :: t.jobs, publisher := { job := some job } } where
  submitted := h.submitted
  jobs e he := List.mem_cons_of_mem _ (h.jobs e he)
  inHand job' hjob' := by
    obtain rfl := Option.some.inj hjob'
    exact List.mem_cons_self
  sent txHash job' htxHash := by cases htxHash
  watched status hstatus := (h.watched status hstatus).mono (List.Subset.refl _)
  entry txHash status hentry :=
    ⟨(h.entry txHash status hentry).1, (h.entry txHash status hentry).2.mono (List.Subset.refl _)⟩
  block := h.block
  posts post hpost :=
    (h.posts post hpost).mono (List.Subset.refl _) (List.subset_cons_self _ _) (List.Subset.refl _)

/-- The extrinsic of the job in hand is accepted. -/
private theorem accept (h : Agrees configService w t) {job : Job}
    (hjob : t.publisher.job = some job) (a : Accepted) :
    Agrees configService { w with accepted := a :: w.accepted }
      { t with
        submitted := (a.txHash, job) :: t.submitted
        publisher := { t.publisher with txHash := some a.txHash } } where
  submitted := by
    rw [List.map_cons, List.map_cons, h.submitted]
  jobs e he := by
    rcases List.mem_cons.mp he with rfl | he
    · exact h.inHand job hjob
    · exact h.jobs e he
  inHand := h.inHand
  sent txHash job' htxHash hjob' := by
    obtain rfl := Option.some.inj htxHash
    obtain rfl := Option.some.inj (hjob.symm.trans hjob')
    exact List.mem_cons_self
  watched status hstatus := (h.watched status hstatus).mono (List.subset_cons_self _ _)
  entry txHash status hentry :=
    ⟨(h.entry txHash status hentry).1,
      (h.entry txHash status hentry).2.mono (List.subset_cons_self _ _)⟩
  block := h.block
  posts post hpost :=
    (h.posts post hpost).mono (List.Subset.refl _) (List.Subset.refl _) (List.subset_cons_self _ _)

/-- The extrinsic of the job in hand is refused. -/
private theorem refuse (h : Agrees configService w t) :
    Agrees configService w { t with publisher := { t.publisher with txHash := none } } where
  submitted := h.submitted
  jobs := h.jobs
  inHand := h.inHand
  sent txHash job htxHash := by cases htxHash
  watched status hstatus := (h.watched status hstatus).mono (List.Subset.refl _)
  entry txHash status hentry :=
    ⟨(h.entry txHash status hentry).1, (h.entry txHash status hentry).2.mono (List.Subset.refl _)⟩
  block := h.block
  posts post hpost :=
    (h.posts post hpost).mono (List.Subset.refl _) (List.Subset.refl _) (List.Subset.refl _)

/-- The entry of the job in hand is written. -/
private theorem written (h : Agrees configService w t) {txHash : Hash} {status : ITxStatus}
    (hallow : t.publisher.allow (.fire (.hset txHash status))) :
    Agrees configService { w with outbox := w.outbox ++ [status] } t where
  submitted := h.submitted
  jobs := h.jobs
  inHand := h.inHand
  sent := h.sent
  watched status' hstatus' := by
    obtain ⟨hsent, job, hjob, hfor⟩ := hallow
    have hnew : status.Submitted t := by
      refine ⟨job, ?_, ?_⟩ <;> rw [hfor.txHash]
      · exact h.sent txHash job hsent hjob
      · exact hfor
    rcases hstatus' with hout | hlisted
    · rcases List.mem_append.mp hout with hold | hlast
      · exact h.watched status' (.inl hold)
      · exact List.mem_singleton.mp hlast ▸ hnew
    · exact h.watched status' (.inr hlisted)
  entry := h.entry
  block := h.block
  posts := h.posts

/-- The notifier has read on. -/
private theorem looked (h : Agrees configService w t) (s : BlockNotes)
    (hentry : ∀ txHash status, s.entry = some (txHash, status) →
      status.txHash = txHash ∧ status.Submitted t)
    (hblock : s.OfBlock w.chain) : Agrees configService w { t with notifier := s } where
  submitted := h.submitted
  jobs := h.jobs
  inHand := h.inHand
  sent := h.sent
  watched := h.watched
  entry := hentry
  block := hblock
  posts post hpost :=
    (h.posts post hpost).mono (List.Subset.refl _) (List.Subset.refl _) (List.Subset.refl _)

/-- A notification that the notes allow is attested. -/
private theorem posted (h : Agrees configService w t) {txHash : Hash} {url : String}
    {body : TxWebhookRsp}
    (hallow : t.notifier.allow configService (.await (.post txHash url body))) (ok : Bool) :
    Agrees configService w { t with posts := ⟨txHash, url, body, ok⟩ :: t.posts } where
  submitted := h.submitted
  jobs := h.jobs
  inHand := h.inHand
  sent := h.sent
  watched := h.watched
  entry := h.entry
  block := h.block
  posts post hpost := by
    rcases List.mem_cons.mp hpost with rfl | hold
    · obtain ⟨hurl, status, index, hentry, hindex, hbody⟩ := hallow
      obtain ⟨rfl, job, hjob, hfor⟩ := h.entry txHash status hentry
      obtain ⟨b, hb, -, hextrinsics, hrecords⟩ := h.block
        (List.ne_nil_of_mem (List.mem_of_getElem? hindex))
      -- without events there would be nothing to post
      have hevents : t.notifier.records = b.events := by
        refine hrecords.resolve_left fun hnone => ?_
        rw [hnone] at hbody
        cases hbody
      rw [hextrinsics] at hindex
      rw [hevents] at hbody
      exact ⟨hurl, job, h.jobs _ hjob, hjob, status, hfor, b, hb, index, hindex, hbody⟩
    · exact (h.posts post hold).mono (List.Subset.refl _) (List.Subset.refl _) (List.Subset.refl _)

/-- What the notifier sees of a call that is answered. -/
private theorem seen (h : Agrees configService w t) {c : Call} {f : Fate Err c.Reply}
    (hallow : t.notifier.allow configService (.await c))
    (hreplies : ∀ reply, f.effect = some reply → w.Replies c reply) :
    Agrees configService w ((t.enter (.await c f)).move .notifier (.await c f)) := by
  cases c with
  | post txHash url body => exact h.posted hallow f.seen.toBool
  | signAndSend extrinsic nonce => exact hallow.elim
  | getBlock b =>
      show Agrees configService w { t with notifier := t.notifier.next (.await (.getBlock b) f) }
      cases hseen : f.seen with
      | error e => simpa only [BlockNotes.next, hseen] using h
      | ok extrinsics =>
          simp only [BlockNotes.next, hseen]
          obtain ⟨⟨pick, rfl⟩, -⟩ := hreplies extrinsics (Fate.effect_of_seen hseen)
          refine h.looked _ h.entry fun hsome => ?_
          cases hfind : w.chain.find b with
          | none => exact absurd (by simp [ServiceWorld.reply, hfind]) hsome
          | some block =>
              refine ⟨block, List.mem_of_find?_eq_some hfind, ?_, ?_, .inl rfl⟩
              · simpa using List.find?_some hfind
              · simp [ServiceWorld.reply, hfind]
  | eventsAt b =>
      show Agrees configService w { t with notifier := t.notifier.next (.await (.eventsAt b) f) }
      cases hseen : f.seen with
      | error e => simpa only [BlockNotes.next, hseen] using h
      | ok records =>
          simp only [BlockNotes.next, hseen]
          obtain ⟨⟨pick, rfl⟩, -⟩ := hreplies records (Fate.effect_of_seen hseen)
          refine h.looked _ h.entry fun hsome => ?_
          obtain ⟨block, hblock, hhash, hextrinsics, -⟩ := h.block hsome
          obtain ⟨n, hn⟩ := List.getElem?_of_mem hblock
          have hb : b = block.hash := (show b = t.notifier.block from hallow).trans hhash.symm
          refine ⟨block, hblock, hhash, hextrinsics, .inr ?_⟩
          simp [ServiceWorld.reply, hb, w.chain.find_hash hn]
  | hget txHash =>
      show Agrees configService w { t with notifier := t.notifier.next (.await (.hget txHash) f) }
      cases hseen : f.seen with
      | error e => simpa only [BlockNotes.next, hseen] using h
      | ok reply =>
          cases reply with
          | none => simpa only [BlockNotes.next, hseen] using h
          | some status =>
              simp only [BlockNotes.next, hseen]
              obtain ⟨⟨pick, hreply⟩, -⟩ := hreplies (some status) (Fate.effect_of_seen hseen)
              refine h.looked _ (fun txHash' status' hentry => ?_) h.block
              obtain ⟨rfl, rfl⟩ := Prod.mk.inj (Option.some.inj hentry)
              have hget : w.watchList.hget txHash = some status := hreply
              obtain ⟨hmem, hhash⟩ := WatchList.mem_of_hget hget
              exact ⟨hhash, h.watched status (.inr hmem)⟩
  | _ => exact h

end Agrees

section Agreement

variable {configService : ConfigService} {registry : Registry}

/-- **Every step of the service keeps the journal in agreement.** -/
private theorem journaled_agrees : (journaled configService registry).Preserves
    (noteCourse configService) (fun r w => w.2.notes r) (fun _ _ => True) (fun _ => True)
    fun w => Agrees configService w.1 w.2 where
  env x P w' _ _ h hw := by
    obtain ⟨w₁, hw₁, rfl⟩ := Option.map_eq_some_iff.mp hw
    rcases ServiceWorld.env_cases hw₁ with ⟨b, hb, hnew, -, rfl⟩ | ⟨n, -, -, rfl⟩ |
      ⟨status, hstatus, -, rfl⟩ | ⟨status, -, rfl⟩ | ⟨epoch, rfl⟩
    · exact h.world _ rfl (fun _ hs => hs) fun b' hb' => List.mem_append_left _ hb'
    · exact h.world _ rfl (fun _ hs => hs) (List.Subset.refl _)
    · refine h.world _ rfl (fun s hs => ?_) (List.Subset.refl _)
      rcases hs with hout | hlisted
      · exact .inl (List.mem_of_mem_erase hout)
      · rcases WatchList.mem_hset.mp hlisted with ⟨hold, -⟩ | rfl
        · exact .inr hold
        · exact .inl hstatus
    · exact h.world _ rfl (fun s hs => hs.imp_left List.mem_of_mem_erase) (List.Subset.refl _)
    · exact h.world _ rfl (fun _ hs => hs) (List.Subset.refl _)
  launch reason r P p w' _ _ h hw := by
    obtain ⟨pw, hpw, heq⟩ := Option.map_eq_some_iff.mp hw
    obtain ⟨rfl, rfl⟩ := Prod.mk.inj heq
    have hworld : Agrees configService pw.2 P.world.2 := by
      rcases service_launch hpw with ⟨-, -, -, hw'⟩ | ⟨-, -, hw'⟩ | ⟨-, -, hw'⟩ <;> rw [hw'] <;>
        exact h.world _ rfl (fun _ hs => hs) (List.Subset.refl _)
    cases reason with
    | job job =>
        cases r with
        | publisher => exact hworld.started job
        | notifier => exact hworld
    | _ => exact hworld
  act r m w _ _ h := by
    have hworld := h.world ((service configService registry).act r m w.1).2
      (by simp [service]) (by simp [service]) (by simp [service])
    cases r <;> exact hworld
  issue r c w hallow _ h := by
    cases r with
    | notifier => exact hallow.elim
    | publisher =>
        have hworld : ∀ {w₁ : ServiceWorld}, Agrees configService w₁ w.2 →
            Agrees configService (w₁.observe configService .publisher (.fire c)) w.2 := fun h₁ =>
          h₁.world _ (by simp) (by simp) (by simp)
        cases c with
        | hset txHash status => exact hworld (h.written hallow)
        | _ => exact hworld h
  answer r x c k P f w' _ _ hallow _ h hw := by
    obtain ⟨fw, hfw, heq⟩ := Option.map_eq_some_iff.mp hw
    obtain ⟨rfl, rfl⟩ := Prod.mk.inj heq
    obtain ⟨cost, hw₁, hreplies⟩ := service_answer hfw
    -- but for the accepted extrinsics the service is as before
    have hworld : (∀ extrinsic nonce, c ≠ .signAndSend extrinsic nonce) →
        Agrees configService P.world.1 ((P.world.2.enter (.await c fw.1)).move r (.await c fw.1)) →
          Agrees configService fw.2 ((P.world.2.enter (.await c fw.1)).move r (.await c fw.1)) := by
      intro hc h'
      rw [hw₁]
      refine h'.world _ (by simp [ServiceWorld.carryOut_accepted hc]) (fun s hs => ?_) (by simp)
      simp only [ServiceWorld.observe_toOutside, ServiceWorld.carryOut_outbox] at hs
      exact hs.imp_right fun hs => ServiceWorld.carryOut_watchList_subset hs
    cases r with
    | notifier =>
        refine hworld (fun extrinsic nonce hc => ?_) (h.seen hallow hreplies)
        subst hc
        exact hallow.elim
    | publisher =>
        by_cases hc : ∃ extrinsic nonce, c = .signAndSend extrinsic nonce
        · obtain ⟨extrinsic, nonce, rfl⟩ := hc
          obtain ⟨job, hjob⟩ : ∃ job, P.world.2.publisher.job = some job := hallow
          rw [hw₁]
          cases heffect : fw.1.effect with
          | none =>
              have hworld := h.refuse.world ((P.world.1.carryOut cost
                (.signAndSend extrinsic nonce) none).observe configService .publisher
                  (.await (.signAndSend extrinsic nonce) fw.1)) (by simp [ServiceWorld.carryOut])
                (by simp [ServiceWorld.carryOut]) (by simp)
              simpa [journal, Journal.enter, Journal.move, JobNotes.next, heffect] using hworld
          | some sent =>
              have haccept := h.accept hjob
                ⟨sent.1, P.world.1.chain.best, cost, P.world.1.publisher.gate⟩
              have hworld := haccept.world ((P.world.1.carryOut cost
                (.signAndSend extrinsic nonce) (some sent)).observe configService .publisher
                  (.await (.signAndSend extrinsic nonce) fw.1)) (by simp [ServiceWorld.carryOut])
                (by simp [ServiceWorld.carryOut]) (by simp)
              simpa [journal, Journal.enter, Journal.move, JobNotes.next, heffect, hjob]
                using hworld
        · refine hworld (fun extrinsic nonce hc' => hc ⟨extrinsic, nonce, hc'⟩) ?_
          cases c with
          | signAndSend extrinsic nonce => exact absurd ⟨extrinsic, nonce, rfl⟩ hc
          | post txHash url body => exact hallow.elim
          | _ => exact h
  crash P _ _ h := h.world _ rfl (fun _ hs => hs) (List.Subset.refl _)

/-- Wherever a run leads, the journal agrees with the service. -/
theorem journaled_run {ls : List (Label Role Happening Reason)} {P : JournaledPool}
    (hrun : (journaled configService registry).run ls JournaledPool.init = some P) :
    Agrees configService P.world.1 P.world.2 := by
  have hinit : Agrees configService .init {} :=
    { submitted := rfl
      jobs := fun e he => (by cases he)
      inHand := fun job hjob => (by cases hjob)
      sent := fun txHash job htxHash => (by cases htxHash)
      watched := fun status hstatus => (by rcases hstatus with h | h <;> cases h)
      entry := fun txHash status hentry => (by cases hentry)
      block := fun hsome => absurd rfl hsome
      posts := fun post hpost => (by cases hpost) }
  exact (journal_charts.tracks.run_keeps journaled_agrees.keeps (World.along_true _ _ _)
    (Pool.following_empty _) hinit hrun).2

/-- **No notification is made up.**  In every run of the service every
notification is attested: it goes to the provider and is about an extrinsic that
the node accepted for a job that was started and that a block includes, and its
body is what the entry of that job and the events of that extrinsic make of it. -/
theorem service_posts_attested (configService : ConfigService) (registry : Registry)
    (ls : List (Label Role Happening Reason)) (P : JournaledPool)
    (hrun : (journaled configService registry).run ls JournaledPool.init = some P) :
    ∀ post ∈ P.world.2.posts, Attested configService P.world.1.chain P.world.2 post :=
  (journaled_run hrun).posts

/-- A sign-up that was scanned has one notification, and it is attested. -/
theorem service_posts_attested_signup : ∃ P : JournaledPool,
    (journaled (.attempts 1 zero_le_one) ⟨fun _ => none⟩).run signupScanned JournaledPool.init =
        some P ∧
      P.world.2.posts.map Post.txHash = [7] ∧
        ∀ post ∈ P.world.2.posts,
          Attested (.attempts 1 zero_le_one) P.world.1.chain P.world.2 post := by
  have hstate : ((journaled (.attempts 1 zero_le_one) ⟨fun _ => none⟩).run signupScanned
      JournaledPool.init).map (fun P => P.world.2.posts.map Post.txHash) = some [7] := by
    decide +kernel
  obtain ⟨P, hrun, hP⟩ := Option.map_eq_some_iff.mp hstate
  exact ⟨P, hrun, hP, service_posts_attested _ _ _ P hrun⟩

/-- What occurs once occurs at one place. -/
private theorem index_unique {extrinsics : List Hash} {txHash : Hash} {i j : ℕ}
    (hcount : extrinsics.count txHash ≤ 1) (hi : extrinsics[i]? = some txHash)
    (hj : extrinsics[j]? = some txHash) : i = j := by
  have hnot : ∀ {i j : ℕ}, extrinsics[i]? = some txHash → extrinsics[j]? = some txHash →
      ¬i < j := by
    intro i j hi hj hlt
    obtain ⟨hilt, hi⟩ := List.getElem?_eq_some_iff.mp hi
    obtain ⟨hjlt, hj⟩ := List.getElem?_eq_some_iff.mp hj
    have hduplicate : extrinsics.Duplicate txHash :=
      List.duplicate_iff_exists_distinct_get.mpr ⟨⟨i, hilt⟩, ⟨j, hjlt⟩, hlt, hi.symm, hj.symm⟩
    have htwo := List.duplicate_iff_two_le_count.mp hduplicate
    omega
  exact le_antisymm (not_lt.mp (hnot hj hi)) (not_lt.mp (hnot hi hj))

/-- Two entries for one extrinsic of a job are posted about alike. -/
theorem ITxStatus.IsFor.notification_eq {status status' : ITxStatus} {data : TransactionData}
    {txHash : Hash} (h : status.IsFor data txHash) (h' : status'.IsFor data txHash)
    (events : List EventRecord) : notification status events = notification status' events := by
  obtain ⟨type, referenceId, providerId, hash, successEvent, birth, death⟩ := status
  obtain ⟨type', referenceId', providerId', hash', successEvent', birth', death'⟩ := status'
  obtain ⟨rfl, rfl, rfl, rfl, rfl⟩ := h
  obtain ⟨heq, rfl, rfl, rfl, rfl⟩ := h'
  -- the window of validity is no part of a notification
  obtain rfl : hash' = hash := heq
  rfl

/-- **Notifications agree.**  In every run of the service all notifications about
one extrinsic go to the same address and have the same body, however often it
was posted about, before and after whatever failures and crashes. -/
theorem service_posts_agree (configService : ConfigService) (registry : Registry)
    (ls : List (Label Role Happening Reason)) (P : JournaledPool)
    (hrun : (journaled configService registry).run ls JournaledPool.init = some P) :
    ∀ post ∈ P.world.2.posts, ∀ post' ∈ P.world.2.posts, post.txHash = post'.txHash →
      post.url = post'.url ∧ post.body = post'.body := by
  intro post hpost post' hpost' htxHash
  have hagrees := journaled_run hrun
  obtain ⟨hurl, job, -, hsent, status, hfor, b, hb, index, hindex, hbody⟩ :=
    hagrees.posts post hpost
  obtain ⟨hurl', job', -, hsent', status', hfor', b', hb', index', hindex', hbody'⟩ :=
    hagrees.posts post' hpost'
  refine ⟨hurl.trans hurl'.symm, ?_⟩
  rw [← htxHash] at hsent' hfor' hindex'
  -- what holds of the chain in every run of the service itself
  have hinclusions : Inclusions P.world.1.chain P.world.1.finalized P.world.1.accepted :=
    (service_run_keeps World.preserves_true trivial (World.run_bare hrun)
      (World.along_true _ _ _)).1.inclusions
  have hnodup : (P.world.2.submitted.map Prod.fst).Nodup := by
    rw [hagrees.submitted]
    exact hinclusions.distinct
  obtain ⟨a, ha, htxHash'⟩ : ∃ a ∈ P.world.1.accepted, a.txHash = post.txHash := by
    have hmem := List.mem_map_of_mem (f := Prod.fst) hsent
    rw [hagrees.submitted, List.mem_map] at hmem
    exact hmem
  -- the same job, the same block and the same place in it
  have hjob : job = job' := congrArg Prod.snd (List.inj_on_of_nodup_map hnodup hsent hsent' rfl)
  have hblock : b = b' := by
    obtain ⟨n, hn⟩ := List.getElem?_of_mem hb
    obtain ⟨m, hm⟩ := List.getElem?_of_mem hb'
    have hnm := hinclusions.once a ha n m ⟨b, hn, htxHash' ▸ List.mem_of_getElem? hindex⟩
      ⟨b', hm, htxHash' ▸ List.mem_of_getElem? hindex'⟩
    rw [hnm, hm] at hn
    exact (Option.some.inj hn).symm
  subst hjob hblock
  have hplace : index = index' := by
    have hcount := hinclusions.count a ha b hb
    rw [htxHash'] at hcount
    exact index_unique hcount hindex hindex'
  rw [← hplace, hfor'.notification_eq hfor, hbody] at hbody'
  exact Option.some.inj hbody'

/-- A sign-up is posted about, the process dies before its entry is removed, and
it is posted about again. -/
theorem service_posts_agree_again : ∃ P : JournaledPool,
    (journaled (.attempts 1 zero_le_one) ⟨fun _ => none⟩).run
        (signupScanned ++ [.crash] ++ firstScan 11) JournaledPool.init = some P ∧
      P.world.2.posts.map Post.txHash = [7, 7] ∧
        ∀ post ∈ P.world.2.posts, ∀ post' ∈ P.world.2.posts,
          post.url = post'.url ∧ post.body = post'.body := by
  have hstate : ((journaled (.attempts 1 zero_le_one) ⟨fun _ => none⟩).run
      (signupScanned ++ [.crash] ++ firstScan 11) JournaledPool.init).map
        (fun P => P.world.2.posts.map Post.txHash) = some [7, 7] := by decide +kernel
  obtain ⟨P, hrun, hP⟩ := Option.map_eq_some_iff.mp hstate
  have hhash : ∀ post ∈ P.world.2.posts, post.txHash = 7 := by
    intro post hpost
    have hmem := List.mem_map_of_mem (f := Post.txHash) hpost
    simpa [hP] using hmem
  refine ⟨P, hrun, hP, fun post hpost post' hpost' => ?_⟩
  exact service_posts_agree _ _ _ P hrun post hpost post' hpost'
    ((hhash post hpost).trans (hhash post' hpost').symm)

end Agreement

end AccountService
