import AccountService.Types
import AccountService.Async.Exec

/-!
# What the worker calls

The calls of the worker to Redis, to the node, to the publish queue and to the
provider's webhook, and its operations on process memory, as one interface.  A
read of the watch list carries the method that makes it, and a webhook post the
extrinsic it is about: the callee does not see either, but a description of
what the worker does can refer to them.
-/

namespace AccountService

open Async

/-- The method that reads the watch list. -/
inductive Site where
  | checkInitialScanParameters
  | checkScanParameters (blockNumber : ℕ)
  | getLastSeenBlockNumber
  | processCurrentBlock (blockNumber : ℕ)
  deriving DecidableEq

/-- Calls that leave the process. -/
inductive Call where
  -- Redis: the hash `txnWatchList`
  | hkeys
  | hlen (site : Site)
  | hvals (site : Site)
  | hget (txHash : Hash)
  | hset (txHash : Hash) (status : ITxStatus)
  | exec (hdels : List Hash)
  -- Redis: the last seen block, the epoch counters and the nonce script
  | getLastSeen
  | setLastSeen (b : ℕ)
  | getEpochCapacity (epoch : ℕ)
  | setexEpochCapacity (epoch seconds value : ℕ)
  | incrementNonce (keys : List String) (size expire : ℕ)
  -- the node
  | isReady
  | getBlockHash (block : ℕ)
  | getBlock (block : BlockHash)
  | apiAt (block : BlockHash)
  | currentEpochAt (block : BlockHash)
  | eventsAt (block : BlockHash)
  | getLatestFinalizedBlockNumber
  | currentEpochInfo
  | epochLength
  | capacityLedger (providerId : String)
  | blockNumber
  | currentEpoch
  | accountNextIndex
  | tx (call : RuntimeCall)
  | signAndSend (extrinsic : SubmittableExtrinsic) (nonce : ℕ)
  -- the publish queue
  | moveToDelayed (jobId : String)
  | pause
  | resume
  | getFailed
  | retry (jobId : String)
  -- the webhook
  | post (txHash : Hash) (url : String) (body : TxWebhookRsp)

/-- The provider's entry of the capacity ledger. -/
structure CapacityDetails where
  remainingCapacity : ℕ
  totalCapacityIssued : ℕ
  deriving DecidableEq

/-- The reply to each call.  A signed extrinsic comes back with its hash, since
signing sets its era. -/
@[reducible] def Call.Reply : Call → Type
  | hkeys => List Hash
  | hlen _ => ℕ
  | hvals _ => List ITxStatus
  | hget _ => Option ITxStatus
  | getLastSeen => Option ℕ
  | getEpochCapacity _ => Option ℕ
  | incrementNonce _ _ _ => ℤ
  | getBlockHash _ => BlockHash
  | getBlock _ => List Hash
  | currentEpochAt _ => ℕ
  | eventsAt _ => List EventRecord
  | getLatestFinalizedBlockNumber => ℕ
  | currentEpochInfo => ℕ
  | epochLength => ℕ
  | capacityLedger _ => Option CapacityDetails
  | blockNumber => ℕ
  | currentEpoch => ℕ
  | accountNextIndex => ℕ
  | tx _ => SubmittableExtrinsic
  | signAndSend _ _ => Hash × SubmittableExtrinsic
  | getFailed => List FailedJob
  | _ => Unit

instance : (c : Call) → Inhabited c.Reply
  | .hkeys | .hlen _ | .hvals _ | .hget _ | .hset _ _ | .exec _ | .getLastSeen
  | .setLastSeen _ | .getEpochCapacity _ | .setexEpochCapacity _ _ _ | .incrementNonce _ _ _
  | .isReady | .getBlockHash _ | .getBlock _ | .apiAt _ | .currentEpochAt _ | .eventsAt _
  | .getLatestFinalizedBlockNumber | .currentEpochInfo | .epochLength | .capacityLedger _
  | .blockNumber | .currentEpoch | .accountNextIndex | .tx _ | .signAndSend _ _
  | .moveToDelayed _ | .pause | .resume | .getFailed | .retry _ | .post _ _ _ => ⟨default⟩

/-- Operations on process memory: the scan flag, and the capacity timer in the
scheduler registry. -/
inductive Memory where
  | scanInProgress
  | setScanInProgress (b : Bool)
  | doesExist
  | deleteTimeout
  | addTimeout (delay : ℤ)

@[reducible] def Memory.Result : Memory → Type
  | scanInProgress => Bool
  | setScanInProgress _ => Unit
  | doesExist => Bool
  | deleteTimeout => Except Err Unit
  | addTimeout _ => Except Err Unit

/-- The results on a memory in which nothing is stored. -/
def Memory.blank : (m : Memory) → m.Result
  | scanInProgress => false
  | setScanInProgress _ => ()
  | doesExist => false
  | deleteTimeout => .error (.error "No Timeout was found")
  | addTimeout _ => .ok ()

@[reducible] def Worker : Interface where
  Call := Call
  Reply := Call.Reply
  Local := Memory
  Result := Memory.Result

/-- A method of the worker. -/
abbrev Svc := Prog Worker Err

/-- Await a call of the worker. -/
def call (c : Call) : Svc c.Reply := Prog.request (I := Worker) c

/-- Await a call of the worker and look at how it settled. -/
def settled (c : Call) : Svc (Except Err c.Reply) := Prog.attempt (I := Worker) c

/-- Operate on the memory of the worker. -/
def memory (m : Memory) : Svc m.Result := Prog.perform (I := Worker) m

/-- Issue a call without awaiting it. -/
def unawaited (c : Call) : Svc Unit := Prog.detach (I := Worker) c

section Rules

variable {S σ : Type} {T : Protocol Worker Err S} {M : Machine Worker Err σ} {E : Err → S → Prop}
  {s : S} {w : σ}

@[simp] theorem follows_call (c : Call) {Q : c.Reply → S → Prop} :
    Prog.Follows (α := no_index c.Reply) T (call c) Q E s ↔
      T.allow s (.await c) ∧ (∀ b, Q b (T.next s (.await c (.done b)))) ∧
        (∀ e, E e (T.next s (.await c (.refused e)))) ∧
        ∀ b e, E e (T.next s (.await c (.lost b e))) :=
  Prog.follows_request (I := Worker) c

@[simp] theorem follows_settled (c : Call) {Q : Except Err c.Reply → S → Prop} :
    Prog.Follows (α := no_index (Except Err c.Reply)) T (settled c) Q E s ↔
      T.allow s (.await c) ∧
        ∀ f : Fate Err c.Reply, Q f.seen (T.next s (.await c f)) := Iff.rfl

@[simp] theorem follows_memory (m : Memory) {Q : m.Result → S → Prop} :
    Prog.Follows (α := no_index m.Result) T (memory m) Q E s ↔
      T.allow s (.sync m) ∧ ∀ r, Q r (T.next s (.sync m r)) :=
  Prog.follows_perform (I := Worker) m

@[simp] theorem follows_unawaited (c : Call) {Q : Unit → S → Prop} :
    (unawaited c).Follows T Q E s ↔
      T.allow s (.fire c) ∧ Q () (T.next s (.fire c)) :=
  Prog.follows_detach (I := Worker) c

@[simp] theorem only_call {P : Act Worker → Prop} (c : Call) :
    Prog.Only (α := no_index c.Reply) P (call c) ↔ P (.await c) := by
  rw [Prog.Only, follows_call]
  exact ⟨fun h => h.1, fun h => ⟨h, fun _ => trivial, fun _ => trivial, fun _ _ => trivial⟩⟩

@[simp] theorem only_settled {P : Act Worker → Prop} (c : Call) :
    Prog.Only (α := no_index (Except Err c.Reply)) P (settled c) ↔ P (.await c) :=
  ⟨fun h => h.1, fun h => ⟨h, fun _ => trivial⟩⟩

@[simp] theorem only_memory {P : Act Worker → Prop} (m : Memory) :
    Prog.Only (α := no_index m.Result) P (memory m) ↔ P (.sync m) :=
  ⟨fun h => h.1, fun h => ⟨h, fun _ => trivial⟩⟩

@[simp] theorem only_unawaited {P : Act Worker → Prop} (c : Call) :
    Prog.Only P (unawaited c) ↔ P (.fire c) :=
  ⟨fun h => h.1, fun h => ⟨h, trivial⟩⟩

@[simp] theorem ends_call (c : Call) : Prog.Ends (α := no_index c.Reply) (call c) :=
  Prog.ends_request (I := Worker) c

@[simp] theorem ends_memory (m : Memory) : Prog.Ends (α := no_index m.Result) (memory m) :=
  Prog.ends_perform (I := Worker) m

@[simp] theorem ends_unawaited (c : Call) : (unawaited c).Ends := Prog.ends_detach (I := Worker) c

@[simp] theorem exec_call (c : Call) :
    Prog.exec (α := no_index c.Reply) M (call c) w =
      match (M.answer c w).1.seen with
      | .ok b => (.returned b, (M.answer c w).2)
      | .error e => (.threw e, (M.answer c w).2) := by
  rw [call, Prog.request, Prog.exec]
  cases (M.answer c w).1.seen <;> rfl

@[simp] theorem exec_settled (c : Call) :
    Prog.exec (α := no_index (Except Err c.Reply)) M (settled c) w =
      (.returned (M.answer c w).1.seen, (M.answer c w).2) := rfl

@[simp] theorem exec_memory (m : Memory) :
    Prog.exec (α := no_index m.Result) M (memory m) w = (.returned (M.act m w).1, (M.act m w).2) := rfl

@[simp] theorem exec_unawaited (c : Call) :
    (unawaited c).exec M w = (.returned (), (M.answer c w).2) := rfl

end Rules

end AccountService
