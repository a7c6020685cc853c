import AccountService.Async.Pool
import AccountService.Chain
import AccountService.NotifierCourse
import AccountService.PublisherCourse

/-!
# The service

The publisher, working on one job at a time, and the notifier, running one scan
at a time, with the chain, Redis and the queue they act upon.  The chain
produces blocks that may include any accepted extrinsic, finalises them, and
replaces none; a write of the watch list that nobody awaits is on its way until
it lands or is lost; a counter expires when it likes; any call may fail, before
or after it has been carried out; and the process may die between any two steps.

What the two have done is recorded beside the state: the extrinsics the node has
accepted, the passes whose removals were carried out, the amounts that were
added to a counter, and the passes that a crash cut short.
-/

namespace AccountService

open Async

/-! ## The chain and the service's extrinsics -/

/-- The capacity withdrawn for the extrinsic at an index of a block. -/
def Block.withdrawn (b : Block) (txIndex : ℕ) : ℕ :=
  ((b.events.filter fun r => r.isOf txIndex).map EventRecord.withdrawn).sum

namespace Chain

/-- The height of the last block. -/
def best (chain : Chain) : ℕ := chain.blocks.length - 1

/-- The epoch of the last block. -/
def epoch (chain : Chain) : ℕ := (chain.blocks.getLast?.map Block.epoch).getD 0

/-- An extrinsic is included at a height. -/
def IncludesAt (chain : Chain) (txHash : Hash) (n : ℕ) : Prop :=
  ∃ b, chain.blocks[n]? = some b ∧ txHash ∈ b.extrinsics

/-- An extrinsic is included in a block. -/
def Includes (chain : Chain) (txHash : Hash) : Prop := ∃ b ∈ chain.blocks, txHash ∈ b.extrinsics

instance (chain : Chain) (txHash : Hash) : Decidable (chain.Includes txHash) :=
  inferInstanceAs (Decidable (∃ b ∈ chain.blocks, txHash ∈ b.extrinsics))

end Chain

/-- An extrinsic the node has accepted from the service: its hash, the height of
the last block at that time, the capacity its inclusion withdraws, and what the
check before it had seen. -/
structure Accepted where
  txHash : Hash
  sentAt : ℕ
  cost : ℕ
  gate : Option Gate
  deriving DecidableEq

/-! ## The state -/

/-- Where a method runs. -/
inductive Role where
  | notifier
  | publisher
  deriving DecidableEq

/-- The phases of the methods that run there. -/
@[reducible] def Role.Phase : Role → Type
  | notifier => NotifierPhase
  | publisher => PublisherPhase

/-- What the service acts upon: the chain and its finalised height, the watch
list and the writes on their way to it, the last seen block and the counters. -/
structure Outside where
  chain : Chain
  finalized : ℕ
  watchList : WatchList
  outbox : List ITxStatus
  lastSeen : Option ℕ
  epochCapacity : ℕ → Option ℕ

/-- The record of what has been done: the accepted extrinsics, the passes whose
removals were carried out, the amounts added to the counter of an epoch, the
epochs whose counter has expired, and the watched extrinsics, with their block,
whose pass a crash cut short before their removal. -/
structure Record where
  accepted : List Accepted := []
  removed : List Pass := []
  booked : List (ℕ × ℕ) := []
  expired : List ℕ := []
  cut : List (ℕ × Hash) := []

/-- The state of the service, with what it acts upon and the record of what it
has done. -/
structure ServiceWorld extends Outside, Record where
  booted : Bool := false
  scanInProgress : Bool := false
  timer : Bool := false
  notifier : NotifierPhase := .absent
  publisher : PublisherPhase := .absent

/-- What the environment decides: which block is produced, what is finalised,
which write lands or is lost, which counter expires, and how a call settles,
with the reply where the state does not determine it and the cost of an
extrinsic that is accepted. -/
inductive Happening where
  | produce (b : Block)
  | finalise (n : ℕ)
  | land (status : ITxStatus)
  | lose (status : ITxStatus)
  | expire (epoch : ℕ)
  | settle (how : Settle Err) (pick : (c : Call) → c.Reply) (cost : ℕ)

/-- Why a method is run. -/
inductive Reason where
  | bootstrap
  | scan (fuel : ℕ)
  | job (job : Job)

/-- The first block of the chain. -/
def genesis : Block := ⟨1, 0, [], []⟩

/-- The pass a phase belongs to. -/
def NotifierPhase.pass : NotifierPhase → Option Pass
  | opened p | located p | dated p | notifying p _ | booking p _ | closing p _ => some p
  | _ => none

/-- The hash of an accepted extrinsic whose entry has not been written. -/
def PublisherPhase.unwritten : PublisherPhase → Option Hash
  | passed _ publishing => publishing.txHash
  | _ => none

/-- What the check before a job has seen. -/
def PublisherPhase.gate : PublisherPhase → Option Gate
  | available gate | resuming gate => some gate
  | passed gate _ => gate
  | _ => none

namespace ServiceWorld

/-- A block the chain may go on with: epochs do not go back, and an extrinsic of
the service is included once and withdraws what it costs. -/
def Admits (w : ServiceWorld) (b : Block) : Prop :=
  w.chain.epoch ≤ b.epoch ∧ ∀ a ∈ w.accepted, a.txHash ∈ b.extrinsics →
    ¬w.chain.Includes a.txHash ∧ b.extrinsics.count a.txHash = 1 ∧
      ∀ e ∈ b.extrinsics.zipIdx, e.1 = a.txHash → b.withdrawn e.2 = a.cost

instance (w : ServiceWorld) (b : Block) : Decidable (w.Admits b) :=
  inferInstanceAs (Decidable (_ ∧ ∀ a ∈ w.accepted, a.txHash ∈ b.extrinsics → _ ∧ _ ∧ _))

/-- The reply to a call that is carried out. -/
def reply (w : ServiceWorld) (pick : (c : Call) → c.Reply) : (c : Call) → c.Reply
  | .hkeys => w.watchList.map ITxStatus.txHash
  | .hlen _ => w.watchList.length
  | .hvals _ => w.watchList
  | .hget txHash => w.watchList.hget txHash
  | .getLastSeen => w.lastSeen
  | .getEpochCapacity e => w.epochCapacity e
  | .getBlockHash n => w.chain.hashAt n
  | .getBlock h => ((w.chain.find h).map Block.extrinsics).getD []
  | .currentEpochAt h => ((w.chain.find h).map Block.epoch).getD 0
  | .eventsAt h => ((w.chain.find h).map Block.events).getD []
  | .getLatestFinalizedBlockNumber => w.finalized
  | .blockNumber => w.chain.best
  | .currentEpoch => w.chain.epoch
  | .tx call => ⟨call, .immortal⟩
  | .signAndSend extrinsic nonce =>
      ((pick (.signAndSend extrinsic nonce)).1,
        { extrinsic with era := (pick (.signAndSend extrinsic nonce)).2.era })
  | c => pick c

/-- An extrinsic is accepted under a new hash and signed for the blocks after
one that exists. -/
def Possible (w : ServiceWorld) : (c : Call) → c.Reply → Prop
  | .signAndSend _ _, sent =>
      sent.2.era.phaseBound ≤ w.chain.best ∧ sent.1 ∉ w.accepted.map Accepted.txHash ∧
        ¬w.chain.Includes sent.1
  | _, _ => True

instance (w : ServiceWorld) (c : Call) (reply : c.Reply) : Decidable (w.Possible c reply) := by
  unfold Possible
  split <;> infer_instance

/-- The replies a call can get that is carried out. -/
def Replies (w : ServiceWorld) (c : Call) (reply : c.Reply) : Prop :=
  (∃ pick, w.reply pick c = reply) ∧ w.Possible c reply

/-- What a call does that is carried out. -/
def carryOut (w : ServiceWorld) (cost : ℕ) : (c : Call) → Option c.Reply → ServiceWorld
  | .exec hdels, some _ =>
      { w with
        watchList := w.watchList.hdel hdels
        removed := w.notifier.pass.toList ++ w.removed
        cut := w.cut.filter fun e => e.2 ∉ hdels }
  | .setLastSeen b, some _ => { w with lastSeen := some b }
  | .setexEpochCapacity e _ value, some _ =>
      { w with
        epochCapacity := Function.update w.epochCapacity e (some value)
        booked := w.notifier.pass.toList.map (fun p => (p.epoch, p.capacityWithdrawn)) ++ w.booked }
  | .signAndSend _ _, some sent =>
      { w with accepted := ⟨sent.1, w.chain.best, cost, w.publisher.gate⟩ :: w.accepted }
  | _, _ => w

/-- The method at a place has done something. -/
def observe (configService : ConfigService) (w : ServiceWorld) : Role → Obs Worker Err → ServiceWorld
  | .notifier, o => { w with notifier := w.notifier.move configService o }
  | .publisher, o => { w with publisher := w.publisher.next configService o }

/-- How far the method at a place has come. -/
def phase : (r : Role) → ServiceWorld → r.Phase
  | .notifier, w => w.notifier
  | .publisher, w => w.publisher

/-- The result of an operation on memory. -/
def result (w : ServiceWorld) : (m : Memory) → m.Result
  | .scanInProgress => w.scanInProgress
  | .setScanInProgress _ => ()
  | .doesExist => w.timer
  | .deleteTimeout => if w.timer then .ok () else .error (.error "No Timeout was found")
  | .addTimeout _ => if w.timer then .error (.error "Timeout already exists") else .ok ()

/-- The effect of an operation on memory. -/
def act (w : ServiceWorld) : Memory → ServiceWorld
  | .setScanInProgress b => { w with scanInProgress := b }
  | .deleteTimeout => { w with timer := false }
  | .addTimeout _ => { w with timer := true }
  | _ => w

/-- A call nobody awaits is on its way. -/
def issue (w : ServiceWorld) : Call → ServiceWorld
  | .hset _ status => { w with outbox := w.outbox ++ [status] }
  | _ => w

/-- What happens without the service. -/
def env (w : ServiceWorld) : Happening → Option ServiceWorld
  | .produce b =>
      if h : (b.hash ≠ 0 ∧ b.hash ∉ w.chain.blocks.map Block.hash) ∧ w.Admits b then
        some { w with chain := w.chain.push b h.1.1 h.1.2 }
      else none
  | .finalise n =>
      if w.finalized ≤ n ∧ n ≤ w.chain.best then some { w with finalized := n } else none
  | .land status =>
      if status ∈ w.outbox then
        some
          { w with
            watchList := w.watchList.hset status
            outbox := w.outbox.erase status }
      else none
  | .lose status =>
      if status ∈ w.outbox then some { w with outbox := w.outbox.erase status } else none
  | .expire epoch =>
      some
        { w with
          epochCapacity := Function.update w.epochCapacity epoch none
          expired := epoch :: w.expired }
  | .settle _ _ _ => none

/-- The process dies: what it was doing is cut short, and its memory is gone. -/
def crash (w : ServiceWorld) : ServiceWorld :=
  { w with
    booted := false
    scanInProgress := false
    timer := false
    notifier := .absent
    publisher := .absent
    cut := w.notifier.pass.toList.flatMap (fun p => p.found.map fun e => (p.height, e.1)) ++ w.cut }

/-- Nothing has happened: the chain has its first block, and nothing runs. -/
def init : ServiceWorld where
  chain := ⟨[genesis], by simp [genesis], by simp⟩
  finalized := 0
  watchList := []
  outbox := []
  lastSeen := none
  epochCapacity _ := none

end ServiceWorld

/-- The notifier and the publisher side by side. -/
def service (configService : ConfigService) (registry : Registry) :
    World Worker Err Unit Role ServiceWorld Happening Reason where
  act r m w := (w.result m, (w.act m).observe configService r (.sync m (w.result m)))
  issue r c w := (w.issue c).observe configService r (.fire c)
  answer r c x w :=
    match x with
    | .settle how pick cost =>
        if w.Possible c (w.reply pick c) then
          some (how.fate (w.reply pick c),
            (w.carryOut cost c (how.fate (w.reply pick c)).effect).observe configService r
              (.await c (how.fate (w.reply pick c))))
        else none
    | _ => none
  env x w := w.env x
  launch reason r w :=
    match r, reason with
    | .notifier, .bootstrap =>
        if w.booted then none
        else
          some (TxnNotifierService.onApplicationBootstrap,
            { w with booted := true, notifier := .booting })
    | .notifier, .scan fuel =>
        if w.booted then
          some (TxnNotifierService.scan configService registry fuel, { w with notifier := .starting })
        else none
    | .publisher, .job job => some (process configService job, { w with publisher := .checking })
    | _, _ => none
  crash w := w.crash

/-- A pool with the notifier and the publisher. -/
abbrev ServicePool := Pool Worker Err Unit Role ServiceWorld

/-- Nothing has happened. -/
def ServicePool.init : ServicePool := ⟨.init, fun _ => none⟩

/-- The course of the method at a place. -/
def course (configService : ConfigService) : (r : Role) → Protocol Worker Err r.Phase
  | .notifier => notifierCourse configService
  | .publisher => publisherCourse configService

section Tracks

variable {configService : ConfigService} {registry : Registry}

/-- What a call leads to that settles. -/
theorem service_answer {r : Role} {c : Call} {x : Happening} {w w' : ServiceWorld}
    {f : Fate Err c.Reply} (h : (service configService registry).answer r c x w = some (f, w')) :
    ∃ cost, w' = (w.carryOut cost c f.effect).observe configService r (.await c f) ∧
      ∀ reply, f.effect = some reply → w.Replies c reply := by
  cases x with
  | settle how pick cost =>
      simp only [service, Option.ite_none_right_eq_some, Option.some.injEq, Prod.mk.injEq] at h
      obtain ⟨hpossible, rfl, rfl⟩ := h
      exact ⟨cost, rfl, fun reply hreply => Settle.fate_effect hreply ▸ ⟨⟨pick, rfl⟩, hpossible⟩⟩
  | _ => cases h

/-- How a call settles is part of what happens. -/
theorem service_answer_fate {r : Role} {c : Call} {x : Happening} {w w' : ServiceWorld}
    {f : Fate Err c.Reply} (h : (service configService registry).answer r c x w = some (f, w')) :
    ∃ how pick cost, x = .settle how pick cost ∧ f = how.fate (w.reply pick c) := by
  cases x with
  | settle how pick cost =>
      simp only [service, Option.ite_none_right_eq_some, Option.some.injEq, Prod.mk.injEq] at h
      exact ⟨how, pick, cost, rfl, h.2.1.symm⟩
  | _ => cases h

/-- What happens without the service: the chain is longer, more of it is
finalised, a write lands or is lost, or a counter expires. -/
theorem ServiceWorld.env_cases {x : Happening} {w w' : ServiceWorld} (h : w.env x = some w') :
    (∃ b hb hnew, w.Admits b ∧ w' = { w with chain := w.chain.push b hb hnew }) ∨
      (∃ n, w.finalized ≤ n ∧ n ≤ w.chain.best ∧ w' = { w with finalized := n }) ∨
      (∃ status ∈ w.outbox, x = .land status ∧
        w' = { w with
          watchList := w.watchList.hset status
          outbox := w.outbox.erase status }) ∨
      (∃ status ∈ w.outbox, w' = { w with outbox := w.outbox.erase status }) ∨
      ∃ epoch, w' = { w with
        epochCapacity := Function.update w.epochCapacity epoch none
        expired := epoch :: w.expired } := by
  cases x with
  | produce b =>
      simp only [env, Option.dite_none_right_eq_some, Option.some.injEq] at h
      obtain ⟨hb, rfl⟩ := h
      exact .inl ⟨b, hb.1.1, hb.1.2, hb.2, rfl⟩
  | finalise n =>
      simp only [env, Option.ite_none_right_eq_some, Option.some.injEq] at h
      obtain ⟨hn, rfl⟩ := h
      exact .inr (.inl ⟨n, hn.1, hn.2, rfl⟩)
  | land status =>
      simp only [env, Option.ite_none_right_eq_some, Option.some.injEq] at h
      obtain ⟨hmem, rfl⟩ := h
      exact .inr (.inr (.inl ⟨status, hmem, rfl, rfl⟩))
  | lose status =>
      simp only [env, Option.ite_none_right_eq_some, Option.some.injEq] at h
      obtain ⟨hmem, rfl⟩ := h
      exact .inr (.inr (.inr (.inl ⟨status, hmem, rfl⟩)))
  | expire epoch =>
      obtain rfl := Option.some.inj h
      exact .inr (.inr (.inr (.inr ⟨epoch, rfl⟩)))
  | settle how pick cost => cases h

/-- What the start of a method leads to. -/
theorem service_launch {r : Role} {reason : Reason} {w w' : ServiceWorld} {p : Svc Unit}
    (h : (service configService registry).launch reason r w = some (p, w')) :
    (r = .notifier ∧ w.booted = false ∧ p = TxnNotifierService.onApplicationBootstrap ∧
        w' = { w with booted := true, notifier := .booting }) ∨
      (r = .notifier ∧ (∃ fuel, p = TxnNotifierService.scan configService registry fuel) ∧
        w' = { w with notifier := .starting }) ∨
      (r = .publisher ∧ (∃ job, p = process configService job) ∧
        w' = { w with publisher := .checking }) := by
  cases r <;> cases reason <;> simp only [service, Option.ite_none_left_eq_some,
    Option.ite_none_right_eq_some, Option.some.injEq, Prod.mk.injEq, reduceCtorEq] at h
  · obtain ⟨hbooted, rfl, rfl⟩ := h
    exact .inl ⟨rfl, by simpa using hbooted, rfl, rfl⟩
  · obtain ⟨-, rfl, rfl⟩ := h
    exact .inr (.inl ⟨rfl, ⟨_, rfl⟩, rfl⟩)
  · obtain ⟨rfl, rfl⟩ := h
    exact .inr (.inr ⟨rfl, ⟨_, rfl⟩, rfl⟩)

end Tracks

/-! ## What stays as it is -/

namespace ServiceWorld

variable {w : ServiceWorld} {configService : ConfigService} {r : Role} {obs : Obs Worker Err}
  {cost : ℕ} {c : Call} {o : Option c.Reply}

/-- A call that is not carried out does nothing. -/
theorem carryOut_none : w.carryOut cost c none = w := by
  cases c <;> rfl

@[simp] theorem carryOut_chain : (w.carryOut cost c o).chain = w.chain := by
  cases c <;> cases o <;> rfl

@[simp] theorem carryOut_finalized : (w.carryOut cost c o).finalized = w.finalized := by
  cases c <;> cases o <;> rfl

@[simp] theorem carryOut_outbox : (w.carryOut cost c o).outbox = w.outbox := by
  cases c <;> cases o <;> rfl

@[simp] theorem carryOut_expired : (w.carryOut cost c o).expired = w.expired := by
  cases c <;> cases o <;> rfl

@[simp] theorem carryOut_notifier : (w.carryOut cost c o).notifier = w.notifier := by
  cases c <;> cases o <;> rfl

@[simp] theorem carryOut_publisher : (w.carryOut cost c o).publisher = w.publisher := by
  cases c <;> cases o <;> rfl

theorem carryOut_accepted (h : ∀ extrinsic nonce, c ≠ .signAndSend extrinsic nonce) :
    (w.carryOut cost c o).accepted = w.accepted := by
  cases c <;> cases o <;> first | rfl | exact absurd rfl (h _ _)

theorem carryOut_watchList (h : ∀ hdels, c ≠ .exec hdels) :
    (w.carryOut cost c o).watchList = w.watchList := by
  cases c <;> cases o <;> first | rfl | exact absurd rfl (h _)

/-- Nothing but the publisher's write brings an entry to the list. -/
theorem carryOut_watchList_subset : (w.carryOut cost c o).watchList ⊆ w.watchList := by
  by_cases hc : ∃ hdels, c = .exec hdels
  · obtain ⟨hdels, rfl⟩ := hc
    cases o with
    | none => exact List.Subset.refl _
    | some _ => exact fun t ht => (WatchList.mem_hdel.mp ht).1
  · rw [carryOut_watchList fun hdels heq => hc ⟨hdels, heq⟩]
    exact List.Subset.refl _

theorem carryOut_removed (h : ∀ hdels, c ≠ .exec hdels) :
    (w.carryOut cost c o).removed = w.removed := by
  cases c <;> cases o <;> first | rfl | exact absurd rfl (h _)

/-- A pass is recorded when its removals are carried out. -/
theorem mem_carryOut_removed {p : Pass} (hp : p ∈ (w.carryOut cost c o).removed) :
    p ∈ w.removed ∨ ∃ hdels, c = .exec hdels ∧ w.notifier.pass = some p := by
  by_cases hc : ∃ hdels, c = .exec hdels
  · obtain ⟨hdels, rfl⟩ := hc
    cases o with
    | none => exact .inl hp
    | some _ =>
        rcases List.mem_append.mp hp with hnow | hold
        · exact .inr ⟨hdels, rfl, Option.mem_toList.mp hnow⟩
        · exact .inl hold
  · rw [carryOut_removed fun hdels heq => hc ⟨hdels, heq⟩] at hp
    exact .inl hp

theorem carryOut_cut (h : ∀ hdels, c ≠ .exec hdels) : (w.carryOut cost c o).cut = w.cut := by
  cases c <;> cases o <;> first | rfl | exact absurd rfl (h _)

theorem carryOut_lastSeen (h : ∀ b, c ≠ .setLastSeen b) :
    (w.carryOut cost c o).lastSeen = w.lastSeen := by
  cases c <;> cases o <;> first | rfl | exact absurd rfl (h _)

theorem carryOut_epochCapacity (h : ∀ e seconds value, c ≠ .setexEpochCapacity e seconds value) :
    (w.carryOut cost c o).epochCapacity = w.epochCapacity := by
  cases c <;> cases o <;> first | rfl | exact absurd rfl (h _ _ _)

theorem carryOut_booked (h : ∀ e seconds value, c ≠ .setexEpochCapacity e seconds value) :
    (w.carryOut cost c o).booked = w.booked := by
  cases c <;> cases o <;> first | rfl | exact absurd rfl (h _ _ _)

/-- A call of the publisher does nothing but have an extrinsic accepted. -/
theorem carryOut_publisher_call {s : PublisherPhase} (hallow : s.allow (.await c)) :
    w.carryOut cost c o = { w with accepted := (w.carryOut cost c o).accepted } := by
  cases c with
  | exec hdels => cases s <;> exact hallow.elim
  | setLastSeen b => cases s <;> exact hallow.elim
  | setexEpochCapacity e seconds value => cases s <;> exact hallow.elim
  | _ => cases o <;> rfl

/-- A call of the notifier has nothing accepted. -/
theorem carryOut_notifier_call {s : NotifierPhase} (hcall : NotifierCall configService s c) :
    (w.carryOut cost c o).accepted = w.accepted := by
  cases hcall <;> cases o <;> rfl

@[simp] theorem observe_toOutside : (w.observe configService r obs).toOutside = w.toOutside := by
  cases r <;> rfl

@[simp] theorem observe_toRecord : (w.observe configService r obs).toRecord = w.toRecord := by
  cases r <;> rfl

@[simp] theorem observe_notifier_notifier :
    (w.observe configService .notifier obs).notifier = w.notifier.move configService obs := rfl

@[simp] theorem observe_notifier_publisher :
    (w.observe configService .notifier obs).publisher = w.publisher := rfl

@[simp] theorem observe_publisher_notifier :
    (w.observe configService .publisher obs).notifier = w.notifier := rfl

@[simp] theorem observe_publisher_publisher :
    (w.observe configService .publisher obs).publisher = w.publisher.next configService obs := rfl

@[simp] theorem act_toOutside (m : Memory) : (w.act m).toOutside = w.toOutside := by
  cases m <;> rfl

@[simp] theorem act_toRecord (m : Memory) : (w.act m).toRecord = w.toRecord := by
  cases m <;> rfl

@[simp] theorem act_notifier (m : Memory) : (w.act m).notifier = w.notifier := by
  cases m <;> rfl

@[simp] theorem act_publisher (m : Memory) : (w.act m).publisher = w.publisher := by
  cases m <;> rfl

@[simp] theorem issue_chain (c : Call) : (w.issue c).chain = w.chain := by
  cases c <;> rfl

@[simp] theorem issue_finalized (c : Call) : (w.issue c).finalized = w.finalized := by
  cases c <;> rfl

@[simp] theorem issue_watchList (c : Call) : (w.issue c).watchList = w.watchList := by
  cases c <;> rfl

@[simp] theorem issue_toRecord (c : Call) : (w.issue c).toRecord = w.toRecord := by
  cases c <;> rfl

@[simp] theorem issue_notifier (c : Call) : (w.issue c).notifier = w.notifier := by
  cases c <;> rfl

@[simp] theorem issue_publisher (c : Call) : (w.issue c).publisher = w.publisher := by
  cases c <;> rfl

@[simp] theorem phase_notifier : phase .notifier w = w.notifier := rfl

@[simp] theorem phase_publisher : phase .publisher w = w.publisher := rfl

/-- The step of a place moves its phase. -/
theorem phase_observe_self : phase r (w.observe configService r obs) =
    (course configService r).next (phase r w) obs := by
  cases r <;> rfl

/-- And no other. -/
theorem phase_observe_of_ne {r' : Role} (h : r' ≠ r) :
    phase r' (w.observe configService r obs) = phase r' w := by
  cases r <;> cases r' <;> first | rfl | exact absurd rfl h

/-- The phases are not touched by what happens without the service. -/
theorem phase_env {x : Happening} {w' : ServiceWorld} (h : w.env x = some w') :
    phase r w' = phase r w := by
  rcases env_cases h with ⟨b, hb, hnew, -, rfl⟩ | ⟨n, -, -, rfl⟩ | ⟨status, -, -, rfl⟩ |
    ⟨status, -, rfl⟩ | ⟨epoch, rfl⟩ <;> cases r <;> rfl

end ServiceWorld

open ServiceWorld in
/-- **The methods keep to their courses**, whatever happens. -/
theorem service_tracks (configService : ConfigService) (registry : Registry) :
    (service configService registry).Tracks (course configService) (fun _ _ _ => True)
      (fun _ _ _ => True) fun r w => w.phase r where
  act r m w := by
    refine phase_observe_self.trans ?_
    cases r <;> simp [service]
  act_other r r' m w hr := by
    refine (phase_observe_of_ne hr).trans ?_
    cases r' <;> simp
  issue r c w := by
    refine phase_observe_self.trans ?_
    cases r <;> simp
  issue_other r r' c w hr := by
    refine (phase_observe_of_ne hr).trans ?_
    cases r' <;> simp
  answer r c x w f w' h := by
    obtain ⟨cost, rfl, -⟩ := service_answer h
    refine phase_observe_self.trans ?_
    cases r <;> simp
  answer_other r r' c x w f w' hr h := by
    obtain ⟨cost, rfl, -⟩ := service_answer h
    refine (phase_observe_of_ne hr).trans ?_
    cases r' <;> simp
  env r x w w' h := phase_env h
  launch reason r w p w' h := by
    rcases service_launch h with ⟨rfl, -, rfl, rfl⟩ | ⟨rfl, ⟨fuel, rfl⟩, rfl⟩ | ⟨rfl, ⟨job, rfl⟩, rfl⟩
    · exact onApplicationBootstrap_keepsCourse
    · exact scan_keepsCourse fuel
    · exact process_follows job
  launch_other reason r r' w p w' hr h := by
    rcases service_launch h with ⟨rfl, -, rfl, rfl⟩ | ⟨rfl, -, rfl⟩ | ⟨rfl, -, rfl⟩ <;>
      cases r' <;> first | rfl | exact absurd rfl hr

/-! ## What only the notifier's steps bear upon -/

/-- What the notifier works with is as in the first world, the rest as in the
second: the writes on their way, the accepted extrinsics, the memory and how far
the publisher has come. -/
def ServiceWorld.besides (w w₀ : ServiceWorld) : ServiceWorld :=
  { w with
    outbox := w₀.outbox
    accepted := w₀.accepted
    booted := w₀.booted
    scanInProgress := w₀.scanInProgress
    timer := w₀.timer
    publisher := w₀.publisher }

/-- What an invariant owes that only depends on what the notifier works with:
the publisher's steps, and what either does in memory, are no part of it. -/
structure NotifierPreserves (configService : ConfigService) (registry : Registry)
    (C : Label Role Happening Reason → ServicePool → Prop) (A J : ServiceWorld → Prop) : Prop where
  besides : ∀ w w₀, J w → J (w.besides w₀)
  env : ∀ x P w', C (.env x) P → A P.world → J P.world → P.world.env x = some w' → J w'
  start : ∀ reason P s, C (.start reason .notifier) P → A P.world → J P.world →
    s = .booting ∨ s = .starting → J { P.world with notifier := s }
  answer : ∀ x c (P : ServicePool) f w' cost, C (.reply .notifier x) P →
    NotifierCall configService P.world.notifier c → A P.world → J P.world →
      (service configService registry).answer .notifier c x P.world = some (f, w') →
        (∀ reply, f.effect = some reply → P.world.Replies c reply) →
          J ((P.world.carryOut cost c f.effect).observe configService .notifier (.await c f))
  crash : ∀ P, C .crash P → A P.world → J P.world → J P.world.crash

section Besides

variable {configService : ConfigService} {registry : Registry} {w : ServiceWorld} {r : Role}

/-- An operation on memory leaves what the notifier works with as it is. -/
theorem service_act_besides {m : Memory} : ((service configService registry).act r m w).2 =
    w.besides ((service configService registry).act r m w).2 := by
  cases r <;> cases m <;> rfl

/-- So does a call that is sent off. -/
theorem service_issue_besides {c : Call} : (service configService registry).issue r c w =
    w.besides ((service configService registry).issue r c w) := by
  cases r <;> cases c <;> rfl

/-- And an answer to the publisher. -/
theorem service_answer_besides {c : Call} {x : Happening} {f : Fate Err c.Reply}
    {w' : ServiceWorld} (hallow : w.publisher.allow (.await c))
    (h : (service configService registry).answer .publisher c x w = some (f, w')) :
    w' = w.besides w' := by
  obtain ⟨cost, rfl, -⟩ := service_answer h
  rw [ServiceWorld.carryOut_publisher_call hallow]
  rfl

end Besides

/-- **The notifier's frame**: an invariant that its steps keep is kept by all. -/
theorem NotifierPreserves.preserves {configService : ConfigService} {registry : Registry}
    {C : Label Role Happening Reason → ServicePool → Prop} {A J : ServiceWorld → Prop}
    (h : NotifierPreserves configService registry C A J) :
    (service configService registry).Preserves (course configService) (fun r w => w.phase r)
      C A J where
  env x P w' := h.env x P w'
  launch reason r P p w' hC hA hJ hw := by
    rcases service_launch hw with ⟨rfl, -, -, rfl⟩ | ⟨rfl, -, rfl⟩ | ⟨rfl, -, rfl⟩
    · have hstart := h.start reason P .booting hC hA hJ (.inl rfl)
      exact h.besides _ { P.world with booted := true } hstart
    · exact h.start reason P .starting hC hA hJ (.inr rfl)
    · exact h.besides _ { P.world with publisher := .checking } hJ
  act r m w _ _ hJ := by
    rw [service_act_besides]
    exact h.besides w _ hJ
  issue r c w _ _ hJ := by
    rw [service_issue_besides]
    exact h.besides w _ hJ
  answer r x c k P f w' hC _ hallow hA hJ hw := by
    cases r with
    | notifier =>
        obtain ⟨cost, rfl, hreplies⟩ := service_answer hw
        exact h.answer x c P f _ cost hC hallow hA hJ hw hreplies
    | publisher =>
        rw [service_answer_besides hallow hw]
        exact h.besides P.world _ hJ
  crash P := h.crash P

/-! ## A sign-up -/

/-- A sign-up with an empty batch. -/
def signup : Job := ⟨"1", .siwfSignup (some []), "1", "1"⟩

/-- Every call succeeds; the extrinsic is accepted under a hash and costs an
amount. -/
def granted (txHash : Hash) (cost : ℕ) : Happening :=
  .settle .answer
    (fun
      | .capacityLedger _ => some ⟨100, 100⟩
      | .incrementNonce _ _ _ => 1
      | .signAndSend _ _ => (txHash, ⟨default, .mortal 64 0⟩)
      | _ => default)
    cost

/-- A sign-up from the check to the write of its entry. -/
def signupSteps (txHash : Hash) (cost : ℕ) : List (Label Role Happening Reason) :=
  [.start (.job signup) .publisher] ++
    List.replicate 7 (.reply .publisher (granted txHash cost)) ++ [.resume .publisher] ++
    List.replicate 6 (.reply .publisher (granted txHash cost)) ++ [.resume .publisher]

/-- The entry of a sign-up sent at the beginning of the chain. -/
def signupStatus (txHash : Hash) : ITxStatus :=
  ⟨.siwfSignup, "1", "1", txHash, ⟨"utility", "BatchCompleted"⟩, 0, 64⟩

/-- The notifier starts up and runs a number of calls that all succeed. -/
def notifierSteps (reason : Reason) (calls : ℕ) : List (Label Role Happening Reason) :=
  [.start reason .notifier] ++ List.replicate calls (.reply .notifier (granted 0 0))

/-- A sign-up that costs 5 is included in block 1. -/
def signupCharged : List (Label Role Happening Reason) :=
  signupSteps 7 5 ++
    [.env (.land (signupStatus 7)),
      .env (.produce ⟨2, 0, [7], [⟨.applyExtrinsic 0, .capacityWithdrawn 1 5⟩]⟩)]

/-- The notifier starts up and scans one block, up to a number of calls after
the first. -/
def firstScan (calls : ℕ) : List (Label Role Happening Reason) :=
  notifierSteps .bootstrap 2 ++ notifierSteps (.scan 1) 1 ++ [.resume .notifier] ++
    List.replicate calls (.reply .notifier (granted 0 0))

end AccountService
