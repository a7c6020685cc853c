import AccountService.Notifier

/-!
# The course of the notifier's methods

What a scan and the start-up of the notifier do, in which order and on the
strength of what they have read: an automaton whose states carry what later
steps rest on.  From the moment the watch list is read for a block to the
pipeline that removes entries, the state is a `Pass`, with everything the
notifier has seen of the block and done about it.
-/

namespace AccountService

open Async

/-! ## A pass over a block -/

/-- What was done about one watched extrinsic of a block: the entry read for it,
and how each post about it ended. -/
structure Notice where
  txHash : Hash
  txIndex : ℕ
  status : Option ITxStatus
  posts : List Bool := []
  deriving DecidableEq

/-- A pass over a block, as far as it has come; the latest notice comes first. -/
structure Pass where
  height : ℕ
  hash : BlockHash
  pending : List ITxStatus
  found : List (Hash × ℕ) := []
  epoch : ℕ := 0
  records : List EventRecord := []
  notices : List Notice := []
  deriving DecidableEq

/-- The webhook is owed a notification: the entry's success event is among the
events of the extrinsic, and no failure is. -/
def Notice.Owed (events : List EventRecord) (n : Notice) : Prop :=
  (∀ r ∈ events, r.isOf n.txIndex → r.event.failure = none) ∧
    ∃ status, n.status = some status ∧
      ∃ r ∈ events, r.isOf n.txIndex ∧ r.event.name = status.successEvent

/-- The notice has been dealt with: nothing was posted after a success, and
where the webhook is owed a notification, a post has succeeded or as many have
failed as the settings allow. -/
structure Notice.Settled (configService : ConfigService) (events : List EventRecord)
    (n : Notice) : Prop where
  last : ∀ before after, n.posts = before ++ true :: after → after = []
  attempted : n.Owed events →
    true ∈ n.posts ∨ ⌈configService.healthCheckMaxRetries⌉₊ ≤ n.posts.length

namespace Pass

/-- The events of the watched extrinsics. -/
def events (p : Pass) : List EventRecord := watchedEvents p.found p.records

/-- The removals of the pass. -/
def hdels (p : Pass) : List Hash := p.found.map Prod.fst ++ expiredTxns p.pending p.height

/-- The capacity the watched extrinsics of the block used. -/
def capacityWithdrawn (p : Pass) : ℕ := totalCapacityWithdrawn p.events

/-- A post about the extrinsic in hand has ended. -/
def posted (p : Pass) (ok : Bool) : Pass :=
  { p with
    notices :=
      match p.notices with
      | n :: notices => { n with posts := n.posts ++ [ok] } :: notices
      | [] => [] }

/-- All notices have been dealt with. -/
def Settled (configService : ConfigService) (p : Pass) : Prop :=
  ∀ n ∈ p.notices, n.Settled configService p.events

/-- Every watched extrinsic of the block has been looked at. -/
def Complete (p : Pass) : Prop :=
  ∀ e ∈ p.found, ∃ n ∈ p.notices, n.txHash = e.1 ∧ n.txIndex = e.2

/-- Another post may be made about the extrinsic in hand: none has succeeded,
and fewer have failed than the settings allow. -/
def MayPost (configService : ConfigService) (txHash : Hash) (p : Pass) : Prop :=
  ∃ n notices, p.notices = n :: notices ∧ n.txHash = txHash ∧ true ∉ n.posts ∧
    n.posts.length < ⌈configService.healthCheckMaxRetries⌉₊

end Pass

/-! ## The course -/

/-- How far a method of the notifier has come.  Numbers are block heights:
`seen` holds the last seen block, `next`, `reached`, `confirming`, `halted` and
`checked` the block the scan has come to, `passed` the block whose pass has just
ended. -/
inductive NotifierPhase where
  | absent
  | booting
  | empty
  | headed (b : ℕ)
  | starting
  | entered
  | seen (b : ℕ)
  | next (n : ℕ)
  | reached (n : ℕ) (h : BlockHash)
  | confirming (n : ℕ) (h : BlockHash)
  | halted (n : ℕ) (h : BlockHash)
  | checked (n : ℕ) (h : BlockHash)
  | opened (p : Pass)
  | located (p : Pass)
  | dated (p : Pass)
  | notifying (p : Pass) (todo : List (Hash × ℕ))
  | booking (p : Pass) (savedCapacity : Option ℕ)
  | closing (p : Pass) (booked : Bool)
  | passed (n : ℕ)
  | idle
  deriving DecidableEq

open NotifierPhase in
/-- The calls of the notifier, with the phase in which each is made. -/
inductive NotifierCall (configService : ConfigService) : NotifierPhase → Call → Prop where
  | isReady : NotifierCall configService booting .isReady
  | hkeys : NotifierCall configService booting .hkeys
  | finalizedHead : NotifierCall configService empty .getLatestFinalizedBlockNumber
  | skip (b : ℕ) : NotifierCall configService (headed b) (.setLastSeen b)
  | pendingAtAll : NotifierCall configService starting (.hlen .checkInitialScanParameters)
  | lastSeen : NotifierCall configService entered .getLastSeen
  | births (b : ℕ) : NotifierCall configService (seen b) (.hvals .getLastSeenBlockNumber)
  | blockHash (n : ℕ) : NotifierCall configService (next n) (.getBlockHash n)
  | stillPending (n : ℕ) (h : BlockHash) :
      NotifierCall configService (reached n h) (.hlen (.checkScanParameters n))
  | finality (n : ℕ) (h : BlockHash) :
      NotifierCall configService (confirming n h) .getLatestFinalizedBlockNumber
  | pending (n : ℕ) (h : BlockHash) :
      NotifierCall configService (checked n h) (.hvals (.processCurrentBlock n))
  | block (p : Pass) : NotifierCall configService (opened p) (.getBlock p.hash)
  | api (p : Pass) : NotifierCall configService (located p) (.apiAt p.hash)
  | epoch (p : Pass) : NotifierCall configService (located p) (.currentEpochAt p.hash)
  | events (p : Pass) : NotifierCall configService (dated p) (.eventsAt p.hash)
  | entry (p : Pass) (e : Hash × ℕ) (todo : List (Hash × ℕ))
      (hsettled : p.Settled configService) :
      NotifierCall configService (notifying p (e :: todo)) (.hget e.1)
  | post (p : Pass) (todo : List (Hash × ℕ)) (txHash : Hash) (url : String)
      (body : TxWebhookRsp) (hmay : p.MayPost configService txHash) :
      NotifierCall configService (notifying p todo) (.post txHash url body)
  | savedCapacity (p : Pass) (hsettled : p.Settled configService) (hcomplete : p.Complete) :
      NotifierCall configService (notifying p []) (.getEpochCapacity p.epoch)
  | epochLength (p : Pass) (savedCapacity : Option ℕ) :
      NotifierCall configService (booking p savedCapacity) .epochLength
  | book (p : Pass) (savedCapacity : Option ℕ) (seconds : ℕ) :
      NotifierCall configService (booking p savedCapacity)
        (.setexEpochCapacity p.epoch seconds (savedCapacity.getD 0 + p.capacityWithdrawn))
  | remove (p : Pass) (booked : Bool) (hsettled : p.Settled configService)
      (hcomplete : p.Complete) :
      NotifierCall configService (closing p booked) (.exec p.hdels)
  | store (n : ℕ) : NotifierCall configService (passed n) (.setLastSeen n)

namespace NotifierPhase

/-- What a method may do next. -/
def allow (configService : ConfigService) : NotifierPhase → Act Worker → Prop
  | _, .sync .scanInProgress => True
  | _, .sync (.setScanInProgress _) => True
  | s, .await c => NotifierCall configService s c
  | _, _ => False

/-- Where a block whose check has been answered leads. -/
def check (configService : ConfigService) (n : ℕ) (h : BlockHash) : NotifierPhase :=
  if h.isEmpty then idle
  else if (TxnNotifierService.scanParameters configService).onlyFinalized = some true then
    confirming n h
  else checked n h

/-- Where the extrinsics of the block lead. -/
def inspect (p : Pass) (extrinsics : List Hash) : NotifierPhase :=
  if extrinsicIndices p.pending extrinsics = [] then closing p false
  else located { p with found := extrinsicIndices p.pending extrinsics }

/-- Where a reply leads. -/
def answered (configService : ConfigService) : NotifierPhase → (c : Call) → c.Reply → NotifierPhase
  | booting, .hkeys, reply => if reply = [] then empty else idle
  | empty, .getLatestFinalizedBlockNumber, reply => headed reply
  | headed _, _, _ => idle
  | starting, .hlen _, reply => if reply = 0 then idle else entered
  | entered, .getLastSeen, reply => seen (reply.getD 0)
  | seen b, .hvals _, reply => next (TxnNotifierService.startingBlock b reply + 1)
  | next n, .getBlockHash _, reply => reached n reply
  | reached n h, .hlen _, reply => if reply = 0 then idle else check configService n h
  | confirming n h, .getLatestFinalizedBlockNumber, reply =>
      if reply < n then halted n h else checked n h
  | checked n h, .hvals _, reply => opened { height := n, hash := h, pending := reply }
  | opened p, .getBlock _, reply => inspect p reply
  | located p, .currentEpochAt _, reply => dated { p with epoch := reply }
  | dated p, .eventsAt _, reply => notifying { p with records := reply } p.found
  | notifying p (e :: todo), .hget _, reply =>
      notifying { p with notices := ⟨e.1, e.2, reply, []⟩ :: p.notices } todo
  | notifying p _, .getEpochCapacity _, reply => booking p reply
  | closing p _, .exec _, _ => passed p.height
  | passed n, _, _ => next (n + 1)
  | s, _, _ => s

/-- Where a call leads that rejects. -/
def failed : NotifierPhase → Call → NotifierPhase
  | notifying p _, .getEpochCapacity _ => closing p false
  | booking p _, _ => closing p false
  | _, _ => idle

/-- Where an operation or a call leads.  A post ends one way or the other, and
the counter has been written if its call took effect, whatever came back. -/
def move (configService : ConfigService) (s : NotifierPhase) : Obs Worker Err → NotifierPhase
  | .await (.post _ _ _) f =>
      match s with
      | notifying p todo => notifying (p.posted f.seen.toBool) todo
      | s => s
  | .await (.setexEpochCapacity _ _ _) f =>
      match s with
      | booking p _ => closing p f.effect.isSome
      | s => s
  | .await c f =>
      match f.seen with
      | .ok reply => answered configService s c reply
      | .error _ => failed s c
  | _ => s

end NotifierPhase

/-- The course of a method of the notifier. -/
def notifierCourse (configService : ConfigService) : Protocol Worker Err NotifierPhase where
  allow := NotifierPhase.allow configService
  next := NotifierPhase.move configService

/-! ## The code keeps to it -/

section Course

variable {configService : ConfigService} {registry : Registry} {s : NotifierPhase}

@[simp] theorem notifierCourse_allow (act : Act Worker) :
    (notifierCourse configService).allow s act ↔ s.allow configService act := Iff.rfl

@[simp] theorem notifierCourse_next (obs : Obs Worker Err) :
    (notifierCourse configService).next s obs = s.move configService obs := rfl

/-- The notifier awaits every call. -/
theorem NotifierPhase.not_fire {c : Call}
    (h : (notifierCourse configService).allow s (.fire c)) : False := by
  cases s <;> exact h

@[simp] theorem NotifierPhase.move_sync (m : Memory) (r : m.Result) :
    s.move configService (.sync m r) = s := rfl

@[simp] theorem NotifierPhase.move_fire (c : Call) : s.move configService (.fire c) = s := rfl

open NotifierPhase in
/-- What a call of the notifier leads to: one case for each answer that tells
something apart, the two calls that move on however they end, and the failures. -/
inductive NotifierStep (configService : ConfigService) :
    NotifierPhase → (c : Call) → Fate Err c.Reply → NotifierPhase → Prop where
  | isReady (reply : Unit) : NotifierStep configService booting .isReady (.done reply) booting
  | noneAtStart : NotifierStep configService booting .hkeys (.done []) empty
  | someAtStart (txHash : Hash) (txHashes : List Hash) :
      NotifierStep configService booting .hkeys (.done (txHash :: txHashes)) idle
  | finalizedHead (b : ℕ) :
      NotifierStep configService empty .getLatestFinalizedBlockNumber (.done b) (headed b)
  | skip (b : ℕ) (reply : Unit) :
      NotifierStep configService (headed b) (.setLastSeen b) (.done reply) idle
  | nonePending : NotifierStep configService starting (.hlen .checkInitialScanParameters) (.done 0) idle
  | somePending (pending : ℕ) (hsome : pending ≠ 0) :
      NotifierStep configService starting (.hlen .checkInitialScanParameters) (.done pending) entered
  | lastSeen (reply : Option ℕ) :
      NotifierStep configService entered .getLastSeen (.done reply) (seen (reply.getD 0))
  | births (b : ℕ) (pending : List ITxStatus) :
      NotifierStep configService (seen b) (.hvals .getLastSeenBlockNumber) (.done pending)
        (next (TxnNotifierService.startingBlock b pending + 1))
  | blockHash (n : ℕ) (h : BlockHash) :
      NotifierStep configService (next n) (.getBlockHash n) (.done h) (reached n h)
  | leave (n : ℕ) (h : BlockHash) (pending : ℕ) (hleave : pending = 0 ∨ h.isEmpty) :
      NotifierStep configService (reached n h) (.hlen (.checkScanParameters n)) (.done pending) idle
  | confirm (n : ℕ) (h : BlockHash) (pending : ℕ) (hsome : pending ≠ 0) (hhash : ¬h.isEmpty)
      (honly : (TxnNotifierService.scanParameters configService).onlyFinalized = some true) :
      NotifierStep configService (reached n h) (.hlen (.checkScanParameters n)) (.done pending)
        (confirming n h)
  | trust (n : ℕ) (h : BlockHash) (pending : ℕ) (hsome : pending ≠ 0) (hhash : ¬h.isEmpty)
      (honly : (TxnNotifierService.scanParameters configService).onlyFinalized ≠ some true) :
      NotifierStep configService (reached n h) (.hlen (.checkScanParameters n)) (.done pending)
        (checked n h)
  | unfinalised (n : ℕ) (h : BlockHash) (finalized : ℕ) (hlate : finalized < n) :
      NotifierStep configService (confirming n h) .getLatestFinalizedBlockNumber (.done finalized)
        (halted n h)
  | finalised (n : ℕ) (h : BlockHash) (finalized : ℕ) (hfinal : n ≤ finalized) :
      NotifierStep configService (confirming n h) .getLatestFinalizedBlockNumber (.done finalized)
        (checked n h)
  | pending (n : ℕ) (h : BlockHash) (pending : List ITxStatus) :
      NotifierStep configService (checked n h) (.hvals (.processCurrentBlock n)) (.done pending)
        (opened { height := n, hash := h, pending := pending })
  | noneFound (p : Pass) (extrinsics : List Hash)
      (hnone : extrinsicIndices p.pending extrinsics = []) :
      NotifierStep configService (opened p) (.getBlock p.hash) (.done extrinsics) (closing p false)
  | someFound (p : Pass) (extrinsics : List Hash)
      (hsome : extrinsicIndices p.pending extrinsics ≠ []) :
      NotifierStep configService (opened p) (.getBlock p.hash) (.done extrinsics)
        (located { p with found := extrinsicIndices p.pending extrinsics })
  | api (p : Pass) (reply : Unit) :
      NotifierStep configService (located p) (.apiAt p.hash) (.done reply) (located p)
  | epoch (p : Pass) (epoch : ℕ) :
      NotifierStep configService (located p) (.currentEpochAt p.hash) (.done epoch)
        (dated { p with epoch := epoch })
  | events (p : Pass) (records : List EventRecord) :
      NotifierStep configService (dated p) (.eventsAt p.hash) (.done records)
        (notifying { p with records := records } p.found)
  | entry (p : Pass) (e : Hash × ℕ) (todo : List (Hash × ℕ)) (hsettled : p.Settled configService)
      (status : Option ITxStatus) :
      NotifierStep configService (notifying p (e :: todo)) (.hget e.1) (.done status)
        (notifying { p with notices := ⟨e.1, e.2, status, []⟩ :: p.notices } todo)
  | post (p : Pass) (todo : List (Hash × ℕ)) (txHash : Hash) (url : String) (body : TxWebhookRsp)
      (hmay : p.MayPost configService txHash) (f : Fate Err Unit) :
      NotifierStep configService (notifying p todo) (.post txHash url body) f
        (notifying (p.posted f.seen.toBool) todo)
  | savedCapacity (p : Pass) (hsettled : p.Settled configService) (hcomplete : p.Complete)
      (savedCapacity : Option ℕ) :
      NotifierStep configService (notifying p []) (.getEpochCapacity p.epoch) (.done savedCapacity)
        (booking p savedCapacity)
  | unread (p : Pass) (hsettled : p.Settled configService) (hcomplete : p.Complete)
      (f : Fate Err (Option ℕ)) (e : Err) (hseen : f.seen = .error e) :
      NotifierStep configService (notifying p []) (.getEpochCapacity p.epoch) f (closing p false)
  | epochLength (p : Pass) (savedCapacity : Option ℕ) (epochLength : ℕ) :
      NotifierStep configService (booking p savedCapacity) .epochLength (.done epochLength)
        (booking p savedCapacity)
  | unbooked (p : Pass) (savedCapacity : Option ℕ) (f : Fate Err ℕ) (e : Err)
      (hseen : f.seen = .error e) :
      NotifierStep configService (booking p savedCapacity) .epochLength f (closing p false)
  | book (p : Pass) (savedCapacity : Option ℕ) (seconds : ℕ) (f : Fate Err Unit) :
      NotifierStep configService (booking p savedCapacity)
        (.setexEpochCapacity p.epoch seconds (savedCapacity.getD 0 + p.capacityWithdrawn)) f
        (closing p f.effect.isSome)
  | remove (p : Pass) (booked : Bool) (hsettled : p.Settled configService)
      (hcomplete : p.Complete) (reply : Unit) :
      NotifierStep configService (closing p booked) (.exec p.hdels) (.done reply) (passed p.height)
  | store (n : ℕ) (reply : Unit) :
      NotifierStep configService (passed n) (.setLastSeen n) (.done reply) (next (n + 1))
  | failed (s : NotifierPhase) (c : Call) (hcall : NotifierCall configService s c)
      (f : Fate Err c.Reply) (e : Err) (hseen : f.seen = .error e) (hidle : s.failed c = idle) :
      NotifierStep configService s c f idle

/-- A counter is written after its pass has read it, with what the pass adds. -/
theorem NotifierCall.booking {e seconds value : ℕ}
    (hcall : NotifierCall configService s (.setexEpochCapacity e seconds value)) :
    ∃ p saved, s = .booking p saved ∧ e = p.epoch ∧
      value = saved.getD 0 + p.capacityWithdrawn := by
  cases hcall with
  | book p saved seconds => exact ⟨p, saved, rfl, rfl, rfl⟩

/-- What a pass has to remove is removed when it closes. -/
theorem NotifierCall.closing {hdels : List Hash}
    (hcall : NotifierCall configService s (.exec hdels)) :
    ∃ p booked, s = .closing p booked ∧ hdels = p.hdels := by
  cases hcall with
  | remove p booked hsettled hcomplete => exact ⟨p, booked, rfl, rfl⟩

/-- An answer leads on as it does for the call. -/
private theorem NotifierCall.step_done {c : Call} (hcall : NotifierCall configService s c)
    (reply : c.Reply) : NotifierStep configService s c (.done reply)
      (s.move configService (.await c (.done reply))) := by
  cases hcall with
  | isReady => exact .isReady reply
  | hkeys =>
      cases reply with
      | nil => exact .noneAtStart
      | cons txHash txHashes => exact .someAtStart txHash txHashes
  | finalizedHead => exact .finalizedHead reply
  | skip b => exact .skip b reply
  | pendingAtAll =>
      show NotifierStep _ _ _ _ (if reply = 0 then NotifierPhase.idle else .entered)
      by_cases hnone : reply = 0
      · subst hnone
        exact .nonePending
      · rw [if_neg hnone]
        exact .somePending reply hnone
  | lastSeen => exact .lastSeen reply
  | births b => exact .births b reply
  | blockHash n => exact .blockHash n reply
  | stillPending n h =>
      show NotifierStep _ _ _ _
        (if reply = 0 then NotifierPhase.idle else .check configService n h)
      unfold NotifierPhase.check
      by_cases hnone : reply = 0
      · rw [if_pos hnone]
        exact .leave n h reply (.inl hnone)
      rw [if_neg hnone]
      by_cases hempty : h.isEmpty
      · rw [if_pos hempty]
        exact .leave n h reply (.inr hempty)
      rw [if_neg hempty]
      by_cases honly : (TxnNotifierService.scanParameters configService).onlyFinalized = some true
      · rw [if_pos honly]
        exact .confirm n h reply hnone hempty honly
      · rw [if_neg honly]
        exact .trust n h reply hnone hempty honly
  | finality n h =>
      show NotifierStep _ _ _ _ (if reply < n then NotifierPhase.halted n h else .checked n h)
      by_cases hlate : reply < n
      · rw [if_pos hlate]
        exact .unfinalised n h reply hlate
      · rw [if_neg hlate]
        exact .finalised n h reply (not_lt.mp hlate)
  | pending n h => exact .pending n h reply
  | block p =>
      show NotifierStep _ _ _ _ (NotifierPhase.inspect p reply)
      unfold NotifierPhase.inspect
      by_cases hnone : extrinsicIndices p.pending reply = []
      · rw [if_pos hnone]
        exact .noneFound p reply hnone
      · rw [if_neg hnone]
        exact .someFound p reply hnone
  | api p => exact .api p reply
  | epoch p => exact .epoch p reply
  | events p => exact .events p reply
  | entry p e todo hsettled => exact .entry p e todo hsettled reply
  | post p todo txHash url body hmay => exact .post p todo txHash url body hmay (.done reply)
  | savedCapacity p hsettled hcomplete => exact .savedCapacity p hsettled hcomplete reply
  | epochLength p savedCapacity => exact .epochLength p savedCapacity reply
  | book p savedCapacity seconds => exact .book p savedCapacity seconds (.done reply)
  | remove p booked hsettled hcomplete => exact .remove p booked hsettled hcomplete reply
  | store n => exact .store n reply

/-- A failure ends the method, or leaves the counter unwritten. -/
private theorem NotifierCall.step_failed {c : Call} (hcall : NotifierCall configService s c)
    (f : Fate Err c.Reply) {e : Err} (hseen : f.seen = .error e) :
    NotifierStep configService s c f (s.move configService (.await c f)) := by
  -- every call but these two leads on by its failure alone
  have hfailed : (∀ txHash url body, c ≠ .post txHash url body) →
      (∀ epoch seconds value, c ≠ .setexEpochCapacity epoch seconds value) →
        s.move configService (.await c f) = s.failed c := by
    intro hpost hbook
    cases c <;> first
      | exact absurd rfl (hpost _ _ _)
      | exact absurd rfl (hbook _ _ _)
      | (simp only [NotifierPhase.move, hseen])
  have hends : ∀ {s : NotifierPhase}, NotifierCall configService s c → s.failed c = .idle →
      NotifierStep configService s c f (s.failed c) := by
    intro s hcall hidle
    rw [hidle]
    exact .failed s c hcall f e hseen hidle
  have hcall' := hcall
  cases hcall with
  | post p todo txHash url body hmay => exact .post p todo txHash url body hmay f
  | book p savedCapacity seconds => exact .book p savedCapacity seconds f
  | savedCapacity p hsettled hcomplete =>
      rw [hfailed (by simp) (by simp)]
      exact .unread p hsettled hcomplete f e hseen
  | epochLength p savedCapacity =>
      rw [hfailed (by simp) (by simp)]
      exact .unbooked p savedCapacity f e hseen
  | _ =>
      rw [hfailed (by simp) (by simp)]
      exact hends hcall' rfl

/-- **A call of the notifier is one of its steps.** -/
theorem NotifierCall.step {c : Call} (hcall : NotifierCall configService s c)
    (f : Fate Err c.Reply) : NotifierStep configService s c f (s.move configService (.await c f)) := by
  cases f with
  | done reply => exact hcall.step_done reply
  | refused e => exact hcall.step_failed _ rfl
  | lost reply e => exact hcall.step_failed _ rfl

/-- A success that ends a list of failures has nothing after it. -/
private theorem nothing_after {posts before after : List Bool} (hposts : true ∉ posts)
    (h : posts ++ [true] = before ++ true :: after) : after = [] := by
  rcases List.eq_nil_or_concat after with rfl | ⟨after, b, rfl⟩
  · rfl
  · have hconcat : posts ++ [true] = (before ++ true :: after) ++ [b] := by simpa using h
    have hinit : posts = before ++ true :: after := (List.append_inj' hconcat rfl).1
    exact absurd (hinit ▸ by simp) hposts

/-- The notification loop makes the posts it may make and leaves its notice dealt with.
The induction is on the rounds that are left. -/
private theorem postRounds_follows (p : Pass) (n : Notice) (notices : List Notice)
    (todo : List (Hash × ℕ)) (webhook : String) (body : TxWebhookRsp) (left : ℕ) :
    ∀ posts : List Bool, true ∉ posts →
      posts.length + left = ⌈configService.healthCheckMaxRetries⌉₊ →
        (TxnNotifierService.postRounds n.txHash webhook body left).Follows
          (notifierCourse configService)
          (fun _ s => ∃ posts,
            s = .notifying { p with notices := { n with posts := posts } :: notices } todo ∧
              (∀ before after, posts = before ++ true :: after → after = []) ∧
                (true ∈ posts ∨ ⌈configService.healthCheckMaxRetries⌉₊ ≤ posts.length))
          (fun _ _ => True)
          (.notifying { p with notices := { n with posts := posts } :: notices } todo) := by
  induction left with
  | zero =>
      intro posts hposts hleft
      refine ⟨posts, rfl, fun before after h => ?_, .inr (by omega)⟩
      exact absurd (h ▸ by simp) hposts
  | succ left ih =>
      intro posts hposts hleft
      simp only [TxnNotifierService.postRounds, Prog.bind_eq, Prog.follows_bind, follows_settled]
      refine ⟨.post _ _ _ _ _ ⟨_, _, rfl, rfl, hposts, by simp only; omega⟩, fun f => ?_⟩
      have hmove : (NotifierPhase.notifying
          { p with notices := { n with posts := posts } :: notices } todo).move configService
            (.await (.post n.txHash webhook body) f) =
          .notifying
            { p with notices := { n with posts := posts ++ [f.seen.toBool] } :: notices } todo := rfl
      rw [notifierCourse_next, hmove]
      cases f.seen with
      | ok reply =>
          exact ⟨posts ++ [true], rfl, fun before after h => nothing_after hposts h, .inl (by simp)⟩
      | error e =>
          exact ih (posts ++ [false]) (by simpa using hposts)
            (by rw [List.length_append, List.length_singleton]; omega)

/-- What is done about one watched extrinsic of the block settles its notice. -/
private theorem processExtrinsic_follows (p : Pass) (e : Hash × ℕ) (todo : List (Hash × ℕ))
    (hsettled : p.Settled configService) :
    (TxnNotifierService.processExtrinsic configService registry p.events e.1 e.2).Follows
      (notifierCourse configService)
      (fun _ s => ∃ n : Notice, s = .notifying { p with notices := n :: p.notices } todo ∧
        n.txHash = e.1 ∧ n.txIndex = e.2 ∧ n.Settled configService p.events)
      (fun _ _ => True) (.notifying p (e :: todo)) := by
  simp only [TxnNotifierService.processExtrinsic, Prog.bind_eq, Prog.follows_bind, follows_call]
  refine ⟨.entry p e todo hsettled, fun entry => ?_, fun _ => trivial, fun _ _ => trivial⟩
  -- the notice before any post
  have hmove : (NotifierPhase.notifying p (e :: todo)).move configService
      (.await (.hget e.1) (.done entry)) =
        .notifying { p with notices := ⟨e.1, e.2, entry, []⟩ :: p.notices } todo := rfl
  rw [notifierCourse_next, hmove]
  have hsilent : ¬(⟨e.1, e.2, entry, []⟩ : Notice).Owed p.events →
      ∃ n : Notice, (NotifierPhase.notifying
        { p with notices := ⟨e.1, e.2, entry, []⟩ :: p.notices } todo) =
          .notifying { p with notices := n :: p.notices } todo ∧
        n.txHash = e.1 ∧ n.txIndex = e.2 ∧ n.Settled configService p.events := fun howed =>
    ⟨_, rfl, rfl, rfl, by simp, fun h => absurd h howed⟩
  cases entry with
  | none =>
      have howed : ¬(⟨e.1, e.2, none, []⟩ : Notice).Owed p.events := by
        rintro ⟨-, status, hstatus, -⟩
        cases hstatus
      rw [Prog.follows_ite]
      split
      · exact hsilent howed
      · trivial
  | some status =>
      simp only
      cases hfailure : (p.events.filter fun r => r.isOf e.2).findSome?
          fun r => r.event.failure with
      | some dispatchError =>
          have howed : ¬(⟨e.1, e.2, some status, []⟩ : Notice).Owed p.events := by
            rintro ⟨hnone, -⟩
            obtain ⟨r, hr, hr'⟩ := List.exists_of_findSome?_eq_some hfailure
            obtain ⟨hmem, hof⟩ := List.mem_filter.mp hr
            rw [hnone r hmem hof] at hr'
            cases hr'
          simp only
          split
          · trivial
          · split
            · trivial
            · exact hsilent howed
      | none =>
          simp only
          cases hsuccess : (p.events.filter fun r => r.isOf e.2).find?
              fun r => r.event.name = status.successEvent with
          | none =>
              have howed : ¬(⟨e.1, e.2, some status, []⟩ : Notice).Owed p.events := by
                rintro ⟨-, status', hstatus, r, hmem, hof, hname⟩
                obtain rfl := Option.some.inj hstatus
                have hnot := List.find?_eq_none.mp hsuccess r (List.mem_filter.mpr ⟨hmem, hof⟩)
                exact hnot (by simpa using hname)
              exact hsilent howed
          | some successEvent =>
              refine (postRounds_follows p ⟨e.1, e.2, some status, []⟩ p.notices todo _ _ _ []
                (by simp) (by simp)).mono ?_ fun _ _ _ => trivial
              rintro _ s ⟨posts, rfl, hlast, hattempted⟩
              exact ⟨_, rfl, rfl, rfl, hlast, fun _ => hattempted⟩

/-- The watched extrinsics of the block, one after the other: what is still to
do shrinks, and what has been done is settled. -/
private theorem processExtrinsics_follows (p : Pass) (hnotices : p.notices = []) :
    (TxnNotifierService.processExtrinsics configService registry p.events p.found []).Follows
      (notifierCourse configService)
      (fun pipeline s => ∃ p' : Pass, s = .notifying p' [] ∧ p' = { p with notices := p'.notices } ∧
        p'.Settled configService ∧ p'.Complete ∧ pipeline = p.found.map Prod.fst)
      (fun _ _ => True) (.notifying p p.found) := by
  refine Prog.follows_foldlM
    (fun todo pipeline s => ∃ p' : Pass, s = .notifying p' todo ∧
      p' = { p with notices := p'.notices } ∧ p'.Settled configService ∧
        (∀ e ∈ p.found, e ∈ todo ∨ ∃ n ∈ p'.notices, n.txHash = e.1 ∧ n.txIndex = e.2) ∧
          pipeline ++ todo.map Prod.fst = p.found.map Prod.fst) ?_ ?_ _ _ _ ?_
  · rintro e todo pipeline _ ⟨p', rfl, hp', hsettled, hseen, hpipeline⟩
    have hevents : p'.events = p.events := by
      rw [hp']
      rfl
    simp only [Prog.bind_eq, Prog.follows_bind, Prog.pure_eq, Prog.follows_done, ← hevents]
    refine (processExtrinsic_follows p' e todo hsettled).mono ?_ fun _ _ _ => trivial
    rintro _ _ ⟨n, rfl, hhash, hindex, hn⟩
    refine ⟨_, rfl, ?_, ?_, fun e' he' => ?_, ?_⟩
    · rw [hp']
    · exact List.forall_mem_cons.mpr ⟨hn, hsettled⟩
    · -- an extrinsic that is not to do any more has its notice
      rcases hseen e' he' with htodo | ⟨n', hn', heq⟩
      · rcases List.mem_cons.mp htodo with rfl | htodo
        · exact .inr ⟨n, List.mem_cons_self, hhash, hindex⟩
        · exact .inl htodo
      · exact .inr ⟨n', List.mem_cons_of_mem _ hn', heq⟩
    · simpa using hpipeline
  · rintro pipeline _ ⟨p', rfl, hp', hsettled, hseen, hpipeline⟩
    refine ⟨p', rfl, hp', hsettled, fun e he => ?_, by simpa using hpipeline⟩
    rw [hp'] at he
    exact (hseen e he).resolve_left (by simp)
  · refine ⟨p, rfl, rfl, ?_, fun e he => .inl he, rfl⟩
    simp [Pass.Settled, hnotices]

/-- Adding to the counter of the epoch, whatever fails. -/
private theorem setEpochCapacity_follows (p : Pass) (hsettled : p.Settled configService)
    (hcomplete : p.Complete) :
    (TxnNotifierService.setEpochCapacity p.epoch p.capacityWithdrawn).Follows
      (notifierCourse configService) (fun _ s => ∃ booked, s = .closing p booked)
      (fun _ _ => True) (.notifying p []) := by
  simp only [TxnNotifierService.setEpochCapacity, Prog.follows_tryCatch, Prog.bind_eq,
    Prog.follows_bind, follows_call, Prog.pure_eq, Prog.follows_done]
  refine ⟨.savedCapacity p hsettled hcomplete, fun savedCapacity => ?_, fun _ => ⟨_, rfl⟩,
    fun _ _ => ⟨_, rfl⟩⟩
  refine ⟨.epochLength p savedCapacity, fun epochDurationBlocks => ?_, fun _ => ⟨_, rfl⟩,
    fun _ _ => ⟨_, rfl⟩⟩
  exact ⟨.book p savedCapacity _, fun _ => ⟨_, rfl⟩, fun _ => ⟨_, rfl⟩, fun _ _ => ⟨_, rfl⟩⟩

/-- The part of a pass over a block with watched extrinsics. -/
private theorem processFound_follows (p : Pass) (hnotices : p.notices = []) :
    (TxnNotifierService.processFound configService registry p.hash p.found).Follows
      (notifierCourse configService)
      (fun pipeline s => ∃ (p' : Pass) (booked : Bool), s = .closing p' booked ∧
        p' = { p with epoch := p'.epoch, records := p'.records, notices := p'.notices } ∧
          p'.Settled configService ∧ p'.Complete ∧ pipeline = p.found.map Prod.fst)
      (fun _ _ => True) (.located p) := by
  simp only [TxnNotifierService.processFound, Prog.bind_eq, Prog.follows_bind, follows_call,
    Prog.pure_eq, Prog.follows_done]
  refine ⟨.api p, fun _ => ?_, fun _ => trivial, fun _ _ => trivial⟩
  refine ⟨.epoch p, fun epoch => ?_, fun _ => trivial, fun _ _ => trivial⟩
  refine ⟨.events { p with epoch := epoch }, fun records => ?_, fun _ => trivial, fun _ _ => trivial⟩
  refine (processExtrinsics_follows { p with epoch := epoch, records := records } hnotices).mono
    ?_ fun _ _ _ => trivial
  rintro pipeline _ ⟨p', rfl, hp', hsettled, hcomplete, hpipeline⟩
  have hepoch : p'.epoch = epoch := by rw [hp']
  have htotal : p'.capacityWithdrawn = totalCapacityWithdrawn (watchedEvents p.found records) := by
    rw [hp']
    rfl
  rw [← hepoch, ← htotal]
  refine (setEpochCapacity_follows p' hsettled hcomplete).mono ?_ fun _ _ _ => trivial
  rintro _ _ ⟨booked, rfl⟩
  refine ⟨p', booked, rfl, ?_, hsettled, hcomplete, hpipeline⟩
  rw [hp']

/-- **A pass** goes from the checked block to the end of the pipeline. -/
private theorem processCurrentBlock_follows (n : ℕ) (h : BlockHash) :
    (TxnNotifierService.processCurrentBlock configService registry h n).Follows
      (notifierCourse configService) (fun _ s => s = .passed n) (fun _ _ => True)
      (.checked n h) := by
  simp only [TxnNotifierService.processCurrentBlock, Prog.bind_eq, Prog.follows_bind, follows_call]
  refine ⟨.pending n h, fun pendingTxns => ?_, fun _ => trivial, fun _ _ => trivial⟩
  refine ⟨.block { height := n, hash := h, pending := pendingTxns }, fun extrinsics => ?_,
    fun _ => trivial, fun _ _ => trivial⟩
  -- the pass with its watched extrinsics, and its end
  show Prog.Follows _ _ _ _
    (NotifierPhase.inspect { height := n, hash := h, pending := pendingTxns } extrinsics)
  unfold NotifierPhase.inspect
  simp only
  by_cases hfound : extrinsicIndices pendingTxns extrinsics = []
  · rw [if_pos hfound, if_pos hfound, Prog.follows_bind, Prog.pure_eq, Prog.follows_done, follows_call]
    refine ⟨.remove { height := n, hash := h, pending := pendingTxns } false
      (by simp [Pass.Settled]) (by simp [Pass.Complete]), ?_⟩
    exact ⟨fun _ => rfl, fun _ => trivial, fun _ _ => trivial⟩
  · rw [if_neg hfound, if_neg hfound, Prog.follows_bind]
    refine (processFound_follows { height := n, hash := h, pending := pendingTxns, found := _ }
      rfl).mono ?_ fun _ _ _ => trivial
    rintro pipeline _ ⟨p, booked, rfl, hp, hsettled, hcomplete, rfl⟩
    rw [follows_call]
    refine ⟨?_, fun _ => ?_, fun _ => trivial, fun _ _ => trivial⟩
    · have hremove := NotifierCall.remove p booked hsettled hcomplete
      rw [hp] at hremove ⊢
      exact hremove
    · show NotifierPhase.passed p.height = .passed n
      rw [hp]

/-- The check of a block lets a scan on to it, or ends the scan. -/
private theorem checkScanParameters_follows (n : ℕ) (h : BlockHash) :
    (TxnNotifierService.checkScanParameters configService n h).Follows
      (notifierCourse configService) (fun _ s => s = .checked n h) (fun _ _ => True)
      (.reached n h) := by
  simp only [TxnNotifierService.checkScanParameters, Prog.bind_eq, Prog.follows_bind, follows_call]
  refine ⟨.stillPending n h, fun pendingTxns => ?_, fun _ => trivial, fun _ _ => trivial⟩
  show Prog.Follows _ _ _ _
    (if pendingTxns = 0 then NotifierPhase.idle else .check configService n h)
  by_cases hnone : pendingTxns = 0
  · rw [if_pos hnone]
    trivial
  rw [if_neg hnone, if_neg hnone]
  -- the code and its course test the same, one after the other
  unfold BlockchainScannerService.baseCheckScanParameters NotifierPhase.check
  by_cases hempty : h.isEmpty
  · rw [if_pos hempty]
    trivial
  rw [if_neg hempty, if_neg hempty]
  by_cases honly : (TxnNotifierService.scanParameters configService).onlyFinalized = some true
  · rw [if_pos honly, if_pos honly, Prog.bind_eq, Prog.follows_bind, follows_call]
    refine ⟨.finality n h, fun lastFinalizedBlockNumber => ?_, fun _ => trivial, fun _ _ => trivial⟩
    show Prog.Follows _ _ _ _
      (if lastFinalizedBlockNumber < n then NotifierPhase.halted n h else .checked n h)
    by_cases hlate : lastFinalizedBlockNumber < n
    · rw [if_pos hlate]
      trivial
    · rw [if_neg hlate, if_neg hlate]
      rfl
  · rw [if_neg honly, if_neg honly]
    rfl

/-- The loop of a scan.  The induction is on its unrollings. -/
private theorem scanFrom_follows (fuel : ℕ) : ∀ (n : ℕ) (h : BlockHash),
    ((TxnNotifierService.scanner configService registry).scanFrom fuel n h).Follows
      (notifierCourse configService) (fun _ _ => True) (fun _ _ => True) (.reached n h) := by
  induction fuel with
  | zero => intro n h; trivial
  | succ fuel ih =>
      intro n h
      simp only [BlockchainScannerService.scanFrom, Prog.bind_eq, Prog.follows_bind,
        BlockchainScannerService.setLastSeenBlockNumber, follows_call]
      refine (checkScanParameters_follows n h).mono ?_ fun _ _ _ => trivial
      rintro _ _ rfl
      refine (processCurrentBlock_follows n h).mono ?_ fun _ _ _ => trivial
      rintro _ _ rfl
      refine ⟨.store n, fun _ => ?_, fun _ => trivial, fun _ _ => trivial⟩
      exact ⟨.blockHash (n + 1), fun nextHash => ih (n + 1) nextHash, fun _ => trivial,
        fun _ _ => trivial⟩

private theorem checkInitialScanParameters_follows :
    TxnNotifierService.checkInitialScanParameters.Follows (notifierCourse configService)
      (fun _ s => s = .entered) (fun _ _ => True) .starting := by
  simp only [TxnNotifierService.checkInitialScanParameters, Prog.bind_eq, Prog.follows_bind,
    follows_call]
  refine ⟨.pendingAtAll, fun pendingTxns => ?_, fun _ => trivial, fun _ _ => trivial⟩
  cases pendingTxns with
  | zero => trivial
  | succ pendingTxns => rfl

private theorem getLastSeenBlockNumber_follows :
    TxnNotifierService.getLastSeenBlockNumber.Follows (notifierCourse configService)
      (fun b s => s = .next (b + 1)) (fun _ _ => True) .entered := by
  simp only [TxnNotifierService.getLastSeenBlockNumber,
    BlockchainScannerService.baseLastSeenBlockNumber, Prog.bind_eq, Prog.follows_bind,
    follows_call, Prog.pure_eq, Prog.follows_done]
  refine ⟨.lastSeen, fun lastSeen => ?_, fun _ => trivial, fun _ _ => trivial⟩
  exact ⟨.births _, fun pending => rfl, fun _ => trivial, fun _ _ => trivial⟩

private theorem scanBody_follows (fuel : ℕ) :
    ((TxnNotifierService.scanner configService registry).scanBody fuel).Follows
      (notifierCourse configService) (fun _ _ => True) (fun _ _ => True) .starting := by
  simp only [BlockchainScannerService.scanBody, Prog.bind_eq, Prog.follows_bind]
  refine checkInitialScanParameters_follows.mono ?_ fun _ _ _ => trivial
  rintro _ _ rfl
  rw [follows_memory]
  refine ⟨trivial, fun _ => getLastSeenBlockNumber_follows.mono ?_ fun _ _ _ => trivial⟩
  rintro lastSeenBlockNumber _ rfl
  rw [follows_call]
  refine ⟨.blockHash _, fun currentBlockHash => ?_, fun _ => trivial, fun _ _ => trivial⟩
  rw [Prog.follows_ite]
  split
  · exact ⟨trivial, fun _ => trivial⟩
  · exact scanFrom_follows fuel _ _

/-- **A scan keeps to its course.** -/
theorem scan_keepsCourse (fuel : ℕ) :
    (TxnNotifierService.scan configService registry fuel).Follows (notifierCourse configService)
      (fun _ _ => True) (fun _ _ => True) .starting := by
  have hclear : ∀ s : NotifierPhase, (memory (.setScanInProgress false)).Follows
      (notifierCourse configService) (fun _ _ => True) (fun _ _ => True) s := by
    intro s
    rw [follows_memory]
    exact ⟨by cases s <;> trivial, fun _ => trivial⟩
  simp only [TxnNotifierService.scan, BlockchainScannerService.scan, Prog.bind_eq,
    Prog.follows_bind, follows_memory]
  refine ⟨trivial, fun scanInProgress => ?_⟩
  cases scanInProgress with
  | true => trivial
  | false =>
      simp only [Bool.false_eq_true, if_false, Prog.follows_tryFinally, Prog.follows_tryCatch]
      refine (scanBody_follows fuel).mono (fun _ s _ => hclear s) fun e s _ => ?_
      cases e <;> exact hclear s

/-- **The start-up keeps to its course.** -/
theorem onApplicationBootstrap_keepsCourse :
    TxnNotifierService.onApplicationBootstrap.Follows (notifierCourse configService)
      (fun _ _ => True) (fun _ _ => True) .booting := by
  simp only [TxnNotifierService.onApplicationBootstrap, Prog.bind_eq, Prog.follows_bind,
    follows_call, Prog.follows_ite, BlockchainScannerService.setLastSeenBlockNumber]
  refine ⟨.isReady, fun _ => ?_, fun _ => trivial, fun _ _ => trivial⟩
  refine ⟨.hkeys, fun pendingTxns => ?_, fun _ => trivial, fun _ _ => trivial⟩
  cases pendingTxns with
  | nil =>
      refine ⟨.finalizedHead, fun b => ?_, fun _ => trivial, fun _ _ => trivial⟩
      exact ⟨.skip b, fun _ => trivial, fun _ => trivial, fun _ _ => trivial⟩
  | cons txHash pendingTxns => trivial

end Course

end AccountService
