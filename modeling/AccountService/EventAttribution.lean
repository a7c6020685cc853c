import AccountService.Notifier
import Mathlib.Data.List.Forall2
import Mathlib.Data.List.ModifyLast

/-!
# Whose events are reported

A block with any watched extrinsics and any event records, processed while the
webhook answers or refuses as it likes.  The events go through two filters: one
keeps those of watched extrinsics, the other those of the extrinsic in hand.  So
what is posted about an extrinsic depends on its entry and on the events of its
own phase, and the capacity of the block is added up over the watched phases.
-/

namespace AccountService

open Async

/-! ## The notification of an extrinsic -/

/-- What there is to post for an entry, given the events of its extrinsic. -/
def notification (status : ITxStatus) (extrinsicEvents : List EventRecord) :
    Option TxWebhookRsp :=
  match extrinsicEvents.findSome? fun r => r.event.failure with
  | some _ => none
  | none =>
      (extrinsicEvents.find? fun r => r.event.name = status.successEvent).map fun r =>
        webhookResponse status extrinsicEvents r.event

/-- There is something to post exactly if the success event is among the events
and no failure is. -/
theorem notification_isSome {status : ITxStatus} {events : List EventRecord} :
    (notification status events).isSome ↔
      (∃ r ∈ events, r.event.name = status.successEvent) ∧
        ∀ r ∈ events, r.event.failure = none := by
  unfold notification
  cases hfailure : events.findSome? fun r => r.event.failure with
  | some dispatchError =>
      obtain ⟨r, hr, hr'⟩ := List.exists_of_findSome?_eq_some hfailure
      simp only [Option.isSome_none, Bool.false_eq_true, false_iff]
      rintro ⟨-, hnone⟩
      rw [hnone r hr] at hr'
      cases hr'
  | none =>
      rw [List.findSome?_eq_none_iff] at hfailure
      rw [Option.isSome_map, List.find?_isSome]
      simpa using fun _ _ _ => hfailure

/-! ## A block -/

/-- A block as the node tells of it, with the watch list, the counter of its
epoch, and the posts that the webhook answers. -/
structure WatchedBlock where
  watchList : List ITxStatus
  extrinsics : List Hash
  records : List EventRecord
  epoch : ℕ
  epochLength : ℕ
  savedCapacity : Option ℕ
  answers : ℕ → Bool

namespace WatchedBlock

/-- The watched extrinsics of the block. -/
def watched (b : WatchedBlock) : List (Hash × ℕ) := extrinsicIndices b.watchList b.extrinsics

/-- The entry under a hash. -/
def entry (b : WatchedBlock) (txHash : Hash) : Option ITxStatus :=
  b.watchList.find? fun t => t.txHash = txHash

/-- The events of the extrinsic at an index. -/
def phase (b : WatchedBlock) (index : ℕ) : List EventRecord :=
  b.records.filter fun r => r.isOf index

/-- The capacity withdrawn by the watched extrinsics. -/
def withdrawn (b : WatchedBlock) : ℕ :=
  (b.watched.map fun e => ((b.phase e.2).map EventRecord.withdrawn).sum).sum

theorem entry_of_watched {b : WatchedBlock} {e : Hash × ℕ} (he : e ∈ b.watched) :
    ∃ status, b.entry e.1 = some status := by
  have hany := (List.mem_filter.mp he).2
  rw [← Option.isSome_iff_exists, entry, List.find?_isSome]
  simpa using hany

end WatchedBlock

/-- What a pass over the block does outside: for each watched extrinsic, in
order, what is posted about it, and the counter it writes. -/
structure BlockReport where
  attempts : ℕ := 0
  notices : List (Hash × List TxWebhookRsp) := []
  booked : Option (ℕ × ℕ) := none

namespace BlockReport

/-- The next watched extrinsic is taken up. -/
def take (w : BlockReport) (txHash : Hash) : BlockReport :=
  { w with notices := w.notices ++ [(txHash, [])] }

/-- A post is made about the extrinsic in hand. -/
def post (w : BlockReport) (body : TxWebhookRsp) : BlockReport :=
  { w with
    attempts := w.attempts + 1
    notices := w.notices.modifyLast fun notice => (notice.1, notice.2 ++ [body]) }

end BlockReport

/-- The node and Redis answer every call; the webhook answers some posts. -/
def blockMachine (b : WatchedBlock) : Machine Worker Err BlockReport where
  act m w := (m.blank, w)
  answer c w :=
    match c with
    | .hvals _ => (.done b.watchList, w)
    | .hget txHash => (.done (b.entry txHash), w.take txHash)
    | .getBlock _ => (.done b.extrinsics, w)
    | .apiAt _ => (.done (), w)
    | .currentEpochAt _ => (.done b.epoch, w)
    | .eventsAt _ => (.done b.records, w)
    | .getEpochCapacity _ => (.done b.savedCapacity, w)
    | .epochLength => (.done b.epochLength, w)
    | .setexEpochCapacity epoch _ value => (.done (), { w with booked := some (epoch, value) })
    | .post _ _ body =>
        (if b.answers w.attempts then .done () else .refused (.error "webhook"), w.post body)
    | .exec _ => (.done (), w)
    | _ => (.refused (.error "not part of a pass"), w)

/-- What has been posted about a watched extrinsic: something exactly if the
success event is among the events of its phase and no failure is, and then what
its entry and these events make of it. -/
structure Attributed (b : WatchedBlock) (e : Hash × ℕ) (notice : Hash × List TxWebhookRsp) :
    Prop where
  hash : notice.1 = e.1
  posted : notice.2 ≠ [] ↔ ∃ status, b.entry e.1 = some status ∧
    (∃ r ∈ b.records, r.phase = .applyExtrinsic e.2 ∧ r.event.name = status.successEvent) ∧
      ∀ r ∈ b.records, r.phase = .applyExtrinsic e.2 → r.event.failure = none
  content : ∀ body ∈ notice.2, ∃ status, b.entry e.1 = some status ∧
    notification status (b.phase e.2) = some body

/-- Every failure carries a module error; and, assumed of polkadot-js, its
`findMetaError` finds every error that the chain reports. -/
structure WatchedBlock.FailuresKnown (registry : Registry) (b : WatchedBlock) : Prop where
  carried : ∀ r ∈ b.records, ∀ dispatchError, r.event.failure = some dispatchError →
    ∃ moduleThatErrored, dispatchError.asModule = some moduleThatErrored
  found : ∀ r ∈ b.records, ∀ dispatchError, r.event.failure = some dispatchError →
    ∀ moduleThatErrored, dispatchError.asModule = some moduleThatErrored →
      (registry.findMetaError moduleThatErrored).isSome

namespace WatchedBlock

variable {b : WatchedBlock} {e : Hash × ℕ}

theorem mem_phase {r : EventRecord} {index : ℕ} :
    r ∈ b.phase index ↔ r ∈ b.records ∧ r.phase = .applyExtrinsic index := by
  simp [phase, EventRecord.isOf]

/-- The two filters leave the events of the phase. -/
theorem phase_of_watched (he : e ∈ b.watched) :
    (watchedEvents b.watched b.records).filter (fun r => r.isOf e.2) = b.phase e.2 := by
  unfold watchedEvents phase
  rw [List.filter_filter]
  refine List.filter_congr fun r _ => ?_
  by_cases hof : r.isOf e.2
  · have hany : b.watched.any (fun e => r.isOf e.2) = true := List.any_eq_true.mpr ⟨e, he, hof⟩
    simp [hof, hany]
  · simp [hof]

end WatchedBlock

section Run

variable {configService : ConfigService} {registry : Registry} {b : WatchedBlock}
  {e : Hash × ℕ} {w : BlockReport}

/-- The notification loop posts one and the same body. -/
private theorem postRounds_report (txHash : Hash) (webhook : String) (body : TxWebhookRsp)
    (left : ℕ) : ∀ (w : BlockReport) (notices : List (Hash × List TxWebhookRsp))
      (posted : List TxWebhookRsp), w.notices = notices ++ [(txHash, posted)] →
      ∃ attempts k, (0 < left → 0 < k) ∧
        (TxnNotifierService.postRounds txHash webhook body left).exec (blockMachine b) w =
          (.returned (), { w with
            attempts := attempts
            notices := notices ++ [(txHash, posted ++ List.replicate k body)] }) := by
  induction left with
  | zero =>
      intro w notices posted hw
      refine ⟨w.attempts, 0, fun h => absurd h (Nat.lt_irrefl 0), ?_⟩
      simp [TxnNotifierService.postRounds, ← hw]
  | succ left ih =>
      intro w notices posted hw
      have hpost : (w.post body).notices = notices ++ [(txHash, posted ++ [body])] := by
        rw [BlockReport.post, hw, List.modifyLast_concat]
      by_cases hanswer : b.answers w.attempts
      · refine ⟨w.attempts + 1, 1, fun _ => Nat.one_pos, ?_⟩
        simp [TxnNotifierService.postRounds, blockMachine, hanswer, ← hpost, BlockReport.post]
      · -- the post is rejected, and the same body is posted again
        obtain ⟨attempts, k, -, hexec⟩ := ih (w.post body) notices (posted ++ [body]) hpost
        refine ⟨attempts, k + 1, fun _ => Nat.succ_pos k, ?_⟩
        have hseen : ((blockMachine b).answer (.post txHash webhook body) w).1.seen =
            .error (.error "webhook") := by simp [blockMachine, hanswer]
        have hstate : ((blockMachine b).answer (.post txHash webhook body) w).2 = w.post body := rfl
        simp only [TxnNotifierService.postRounds, Prog.bind_eq, exec_settled, Prog.exec_bind, hseen,
          hstate, hexec, List.append_assoc, List.singleton_append, ← List.replicate_succ]
        rfl

/-- What is posted about a watched extrinsic is what there is to post. -/
private theorem attributed_of_notification {status : ITxStatus}
    (hentry : b.entry e.1 = some status) {posted : List TxWebhookRsp}
    (hsome : posted ≠ [] ↔ (notification status (b.phase e.2)).isSome)
    (hposted : ∀ body ∈ posted, notification status (b.phase e.2) = some body) :
    Attributed b e (e.1, posted) where
  hash := rfl
  posted := by
    rw [hsome, notification_isSome]
    simp only [WatchedBlock.mem_phase, hentry, Option.some.injEq]
    constructor
    · rintro ⟨⟨r, ⟨hr, hphase⟩, hname⟩, hnone⟩
      exact ⟨status, rfl, ⟨r, hr, hphase, hname⟩, fun r hr hphase => hnone r ⟨hr, hphase⟩⟩
    · rintro ⟨_, rfl, ⟨r, hr, hphase, hname⟩, hnone⟩
      exact ⟨⟨r, ⟨hr, hphase⟩, hname⟩, fun r hr => hnone r hr.1 hr.2⟩
  content body hbody := ⟨status, hentry, hposted body hbody⟩

/-- The pass over one watched extrinsic. -/
private theorem processExtrinsic_report (hretries : 1 ≤ configService.healthCheckMaxRetries)
    (hknown : b.FailuresKnown registry) (he : e ∈ b.watched) (w : BlockReport) :
    ∃ attempts posted,
      (TxnNotifierService.processExtrinsic configService registry
          (watchedEvents b.watched b.records) e.1 e.2).exec (blockMachine b) w =
        (.returned (), { w with attempts := attempts, notices := w.notices ++ [(e.1, posted)] }) ∧
      Attributed b e (e.1, posted) := by
  obtain ⟨status, hentry⟩ := WatchedBlock.entry_of_watched he
  have hget : (blockMachine b).answer (.hget e.1) w = (.done (some status), w.take e.1) := by
    rw [← hentry]
    rfl
  simp only [TxnNotifierService.processExtrinsic, WatchedBlock.phase_of_watched he, Prog.bind_eq,
    Prog.exec_bind, exec_call, hget, Fate.seen_done]
  cases hfailure : (b.phase e.2).findSome? fun r => r.event.failure with
  | some dispatchError =>
      have hnone : notification status (b.phase e.2) = none := by simp [notification, hfailure]
      obtain ⟨r, hr, hr'⟩ := List.exists_of_findSome?_eq_some hfailure
      have hrecord := (WatchedBlock.mem_phase.mp hr).1
      obtain ⟨moduleThatErrored, hmodule⟩ := hknown.carried r hrecord dispatchError hr'
      obtain ⟨name, hname⟩ := Option.isSome_iff_exists.mp
        (hknown.found r hrecord dispatchError hr' moduleThatErrored hmodule)
      refine ⟨w.attempts, [], ?_, attributed_of_notification hentry ?_ ?_⟩
      · -- the failure is logged under the name the registry has for it, and nothing is posted
        simp [hmodule, hname, BlockReport.take]
      · simp [hnone]
      · simp
  | none =>
      cases hsuccess : (b.phase e.2).find? fun r => r.event.name = status.successEvent with
      | none =>
          have hnone : notification status (b.phase e.2) = none := by
            simp [notification, hfailure, hsuccess]
          refine ⟨w.attempts, [], ?_, attributed_of_notification hentry ?_ ?_⟩
          · simp [BlockReport.take]
          · simp [hnone]
          · simp
      | some successEvent =>
          obtain ⟨body, hbody⟩ :
              ∃ body, body = webhookResponse status (b.phase e.2) successEvent.event := ⟨_, rfl⟩
          have hsome : notification status (b.phase e.2) = some body := by
            simp [notification, hfailure, hsuccess, hbody]
          obtain ⟨attempts, k, hk, hexec⟩ := postRounds_report (b := b) e.1
            configService.providerBaseUrl body (⌈configService.healthCheckMaxRetries⌉₊ - 0)
            (w.take e.1) w.notices [] rfl
          have hpos : 0 < k := hk (by
            rw [Nat.sub_zero, Nat.ceil_pos]
            linarith)
          refine ⟨attempts, List.replicate k body, ?_, attributed_of_notification hentry ?_ ?_⟩
          · simp only [TxnNotifierService.postFrom, ← hbody, hexec, List.nil_append]
            rfl
          · rw [hsome]
            simpa using hpos.ne'
          · intro posted hposted
            rw [hsome, List.eq_of_mem_replicate hposted]

/-- The watched extrinsics, one after the other. -/
private theorem processExtrinsics_report (hretries : 1 ≤ configService.healthCheckMaxRetries)
    (hknown : b.FailuresKnown registry) (indices : List (Hash × ℕ)) :
    (∀ e ∈ indices, e ∈ b.watched) → ∀ (w : BlockReport) (pipeline : List Hash),
      ∃ attempts notices,
        (TxnNotifierService.processExtrinsics configService registry
            (watchedEvents b.watched b.records) indices pipeline).exec (blockMachine b) w =
          (.returned (pipeline ++ indices.map Prod.fst),
            { w with attempts := attempts, notices := w.notices ++ notices }) ∧
        List.Forall₂ (Attributed b) indices notices := by
  induction indices with
  | nil =>
      intro _ w pipeline
      exact ⟨w.attempts, [], by simp [TxnNotifierService.processExtrinsics], .nil⟩
  | cons e indices ih =>
      intro hindices w pipeline
      rw [List.forall_mem_cons] at hindices
      obtain ⟨attempts, posted, hexec, hposted⟩ :=
        processExtrinsic_report hretries hknown hindices.1 w
      obtain ⟨attempts', notices, hrest, hnotices⟩ := ih hindices.2
        { w with attempts := attempts, notices := w.notices ++ [(e.1, posted)] } (pipeline ++ [e.1])
      refine ⟨attempts', (e.1, posted) :: notices, ?_, .cons hposted hnotices⟩
      simp only [TxnNotifierService.processExtrinsics, Prog.bind_eq, Prog.pure_eq,
        List.append_assoc, List.singleton_append] at hrest
      simp only [TxnNotifierService.processExtrinsics, List.foldlM_cons, Prog.bind_eq,
        Prog.exec_bind, Prog.pure_eq, Prog.exec_done, hexec, hrest, List.map_cons]

/-- The counter is raised by what was withdrawn. -/
private theorem setEpochCapacity_report (capacityWithdrawn : ℕ) (w : BlockReport) :
    (TxnNotifierService.setEpochCapacity b.epoch capacityWithdrawn).exec (blockMachine b) w =
      (.returned (),
        { w with booked := some (b.epoch, b.savedCapacity.getD 0 + capacityWithdrawn) }) := by
  simp [TxnNotifierService.setEpochCapacity, blockMachine]

section Replies

variable (h : BlockHash) (site : Site) (hdels : List Hash)

@[simp] private theorem answer_hvals :
    (blockMachine b).answer (.hvals site) w = (.done b.watchList, w) := rfl

@[simp] private theorem answer_getBlock :
    (blockMachine b).answer (.getBlock h) w = (.done b.extrinsics, w) := rfl

@[simp] private theorem answer_apiAt : (blockMachine b).answer (.apiAt h) w = (.done (), w) := rfl

@[simp] private theorem answer_currentEpochAt :
    (blockMachine b).answer (.currentEpochAt h) w = (.done b.epoch, w) := rfl

@[simp] private theorem answer_eventsAt :
    (blockMachine b).answer (.eventsAt h) w = (.done b.records, w) := rfl

@[simp] private theorem answer_exec : (blockMachine b).answer (.exec hdels) w = (.done (), w) := rfl

end Replies

/-- The whole pass. -/
private theorem processCurrentBlock_report (hretries : 1 ≤ configService.healthCheckMaxRetries)
    (hknown : b.FailuresKnown registry) (h : BlockHash) (n : ℕ) :
    ∃ report, (TxnNotifierService.processCurrentBlock configService registry h n).exec
          (blockMachine b) {} = (.returned (), report) ∧
      List.Forall₂ (Attributed b) b.watched report.notices ∧
        report.booked =
          if b.watched = [] then none else some (b.epoch, b.savedCapacity.getD 0 + b.withdrawn) := by
  have hindices : extrinsicIndices b.watchList b.extrinsics = b.watched := rfl
  by_cases hwatched : b.watched = []
  · -- nothing is watched, so the events are not even read
    refine ⟨{}, ?_, ?_, by rw [if_pos hwatched]⟩
    · simp [TxnNotifierService.processCurrentBlock, hindices, hwatched]
    · rw [hwatched]
      exact .nil
  · obtain ⟨attempts, notices, hexec, hnotices⟩ :=
      processExtrinsics_report hretries hknown b.watched (fun _ he => he) {} []
    -- no index occurs twice, so no event is counted twice
    have htotal : totalCapacityWithdrawn (watchedEvents b.watched b.records) = b.withdrawn :=
      totalCapacityWithdrawn_watched (nodup_indices _ _) b.records
    have hcapacity := setEpochCapacity_report (b := b) b.withdrawn
      { attempts := attempts, notices := [] ++ notices }
    refine ⟨⟨attempts, notices, some (b.epoch, b.savedCapacity.getD 0 + b.withdrawn)⟩, ?_, hnotices,
      by rw [if_neg hwatched]⟩
    simp only [TxnNotifierService.processCurrentBlock, TxnNotifierService.processFound,
      Prog.bind_eq, Prog.exec_bind, exec_call, answer_hvals, answer_getBlock, answer_apiAt,
      answer_currentEpochAt, answer_eventsAt, answer_exec, Fate.seen_done, hindices, if_neg hwatched,
      hexec, htotal, hcapacity, Prog.pure_eq, Prog.exec_done]
    rfl

theorem Attributed.posted_iff {notice : Hash × List TxWebhookRsp} (h : Attributed b e notice) :
    notice.2 ≠ [] ↔
      ∃ status, b.entry e.1 = some status ∧ (notification status (b.phase e.2)).isSome := by
  rw [h.posted]
  refine exists_congr fun status => and_congr_right fun _ => ?_
  rw [notification_isSome]
  simp only [WatchedBlock.mem_phase, and_assoc, and_imp]

/-- What is posted about an extrinsic does not depend on the rest of its block. -/
theorem Attributed.same {b' : WatchedBlock} {notice notice' : Hash × List TxWebhookRsp}
    (h : Attributed b e notice) (h' : Attributed b' e notice')
    (hentry : b.entry e.1 = b'.entry e.1) (hphase : b.phase e.2 = b'.phase e.2) :
    (notice.2 = [] ↔ notice'.2 = []) ∧
      ∀ body ∈ notice.2, ∀ body' ∈ notice'.2, body = body' := by
  constructor
  · rw [← not_iff_not, ← ne_eq, ← ne_eq, h.posted_iff, h'.posted_iff, hentry, hphase]
  · intro body hbody body' hbody'
    obtain ⟨status, hstatus, hbody⟩ := h.content body hbody
    obtain ⟨status', hstatus', hbody'⟩ := h'.content body' hbody'
    rw [hentry, hstatus'] at hstatus
    obtain rfl := Option.some.inj hstatus
    rw [hphase, hbody'] at hbody
    exact (Option.some.inj hbody).symm

end Run

/-! ## Attribution -/

/-- What a pass over the block posts and books. -/
def report (configService : ConfigService) (registry : Registry) (h : BlockHash) (n : ℕ)
    (b : WatchedBlock) : Outcome Err Unit × BlockReport :=
  (TxnNotifierService.processCurrentBlock configService registry h n).exec (blockMachine b) {}

/-- What is reported about a block is reported of the right extrinsics: each
watched one has a notice of its own, and the counter is raised by what the
watched phases withdrew. -/
structure Reported (b : WatchedBlock) (r : Outcome Err Unit × BlockReport) : Prop where
  completed : r.1 = .returned ()
  notices : List.Forall₂ (Attributed b) b.watched r.2.notices
  booked : r.2.booked =
    if b.watched = [] then none else some (b.epoch, b.savedCapacity.getD 0 + b.withdrawn)

/-- Two reports agree on every extrinsic that is watched in both blocks under
one entry and has the same events. -/
def Agree (b b' : WatchedBlock) (r r' : BlockReport) : Prop :=
  ∀ e notice notice', (e, notice) ∈ b.watched.zip r.notices →
    (e, notice') ∈ b'.watched.zip r'.notices → b.entry e.1 = b'.entry e.1 →
      b.phase e.2 = b'.phase e.2 →
        (notice.2 = [] ↔ notice'.2 = []) ∧ ∀ body ∈ notice.2, ∀ body' ∈ notice'.2, body = body'

/-- **Attribution.**  Of any block the right extrinsics are reported, and what
is reported of one depends on its entry and on the events of its own phase
alone, whatever the webhook answers. -/
theorem events_attributed (configService : ConfigService) (registry : Registry)
    (hretries : 1 ≤ configService.healthCheckMaxRetries) (h h' : BlockHash) (n n' : ℕ)
    (b b' : WatchedBlock) (hknown : b.FailuresKnown registry) (hknown' : b'.FailuresKnown registry) :
    Reported b (report configService registry h n b) ∧
      Agree b b' (report configService registry h n b).2 (report configService registry h' n' b').2 := by
  obtain ⟨r, hexec, hnotices, hbooked⟩ := processCurrentBlock_report hretries hknown h n
  obtain ⟨r', hexec', hnotices', -⟩ := processCurrentBlock_report hretries hknown' h' n'
  unfold report
  rw [hexec, hexec']
  refine ⟨⟨rfl, hnotices, hbooked⟩, fun e notice notice' he he' hentry hphase => ?_⟩
  have hattributed := (List.forall₂_iff_zip.mp hnotices).2 he
  have hattributed' := (List.forall₂_iff_zip.mp hnotices').2 he'
  exact hattributed.same hattributed' hentry hphase

/-- A block with a handle claimed by one watched extrinsic and a failure of
another, and an extrinsic in between that is not watched. -/
def mixedBlock : WatchedBlock where
  watchList :=
    [⟨.createHandle, "first", "1", 10, ⟨"handles", "HandleClaimed"⟩, 1, 65⟩,
      ⟨.addKey, "second", "1", 12, ⟨"msa", "PublicKeyAdded"⟩, 1, 65⟩]
  extrinsics := [10, 11, 12]
  records :=
    [⟨.applyExtrinsic 2, .extrinsicFailed (.module 60 3)⟩,
      ⟨.applyExtrinsic 0, .capacityWithdrawn 1 10⟩,
      ⟨.applyExtrinsic 1, .capacityWithdrawn 2 99⟩,
      ⟨.applyExtrinsic 1, .handleClaimed 8 [0x62]⟩,
      ⟨.applyExtrinsic 0, .handleClaimed 7 [0x61]⟩]
  epoch := 3
  epochLength := 100
  savedCapacity := none
  answers := fun _ => true

/-- The same block with the events of the first extrinsic alone. -/
def soleBlock : WatchedBlock :=
  { mixedBlock with
    records :=
      [⟨.applyExtrinsic 0, .capacityWithdrawn 1 10⟩, ⟨.applyExtrinsic 0, .handleClaimed 7 [0x61]⟩] }

/-- What the extrinsic that is not watched does is not reported, and the counter
is raised by the 10 withdrawn for the first. -/
theorem events_attributed_mixed :
    let registry : Registry := ⟨fun m => if m = (60, 3) then some "NotMsaOwner" else none⟩
    let r := report (.amountLimit 100) registry 1 5
    Reported mixedBlock (r mixedBlock) ∧ Agree mixedBlock soleBlock (r mixedBlock).2 (r soleBlock).2 ∧
      (r mixedBlock).2.booked = some (3, 10) := by
  -- the one failure of either block is a module error that is known
  have hfailure : ∀ r ∈ mixedBlock.records, ∀ dispatchError,
      r.event.failure = some dispatchError → dispatchError = .module 60 3 := by
    intro r hr dispatchError hfailure
    simp only [mixedBlock, List.mem_cons, List.not_mem_nil, or_false] at hr
    rcases hr with rfl | rfl | rfl | rfl | rfl <;> cases hfailure
    rfl
  have hnone : ∀ r ∈ soleBlock.records, r.event.failure = none := by decide
  have hboth := events_attributed (.amountLimit 100)
    ⟨fun m => if m = (60, 3) then some "NotMsaOwner" else none⟩ (le_refl (1 : ℚ)) 1 1 5 5
    mixedBlock soleBlock ⟨fun r hr dispatchError h => ?_, fun r hr dispatchError h m hm => ?_⟩
    ⟨fun r hr dispatchError h => ?_, fun r hr dispatchError h => ?_⟩
  · refine ⟨hboth.1, hboth.2, ?_⟩
    rw [hboth.1.booked]
    decide +kernel
  · exact ⟨(60, 3), by rw [hfailure r hr dispatchError h]; rfl⟩
  · obtain rfl := hfailure r hr dispatchError h
    obtain rfl : (60, 3) = m := Option.some.inj hm
    rfl
  · rw [hnone r hr] at h
    cases h
  · rw [hnone r hr] at h
    cases h

end AccountService
