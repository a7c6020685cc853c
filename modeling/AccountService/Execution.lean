import AccountService.Submission

/-!
# One execution of a job

What `process` does with the node in one execution, whether it comes to its end
or is cut short: it submits one extrinsic, which holds the call that the request
of the job asks for, and a job that is postponed or fails for the fee has had
nothing accepted.
-/

namespace AccountService

open Async

/-! ## One execution submits once -/

/-- How far a job has come with its submission. -/
inductive Handing where
  | fresh
  | accepted
  | lost (e : Err)

/-- One extrinsic is submitted, and none after one was accepted. -/
def handingCourse : Protocol Worker Err Handing where
  allow s act :=
    match act with
    | .await (.signAndSend _ _) => s = .fresh
    | .fire (.signAndSend _ _) => False
    | _ => True
  next s obs :=
    match obs with
    | .await (.signAndSend _ _) (.done _) => .accepted
    | .await (.signAndSend _ _) (.lost _ e) => .lost e
    | _ => s

/-- A job that throws after its extrinsic was accepted throws what the reply was
lost with, or because the extrinsic has no era to record. -/
def Handing.Throws (e : Err) : Handing → Prop
  | fresh => True
  | accepted => e = .error "Cannot convert to MortalEra via asMortalEra"
  | lost e' => e = e'

section Course

/-- Neither the check nor the preparation submits anything. -/
private theorem quiet_handing {α S : Type} {p : Svc α} {T : Protocol Worker Err S} {s : S}
    {Q : α → S → Prop} {E : Err → S → Prop} (h : p.Follows T Q E s)
    (hquiet : ∀ s act, T.allow s act → quiet.allow [] act) :
    p.Follows handingCourse (fun _ s' => s' = .fresh) (fun _ s' => s' = .fresh) .fresh := by
  refine (h.still (fun s act hact => ?_) (fun _ _ _ _ => rfl) (fun _ _ _ => rfl)
    fun s c f hc => ?_).mono (fun _ _ h => h.1) fun _ _ h => h.1
  · have hact := hquiet s act hact
    cases act with
    | sync m => trivial
    | fire c => cases c <;> trivial
    | await c => cases c <;> trivial
  · have hact := hquiet s _ hc
    cases c <;> first | rfl | exact hact.elim

/-- **A job submits one extrinsic**, and throws after it was accepted for two
reasons only. -/
theorem process_hands (configService : ConfigService) (job : Job) :
    (process configService job).Follows handingCourse (fun _ _ => True) Handing.Throws .fresh := by
  simp only [process, Prog.tryCatch_throw, Prog.bind_eq, Prog.follows_bind, Prog.follows_ite,
    publish_eq, follows_call]
  refine (quiet_handing (checkCapacity_quiet configService []) fun _ _ h => h).mono ?_ ?_
  · rintro available _ rfl
    cases available with
    | false => exact ⟨trivial, trivial⟩
    | true =>
        refine (quiet_handing (prepare_quiet job.data) fun _ _ h => h).mono ?_ ?_
        · rintro submission _ rfl
          refine ⟨rfl, fun sent => ?_, fun _ => trivial, fun _ e => rfl⟩
          unfold record
          split
          · rfl
          · exact ⟨trivial, trivial⟩
        · rintro e _ rfl
          trivial
  · rintro e _ rfl
    trivial

end Course

/-- The `failedReason` of a job that ended with an exception. -/
def Err.failedReason : Err → Option String
  | .endOfChain message | .nullScan message | .error message => some message
  | .delayed => none

/-- How the calls of a job settle.  An extrinsic is built of the call it is to
be built of, and signing leaves its call as it is.  Where the reply to a
submission is lost, it is lost with the error of a connection, and not with the
refusal of the node. -/
structure NodeOutcomes extends Outcomes where
  built : ∀ time c tx, (answer time (.tx c)).effect = some tx → tx.call = c
  signed : ∀ time extrinsic nonce sent,
    (answer time (.signAndSend extrinsic nonce)).effect = some sent → sent.2.call = extrinsic.call
  connection : ∀ time extrinsic nonce sent e,
    answer time (.signAndSend extrinsic nonce) = .lost sent e →
      ∃ message, e = .error message ∧ capacityFailed ⟨"", some message⟩ = false

/-- An extrinsic without an era is no matter of fees. -/
private theorem era_not_fee : capacityFailed
    ⟨"", (Err.error "Cannot convert to MortalEra via asMortalEra").failedReason⟩ = false := by
  decide

/-- What the node has accepted, by how far the job has come. -/
def Handing.Accounts (w : Stores) : Handing → Prop
  | fresh => w.accepted = []
  | accepted => w.accepted.length = 1
  | lost e => w.accepted.length = 1 ∧
      ∃ message, e = .error message ∧ capacityFailed ⟨"", some message⟩ = false

private theorem machine_handing (outcomes : NodeOutcomes) :
    outcomes.machine.Tracks handingCourse fun w s => s.Accounts w where
  act _ _ _ _ h := h
  issue c w s hc h := by
    cases c <;> first | exact hc.elim | (cases s <;> exact h)
  answer c w s hc h := by
    cases c with
    | signAndSend extrinsic nonce =>
        obtain rfl : s = .fresh := hc
        have hnone : w.accepted = [] := h
        show Handing.Accounts (w.after _ (outcomes.answer w.time (.signAndSend extrinsic nonce)))
          (handingCourse.next .fresh (.await (.signAndSend extrinsic nonce)
            (outcomes.answer w.time (.signAndSend extrinsic nonce))))
        cases hanswer : outcomes.answer w.time (.signAndSend extrinsic nonce) with
        | done sent => simp [handingCourse, Handing.Accounts, Stores.after, hnone]
        | refused e => simp [handingCourse, Handing.Accounts, Stores.after, hnone]
        | lost sent e =>
            refine ⟨by simp [Stores.after, hnone], ?_⟩
            exact outcomes.connection w.time extrinsic nonce sent e hanswer
    | _ => cases s <;> exact h

/-- **An execution submits at most once**, and a job that is postponed or fails
for the fee has submitted nothing.  So it is with one that is cut short. -/
theorem process_submits (configService : ConfigService) (job : Job) (outcomes : NodeOutcomes)
    (watchList : Hash → Option ITxStatus) (calls : ℕ) :
    let r := ((process configService job).upTo calls).exec outcomes.machine (.start watchList)
    r.2.accepted.length ≤ 1 ∧
      ∀ e, r.1 = .threw e → e = .delayed ∨ capacityFailed ⟨job.id, e.failedReason⟩ →
        r.2.accepted = [] := by
  intro r
  obtain ⟨s, haccounts, hmeets⟩ := Prog.exec_follows (machine_handing outcomes)
    ((process_hands configService job).upTo calls) (w := .start watchList)
    (show Handing.Accounts _ .fresh from rfl)
  have hr : r = ((process configService job).upTo calls).exec outcomes.machine
    (.start watchList) := rfl
  rw [← hr] at haccounts hmeets
  cases s with
  | fresh =>
      have hnone : r.2.accepted = [] := haccounts
      exact ⟨by rw [hnone]; exact Nat.zero_le _, fun _ _ _ => hnone⟩
  | accepted =>
      refine ⟨le_of_eq haccounts, fun e he hwhy => ?_⟩
      rw [he] at hmeets
      obtain rfl : e = .error "Cannot convert to MortalEra via asMortalEra" := hmeets
      rcases hwhy with hdelayed | hfee
      · cases hdelayed
      · exact absurd (hfee.symm.trans era_not_fee) (by simp)
  | lost e' =>
      obtain ⟨hlength, message, rfl, hfee'⟩ := haccounts
      refine ⟨le_of_eq hlength, fun e he hwhy => ?_⟩
      rw [he] at hmeets
      obtain rfl : e = .error message := hmeets
      rcases hwhy with hdelayed | hfee
      · cases hdelayed
      · exact absurd (hfee.symm.trans hfee') (by simp)

/-! ## What is submitted is what was asked for -/

def HandleRequest.payload (request : HandleRequest) : ClaimHandlePayload :=
  ⟨bytesOfString request.baseHandle, request.expiration⟩

/-- The runtime call a request asks for. -/
def Request.runtimeCall : Request → Option RuntimeCall
  | createHandle request =>
      some (.payWithCapacity (.claimHandle request.accountId request.proof request.payload))
  | changeHandle request =>
      some (.payWithCapacity (.changeHandle request.accountId request.proof request.payload))
  | siwfSignup calls => some (.payWithCapacityBatchAll ((calls.getD []).map .encoded))
  | siwfSignin => none
  | addKey request =>
      some (.payWithCapacity (.addPublicKeyToMsa request.msaOwnerAddress request.msaOwnerSignature
        request.newKeyOwnerSignature request.payload))

/-- An extrinsic that is submitted holds the call of the request, provided that
those built before hold the calls they were to be built of, which is what the
state says. -/
def askedCourse (request : Request) : Protocol Worker Err Prop where
  allow built act :=
    match act with
    | .await (.signAndSend extrinsic _) => built → request.runtimeCall = some extrinsic.call
    | .fire (.signAndSend _ _) => False
    | _ => True
  next built obs :=
    match obs with
    | .await (.tx c) f => built ∧ ∀ tx, f.effect = some tx → tx.call = c
    | _ => built

section Asked

variable {request : Request} {built : Prop}

private theorem getNextNonce_asked : getNextNonce.Follows (askedCourse request)
    (fun _ built' => built' = built) (fun _ _ => True) built := by
  simp [getNextNonce, askedCourse]

/-- A single transaction is wrapped. -/
private theorem prepareSingle_asked (lastFinalizedBlockNumber : ℕ) (tx : SubmittableExtrinsic)
    (htx : built → request.runtimeCall = some (.payWithCapacity tx.call)) :
    (prepareSingle lastFinalizedBlockNumber tx).Follows (askedCourse request)
      (fun submission built' => built' → request.runtimeCall = some submission.ext.call)
      (fun _ _ => True) built := by
  simp only [prepareSingle, Prog.bind_eq, Prog.follows_bind, follows_call]
  refine ⟨trivial, fun ext => getNextNonce_asked.mono ?_ fun _ _ _ => trivial,
    fun _ => trivial, fun _ _ => trivial⟩
  rintro nonce built' rfl ⟨hbuilt, hext⟩
  show request.runtimeCall = some ext.call
  rw [htx hbuilt, hext ext rfl]

/-- The transactions of a batch are built of the encoded calls, one by one. -/
private theorem batch_asked (calls : List String) :
    (calls.mapM fun x => call (.tx (.encoded x))).Follows (askedCourse request)
      (fun txns built' => (built' → built) ∧
        (built' → txns.map SubmittableExtrinsic.call = calls.map .encoded))
      (fun _ _ => True) built := by
  induction calls generalizing built with
  | nil => exact ⟨id, fun _ => rfl⟩
  | cons x calls ih =>
      simp only [List.mapM_cons, Prog.bind_eq, Prog.pure_eq, Prog.follows_bind, follows_call]
      refine ⟨trivial, fun tx => ih.mono ?_ fun _ _ _ => trivial, fun _ => trivial,
        fun _ _ => trivial⟩
      rintro txns built' ⟨hold, hcalls⟩
      refine ⟨fun h => (hold h).1, fun h => ?_⟩
      rw [List.map_cons, List.map_cons, hcalls h, (hold h).2 tx rfl]

/-- What is prepared holds the call of the request. -/
private theorem prepare_asked (data : TransactionData) :
    (prepare data).Follows (askedCourse data.request)
      (fun submission built => built → data.request.runtimeCall = some submission.ext.call)
      (fun _ _ => True) True := by
  simp only [prepare, Prog.bind_eq, Prog.follows_bind, follows_call]
  refine ⟨trivial, fun lastFinalizedBlockNumber => ?_, fun _ => trivial, fun _ _ => trivial⟩
  cases data.request with
  | siwfSignup calls =>
      rw [Prog.follows_bind]
      refine (batch_asked (calls.getD [])).mono ?_ fun _ _ _ => trivial
      rintro txns built ⟨-, hcalls⟩
      rw [Prog.follows_bind, follows_call]
      refine ⟨trivial, fun ext => ?_, fun _ => trivial, fun _ _ => trivial⟩
      rw [Prog.follows_bind]
      refine getNextNonce_asked.mono ?_ fun _ _ _ => trivial
      rintro nonce built' rfl ⟨hbuilt, hext⟩
      show some _ = some ext.call
      rw [hext ext rfl, hcalls hbuilt]
  | siwfSignin => simp
  | _ request =>
      simp only [publishHandle, addPublicKeyToMsa, Prog.follows_bind, follows_call]
      refine ⟨trivial, fun tx => prepareSingle_asked _ tx ?_, fun _ => trivial, fun _ _ => trivial⟩
      rintro ⟨-, htx⟩
      rw [htx tx rfl]
      rfl

/-- A job submits nothing but the call of its request. -/
theorem process_asks (configService : ConfigService) (job : Job) :
    (process configService job).Follows (askedCourse job.data.request) (fun _ _ => True)
      (fun _ _ => True) True := by
  simp only [process, Prog.tryCatch_throw, Prog.bind_eq, Prog.follows_bind, Prog.follows_ite,
    publish_eq, follows_call]
  refine ((checkCapacity_gate configService).follows (fun act hact => ?_) (fun _ _ _ => rfl)
    (fun _ _ => rfl) fun c f hc => ?_).mono ?_ fun _ _ _ => trivial
  · cases act with
    | sync m => trivial
    | fire c => cases c <;> trivial
    | await c => cases c <;> trivial
  · cases c <;> first | rfl | exact hc.elim
  · rintro available _ rfl
    cases available with
    | false => exact ⟨trivial, trivial⟩
    | true =>
        refine (prepare_asked job.data).mono ?_ fun _ _ _ => trivial
        rintro submission built hbuilt
        refine ⟨hbuilt, fun sent => ?_, fun _ => trivial, fun _ _ => trivial⟩
        unfold record
        split
        · trivial
        · exact ⟨trivial, trivial⟩

end Asked

private theorem machine_asked (outcomes : NodeOutcomes) (request : Request) :
    outcomes.machine.Tracks (askedCourse request) fun w built =>
      built ∧ ∀ sent ∈ w.accepted, request.runtimeCall = some sent.2.call where
  act _ _ _ _ h := h
  issue c w built hc h := by
    cases c <;> first | exact hc.elim | exact h
  answer c w built hc h := by
    cases c with
    | tx c => exact ⟨⟨h.1, fun tx htx => outcomes.built _ _ _ htx⟩, h.2⟩
    | signAndSend extrinsic nonce =>
        refine ⟨h.1, fun sent hsent => ?_⟩
        rcases List.mem_append.mp hsent with hold | hnew
        · exact h.2 sent hold
        · rw [outcomes.signed _ _ _ _ (Option.mem_toList.mp hnew)]
          exact hc h.1
    | _ => exact h

/-- **What the node accepts is the call of the request.** -/
theorem process_asked (configService : ConfigService) (job : Job) (outcomes : NodeOutcomes)
    (watchList : Hash → Option ITxStatus) (calls : ℕ) :
    ∀ sent ∈ (((process configService job).upTo calls).exec outcomes.machine
        (.start watchList)).2.accepted,
      job.data.request.runtimeCall = some sent.2.call := by
  obtain ⟨built, haccepted, -⟩ := Prog.exec_follows (machine_asked outcomes job.data.request)
    ((process_asks configService job).upTo calls) (w := .start watchList)
    ⟨trivial, fun _ h => absurd h List.not_mem_nil⟩
  exact haccepted.2

end AccountService
