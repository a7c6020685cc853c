import AccountService.Publisher

/-!
# Submission and tracking

`process` hands an extrinsic to the node and has its hash watched afterwards.
The two effects are far apart: between the submission and the entry lie the
conversion of the era and a write that nobody awaits.  This module determines
exactly for which outcomes of the single steps the two effects come together.

* `Outcomes` fixes how every call settles; `Stores` is what a submission can
  change.
* `prepare` is the part of `publish` up to the submission and `record` the part
  after it, so that `publish` is `prepare`, one `signAndSend`, and `record`.
* Everything before the submission is `quiet`: it changes neither store.
-/

namespace AccountService

open Async

/-! ## The outcomes of the steps -/

/-- How every call settles and every operation on memory ends, by the number of
calls made before it.  A transaction that is only built carries the immortal
era. -/
structure Outcomes where
  answer : ℕ → (c : Call) → Fate Err c.Reply
  result : ℕ → (m : Memory) → m.Result
  unsigned : ∀ time c tx, (answer time (.tx c)).effect = some tx → tx.era = .immortal

/-- The extrinsics the node has accepted, the watch list, and the number of
calls made. -/
structure Stores where
  time : ℕ
  accepted : List (Hash × SubmittableExtrinsic)
  watchList : Hash → Option ITxStatus

/-- The effect of a call on the stores. -/
def Stores.after (w : Stores) : (c : Call) → Fate Err c.Reply → Stores
  | .signAndSend _ _, f =>
      { w with time := w.time + 1, accepted := w.accepted ++ f.effect.toList }
  | .hset txHash status, f =>
      { w with
        time := w.time + 1
        watchList := if f.effect.isSome then
          Function.update w.watchList txHash (some status) else w.watchList }
  | _, _ => { w with time := w.time + 1 }

/-- The machine on which the calls settle in the given way. -/
def Outcomes.machine (outcomes : Outcomes) : Machine Worker Err Stores where
  act m w := (outcomes.result w.time m, w)
  answer c w := (outcomes.answer w.time c, w.after c (outcomes.answer w.time c))

/-- The stores when a job begins: nothing of it has been accepted. -/
def Stores.start (watchList : Hash → Option ITxStatus) : Stores := ⟨0, [], watchList⟩

/-! ## The steps before and after the submission -/

/-- An extrinsic ready to be signed: the finalised block read before, the inner
extrinsic where there is one, the outer extrinsic and the nonce. -/
structure Submission where
  lastFinalizedBlockNumber : ℕ
  inner : Option SubmittableExtrinsic
  ext : SubmittableExtrinsic
  nonce : ℕ

/-- The event a job waits for. -/
def targetEvent : TransactionType → EventName
  | .createHandle | .changeHandle => ⟨"handles", "HandleClaimed"⟩
  | .addKey => ⟨"msa", "PublicKeyAdded"⟩
  | _ => ⟨"utility", "BatchCompleted"⟩

/-- Wrap one extrinsic and take a nonce. -/
def prepareSingle (lastFinalizedBlockNumber : ℕ) (tx : SubmittableExtrinsic) :
    Svc Submission := do
  let ext ← call (.tx (.payWithCapacity tx.call))
  let nonce ← getNextNonce
  pure ⟨lastFinalizedBlockNumber, some tx, ext, nonce⟩

/-- `publish` up to the submission. -/
def prepare (data : TransactionData) : Svc Submission := do
  let lastFinalizedBlockNumber ← call .getLatestFinalizedBlockNumber
  match data.request with
  | .createHandle request => do
      prepareSingle lastFinalizedBlockNumber (← publishHandle .createHandle request)
  | .changeHandle request => do
      prepareSingle lastFinalizedBlockNumber (← publishHandle .changeHandle request)
  | .siwfSignup calls => do
      let txns ← (calls.getD []).mapM fun x => call (.tx (.encoded x))
      let ext ← call (.tx (.payWithCapacityBatchAll (txns.map SubmittableExtrinsic.call)))
      let nonce ← getNextNonce
      pure ⟨lastFinalizedBlockNumber, none, ext, nonce⟩
  | .addKey request => do
      prepareSingle lastFinalizedBlockNumber (← addPublicKeyToMsa request)
  | .siwfSignin => Prog.throw (.error "Invalid job type.")

/-- `publish` after the submission. -/
def record (data : TransactionData) (submission : Submission)
    (sent : Hash × SubmittableExtrinsic) : Svc Unit :=
  match (submission.inner.getD sent.2).era.asMortalEra with
  | none => Prog.throw (.error "Cannot convert to MortalEra via asMortalEra")
  | some era =>
      unawaited (.hset sent.1 (txStatus data sent.1 (targetEvent data.request.type) era
        submission.lastFinalizedBlockNumber))

/-- `publish` submits once. -/
theorem publish_eq (data : TransactionData) :
    publish data = (prepare data).bind fun submission =>
      (call (.signAndSend submission.ext submission.nonce)).bind
        (record data submission) := by
  obtain ⟨request, providerId, referenceId⟩ := data
  unfold publish prepare submit
  simp only [Prog.bind_eq, Prog.bind_assoc]
  congr 1
  funext lastFinalizedBlockNumber
  cases request <;>
    simp only [Prog.bind_eq, Prog.bind_assoc, Prog.pure_eq, Prog.bind_done, Prog.bind_throw,
      prepareSingle, processSingleTxn, processBatchTxn] <;> rfl

/-! ## Nothing happens before the submission -/

/-- A call that changes neither store. -/
def Call.preparatory : Call → Prop
  | .signAndSend _ _ => False
  | .hset _ _ => False
  | _ => True

/-- Calls that change neither store.  The state lists the extrinsics built so
far. -/
def quiet : Protocol Worker Err (List SubmittableExtrinsic) where
  allow _ act :=
    match act with
    | .sync _ => True
    | .fire c => c.preparatory
    | .await c => c.preparatory
  next built obs :=
    match obs with
    | .await (.tx _) f => f.effect.toList ++ built
    | _ => built

section Quiet

variable {built : List SubmittableExtrinsic}

@[simp] theorem quiet_sync (m : Memory) : quiet.allow built (.sync m) ↔ True := Iff.rfl

@[simp] theorem quiet_fire (c : Call) : quiet.allow built (.fire c) ↔ c.preparatory := Iff.rfl

@[simp] theorem quiet_await (c : Call) : quiet.allow built (.await c) ↔ c.preparatory := Iff.rfl

@[simp] theorem quiet_next_sync (m : Memory) (r : m.Result) :
    quiet.next built (.sync m r) = built := rfl

@[simp] theorem quiet_next_fire (c : Call) : quiet.next built (.fire c) = built := rfl

@[simp] theorem quiet_next_tx (c : RuntimeCall) (f : Fate Err SubmittableExtrinsic) :
    quiet.next built (.await (.tx c) f) = f.effect.toList ++ built := rfl

@[simp] theorem quiet_next_await (c : Call) (f : Fate Err c.Reply) (hc : ∀ tx, c ≠ .tx tx) :
    quiet.next built (.await c f) = built := by
  cases c with
  | tx c => exact absurd rfl (hc c)
  | _ => rfl

end Quiet

theorem quiet_tracks (outcomes : Outcomes) (accepted : List (Hash × SubmittableExtrinsic))
    (watchList : Hash → Option ITxStatus) :
    outcomes.machine.Tracks quiet fun w built =>
      (∀ tx ∈ built, tx.era = .immortal) ∧ w.accepted = accepted ∧ w.watchList = watchList where
  act _ _ _ _ h := h
  issue c w built hc h := by
    cases c <;> first | exact h | cases hc
  answer c w built hc h := by
    cases c with
    | tx c =>
      refine ⟨fun tx htx => ?_, h.2⟩
      rcases List.mem_append.mp htx with hnew | hold
      · exact outcomes.unsigned _ _ _ (Option.mem_toList.mp hnew)
      · exact h.1 tx hold
    | signAndSend => cases hc
    | hset => cases hc
    | _ => exact h

private theorem capacityInfo_quiet (providerId : String) (built : List SubmittableExtrinsic) :
    (capacityInfo providerId).Follows quiet (fun _ s => s = built) (fun _ s => s = built)
      built := by
  simp [capacityInfo, Call.preparatory]

private theorem capacityExhausted_quiet (info : CapacityInfo) (built : List SubmittableExtrinsic) :
    (capacityExhausted info).Follows quiet (fun _ s => s = built) (fun _ s => s = built) built := by
  simp [capacityExhausted, Call.preparatory]

private theorem capacityAvailable_quiet (built : List SubmittableExtrinsic) :
    capacityAvailable.Follows quiet (fun _ s => s = built) (fun _ s => s = built) built := by
  have retries : ∀ failedJobs : List FailedJob,
      (forM failedJobs fun job => unawaited (.retry job.id)).Follows quiet
        (fun _ s => s = built) (fun _ s => s = built) built := fun failedJobs =>
    Prog.follows_forM (by simp [Call.preparatory]) failedJobs built rfl
  simp only [capacityAvailable, List.forM_eq_forM, Prog.bind_eq, Prog.follows_bind, follows_call]
  refine ⟨trivial, fun failedJobs => (retries _).mono ?_ fun _ _ h => h, fun _ => rfl,
    fun _ _ => rfl⟩
  rintro _ s rfl
  simp [Call.preparatory]

/-- The gate changes neither store and always answers. -/
theorem checkCapacity_quiet (configService : ConfigService) (built : List SubmittableExtrinsic) :
    (checkCapacity configService).Follows quiet (fun _ s => s = built) (fun _ _ => False)
      built := by
  simp only [checkCapacity, Prog.bind_eq, Prog.follows_bind, Prog.follows_tryCatch]
  refine (capacityInfo_quiet _ built).mono ?_ ?_
  · rintro info s rfl
    simp [Call.preparatory, capacityExhausted_quiet, capacityAvailable_quiet]
  · rintro e s rfl
    rfl

theorem getNextNonce_quiet (built : List SubmittableExtrinsic) :
    getNextNonce.Follows quiet (fun _ s => s = built) (fun _ s => s = built) built := by
  simp [getNextNonce, Call.preparatory]

private theorem prepareSingle_quiet (lastFinalizedBlockNumber : ℕ) (tx : SubmittableExtrinsic)
    {built : List SubmittableExtrinsic} (htx : tx ∈ built) :
    (prepareSingle lastFinalizedBlockNumber tx).Follows quiet
      (fun submission s => submission.inner = some tx ∧ tx ∈ s) (fun _ _ => True) built := by
  simp only [prepareSingle, Prog.bind_eq, Prog.follows_bind, follows_call]
  refine ⟨trivial, fun ext => (getNextNonce_quiet _).mono ?_ fun _ _ _ => trivial,
    fun _ => trivial, fun _ _ => trivial⟩
  rintro nonce s rfl
  simp [htx]

/-- The steps before the submission change neither store; the inner extrinsic
of a single transaction is one of those that were only built. -/
theorem prepare_quiet (data : TransactionData) :
    (prepare data).Follows quiet
      (fun submission s => (submission.inner = none ↔ data.request.type = .siwfSignup) ∧
        ∀ tx ∈ submission.inner, tx ∈ s)
      (fun _ _ => True) [] := by
  have single : ∀ (lastFinalizedBlockNumber : ℕ) (tx : SubmittableExtrinsic),
      (prepareSingle lastFinalizedBlockNumber tx).Follows quiet
        (fun submission s => submission.inner ≠ none ∧ ∀ tx ∈ submission.inner, tx ∈ s)
        (fun _ _ => True) [tx] := fun lastFinalizedBlockNumber tx =>
    (prepareSingle_quiet lastFinalizedBlockNumber tx (List.mem_singleton_self tx)).mono
      (by rintro submission s ⟨hinner, htx⟩; simp [hinner, htx]) fun _ _ h => h
  simp only [prepare, Prog.bind_eq, Prog.follows_bind, follows_call]
  refine ⟨trivial, fun lastFinalizedBlockNumber => ?_, fun _ => trivial, fun _ _ => trivial⟩
  cases data.request with
  | siwfSignup calls =>
      rw [Prog.follows_bind]
      refine (Prog.follows_mapM (E := fun _ _ => True) (J := fun _ => True) ?_ (calls.getD []) _
        trivial).mono ?_ ?_
      · simp [Call.preparatory]
      · intro txns s _
        rw [Prog.follows_bind, follows_call]
        refine ⟨trivial, fun ext => ?_, fun _ => trivial, fun _ _ => trivial⟩
        rw [Prog.follows_bind]
        exact (getNextNonce_quiet _).mono (by simp [Request.type]) fun _ _ _ => trivial
      · simp
  | siwfSignin => simp
  | _ request =>
      simp only [publishHandle, addPublicKeyToMsa, Prog.follows_bind, follows_call]
      simpa [Call.preparatory, Request.type] using single lastFinalizedBlockNumber

/-! ## Atomicity -/

/-- The watch list holds the status of a job under a hash. -/
def Tracked (watchList : Hash → Option ITxStatus) (data : TransactionData) (txHash : Hash) :
    Prop :=
  ∃ status, watchList txHash = some status ∧ status.txHash = txHash ∧
    status.type = data.request.type ∧ status.referenceId = data.referenceId ∧
    status.providerId = data.providerId ∧ status.successEvent = targetEvent data.request.type

/-- What `process` leaves behind for a job. -/
def Outcomes.processed (outcomes : Outcomes) (configService : ConfigService) (job : Job)
    (watchList : Hash → Option ITxStatus) : Outcome Err Unit × Stores :=
  (process configService job).exec outcomes.machine (.start watchList)

/-- An accepted extrinsic is tracked by a job that ends normally, and a job
that throws has had no extrinsic accepted. -/
def Atomic (r : Outcome Err Unit × Stores) (data : TransactionData) : Prop :=
  (∀ sent ∈ r.2.accepted, r.1 = .returned () ∧ Tracked r.2.watchList data sent.1) ∧
    ∀ e, r.1 = .threw e → r.2.accepted = []

/-- The gate lets the job through and every step before the submission
succeeds. -/
def Outcomes.Submits (outcomes : Outcomes) (configService : ConfigService) (job : Job)
    (watchList : Hash → Option ITxStatus) (submission : Submission) (w : Stores) : Prop :=
  ∃ w₁, (checkCapacity configService).exec outcomes.machine (.start watchList) =
      (.returned true, w₁) ∧
    (prepare job.data).exec outcomes.machine w₁ = (.returned submission, w)

/-- The steps after an accepted submission go well: the job is a batch, the
reply of the node arrives, the batch was signed with a mortal era, and the entry
is written or was there. -/
def Outcomes.Records (outcomes : Outcomes) (job : Job) (submission : Submission) (w : Stores)
    (sent : Hash × SubmittableExtrinsic) : Prop :=
  job.data.request.type = .siwfSignup ∧
    (outcomes.answer w.time (.signAndSend submission.ext submission.nonce)).seen = .ok sent ∧
    ∃ era, sent.2.era.asMortalEra = some era ∧
      ((outcomes.answer (w.time + 1) (.hset sent.1 (txStatus job.data sent.1
          (targetEvent job.data.request.type) era submission.lastFinalizedBlockNumber))).effect ≠
            none ∨
        Tracked w.watchList job.data sent.1)

/-! ## The exact condition -/

section Process

variable {outcomes : Outcomes} {configService : ConfigService} {job : Job}
  {watchList : Hash → Option ITxStatus} {submission : Submission} {w : Stores}

/-- Behind the gate nothing has happened to the stores. -/
private theorem gate_stores {b : Bool}
    (h : (checkCapacity configService).exec outcomes.machine (.start watchList) =
      (.returned b, w)) : w.accepted = [] ∧ w.watchList = watchList := by
  obtain ⟨s, hw, -⟩ := Prog.exec_follows (quiet_tracks outcomes [] watchList)
    (checkCapacity_quiet configService []) (w := .start watchList) ⟨by simp, rfl, rfl⟩
  rw [h] at hw
  exact hw.2

/-- The gate never throws. -/
private theorem gate_answers (e : Err) (w' : Stores) :
    (checkCapacity configService).exec outcomes.machine w ≠ (.threw e, w') := by
  intro h
  obtain ⟨s, -, hs⟩ := Prog.exec_follows (quiet_tracks outcomes w.accepted w.watchList)
    (checkCapacity_quiet configService []) (w := w) ⟨by simp, rfl, rfl⟩
  rw [h] at hs
  exact hs

/-- The stores at the submission are those of the beginning, and the inner
extrinsic of a single transaction is unsigned. -/
private theorem submits_stores
    (h : outcomes.Submits configService job watchList submission w) :
    w.accepted = [] ∧ w.watchList = watchList ∧
      (submission.inner = none ↔ job.data.request.type = .siwfSignup) ∧
      ∀ tx ∈ submission.inner, tx.era = .immortal := by
  obtain ⟨w₁, hgate, hprep⟩ := h
  obtain ⟨hacc, hlist⟩ := gate_stores hgate
  obtain ⟨s, hw, hs⟩ := Prog.exec_follows (quiet_tracks outcomes [] watchList)
    (prepare_quiet job.data) (w := w₁) ⟨by simp, hacc, hlist⟩
  rw [hprep] at hw hs
  exact ⟨hw.2.1, hw.2.2, hs.1, fun tx htx => hw.1 tx (hs.2 tx htx)⟩

/-- A job that reaches the submission makes it and records it. -/
private theorem processed_of_submits
    (h : outcomes.Submits configService job watchList submission w) :
    outcomes.processed configService job watchList =
      ((call (.signAndSend submission.ext submission.nonce)).bind
        (record job.data submission)).exec outcomes.machine w := by
  obtain ⟨w₁, hgate, hprep⟩ := h
  simp only [Outcomes.processed, process, Prog.tryCatch_throw, Prog.bind_eq]
  rw [Prog.exec_bind, hgate]
  simp only [if_true, publish_eq]
  rw [Prog.exec_bind, hprep]

/-- A job that does not reach the submission has nothing accepted. -/
private theorem processed_of_not_submits
    (h : ∀ submission w, ¬outcomes.Submits configService job watchList submission w) :
    (outcomes.processed configService job watchList).2.accepted = [] := by
  simp only [Outcomes.processed, process, Prog.tryCatch_throw, Prog.bind_eq]
  rw [Prog.exec_bind]
  rcases hgate : (checkCapacity configService).exec outcomes.machine (.start watchList) with
    ⟨b | e | _, w₁⟩
  · obtain ⟨hacc, hlist⟩ := gate_stores hgate
    cases b with
    | false => simpa [Outcomes.machine, Stores.after] using hacc
    | true =>
      simp only [if_true, publish_eq]
      rw [Prog.exec_bind]
      obtain ⟨s, hw, -⟩ := Prog.exec_follows (quiet_tracks outcomes [] watchList)
        (prepare_quiet job.data) (w := w₁) ⟨by simp, hacc, hlist⟩
      rcases hprep : (prepare job.data).exec outcomes.machine w₁ with ⟨submission | e | _, w⟩
      · exact absurd ⟨w₁, hgate, hprep⟩ (h submission w)
      · rw [hprep] at hw
        exact hw.2.1
      · rw [hprep] at hw
        exact hw.2.1
  · exact absurd hgate (gate_answers e w₁)
  · obtain ⟨s, hw, -⟩ := Prog.exec_follows (quiet_tracks outcomes [] watchList)
      (checkCapacity_quiet configService []) (w := .start watchList) ⟨by simp, rfl, rfl⟩
    rw [hgate] at hw
    exact hw.2.1

/-- A job is submitted at most once. -/
private theorem submits_unique {submission' : Submission} {w' : Stores}
    (h : outcomes.Submits configService job watchList submission w)
    (h' : outcomes.Submits configService job watchList submission' w') :
    submission' = submission ∧ w' = w := by
  obtain ⟨w₁, hgate, hprep⟩ := h
  obtain ⟨w₁', hgate', hprep'⟩ := h'
  obtain rfl : w₁' = w₁ := by simpa using hgate'.symm.trans hgate
  simpa using hprep'.symm.trans hprep

/-- The write of the entry makes the job tracked; without it the job is tracked
only if it was before. -/
private theorem tracked_after_hset (time : ℕ) (watchList : Hash → Option ITxStatus)
    (data : TransactionData) (txHash : Hash) (era : MortalEra) (b : ℕ) (outcomes : Outcomes) :
    let status := txStatus data txHash (targetEvent data.request.type) era b
    Tracked
        (if (outcomes.answer time (.hset txHash status)).effect.isSome
        then Function.update watchList txHash (some status) else watchList) data txHash ↔
      (outcomes.answer time (.hset txHash status)).effect ≠ none ∨
        Tracked watchList data txHash := by
  intro status
  by_cases hset : (outcomes.answer time (.hset txHash status)).effect = none
  · simp [hset]
  · have hsome := Option.isSome_iff_ne_none.mpr hset
    have htracked : Tracked (Function.update watchList txHash (some status)) data txHash :=
      ⟨status, by simp, rfl, rfl, rfl, rfl, rfl⟩
    simp only [hsome, if_true]
    exact iff_of_true htracked (.inl hset)

/-- Only a batch records the era it was signed with: the inner extrinsic of a
single transaction has none. -/
private theorem recorded_era
    (h : outcomes.Submits configService job watchList submission w)
    (sent : Hash × SubmittableExtrinsic) (era : MortalEra) :
    (submission.inner.getD sent.2).era.asMortalEra = some era ↔
      job.data.request.type = .siwfSignup ∧ sent.2.era.asMortalEra = some era := by
  obtain ⟨-, -, hinner, hera⟩ := submits_stores h
  rw [← hinner]
  cases htx : submission.inner with
  | none => simp
  | some tx => simp [hera tx htx, ExtrinsicEra.asMortalEra]

/-- A submission is atomic exactly if the steps after it go well. -/
private theorem atomic_of_submits
    (h : outcomes.Submits configService job watchList submission w) :
    Atomic (outcomes.processed configService job watchList) job.data ↔
      ∀ sent, (outcomes.answer w.time
          (.signAndSend submission.ext submission.nonce)).effect = some sent →
        outcomes.Records job submission w sent := by
  obtain ⟨hacc, -, -, -⟩ := submits_stores h
  rw [processed_of_submits h]
  rw [Prog.exec_bind, exec_call]
  unfold Outcomes.Records
  simp only [Outcomes.machine]
  cases hsend : outcomes.answer w.time (.signAndSend submission.ext submission.nonce) with
  | refused e => simp [Atomic, Stores.after, hacc]
  | lost sent e => simp [Atomic, Stores.after, hacc]
  | done sent =>
      simp only [Fate.seen_done, Fate.effect_done, Option.some.injEq, forall_eq', record]
      cases hera : (submission.inner.getD sent.2).era.asMortalEra with
      | none =>
          have hnone := fun era => (recorded_era h sent era).not.mp (by simp [hera])
          have hnot : ¬Atomic (.threw (.error "Cannot convert to MortalEra via asMortalEra"),
              w.after (.signAndSend submission.ext submission.nonce) (.done sent)) job.data := by
            simp [Atomic, Stores.after, hacc]
          refine iff_of_false hnot ?_
          -- the extrinsic that was built has no era, so the job throws after it has been sent
          rintro ⟨htype, -, era, hsent, -⟩
          exact hnone era ⟨htype, hsent⟩
      | some era =>
          obtain ⟨htype, hsent⟩ := (recorded_era h sent era).mp hera
          have hset := tracked_after_hset (w.time + 1) w.watchList job.data sent.1 era
            submission.lastFinalizedBlockNumber outcomes
          refine Iff.trans ?_ (hset.trans ?_)
          · simp [Atomic, Stores.after, hacc]
          · constructor
            · exact fun hor => ⟨htype, trivial, era, hsent, hor⟩
            · rintro ⟨-, -, era', hsent', hor⟩
              obtain rfl : era' = era := Option.some.inj (hsent'.symm.trans hsent)
              exact hor

/-- **Submission and tracking come together exactly if**, whenever the job
reaches the node and the node accepts the extrinsic, every step after the
submission goes well; for a single transaction they never do. -/
theorem process_atomic_iff (outcomes : Outcomes) (configService : ConfigService) (job : Job)
    (watchList : Hash → Option ITxStatus) :
    Atomic (outcomes.processed configService job watchList) job.data ↔
      ∀ submission w, outcomes.Submits configService job watchList submission w →
        ∀ sent, (outcomes.answer w.time
            (.signAndSend submission.ext submission.nonce)).effect = some sent →
          outcomes.Records job submission w sent := by
  by_cases hreach : ∃ submission w, outcomes.Submits configService job watchList submission w
  · obtain ⟨submission, w, h⟩ := hreach
    rw [atomic_of_submits h]
    constructor
    · intro hrec submission' w' h'
      obtain ⟨rfl, rfl⟩ := submits_unique h h'
      exact hrec
    · exact fun hrec => hrec submission w h
  · have hreach' : ∀ submission w,
        ¬outcomes.Submits configService job watchList submission w :=
      fun submission w h => hreach ⟨submission, w, h⟩
    -- nothing is accepted, so nothing has to be tracked
    have hacc := processed_of_not_submits hreach'
    constructor
    · exact fun _ submission w h => absurd h (hreach' submission w)
    · intro _
      simp [Atomic, hacc]

end Process

/-! ## A single transaction is lost -/

/-- Every step succeeds; the node signs with a mortal era. -/
def smooth : Outcomes where
  answer _ c :=
    match c with
    | .capacityLedger _ => .done (some ⟨100, 100⟩)
    | .incrementNonce _ _ _ => .done 1
    | .tx c => .done ⟨c, .immortal⟩
    | .signAndSend ext _ => .done (7, { ext with era := .mortal 32 5 })
    | c => .done default
  result _ m := m.blank
  unsigned time c tx h := by
    obtain rfl := Option.some.inj h
    rfl

/-- A request for a handle. -/
def handleJob : Job where
  id := "a"
  data := ⟨.createHandle ⟨"5C", "alice", 50, "0x00"⟩, "1", "a"⟩

theorem process_not_atomic :
    ¬∀ (outcomes : Outcomes) (configService : ConfigService) (job : Job)
        (watchList : Hash → Option ITxStatus),
      Atomic (outcomes.processed configService job watchList) job.data := by
  intro h
  have hthrew : (smooth.processed (.amountLimit 50) handleJob fun _ => none).1 =
      .threw (.error "Cannot convert to MortalEra via asMortalEra") := by decide +kernel
  have haccepted : (smooth.processed (.amountLimit 50) handleJob fun _ => none).2.accepted.map
      Prod.fst = [7] := by decide +kernel
  have hnone := (h smooth (.amountLimit 50) handleJob fun _ => none).2 _ hthrew
  simp [hnone] at haccepted

end AccountService
