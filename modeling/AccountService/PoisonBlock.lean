import AccountService.Chain
import AccountService.Notifier

/-!
# Blocks the notifier cannot get past

The notifier on a chain and a Redis that never fail.  Whether a block is
processed to its end is then decided by its content alone, and the only content
that matters is the error of a watched extrinsic that failed: `asModule` and
`findMetaError` throw on an error that is not a known module error, the pass
ends there, and the next scan begins at the same height with the notifications
of the earlier extrinsics already sent.
-/

namespace AccountService

open Async

/-- A chain and a Redis that answer every call, and a webhook that answers the
posts it wants to. -/
structure Surroundings where
  chain : Chain
  finalized : ℕ
  epochLength : ℕ
  accepts : ℕ → Bool

/-- What the scans of the notifier act upon. -/
structure ScanState where
  watchList : WatchList
  lastSeen : Option ℕ
  epochCapacity : ℕ → Option ℕ
  posts : List (Hash × TxWebhookRsp)
  scanInProgress : Bool

/-- How each call of the notifier is answered. -/
def Surroundings.answer (around : Surroundings) (w : ScanState) :
    (c : Call) → Fate Err c.Reply × ScanState
  | .hkeys => (.done (w.watchList.map ITxStatus.txHash), w)
  | .hlen _ => (.done w.watchList.length, w)
  | .hvals _ => (.done w.watchList, w)
  | .hget txHash => (.done (w.watchList.hget txHash), w)
  | .exec hdels => (.done (), { w with watchList := w.watchList.hdel hdels })
  | .getLastSeen => (.done w.lastSeen, w)
  | .setLastSeen b => (.done (), { w with lastSeen := some b })
  | .getEpochCapacity epoch => (.done (w.epochCapacity epoch), w)
  | .setexEpochCapacity epoch _ value =>
      (.done (), { w with epochCapacity := Function.update w.epochCapacity epoch (some value) })
  | .getBlockHash n => (.done (around.chain.hashAt n), w)
  | .getBlock h => (.done (((around.chain.find h).map Block.extrinsics).getD []), w)
  | .currentEpochAt h => (.done (((around.chain.find h).map Block.epoch).getD 0), w)
  | .eventsAt h => (.done (((around.chain.find h).map Block.events).getD []), w)
  | .getLatestFinalizedBlockNumber => (.done around.finalized, w)
  | .epochLength => (.done around.epochLength, w)
  | .post txHash _ body =>
      (if around.accepts w.posts.length then .done () else .refused (.error "post"),
        { w with posts := w.posts ++ [(txHash, body)] })
  | _ => (.done default, w)

attribute [local simp] Surroundings.answer

/-- The machine the notifier runs on. -/
def Surroundings.machine (around : Surroundings) : Machine Worker Err ScanState where
  act m w :=
    match m with
    | .scanInProgress => (w.scanInProgress, w)
    | .setScanInProgress b => ((), { w with scanInProgress := b })
    | m => (m.blank, w)
  answer c w := around.answer w c

@[simp] theorem machine_answer (around : Surroundings) (c : Call) (w : ScanState) :
    around.machine.answer c w = around.answer w c := rfl

@[simp] theorem machine_scanInProgress (around : Surroundings) (w : ScanState) :
    around.machine.act .scanInProgress w = (w.scanInProgress, w) := rfl

@[simp] theorem machine_setScanInProgress (around : Surroundings) (b : Bool) (w : ScanState) :
    around.machine.act (.setScanInProgress b) w = ((), { w with scanInProgress := b }) := rfl

/-- The first failure among the events of an extrinsic, if there is one, is a
module error the registry knows. -/
def Decodable (registry : Registry) (events : List EventRecord) (txIndex : ℕ) : Prop :=
  ∀ dispatchError,
    ((events.filter fun r => r.isOf txIndex).findSome? fun r => r.event.failure) =
        some dispatchError →
      ∃ moduleError, dispatchError.asModule = some moduleError ∧
        ∃ name, registry.findMetaError moduleError = some name

/-- Every watched extrinsic of a block that failed did so with a module error
the registry knows. -/
def Digestible (registry : Registry) (watchList : WatchList) (b : Block) : Prop :=
  ∀ e ∈ extrinsicIndices watchList b.extrinsics, Decodable registry b.events e.2

section Pass

variable (around : Surroundings) (configService : ConfigService) {registry : Registry}
  {w : ScanState}

/-- The notification loop ends and does nothing but post. -/
private theorem postRounds_exec (txHash : Hash) (webhook : String) (body : TxWebhookRsp)
    (left : ℕ) : ∀ w : ScanState, ∃ posts,
      (TxnNotifierService.postRounds txHash webhook body left).exec around.machine w =
        (.returned (), { w with posts := posts }) := by
  induction left with
  | zero => intro w; exact ⟨w.posts, rfl⟩
  | succ left ih =>
      intro w
      by_cases haccepts : around.accepts w.posts.length
      · refine ⟨w.posts ++ [(txHash, body)], ?_⟩
        simp [TxnNotifierService.postRounds, haccepts]
      · obtain ⟨posts, hposts⟩ := ih { w with posts := w.posts ++ [(txHash, body)] }
        refine ⟨posts, ?_⟩
        simpa [TxnNotifierService.postRounds, haccepts] using hposts

/-- A decodable extrinsic is dealt with. -/
private theorem processExtrinsic_exec_ok {events : List EventRecord} {txHash : Hash}
    {txIndex : ℕ} (hwatched : ∃ t ∈ w.watchList, t.txHash = txHash)
    (hdec : Decodable registry events txIndex) : ∃ posts,
      (TxnNotifierService.processExtrinsic configService registry events txHash txIndex).exec
        around.machine w = (.returned (), { w with posts := posts }) := by
  obtain ⟨txStatus, hstatus⟩ := WatchList.hget_isSome hwatched
  simp only [TxnNotifierService.processExtrinsic, Prog.bind_eq, Prog.exec_bind, exec_call,
    machine_answer, Surroundings.answer, Fate.seen_done, hstatus]
  split
  · next dispatchError hfail =>
    obtain ⟨moduleError, hmodule, name, hname⟩ := hdec dispatchError hfail
    simp only [hmodule, hname]
    exact ⟨w.posts, rfl⟩
  · split
    · exact postRounds_exec _ _ _ _ _ w
    · exact ⟨w.posts, rfl⟩

/-- One that is not decodable ends the pass. -/
private theorem processExtrinsic_exec_error {events : List EventRecord} {txHash : Hash}
    {txIndex : ℕ} (hwatched : ∃ t ∈ w.watchList, t.txHash = txHash)
    (hdec : ¬Decodable registry events txIndex) : ∃ message,
      (TxnNotifierService.processExtrinsic configService registry events txHash txIndex).exec
        around.machine w = (.threw (.error message), w) := by
  obtain ⟨txStatus, hstatus⟩ := WatchList.hget_isSome hwatched
  simp only [Decodable, not_forall] at hdec
  obtain ⟨dispatchError, hfail, hunknown⟩ := hdec
  simp only [TxnNotifierService.processExtrinsic, Prog.bind_eq, Prog.exec_bind, exec_call,
    machine_answer, Surroundings.answer, Fate.seen_done, hstatus, hfail]
  cases hmodule : dispatchError.asModule with
  | none => exact ⟨_, rfl⟩
  | some moduleError =>
      cases hname : registry.findMetaError moduleError with
      | none => simp only [hname]; exact ⟨_, rfl⟩
      | some name => exact absurd ⟨moduleError, hmodule, name, hname⟩ hunknown

/-- The loop over the watched extrinsics with all of them decodable. -/
private theorem processExtrinsics_exec_ok {events : List EventRecord} :
    ∀ (indices : List (Hash × ℕ)) (pipeline : List Hash) (w : ScanState),
      (∀ e ∈ indices, ∃ t ∈ w.watchList, t.txHash = e.1) →
      (∀ e ∈ indices, Decodable registry events e.2) → ∃ posts,
        (TxnNotifierService.processExtrinsics configService registry events indices pipeline).exec
          around.machine w = (.returned (pipeline ++ indices.map Prod.fst), { w with posts := posts })
      := by
  intro indices
  induction indices with
  | nil => intro pipeline w _ _; exact ⟨w.posts, by simp [TxnNotifierService.processExtrinsics]⟩
  | cons e indices ih =>
      intro pipeline w hwatched hdec
      obtain ⟨posts, hposts⟩ := processExtrinsic_exec_ok around configService
        (hwatched e List.mem_cons_self)
        (hdec e List.mem_cons_self)
      obtain ⟨posts', hposts'⟩ := ih (pipeline ++ [e.1]) { w with posts := posts }
        (fun e' he' => hwatched e' (List.mem_cons_of_mem e he'))
        (fun e' he' => hdec e' (List.mem_cons_of_mem e he'))
      refine ⟨posts', ?_⟩
      simp only [TxnNotifierService.processExtrinsics, List.foldlM_cons, Prog.bind_eq,
        Prog.exec_bind] at hposts' ⊢
      simpa [hposts] using hposts'

/-- The loop over the watched extrinsics with one that is not decodable. -/
private theorem processExtrinsics_exec_error {events : List EventRecord} :
    ∀ (indices : List (Hash × ℕ)) (pipeline : List Hash) (w : ScanState),
      (∀ e ∈ indices, ∃ t ∈ w.watchList, t.txHash = e.1) →
      (∃ e ∈ indices, ¬Decodable registry events e.2) → ∃ message posts,
        (TxnNotifierService.processExtrinsics configService registry events indices pipeline).exec
          around.machine w = (.threw (.error message), { w with posts := posts }) := by
  intro indices
  induction indices with
  | nil => rintro pipeline w _ ⟨e, he, -⟩; simp at he
  | cons e indices ih =>
      rintro pipeline w hwatched hbad
      simp only [TxnNotifierService.processExtrinsics, List.foldlM_cons, Prog.bind_eq,
        Prog.exec_bind] at ih ⊢
      by_cases hdec : Decodable registry events e.2
      · obtain ⟨posts, hposts⟩ := processExtrinsic_exec_ok around configService
          (hwatched e List.mem_cons_self) hdec
        have hrest : ∃ e' ∈ indices, ¬Decodable registry events e'.2 := by
          obtain ⟨e', he', hbad⟩ := hbad
          rcases List.mem_cons.mp he' with rfl | he'
          · exact absurd hdec hbad
          · exact ⟨e', he', hbad⟩
        obtain ⟨message, posts', hposts'⟩ := ih (pipeline ++ [e.1]) { w with posts := posts }
          (fun e' he' => hwatched e' (List.mem_cons_of_mem e he')) hrest
        exact ⟨message, posts', by simpa [hposts] using hposts'⟩
      · -- the loop ends here, and nothing is added to the pipeline
        obtain ⟨message, hthrew⟩ := processExtrinsic_exec_error around configService
          (hwatched e List.mem_cons_self) hdec
        exact ⟨message, w.posts, by simp [hthrew]⟩

/-- The counter is written and nothing else. -/
theorem setEpochCapacity_exec (epoch amount : ℕ) : ∃ capacity,
    (TxnNotifierService.setEpochCapacity epoch amount).exec around.machine w =
      (.returned (), { w with epochCapacity := capacity }) := by
  refine ⟨Function.update w.epochCapacity epoch
    (some ((w.epochCapacity epoch).getD 0 + amount)), ?_⟩
  simp [TxnNotifierService.setEpochCapacity]

/-- An event of a watched extrinsic is among the watched events. -/
theorem watchedEvents_filter {indices : List (Hash × ℕ)} {e : Hash × ℕ}
    (he : e ∈ indices) (records : List EventRecord) :
    (watchedEvents indices records).filter (fun r => r.isOf e.2) =
      records.filter fun r => r.isOf e.2 := by
  rw [watchedEvents, List.filter_filter]
  refine List.filter_congr fun r _ => ?_
  have hany : r.isOf e.2 → (indices.any fun e => r.isOf e.2) := fun hr =>
    List.any_eq_true.mpr ⟨e, he, hr⟩
  cases hr : r.isOf e.2 <;> simp_all

theorem decodable_watched {indices : List (Hash × ℕ)} {e : Hash × ℕ} (he : e ∈ indices)
    (records : List EventRecord) :
    Decodable registry (watchedEvents indices records) e.2 ↔ Decodable registry records e.2 := by
  unfold Decodable
  rw [watchedEvents_filter he]

/-- A watched extrinsic of a block has an entry. -/
theorem extrinsicIndices_watched {pendingTxns : List ITxStatus} {extrinsics : List Hash}
    {e : Hash × ℕ} (he : e ∈ extrinsicIndices pendingTxns extrinsics) :
    ∃ t ∈ pendingTxns, t.txHash = e.1 := by
  simpa using (List.mem_filter.mp he).2

private theorem processFound_exec_ok {b : Block} (hfind : around.chain.find b.hash = some b)
    {indices : List (Hash × ℕ)} (hwatched : ∀ e ∈ indices, ∃ t ∈ w.watchList, t.txHash = e.1)
    (hdec : ∀ e ∈ indices, Decodable registry b.events e.2) : ∃ capacity posts,
      (TxnNotifierService.processFound configService registry b.hash indices).exec
        around.machine w =
          (.returned (indices.map Prod.fst),
            { w with epochCapacity := capacity, posts := posts }) := by
  have hdec' : ∀ e ∈ indices, Decodable registry (watchedEvents indices b.events) e.2 :=
    fun e he => (decodable_watched he b.events).mpr (hdec e he)
  obtain ⟨posts, hposts⟩ := processExtrinsics_exec_ok around configService indices [] w
    hwatched hdec'
  obtain ⟨capacity, hcapacity⟩ := setEpochCapacity_exec (w := { w with posts := posts }) around
    b.epoch (totalCapacityWithdrawn (watchedEvents indices b.events))
  refine ⟨capacity, posts, ?_⟩
  simp [TxnNotifierService.processFound, hfind, hposts, hcapacity]

private theorem processFound_exec_error {b : Block} (hfind : around.chain.find b.hash = some b)
    {indices : List (Hash × ℕ)} (hwatched : ∀ e ∈ indices, ∃ t ∈ w.watchList, t.txHash = e.1)
    (hbad : ∃ e ∈ indices, ¬Decodable registry b.events e.2) : ∃ message posts,
      (TxnNotifierService.processFound configService registry b.hash indices).exec
        around.machine w = (.threw (.error message), { w with posts := posts }) := by
  have hbad' : ∃ e ∈ indices, ¬Decodable registry (watchedEvents indices b.events) e.2 := by
    obtain ⟨e, he, hbad⟩ := hbad
    exact ⟨e, he, (decodable_watched he b.events).not.mpr hbad⟩
  obtain ⟨message, posts, hposts⟩ := processExtrinsics_exec_error around configService indices []
    w hwatched hbad'
  refine ⟨message, posts, ?_⟩
  simp [TxnNotifierService.processFound, hfind, hposts]

/-- What a pass over a digestible block does. -/
private theorem processCurrentBlock_exec_ok {n : ℕ} {b : Block}
    (hfind : around.chain.find b.hash = some b) (hdig : Digestible registry w.watchList b) :
    ∃ capacity posts,
      (TxnNotifierService.processCurrentBlock configService registry b.hash n).exec
        around.machine w =
          (.returned (), { w with
            watchList := w.watchList.hdel
              ((extrinsicIndices w.watchList b.extrinsics).map Prod.fst ++
                expiredTxns w.watchList n)
            epochCapacity := capacity
            posts := posts }) := by
  by_cases hnone : extrinsicIndices w.watchList b.extrinsics = []
  · refine ⟨w.epochCapacity, w.posts, ?_⟩
    simp [TxnNotifierService.processCurrentBlock, hfind, hnone]
  · obtain ⟨capacity, posts, hfound⟩ := processFound_exec_ok around configService hfind
      (fun e he => extrinsicIndices_watched he) hdig
    refine ⟨capacity, posts, ?_⟩
    simp [TxnNotifierService.processCurrentBlock, hfind, hnone, hfound]

/-- What a pass over any other block does. -/
theorem processCurrentBlock_exec_error {n : ℕ} {b : Block}
    (hfind : around.chain.find b.hash = some b) (hdig : ¬Digestible registry w.watchList b) :
    ∃ message posts,
      (TxnNotifierService.processCurrentBlock configService registry b.hash n).exec
        around.machine w = (.threw (.error message), { w with posts := posts }) := by
  simp only [Digestible, not_forall, exists_prop] at hdig
  obtain ⟨message, posts, hfound⟩ := processFound_exec_error around configService hfind
    (fun e he => extrinsicIndices_watched he) hdig
  have hsome : extrinsicIndices w.watchList b.extrinsics ≠ [] := by
    obtain ⟨e, he, -⟩ := hdig
    exact List.ne_nil_of_mem he
  refine ⟨message, posts, ?_⟩
  simp [TxnNotifierService.processCurrentBlock, hfind, hsome, hfound]

end Pass

/-! ## Scans -/

/-- The scanner goes on to block `n`: something is pending, and the block is
finalised if only finalised blocks are scanned. -/
def Due (around : Surroundings) (configService : ConfigService) (w : ScanState) (n : ℕ) : Prop :=
  w.watchList ≠ [] ∧
    ((TxnNotifierService.scanParameters configService).onlyFinalized = some true →
      n ≤ around.finalized)

/-- A scan that is started begins with block `n`. -/
def Starts (w : ScanState) (n : ℕ) : Prop :=
  w.scanInProgress = false ∧
    TxnNotifierService.startingBlock (w.lastSeen.getD 0) w.watchList + 1 = n

section Scan

variable (around : Surroundings) (configService : ConfigService) (registry : Registry)

/-- The check before a block passes a block that is due. -/
theorem checkScanParameters_exec_due {w : ScanState} {n : ℕ} {h : BlockHash}
    (hdue : Due around configService w n) (hh : h ≠ 0) :
    (TxnNotifierService.checkScanParameters configService n h).exec around.machine w =
      (.returned (), w) := by
  obtain ⟨hlen, hfinal⟩ := hdue
  simpa [TxnNotifierService.checkScanParameters,
    BlockchainScannerService.baseCheckScanParameters, BlockHash.isEmpty, hlen, hh] using hfinal

/-- The check changes nothing, and passes no empty hash. -/
private theorem checkScanParameters_exec (w : ScanState) (n : ℕ) (h : BlockHash) :
    (TxnNotifierService.checkScanParameters configService n h).exec around.machine w =
        (.returned (), w) ∧ h ≠ 0 ∨
      ∃ e, (TxnNotifierService.checkScanParameters configService n h).exec around.machine w =
        (.threw e, w) := by
  by_cases hlen : w.watchList = []
  · exact .inr ⟨.nullScan _, by
      simp [TxnNotifierService.checkScanParameters, hlen]; rfl⟩
  by_cases hh : h = 0
  · exact .inr ⟨.endOfChain _, by
      simp [TxnNotifierService.checkScanParameters,
        BlockchainScannerService.baseCheckScanParameters, BlockHash.isEmpty, hlen, hh]; rfl⟩
  by_cases hdue : Due around configService w n
  · exact .inl ⟨checkScanParameters_exec_due around configService hdue hh, hh⟩
  · obtain ⟨honly, hlate⟩ : (TxnNotifierService.scanParameters configService).onlyFinalized =
        some true ∧ around.finalized < n := by simpa [Due, hlen] using hdue
    exact .inr ⟨.endOfChain _, by
      simp [TxnNotifierService.checkScanParameters,
        BlockchainScannerService.baseCheckScanParameters, BlockHash.isEmpty, hlen, hh, honly, hlate]; rfl⟩

/-- A pass does not touch the last seen block, whatever the block. -/
private theorem processCurrentBlock_lastSeen {n : ℕ} {b : Block}
    (hb : around.chain.blocks[n]? = some b) (w : ScanState) :
    ∃ w', w'.lastSeen = w.lastSeen ∧
      ((TxnNotifierService.processCurrentBlock configService registry b.hash n).exec
          around.machine w = (.returned (), w') ∨
        ∃ e, (TxnNotifierService.processCurrentBlock configService registry b.hash n).exec
          around.machine w = (.threw e, w')) := by
  have hfind := around.chain.find_hash hb
  by_cases hdig : Digestible registry w.watchList b
  · obtain ⟨capacity, posts, hpass⟩ := processCurrentBlock_exec_ok around configService (n := n)
      hfind hdig
    refine ⟨_, ?_, .inl hpass⟩
    rfl
  · obtain ⟨message, posts, hpass⟩ := processCurrentBlock_exec_error around configService (n := n)
      hfind hdig
    refine ⟨_, ?_, .inr ⟨_, hpass⟩⟩
    rfl

/-- The loop never takes the last seen block back. -/
private theorem scanFrom_lastSeen (fuel : ℕ) : ∀ (n : ℕ) (w : ScanState),
    w.lastSeen.getD 0 ≤ n →
      w.lastSeen.getD 0 ≤
        (((TxnNotifierService.scanner configService registry).scanFrom fuel n
          (around.chain.hashAt n)).exec around.machine w).2.lastSeen.getD 0 := by
  induction fuel with
  | zero => intro n w _; exact le_rfl
  | succ fuel ih =>
      intro n w hn
      rw [BlockchainScannerService.scanFrom, Prog.bind_eq, Prog.exec_bind]
      simp only [TxnNotifierService.scanner]
      rcases checkScanParameters_exec around configService w n (around.chain.hashAt n) with
        ⟨hcheck, hhash⟩ | ⟨e, hcheck⟩
      · obtain ⟨b, hb⟩ : ∃ b, around.chain.blocks[n]? = some b := by
          cases hb : around.chain.blocks[n]? with
          | none => simp [Chain.hashAt, hb] at hhash
          | some b => exact ⟨b, rfl⟩
        obtain ⟨w', hw', hpass⟩ := processCurrentBlock_lastSeen around configService registry hb w
        rw [hcheck]
        simp only [Prog.bind_eq, Prog.exec_bind, around.chain.hashAt_of_get hb]
        rcases hpass with hpass | ⟨e, hpass⟩
        · rw [hpass]
          -- the block is stored, and the loop goes on after it
          have hnext := ih (n + 1) { w' with lastSeen := some n } (Nat.le_succ n)
          simp only [BlockchainScannerService.setLastSeenBlockNumber, exec_call, machine_answer,
            Surroundings.answer, Fate.seen_done]
          exact hn.trans hnext
        · rw [hpass, hw']
      · rw [hcheck]

/-- One round of the loop. -/
theorem scanFrom_exec {n : ℕ} {b : Block} {w : ScanState}
    (hb : around.chain.blocks[n]? = some b) (hdue : Due around configService w n) (fuel : ℕ) :
    ((TxnNotifierService.scanner configService registry).scanFrom (fuel + 1) n
        (around.chain.hashAt n)).exec around.machine w =
      match (TxnNotifierService.processCurrentBlock configService registry b.hash n).exec
          around.machine w with
      | (.returned (), w') =>
          ((TxnNotifierService.scanner configService registry).scanFrom fuel (n + 1)
            (around.chain.hashAt (n + 1))).exec around.machine { w' with lastSeen := some n }
      | (.threw e, w') => (.threw e, w')
      | (.stopped, w') => (.stopped, w') := by
  rw [BlockchainScannerService.scanFrom, Prog.bind_eq, Prog.exec_bind]
  simp only [TxnNotifierService.scanner]
  rw [checkScanParameters_exec_due around configService hdue (around.chain.hashAt_ne_zero hb)]
  simp only [Prog.bind_eq, Prog.exec_bind, around.chain.hashAt_of_get hb]
  rcases (TxnNotifierService.processCurrentBlock configService registry b.hash n).exec
    around.machine w with ⟨_ | e | _, w'⟩ <;>
    simp [BlockchainScannerService.setLastSeenBlockNumber]

/-- A scan that begins with a block is the loop from that block on, between
setting and clearing the flag. -/
theorem scan_exec_pending {n : ℕ} {b : Block} {w : ScanState}
    (hb : around.chain.blocks[n]? = some b) (hpending : w.watchList ≠ [])
    (hstarts : Starts w n) (fuel : ℕ) :
    (TxnNotifierService.scan configService registry fuel).exec around.machine w =
      (((((TxnNotifierService.scanner configService registry).scanFrom fuel n
        (around.chain.hashAt n)).tryCatch BlockchainScannerService.scanCatch).tryFinally
          (memory (.setScanInProgress false))).exec around.machine
            { w with scanInProgress := true }) := by
  obtain ⟨hidle, hn⟩ := hstarts
  have hhash := around.chain.hashAt_ne_zero hb
  simp [TxnNotifierService.scan, BlockchainScannerService.scan, BlockchainScannerService.scanBody,
    TxnNotifierService.scanner, TxnNotifierService.checkInitialScanParameters,
    TxnNotifierService.getLastSeenBlockNumber, BlockchainScannerService.baseLastSeenBlockNumber,
    BlockHash.isEmpty, hidle, hpending, hn, hhash]

private theorem scan_exec {n : ℕ} {b : Block} {w : ScanState}
    (hb : around.chain.blocks[n]? = some b) (hdue : Due around configService w n)
    (hstarts : Starts w n) (fuel : ℕ) :
    (TxnNotifierService.scan configService registry fuel).exec around.machine w =
      (((((TxnNotifierService.scanner configService registry).scanFrom fuel n
        (around.chain.hashAt n)).tryCatch BlockchainScannerService.scanCatch).tryFinally
          (memory (.setScanInProgress false))).exec around.machine
            { w with scanInProgress := true }) :=
  scan_exec_pending around configService registry hb hdue.1 hstarts fuel

end Scan

/-! ## Getting past a block -/

/-- The notifier gets past block `b` at height `n`: the pass completes, every
watched extrinsic found leaves the watch list, and a scan that reaches the block,
or begins with it, stores it as seen. -/
structure Passes (around : Surroundings) (configService : ConfigService) (registry : Registry)
    (w : ScanState) (n : ℕ) (b : Block) : Prop where
  completes : ((TxnNotifierService.processCurrentBlock configService registry b.hash n).exec
    around.machine w).1 = .returned ()
  leaves : ∀ e ∈ extrinsicIndices w.watchList b.extrinsics,
    ∀ t ∈ ((TxnNotifierService.processCurrentBlock configService registry b.hash n).exec
      around.machine w).2.watchList, t.txHash ≠ e.1
  stored : Due around configService w n → ∀ fuel,
    n ≤ (((TxnNotifierService.scanner configService registry).scanFrom (fuel + 1) n
      (around.chain.hashAt n)).exec around.machine w).2.lastSeen.getD 0
  scanned : Due around configService w n → Starts w n → ∀ fuel,
    n ≤ ((TxnNotifierService.scan configService registry (fuel + 1)).exec
      around.machine w).2.lastSeen.getD 0

section Scan

variable {around : Surroundings} {configService : ConfigService} {registry : Registry}
  {w : ScanState} {n : ℕ} {b : Block}

/-- A digestible block is stored as seen by the round that processes it. -/
private theorem stored_of_digestible (hb : around.chain.blocks[n]? = some b)
    (hdig : Digestible registry w.watchList b) (hdue : Due around configService w n) (fuel : ℕ) :
    n ≤ (((TxnNotifierService.scanner configService registry).scanFrom (fuel + 1) n
      (around.chain.hashAt n)).exec around.machine w).2.lastSeen.getD 0 := by
  obtain ⟨capacity, posts, hpass⟩ := processCurrentBlock_exec_ok around configService (n := n)
    (around.chain.find_hash hb) hdig
  have hmono : ∀ w' : ScanState, n ≤ _ := fun w' =>
    scanFrom_lastSeen around configService registry fuel (n + 1) { w' with lastSeen := some n }
      (Nat.le_succ n)
  rw [scanFrom_exec around configService registry hb hdue, hpass]
  exact hmono _

/-- Catching the two ends of a scan and clearing the flag leave the last seen
block alone. -/
private theorem lastSeen_finally (p : Svc Unit) (w : ScanState) :
    (((p.tryCatch BlockchainScannerService.scanCatch).tryFinally
        (memory (.setScanInProgress false))).exec around.machine w).2.lastSeen =
      (p.exec around.machine w).2.lastSeen := by
  simp only [Prog.exec_tryFinally, Prog.exec_tryCatch]
  rcases p.exec around.machine w with ⟨_ | e | _, w'⟩
  · simp
  · cases e <;> simp [BlockchainScannerService.scanCatch]
  · simp

/-- **The notifier gets past a block exactly if it is digestible**: every
watched extrinsic of it that failed did so with a module error the registry
knows. -/
theorem passes_iff (hb : around.chain.blocks[n]? = some b) :
    Passes around configService registry w n b ↔ Digestible registry w.watchList b := by
  have hfind := around.chain.find_hash hb
  constructor
  · intro h
    by_contra hdig
    obtain ⟨message, posts, hpass⟩ := processCurrentBlock_exec_error around configService (n := n)
      hfind hdig
    have hcompletes := h.completes
    simp [hpass] at hcompletes
  · intro hdig
    obtain ⟨capacity, posts, hpass⟩ := processCurrentBlock_exec_ok around configService (n := n)
      hfind hdig
    refine ⟨by rw [hpass], ?_, stored_of_digestible hb hdig, ?_⟩
    · rw [hpass]
      intro e he t ht heq
      refine (WatchList.mem_hdel.mp ht).2 (List.mem_append_left _ ?_)
      rw [heq]
      exact List.mem_map_of_mem he
    · intro hdue hstarts fuel
      rw [scan_exec around configService registry hb hdue hstarts, lastSeen_finally]
      exact stored_of_digestible (w := { w with scanInProgress := true }) hb hdig hdue fuel

/-- A scan that begins with an indigestible block throws and leaves everything
as it was but the notifications, so the next scan begins with the same block. -/
theorem scan_indigestible (hb : around.chain.blocks[n]? = some b)
    (hdig : ¬Digestible registry w.watchList b) (hdue : Due around configService w n)
    (hstarts : Starts w n) (fuel : ℕ) : ∃ message posts,
      (TxnNotifierService.scan configService registry (fuel + 1)).exec around.machine w =
        (.threw (.error message), { w with posts := posts }) := by
  obtain ⟨message, posts, hpass⟩ := processCurrentBlock_exec_error
    (w := { w with scanInProgress := true }) around configService (n := n)
    (around.chain.find_hash hb) hdig
  have hdue' : Due around configService { w with scanInProgress := true } n := hdue
  refine ⟨message, posts, ?_⟩
  rw [scan_exec around configService registry hb hdue hstarts, Prog.exec_tryFinally,
    Prog.exec_tryCatch, scanFrom_exec around configService registry hb hdue', hpass]
  simp [BlockchainScannerService.scanCatch, hstarts.1]

end Scan

/-! ## A poison block -/

/-- A registry that knows every module error. -/
def fullRegistry : Registry := ⟨fun _ => some "error"⟩

/-- A block with two watched extrinsics: the first claims its handle, the second
fails with `BadOrigin`. -/
def poisonBlock : Block where
  hash := 11
  epoch := 1
  extrinsics := [7, 8]
  events :=
    [⟨.applyExtrinsic 0, .handleClaimed 4 []⟩, ⟨.applyExtrinsic 1, .extrinsicFailed .badOrigin⟩]

/-- A genesis block and the poison block, both finalised. -/
def poisoned : Surroundings where
  chain :=
    { blocks := [⟨10, 0, [], []⟩, poisonBlock]
      nonempty := by decide
      distinct := by decide }
  finalized := 1
  epochLength := 100
  accepts _ := true

/-- The entry of a handle claim. -/
def handleStatus (txHash : Hash) : ITxStatus :=
  ⟨.createHandle, "a", "1", txHash, ⟨"handles", "HandleClaimed"⟩, 0, 32⟩

/-- Both extrinsics are watched and nothing has been scanned. -/
def beforePoison : ScanState := ⟨[handleStatus 7, handleStatus 8], none, fun _ => none, [], false⟩

theorem passes_iff_poisoned :
    Passes poisoned (.amountLimit 1) fullRegistry beforePoison 0 ⟨10, 0, [], []⟩ ∧
      ¬Passes poisoned (.amountLimit 1) fullRegistry beforePoison 1 poisonBlock := by
  constructor
  · refine (passes_iff (by rfl)).mpr ?_
    simp [Digestible, extrinsicIndices]
  · refine (passes_iff (by rfl)).not.mpr fun hdig => ?_
    obtain ⟨moduleError, hmodule, -⟩ := hdig (8, 1) (by decide) .badOrigin (by decide)
    cases hmodule

theorem passes_not_always :
    ¬∀ (around : Surroundings) (configService : ConfigService) (registry : Registry)
        (w : ScanState) (n : ℕ) (b : Block), around.chain.blocks[n]? = some b →
      Passes around configService registry w n b := by
  intro h
  have hcompletes := (h poisoned (.amountLimit 1) fullRegistry beforePoison 1 poisonBlock rfl).completes
  have hthrew : ((TxnNotifierService.processCurrentBlock (.amountLimit 1) fullRegistry poisonBlock.hash
      1).exec poisoned.machine beforePoison).1 =
        .threw (.error "Cannot convert to Module via asModule") := by decide +kernel
  rw [hthrew] at hcompletes
  cases hcompletes

end AccountService
