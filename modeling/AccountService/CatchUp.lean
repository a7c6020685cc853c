import AccountService.EventAttribution
import AccountService.PoisonBlock
import AccountService.WatchListConservation

/-!
# A scan catches up

What one scan is for, said of the chain and not of the calls that are made: it
goes through the blocks up to the end of the chain, or up to the finalised one,
takes off the watch list what a block includes or outlasts, and tells the
webhook the outcome of each extrinsic it finds, once and in the order of the
chain.  Where every call but a post succeeds and the webhook does not refuse
the same post too often, the scanner does this exactly if no block on its way
carries an error it cannot name.
-/

namespace AccountService

open Async

/-! ## What the blocks leave and what they have to tell -/

namespace Block

/-- A block at height `n` takes an entry off the watch list: it includes the
extrinsic, or the entry is good for blocks before it only. -/
def Takes (b : Block) (n : ℕ) (t : ITxStatus) : Prop := t.txHash ∈ b.extrinsics ∨ t.death ≤ n

instance (b : Block) (n : ℕ) (t : ITxStatus) : Decidable (b.Takes n t) :=
  inferInstanceAs (Decidable (_ ∨ _))

/-- What a block at height `n` leaves on the watch list. -/
def leaves (b : Block) (n : ℕ) (entries : WatchList) : WatchList :=
  entries.filter fun t => ¬b.Takes n t

/-- What is to be told about an extrinsic of a block. -/
def report (b : Block) (entries : WatchList) (e : Hash × ℕ) : Option (Hash × TxWebhookRsp) := do
  let status ← entries.hget e.1
  let body ← notification status (b.events.filter fun r => r.isOf e.2)
  pure (e.1, body)

/-- What is to be told about the extrinsics of a block, in their order. -/
def reports (b : Block) (entries : WatchList) : List (Hash × TxWebhookRsp) :=
  (extrinsicIndices entries b.extrinsics).filterMap (b.report entries)

end Block

namespace Chain

variable (chain : Chain) {entries : WatchList} {n m : ℕ} {b : Block}

/-- What the blocks from `n` up to `m` leave on the watch list. -/
def remaining (entries : WatchList) (n m : ℕ) : WatchList :=
  entries.filter fun t => ∀ i < m, n ≤ i → ∀ b ∈ chain.blocks[i]?, ¬b.Takes i t

/-- What the block at `i` has to tell about the extrinsics that the blocks from
`n` up to it have left. -/
def reportsAt (entries : WatchList) (n i : ℕ) : List (Hash × TxWebhookRsp) :=
  (chain.blocks[i]?.map fun b => b.reports (chain.remaining entries n i)).getD []

/-- What the blocks from `n` up to `m` have to tell. -/
def reports (entries : WatchList) (n m : ℕ) : List (Hash × TxWebhookRsp) :=
  (List.range' n (m - n)).flatMap (chain.reportsAt entries n)

/-- The heights from `n` up to `m` that are come to with entries pending. -/
def pendingAt (entries : WatchList) (n m : ℕ) : List ℕ :=
  (List.range' n (m - n)).filter fun i => chain.remaining entries n i ≠ []

@[simp] theorem remaining_nil : chain.remaining [] n m = [] := rfl

theorem remaining_of_le (h : m ≤ n) : chain.remaining entries n m = entries := by
  refine List.filter_eq_self.mpr fun t _ => decide_eq_true ?_
  exact fun i hi hn => absurd (hn.trans_lt hi) (Nat.not_lt.mpr h)

theorem remaining_head (hb : chain.blocks[n]? = some b) (h : n < m) :
    chain.remaining entries n m = chain.remaining (b.leaves n entries) (n + 1) m := by
  unfold remaining Block.leaves
  rw [List.filter_filter]
  refine List.filter_congr fun t _ => ?_
  rw [← Bool.decide_and]
  refine decide_eq_decide.mpr ⟨fun hall => ⟨fun i hi hn => hall i hi (Nat.le_of_succ_le hn),
    hall n h le_rfl b hb⟩, ?_⟩
  rintro ⟨hall, hfirst⟩ i hi hn c hc
  rcases Nat.eq_or_lt_of_le hn with rfl | hlt
  · cases hb.symm.trans hc
    exact hfirst
  · exact hall i hi hlt c hc

/-- The heights from `n` up to `m` begin with `n`. -/
private theorem heights_head (h : n < m) :
    List.range' n (m - n) = n :: List.range' (n + 1) (m - (n + 1)) := by
  have hlength : m - n = m - (n + 1) + 1 := by omega
  rw [hlength, List.range'_succ]

theorem reports_of_le (h : m ≤ n) : chain.reports entries n m = [] := by
  simp [reports, Nat.sub_eq_zero_of_le h]

theorem mem_reportsAt {i : ℕ} {r : Hash × TxWebhookRsp} : r ∈ chain.reportsAt entries n i ↔
    ∃ b, chain.blocks[i]? = some b ∧ r ∈ b.reports (chain.remaining entries n i) := by
  unfold reportsAt
  cases chain.blocks[i]? <;> simp

theorem reports_nil : chain.reports [] n m = [] := by
  refine List.flatMap_eq_nil_iff.mpr fun i _ => List.eq_nil_iff_forall_not_mem.mpr fun r hr => ?_
  obtain ⟨b, -, hr⟩ := chain.mem_reportsAt.mp hr
  simp [Block.reports, extrinsicIndices] at hr

theorem reports_head (hb : chain.blocks[n]? = some b) (h : n < m) :
    chain.reports entries n m =
      b.reports entries ++ chain.reports (b.leaves n entries) (n + 1) m := by
  unfold reports
  rw [heights_head h, List.flatMap_cons, reportsAt, hb, chain.remaining_of_le le_rfl]
  refine congrArg₂ _ rfl (List.flatMap_congr fun i hi => ?_)
  rw [reportsAt, reportsAt,
    chain.remaining_head hb (Nat.lt_of_succ_le (List.mem_range'_1.mp hi).1)]

theorem pendingAt_of_le (h : m ≤ n) : chain.pendingAt entries n m = [] := by
  simp [pendingAt, Nat.sub_eq_zero_of_le h]

theorem pendingAt_nil : chain.pendingAt [] n m = [] := by
  simp [pendingAt]

theorem pendingAt_head (hb : chain.blocks[n]? = some b) (h : n < m) (hpending : entries ≠ []) :
    chain.pendingAt entries n m = n :: chain.pendingAt (b.leaves n entries) (n + 1) m := by
  unfold pendingAt
  rw [heights_head h, List.filter_cons_of_pos]
  · refine congrArg _ (List.filter_congr fun i hi => ?_)
    rw [chain.remaining_head hb (Nat.lt_of_succ_le (List.mem_range'_1.mp hi).1)]
  · rw [chain.remaining_of_le le_rfl]
    exact decide_eq_true hpending

theorem mem_remaining {t : ITxStatus} : t ∈ chain.remaining entries n m ↔ t ∈ entries ∧
    ∀ i < m, n ≤ i → ∀ b, chain.blocks[i]? = some b → ¬b.Takes i t := by
  rw [remaining, List.mem_filter, decide_eq_true_eq]
  rfl

theorem keyed_remaining (hkeyed : (entries.map ITxStatus.txHash).Nodup) :
    ((chain.remaining entries n m).map ITxStatus.txHash).Nodup :=
  hkeyed.sublist (List.filter_sublist.map _)

end Chain

/-! ## When an outcome is told -/

/-- A block tells the outcome `body` of the extrinsic of an entry. -/
def Block.Tells (b : Block) (t : ITxStatus) (body : TxWebhookRsp) : Prop :=
  ∃ txIndex, b.extrinsics[txIndex]? = some t.txHash ∧
    notification t (b.events.filter fun r => r.isOf txIndex) = some body

namespace Block

variable {b : Block} {entries : WatchList} {e : Hash × ℕ} {txHash : Hash} {body : TxWebhookRsp}

theorem report_eq_some {r : Hash × TxWebhookRsp} :
    b.report entries e = some r ↔ ∃ status, entries.hget e.1 = some status ∧
      notification status (b.events.filter fun r => r.isOf e.2) = some r.2 ∧ e.1 = r.1 := by
  simp only [report, Option.bind_eq_bind, Option.bind_eq_some_iff, Option.pure_def,
    Option.some.injEq]
  constructor
  · rintro ⟨status, hstatus, body, hbody, rfl⟩
    exact ⟨status, hstatus, hbody, rfl⟩
  · rintro ⟨status, hstatus, hbody, heq⟩
    exact ⟨status, hstatus, r.2, hbody, by rw [heq]⟩

/-- What a block has to tell is told of the entries. -/
theorem mem_reports (hkeyed : (entries.map ITxStatus.txHash).Nodup) :
    (txHash, body) ∈ b.reports entries ↔
      ∃ t ∈ entries, t.txHash = txHash ∧ b.Tells t body := by
  simp only [reports, List.mem_filterMap, report_eq_some, mem_extrinsicIndices,
    List.mem_zipIdx_iff_getElem?]
  constructor
  · rintro ⟨e, ⟨he, -⟩, t, ht, hbody, rfl⟩
    obtain ⟨hmem, hhash⟩ := WatchList.mem_of_hget ht
    exact ⟨t, hmem, hhash, e.2, hhash ▸ he, hbody⟩
  · rintro ⟨t, ht, rfl, txIndex, he, hbody⟩
    exact ⟨(t.txHash, txIndex), ⟨he, t, ht, rfl⟩, t, WatchList.hget_of_mem hkeyed ht, hbody, rfl⟩

/-- The extrinsics a block tells of are extrinsics of it, in their order. -/
theorem reports_sublist (b : Block) (entries : WatchList) :
    ((b.reports entries).map Prod.fst).Sublist b.extrinsics := by
  have hfirst : ∀ indices : List (Hash × ℕ),
      ((indices.filterMap (b.report entries)).map Prod.fst).Sublist (indices.map Prod.fst) := by
    intro indices
    induction indices with
    | nil => exact List.Sublist.refl []
    | cons e indices ih =>
        rw [List.filterMap_cons]
        cases hreport : b.report entries e with
        | none => exact ih.cons _
        | some r =>
            obtain ⟨_, _, _, heq⟩ := report_eq_some.mp hreport
            rw [List.map_cons, List.map_cons, heq]
            exact ih.cons_cons _
  refine (hfirst _).trans ?_
  conv_rhs => rw [← List.zipIdx_map_fst 0 b.extrinsics]
  exact List.filter_sublist.map _

/-- A block tells of entries only. -/
theorem entry_of_mem_reports {r : Hash × TxWebhookRsp} (hr : r ∈ b.reports entries) :
    ∃ t ∈ entries, t.txHash = r.1 := by
  obtain ⟨e, he, hreport⟩ := List.mem_filterMap.mp hr
  obtain ⟨_, _, _, heq⟩ := report_eq_some.mp hreport
  rw [← heq]
  exact (mem_extrinsicIndices.mp he).2

end Block

namespace Chain

variable {chain : Chain} {entries : WatchList} {n m : ℕ} {txHash : Hash} {body : TxWebhookRsp}

/-- What a block of a chain has to tell. -/
theorem mem_reports_iff {r : Hash × TxWebhookRsp} : r ∈ chain.reports entries n m ↔
    ∃ i b, n ≤ i ∧ i < m ∧ chain.blocks[i]? = some b ∧
      r ∈ b.reports (chain.remaining entries n i) := by
  simp only [reports, List.mem_flatMap, mem_reportsAt, List.mem_range'_1]
  constructor
  · rintro ⟨i, ⟨hle, hlt⟩, b, hb, hr⟩
    exact ⟨i, b, hle, by omega, hb, hr⟩
  · rintro ⟨i, b, hle, hlt, hb, hr⟩
    exact ⟨i, ⟨hle, by omega⟩, b, hb, hr⟩

/-- An outcome is told by the first block that takes the entry off. -/
theorem mem_reports (hkeyed : (entries.map ITxStatus.txHash).Nodup) :
    (txHash, body) ∈ chain.reports entries n m ↔
      ∃ t ∈ entries, t.txHash = txHash ∧ ∃ i b, n ≤ i ∧ i < m ∧ chain.blocks[i]? = some b ∧
        (∀ j < i, n ≤ j → ∀ c, chain.blocks[j]? = some c → ¬c.Takes j t) ∧ b.Tells t body := by
  simp only [mem_reports_iff, Block.mem_reports (chain.keyed_remaining hkeyed), mem_remaining]
  constructor
  · rintro ⟨i, b, hle, hlt, hb, t, ⟨ht, hleft⟩, hhash, htells⟩
    exact ⟨t, ht, hhash, i, b, hle, hlt, hb, hleft, htells⟩
  · rintro ⟨t, ht, hhash, i, b, hle, hlt, hb, hleft, htells⟩
    exact ⟨i, b, hle, hlt, hb, t, ⟨ht, hleft⟩, hhash, htells⟩

/-- No extrinsic is told of twice. -/
theorem reports_nodup (hdistinct : ∀ b ∈ chain.blocks, b.extrinsics.Nodup) :
    ((chain.reports entries n m).map Prod.fst).Nodup := by
  rw [reports, List.map_flatMap, List.nodup_flatMap]
  constructor
  · intro i _
    unfold reportsAt
    cases hb : chain.blocks[i]? with
    | none => exact List.nodup_nil
    | some b =>
        exact (hdistinct b (List.mem_of_getElem? hb)).sublist (b.reports_sublist _)
  · -- what a block tells of, it takes off the list of the blocks after it
    refine (List.pairwise_lt_range' ..).imp_of_mem fun {i j} hi _ hij =>
      List.disjoint_left.mpr fun txHash hfirst hsecond => ?_
    obtain ⟨r, hr, rfl⟩ := List.mem_map.mp hfirst
    obtain ⟨b, hb, hr⟩ := chain.mem_reportsAt.mp hr
    obtain ⟨r', hr', heq⟩ := List.mem_map.mp hsecond
    obtain ⟨c, -, hr'⟩ := chain.mem_reportsAt.mp hr'
    obtain ⟨t, ht, hhash⟩ := Block.entry_of_mem_reports hr'
    refine (chain.mem_remaining.mp ht).2 i hij (List.mem_range'_1.mp hi).1 b hb (.inl ?_)
    rw [hhash, heq]
    exact (b.reports_sublist _).subset (List.mem_map_of_mem hr)

end Chain

/-! ## What the webhook is told -/

namespace Surroundings

variable (around : Surroundings)

/-- The posts the webhook answered. -/
def told (posts : List (Hash × TxWebhookRsp)) : List (Hash × TxWebhookRsp) :=
  (posts.zipIdx.filter fun p => around.accepts p.2).map Prod.fst

/-- The webhook never refuses `healthCheckMaxRetries` posts in a row. -/
def Hears (configService : ConfigService) : Prop :=
  ∀ k : ℕ, ∃ i : ℕ, (i : ℚ) < configService.healthCheckMaxRetries ∧ around.accepts (k + i)

theorem told_concat (posts : List (Hash × TxWebhookRsp)) (post : Hash × TxWebhookRsp) :
    around.told (posts ++ [post]) =
      around.told posts ++ if around.accepts posts.length then [post] else [] := by
  unfold told
  rw [List.zipIdx_append, List.filter_append, List.map_append]
  refine congrArg _ ?_
  by_cases haccepts : around.accepts posts.length <;> simp [haccepts]

end Surroundings

/-- What was done between two states: the webhook was told `reports`, and the
counters were written. -/
structure Told (around : Surroundings) (reports : List (Hash × TxWebhookRsp))
    (w w' : ScanState) : Prop where
  watchList : w'.watchList = w.watchList
  lastSeen : w'.lastSeen = w.lastSeen
  scanInProgress : w'.scanInProgress = w.scanInProgress
  told : around.told w'.posts = around.told w.posts ++ reports

namespace Told

variable {around : Surroundings} {reports reports' : List (Hash × TxWebhookRsp)}
  {w w' w'' : ScanState}

theorem refl (w : ScanState) : Told around [] w w := ⟨rfl, rfl, rfl, (List.append_nil _).symm⟩

theorem trans (h : Told around reports w w') (h' : Told around reports' w' w'') :
    Told around (reports ++ reports') w w'' where
  watchList := h'.watchList.trans h.watchList
  lastSeen := h'.lastSeen.trans h.lastSeen
  scanInProgress := h'.scanInProgress.trans h.scanInProgress
  told := by rw [h'.told, h.told, List.append_assoc]

end Told

section Pass

variable {around : Surroundings} {configService : ConfigService} {registry : Registry}

/-- **The notification loop tells the webhook once**: it posts again until the
webhook answers. -/
private theorem postRounds_told (txHash : Hash) (webhook : String) (body : TxWebhookRsp)
    (left : ℕ) : ∀ w : ScanState, (∃ i < left, around.accepts (w.posts.length + i)) →
      ∃ w', (TxnNotifierService.postRounds txHash webhook body left).exec around.machine w =
          (.returned (), w') ∧ Told around [(txHash, body)] w w' := by
  induction left with
  | zero => rintro w ⟨i, hi, -⟩; exact absurd hi (Nat.not_lt_zero i)
  | succ left ih =>
      rintro w ⟨i, hi, hanswer⟩
      have hposted := around.told_concat w.posts (txHash, body)
      by_cases haccepts : around.accepts w.posts.length
      · refine ⟨{ w with posts := w.posts ++ [(txHash, body)] }, ?_, rfl, rfl, rfl, ?_⟩
        · simp [TxnNotifierService.postRounds, haccepts, Surroundings.answer]
        · rw [hposted, if_pos haccepts]
      · -- the post is refused, so the webhook answers one of those that follow
        obtain ⟨j, rfl⟩ : ∃ j, i = j + 1 := by
          cases i with
          | zero => exact absurd hanswer haccepts
          | succ j => exact ⟨j, rfl⟩
        obtain ⟨w', hexec, htold⟩ := ih { w with posts := w.posts ++ [(txHash, body)] }
          ⟨j, Nat.lt_of_succ_lt_succ hi, by
            simpa [Nat.add_assoc, Nat.add_comm 1 j] using hanswer⟩
        refine ⟨w', ?_, htold.watchList, htold.lastSeen, htold.scanInProgress, ?_⟩
        · simpa [TxnNotifierService.postRounds, haccepts, Surroundings.answer] using hexec
        · rw [htold.told, hposted, if_neg haccepts, List.append_nil]

/-- An extrinsic of a block is dealt with by telling what is to be told. -/
private theorem processExtrinsic_told (hhears : around.Hears configService) {b : Block}
    {e : Hash × ℕ} {events : List EventRecord} {w : ScanState}
    (hevents : (events.filter fun r => r.isOf e.2) = b.events.filter fun r => r.isOf e.2)
    (hwatched : ∃ t ∈ w.watchList, t.txHash = e.1) (hdec : Decodable registry events e.2) :
    ∃ w', (TxnNotifierService.processExtrinsic configService registry events e.1 e.2).exec
        around.machine w = (.returned (), w') ∧
      Told around (b.report w.watchList e).toList w w' := by
  obtain ⟨txStatus, hstatus⟩ := WatchList.hget_isSome hwatched
  have hreport : b.report w.watchList e =
      (notification txStatus (events.filter fun r => r.isOf e.2)).map fun body => (e.1, body) := by
    rw [Block.report, hstatus, ← hevents, Option.bind_eq_bind, Option.bind_some]
    cases notification txStatus (events.filter fun r => r.isOf e.2) <;> rfl
  simp only [TxnNotifierService.processExtrinsic, Prog.bind_eq, Prog.exec_bind, exec_call,
    machine_answer, Surroundings.answer, Fate.seen_done, hstatus, hreport, notification]
  cases hfail : (events.filter fun r => r.isOf e.2).findSome? fun r => r.event.failure with
  | some dispatchError =>
      obtain ⟨moduleError, hmodule, name, hname⟩ := hdec dispatchError hfail
      simp only [hmodule, hname]
      exact ⟨w, rfl, Told.refl w⟩
  | none =>
      cases (events.filter fun r => r.isOf e.2).find? fun r =>
          r.event.name = txStatus.successEvent with
      | none => exact ⟨w, rfl, Told.refl w⟩
      | some successEvent =>
          obtain ⟨i, hi, haccepts⟩ := hhears w.posts.length
          exact postRounds_told _ _ _ _ w ⟨i, Nat.lt_ceil.mpr hi, haccepts⟩

/-- The watched extrinsics of a block, one after the other. -/
private theorem processExtrinsics_told (hhears : around.Hears configService) {b : Block}
    {entries : WatchList} {events : List EventRecord} :
    ∀ (indices : List (Hash × ℕ)) (pipeline : List Hash) (w : ScanState), w.watchList = entries →
      (∀ e ∈ indices, (events.filter fun r => r.isOf e.2) = b.events.filter fun r => r.isOf e.2) →
      (∀ e ∈ indices, ∃ t ∈ entries, t.txHash = e.1) →
      (∀ e ∈ indices, Decodable registry events e.2) → ∃ w',
        (TxnNotifierService.processExtrinsics configService registry events indices pipeline).exec
          around.machine w = (.returned (pipeline ++ indices.map Prod.fst), w') ∧
        Told around (indices.filterMap (b.report entries)) w w' := by
  intro indices
  induction indices with
  | nil =>
      intro pipeline w _ _ _ _
      exact ⟨w, by simp [TxnNotifierService.processExtrinsics], Told.refl w⟩
  | cons e indices ih =>
      rintro pipeline w rfl hevents hwatched hdec
      rw [List.forall_mem_cons] at hevents hwatched hdec
      obtain ⟨w', hexec, htold⟩ := processExtrinsic_told hhears hevents.1 hwatched.1 hdec.1
      obtain ⟨w'', hrest, htold'⟩ := ih (pipeline ++ [e.1]) w' htold.watchList hevents.2
        hwatched.2 hdec.2
      refine ⟨w'', ?_, ?_⟩
      · simp only [TxnNotifierService.processExtrinsics, List.foldlM_cons, Prog.bind_eq,
          Prog.exec_bind] at hrest ⊢
        simpa [hexec] using hrest
      · have hcons : (e :: indices).filterMap (b.report w.watchList) =
            (b.report w.watchList e).toList ++ indices.filterMap (b.report w.watchList) := by
          rw [List.filterMap_cons]
          cases b.report w.watchList e <;> rfl
        rw [hcons]
        exact htold.trans htold'

/-- The pass over a digestible block tells what the block has to tell, and leaves
the entries the block leaves. -/
private theorem processCurrentBlock_told (hhears : around.Hears configService) {n : ℕ} {b : Block}
    {w : ScanState} (hfind : around.chain.find b.hash = some b)
    (hkeyed : (w.watchList.map ITxStatus.txHash).Nodup)
    (hdig : Digestible registry w.watchList b) :
    ∃ w', (TxnNotifierService.processCurrentBlock configService registry b.hash n).exec
        around.machine w = (.returned (), { w' with watchList := b.leaves n w.watchList }) ∧
      Told around (b.reports w.watchList) w w' := by
  have hpipeline : w.watchList.hdel ((extrinsicIndices w.watchList b.extrinsics).map Prod.fst ++
      expiredTxns w.watchList n) = b.leaves n w.watchList :=
    List.filter_congr fun t ht =>
      decide_eq_decide.mpr (not_congr (mem_pipeline_iff hkeyed b.extrinsics n ht))
  by_cases hnone : extrinsicIndices w.watchList b.extrinsics = []
  · refine ⟨w, ?_, ?_⟩
    · rw [← hpipeline]
      simp [TxnNotifierService.processCurrentBlock, hfind, hnone, Surroundings.answer]
    · rw [Block.reports, hnone]
      exact Told.refl w
  · obtain ⟨indices, hindices⟩ :
        ∃ indices, extrinsicIndices w.watchList b.extrinsics = indices := ⟨_, rfl⟩
    have hdec : ∀ e ∈ indices, Decodable registry (watchedEvents indices b.events) e.2 :=
      fun e he => (decodable_watched he b.events).mpr (hdig e (hindices ▸ he))
    obtain ⟨w', hexec, htold⟩ := processExtrinsics_told hhears indices [] w rfl
      (fun e he => watchedEvents_filter he b.events)
      (fun e he => extrinsicIndices_watched (hindices ▸ he)) hdec
    obtain ⟨capacity, hcapacity⟩ := setEpochCapacity_exec (w := w') around b.epoch
      (totalCapacityWithdrawn (watchedEvents indices b.events))
    refine ⟨{ w' with epochCapacity := capacity }, ?_, htold.watchList, htold.lastSeen,
      htold.scanInProgress, ?_⟩
    · rw [← hpipeline, hindices]
      rw [hindices] at hnone
      simp [TxnNotifierService.processCurrentBlock, TxnNotifierService.processFound, hfind,
        hindices, hnone, hexec, hcapacity, htold.watchList, Surroundings.answer]
    · rw [Block.reports, hindices]
      exact htold.told

end Pass

/-! ## Up to where a scan goes -/

section Scan

variable (around : Surroundings) (configService : ConfigService) (registry : Registry)

/-- The first height a scan does not go to: the one after the last block, or
after the finalised one if only finalised blocks are scanned. -/
def Surroundings.horizon : ℕ :=
  if (TxnNotifierService.scanParameters configService).onlyFinalized = some true then
    min around.chain.blocks.length (around.finalized + 1)
  else around.chain.blocks.length

/-- No block from `n` on names an error that the registry does not know, of an
extrinsic that the blocks before it have left. -/
def AllDigestible (n : ℕ) (entries : WatchList) : Prop :=
  ∀ m b, n ≤ m → m < around.horizon configService → around.chain.blocks[m]? = some b →
    Digestible registry (around.chain.remaining entries n m) b

/-- What a scan that began with block `n` has achieved. -/
structure CaughtUp (n : ℕ) (w w' : ScanState) : Prop where
  watchList : w'.watchList =
    around.chain.remaining w.watchList n (around.horizon configService)
  told : around.told w'.posts =
    around.told w.posts ++ around.chain.reports w.watchList n (around.horizon configService)
  lastSeen : w'.lastSeen =
    (around.chain.pendingAt w.watchList n (around.horizon configService)).getLast?.or w.lastSeen
  scanInProgress : w'.scanInProgress = w.scanInProgress

variable {around configService registry} {n : ℕ} {b : Block} {entries : WatchList}
  {w w' w'' : ScanState}

theorem Surroundings.lt_horizon :
    n < around.horizon configService ↔ n < around.chain.blocks.length ∧
      ((TxnNotifierService.scanParameters configService).onlyFinalized = some true →
        n ≤ around.finalized) := by
  unfold Surroundings.horizon
  split
  · next honly =>
      rw [lt_min_iff]
      exact and_congr_right fun _ =>
        ⟨fun h _ => Nat.le_of_lt_succ h, fun h => Nat.lt_succ_of_le (h honly)⟩
  · next honly => simp [honly]

theorem Surroundings.exists_of_lt_horizon (h : n < around.horizon configService) :
    ∃ b, around.chain.blocks[n]? = some b :=
  ⟨_, List.getElem?_eq_getElem (Surroundings.lt_horizon.mp h).1⟩

/-- The first block is digestible, and so are the others for what it leaves. -/
theorem allDigestible_head (hb : around.chain.blocks[n]? = some b)
    (hn : n < around.horizon configService) :
    AllDigestible around configService registry n entries ↔
      Digestible registry entries b ∧
        AllDigestible around configService registry (n + 1) (b.leaves n entries) := by
  constructor
  · intro h
    have hfirst := h n b le_rfl hn hb
    rw [around.chain.remaining_of_le le_rfl] at hfirst
    refine ⟨hfirst, fun m c hm hlt hc => ?_⟩
    rw [← around.chain.remaining_head hb (Nat.lt_of_succ_le hm)]
    exact h m c (Nat.le_of_succ_le hm) hlt hc
  · rintro ⟨hfirst, hrest⟩ m c hm hlt hc
    rcases Nat.eq_or_lt_of_le hm with rfl | hm
    · cases hb.symm.trans hc
      rwa [around.chain.remaining_of_le le_rfl]
    · rw [around.chain.remaining_head hb hm]
      exact hrest m c hm hlt hc

/-- Where nothing is pending, or there is no block to go to, there is nothing to
digest. -/
theorem allDigestible_of_halt (h : ¬(entries ≠ [] ∧ n < around.horizon configService)) :
    AllDigestible around configService registry n entries := by
  intro m b hm hlt _
  have hempty : entries = [] := by
    by_contra hne
    exact h ⟨hne, hm.trans_lt hlt⟩
  rw [hempty, around.chain.remaining_nil]
  simp [Digestible, extrinsicIndices]

namespace CaughtUp

theorem of_halt (h : ¬(w.watchList ≠ [] ∧ n < around.horizon configService)) :
    CaughtUp around configService n w w := by
  by_cases hempty : w.watchList = []
  · exact ⟨by rw [hempty, around.chain.remaining_nil],
      by rw [hempty, around.chain.reports_nil, List.append_nil],
      by rw [hempty, around.chain.pendingAt_nil]; rfl, rfl⟩
  · have hle : around.horizon configService ≤ n := Nat.le_of_not_lt fun hlt => h ⟨hempty, hlt⟩
    exact ⟨(around.chain.remaining_of_le hle).symm,
      by rw [around.chain.reports_of_le hle, List.append_nil],
      by rw [around.chain.pendingAt_of_le hle]; rfl, rfl⟩

/-- A block is passed and stored, and the scan goes on after it. -/
theorem head (hb : around.chain.blocks[n]? = some b) (hn : n < around.horizon configService)
    (hpending : w.watchList ≠ []) (htold : Told around (b.reports w.watchList) w w')
    (h : CaughtUp around configService (n + 1)
      { w' with watchList := b.leaves n w.watchList, lastSeen := some n } w'') :
    CaughtUp around configService n w w'' where
  watchList := by rw [h.watchList, around.chain.remaining_head hb hn]
  told := by
    rw [h.told, around.chain.reports_head hb hn, ← List.append_assoc, ← htold.told]
  lastSeen := by
    rw [h.lastSeen, around.chain.pendingAt_head hb hn hpending, List.getLast?_cons, Option.some_or]
    exact Option.or_some
  scanInProgress := h.scanInProgress.trans htold.scanInProgress

end CaughtUp

/-! ## The scan -/

/-- The check ends a scan where nothing is pending, or there is no block to go
to. -/
private theorem checkScanParameters_halts
    (h : ¬(w.watchList ≠ [] ∧ n < around.horizon configService)) :
    ∃ e, BlockchainScannerService.scanCatch e = pure () ∧
      (TxnNotifierService.checkScanParameters configService n (around.chain.hashAt n)).exec
        around.machine w = (.threw e, w) := by
  by_cases hempty : w.watchList = []
  · exact ⟨.nullScan _, rfl, by
      simp [TxnNotifierService.checkScanParameters, hempty, Surroundings.answer]; rfl⟩
  by_cases hlength : around.chain.blocks.length ≤ n
  · have hhash : around.chain.hashAt n = 0 := by
      rw [Chain.hashAt, List.getElem?_eq_none hlength]
      rfl
    exact ⟨.endOfChain _, rfl, by
      simp [TxnNotifierService.checkScanParameters,
        BlockchainScannerService.baseCheckScanParameters, BlockHash.isEmpty, hempty, hhash,
        Surroundings.answer]; rfl⟩
  · obtain ⟨honly, hlate⟩ : (TxnNotifierService.scanParameters configService).onlyFinalized =
        some true ∧ around.finalized < n := by
      rw [Surroundings.lt_horizon] at h
      simpa [hempty, Nat.lt_of_not_le hlength] using h
    have hhash : around.chain.hashAt n ≠ 0 :=
      around.chain.hashAt_ne_zero (List.getElem?_eq_getElem (Nat.lt_of_not_le hlength))
    exact ⟨.endOfChain _, rfl, by
      simp [TxnNotifierService.checkScanParameters,
        BlockchainScannerService.baseCheckScanParameters, BlockHash.isEmpty, hempty, hhash, honly,
        hlate, Surroundings.answer]; rfl⟩

/-- A loop that is unrolled often enough has caught up when it ends, if
everything is digestible.  It never returns: what ends it is caught. -/
private theorem scanFrom_caughtUp (hhears : around.Hears configService) (fuel : ℕ) :
    ∀ (n : ℕ) (w : ScanState), n ≤ around.chain.blocks.length →
      around.chain.blocks.length < n + fuel → (w.watchList.map ITxStatus.txHash).Nodup →
      AllDigestible around configService registry n w.watchList → ∃ e w',
        BlockchainScannerService.scanCatch e = pure () ∧
          ((TxnNotifierService.scanner configService registry).scanFrom fuel n
            (around.chain.hashAt n)).exec around.machine w = (.threw e, w') ∧
          CaughtUp around configService n w w' := by
  induction fuel with
  | zero => intro n w hn hfuel; exact absurd hn (Nat.not_le.mpr hfuel)
  | succ fuel ih =>
      intro n w hn hfuel hkeyed hdig
      by_cases hgo : w.watchList ≠ [] ∧ n < around.horizon configService
      · obtain ⟨b, hb⟩ := Surroundings.exists_of_lt_horizon hgo.2
        have hdue : Due around configService w n :=
          ⟨hgo.1, (Surroundings.lt_horizon.mp hgo.2).2⟩
        obtain ⟨hfirst, hrest⟩ := (allDigestible_head hb hgo.2).mp hdig
        obtain ⟨w', hpass, htold⟩ := processCurrentBlock_told hhears (n := n)
          (around.chain.find_hash hb) hkeyed hfirst
        -- the block is stored, and the loop goes on with the entries it leaves
        obtain ⟨e, w'', hcaught, hexec, hup⟩ := ih (n + 1)
          { w' with watchList := b.leaves n w.watchList, lastSeen := some n }
          (Surroundings.lt_horizon.mp hgo.2).1 (by omega)
          (hkeyed.sublist (List.filter_sublist.map _)) hrest
        refine ⟨e, w'', hcaught, ?_, CaughtUp.head hb hgo.2 hgo.1 htold hup⟩
        rw [scanFrom_exec around configService registry hb hdue, hpass]
        exact hexec
      · obtain ⟨e, hcaught, hcheck⟩ := checkScanParameters_halts hgo
        refine ⟨e, w, hcaught, ?_, CaughtUp.of_halt hgo⟩
        rw [BlockchainScannerService.scanFrom, Prog.bind_eq, Prog.exec_bind]
        simp only [TxnNotifierService.scanner]
        rw [hcheck]

/-- A loop that comes to an indigestible block throws an error there. -/
private theorem scanFrom_stuck (hhears : around.Hears configService) (fuel : ℕ) :
    ∀ (n : ℕ) (w : ScanState), n ≤ around.chain.blocks.length →
      around.chain.blocks.length < n + fuel → (w.watchList.map ITxStatus.txHash).Nodup →
      ¬AllDigestible around configService registry n w.watchList → ∃ message w',
        ((TxnNotifierService.scanner configService registry).scanFrom fuel n
          (around.chain.hashAt n)).exec around.machine w = (.threw (.error message), w') := by
  induction fuel with
  | zero => intro n w hn hfuel; exact absurd hn (Nat.not_le.mpr hfuel)
  | succ fuel ih =>
      intro n w hn hfuel hkeyed hdig
      have hgo : w.watchList ≠ [] ∧ n < around.horizon configService := by
        by_contra hhalt
        exact hdig (allDigestible_of_halt hhalt)
      obtain ⟨b, hb⟩ := Surroundings.exists_of_lt_horizon hgo.2
      have hdue : Due around configService w n := ⟨hgo.1, (Surroundings.lt_horizon.mp hgo.2).2⟩
      rw [scanFrom_exec around configService registry hb hdue]
      by_cases hfirst : Digestible registry w.watchList b
      · obtain ⟨w', hpass, -⟩ := processCurrentBlock_told hhears (n := n)
          (around.chain.find_hash hb) hkeyed hfirst
        rw [hpass]
        exact ih (n + 1) _ (Surroundings.lt_horizon.mp hgo.2).1 (by omega)
          (hkeyed.sublist (List.filter_sublist.map _))
          fun hrest => hdig ((allDigestible_head hb hgo.2).mpr ⟨hfirst, hrest⟩)
      · obtain ⟨message, posts, hpass⟩ := processCurrentBlock_exec_error around configService
          (n := n) (around.chain.find_hash hb) hfirst
        rw [hpass]
        exact ⟨message, _, rfl⟩

/-- A scan that finds nothing pending, or no block, returns and changes nothing. -/
private theorem scan_idle (hstarts : Starts w n)
    (hidle : w.watchList = [] ∨ around.chain.blocks.length ≤ n) (fuel : ℕ) :
    (TxnNotifierService.scan configService registry fuel).exec around.machine w =
      (.returned (), w) := by
  obtain ⟨watchList, lastSeen, epochCapacity, posts, scanInProgress⟩ := w
  obtain ⟨rfl, hn⟩ : scanInProgress = false ∧ _ := hstarts
  by_cases hempty : watchList = []
  · simp [TxnNotifierService.scan, BlockchainScannerService.scan,
      BlockchainScannerService.scanBody, TxnNotifierService.scanner,
      TxnNotifierService.checkInitialScanParameters, BlockchainScannerService.scanCatch,
      Surroundings.answer, hempty]
  · have hhash : around.chain.hashAt n = 0 := by
      rw [Chain.hashAt, List.getElem?_eq_none (hidle.resolve_left hempty)]
      rfl
    simp [TxnNotifierService.scan, BlockchainScannerService.scan,
      BlockchainScannerService.scanBody, TxnNotifierService.scanner,
      TxnNotifierService.checkInitialScanParameters, TxnNotifierService.getLastSeenBlockNumber,
      BlockchainScannerService.baseLastSeenBlockNumber, Surroundings.answer, BlockHash.isEmpty,
      hempty, hn, hhash]

/-- A scan that has digestible blocks before it returns and has caught up. -/
private theorem scan_caughtUp (hstarts : Starts w n)
    (hkeyed : (w.watchList.map ITxStatus.txHash).Nodup) (hhears : around.Hears configService)
    (fuel : ℕ) (hfuel : around.chain.blocks.length < n + fuel)
    (hdig : AllDigestible around configService registry n w.watchList) : ∃ w',
      (TxnNotifierService.scan configService registry fuel).exec around.machine w =
          (.returned (), w') ∧ CaughtUp around configService n w w' := by
  by_cases hidle : w.watchList = [] ∨ around.chain.blocks.length ≤ n
  · refine ⟨w, scan_idle hstarts hidle fuel, CaughtUp.of_halt ?_⟩
    rintro ⟨hne, hlt⟩
    exact hidle.elim hne (Nat.not_le.mpr (Surroundings.lt_horizon.mp hlt).1)
  · rw [not_or, Nat.not_le] at hidle
    obtain ⟨e, w', hcaught, hexec, hup⟩ := scanFrom_caughtUp hhears fuel n
      { w with scanInProgress := true } hidle.2.le hfuel hkeyed hdig
    refine ⟨{ w' with scanInProgress := false }, ?_, hup.watchList, hup.told, hup.lastSeen,
      hstarts.1.symm⟩
    rw [scan_exec_pending around configService registry (List.getElem?_eq_getElem hidle.2) hidle.1
      hstarts, Prog.exec_tryFinally, Prog.exec_tryCatch, hexec]
    simp [hcaught]

/-- A scan that has an indigestible block before it throws. -/
private theorem scan_stuck (hstarts : Starts w n)
    (hkeyed : (w.watchList.map ITxStatus.txHash).Nodup) (hhears : around.Hears configService)
    (fuel : ℕ) (hfuel : around.chain.blocks.length < n + fuel)
    (hdig : ¬AllDigestible around configService registry n w.watchList) : ∃ message w',
      (TxnNotifierService.scan configService registry fuel).exec around.machine w =
          (.threw (.error message), w') := by
  obtain ⟨hpending, hlt⟩ : w.watchList ≠ [] ∧ n < around.horizon configService := by
    by_contra hhalt
    exact hdig (allDigestible_of_halt hhalt)
  have hlength := (Surroundings.lt_horizon.mp hlt).1
  obtain ⟨message, w', hexec⟩ := scanFrom_stuck hhears fuel n
    { w with scanInProgress := true } hlength.le hfuel hkeyed hdig
  refine ⟨message, { w' with scanInProgress := false }, ?_⟩
  rw [scan_exec_pending around configService registry (List.getElem?_eq_getElem hlength) hpending
    hstarts, Prog.exec_tryFinally, Prog.exec_tryCatch, hexec]
  simp [BlockchainScannerService.scanCatch]

/-- **A scan catches up exactly if every block on its way is digestible**: it
returns then, with the entries the blocks leave, the outcomes told in the order
of the chain and the last block it came to with entries pending stored;
otherwise it throws. -/
theorem scan_catchesUp (hstarts : Starts w n) (hkeyed : (w.watchList.map ITxStatus.txHash).Nodup)
    (hhears : around.Hears configService) (fuel : ℕ)
    (hfuel : around.chain.blocks.length < n + fuel) :
    (AllDigestible around configService registry n w.watchList → ∃ w',
      (TxnNotifierService.scan configService registry fuel).exec around.machine w =
          (.returned (), w') ∧ CaughtUp around configService n w w') ∧
    (¬AllDigestible around configService registry n w.watchList → ∃ message w',
      (TxnNotifierService.scan configService registry fuel).exec around.machine w =
          (.threw (.error message), w')) :=
  ⟨scan_caughtUp hstarts hkeyed hhears fuel hfuel, scan_stuck hstarts hkeyed hhears fuel hfuel⟩

/-- **Every outcome is told once**: what a scan tells the webhook is the outcome
of each extrinsic that a block on its way includes while its entry is still
there, and of none twice. -/
theorem scan_tells_once (hstarts : Starts w n)
    (hkeyed : (w.watchList.map ITxStatus.txHash).Nodup) (hhears : around.Hears configService)
    (hdistinct : ∀ b ∈ around.chain.blocks, b.extrinsics.Nodup) (fuel : ℕ)
    (hfuel : around.chain.blocks.length < n + fuel)
    (hdig : AllDigestible around configService registry n w.watchList) : ∃ w' reports,
      (TxnNotifierService.scan configService registry fuel).exec around.machine w =
          (.returned (), w') ∧
        around.told w'.posts = around.told w.posts ++ reports ∧
        (reports.map Prod.fst).Nodup ∧
        ∀ txHash body, (txHash, body) ∈ reports ↔ ∃ t ∈ w.watchList, t.txHash = txHash ∧
          ∃ m b, n ≤ m ∧ m < around.horizon configService ∧ around.chain.blocks[m]? = some b ∧
            (∀ i < m, n ≤ i → ∀ c, around.chain.blocks[i]? = some c → ¬c.Takes i t) ∧
            b.Tells t body := by
  obtain ⟨w', hexec, hup⟩ := scan_caughtUp hstarts hkeyed hhears fuel hfuel hdig
  exact ⟨w', _, hexec, hup.told, Chain.reports_nodup hdistinct,
    fun _ _ => Chain.mem_reports hkeyed⟩

end Scan

/-! ## A scan that meets all cases -/

/-- The webhook answers every other post, and is posted to twice. -/
def secondAttempt : ConfigService :=
  { ConfigService.amountLimit 1 with
    trustUnfinalizedBlocks := true
    healthCheckMaxRetries := 2
    retries_nonneg := by norm_num }

/-- The event of a claimed handle. -/
def claimed : EventRecord := ⟨.applyExtrinsic 0, .handleClaimed 4 []⟩

/-- A chain of which all but the last block are finalised.  Of the two watched
extrinsics of block `1`, the first claims its handle and the second fails. -/
def twoOutcomes : Surroundings where
  chain :=
    { blocks := [⟨10, 0, [], []⟩,
        ⟨11, 1, [7, 8], [claimed, ⟨.applyExtrinsic 1, .extrinsicFailed (.module 1 2)⟩]⟩,
        ⟨12, 1, [], []⟩, ⟨13, 1, [9], [claimed]⟩]
      nonempty := by decide
      distinct := by decide }
  finalized := 2
  epochLength := 100
  accepts k := k % 2 = 1

/-- Four entries, one of which expires with block `2`. -/
def fourPending : ScanState :=
  ⟨[handleStatus 7, handleStatus 8, handleStatus 9, { handleStatus 5 with death := 2 }], none,
    fun _ => none, [], false⟩

private theorem twoOutcomes_hears : twoOutcomes.Hears secondAttempt := by
  intro k
  refine ⟨(k + 1) % 2, ?_, ?_⟩
  · show (((k + 1) % 2 : ℕ) : ℚ) < 2
    exact_mod_cast Nat.mod_lt _ Nat.two_pos
  · show decide ((k + (k + 1) % 2) % 2 = 1) = true
    exact decide_eq_true (by omega)

private theorem twoOutcomes_digestible :
    AllDigestible twoOutcomes secondAttempt fullRegistry 1 fourPending.watchList := by
  refine (allDigestible_head (b := ⟨11, 1, [7, 8], _⟩) rfl (by decide)).mpr ⟨?_, ?_⟩
  · intro e he dispatchError hfail
    have hindices : extrinsicIndices fourPending.watchList [7, 8] = [(7, 0), (8, 1)] := by decide
    rw [hindices] at he
    rcases List.mem_pair.mp he with rfl | rfl
    · cases hfail
    · obtain rfl : .module 1 2 = dispatchError := Option.some.inj hfail
      exact ⟨(1, 2), rfl, "error", rfl⟩
  · refine (allDigestible_head (b := ⟨12, 1, [], []⟩) rfl (by decide)).mpr ⟨?_, ?_⟩
    · intro e he
      cases he
    · exact allDigestible_of_halt fun h => absurd h.2 (by decide)

theorem scan_catchesUp_twoOutcomes : ∃ w',
    (TxnNotifierService.scan secondAttempt fullRegistry 4).exec twoOutcomes.machine fourPending =
        (.returned (), w') ∧
      w'.watchList = [handleStatus 9] ∧
      twoOutcomes.told w'.posts =
        [(7, webhookResponse (handleStatus 7) [claimed] claimed.event)] ∧
      w'.lastSeen = some 2 := by
  obtain ⟨w', hexec, hup⟩ := (scan_catchesUp (n := 1) ⟨rfl, by decide⟩ (by decide)
    twoOutcomes_hears 4 (by decide)).1 twoOutcomes_digestible
  exact ⟨w', hexec, hup.watchList.trans (by decide), hup.told.trans (by decide),
    hup.lastSeen.trans (by decide)⟩

/-- Where the first block takes all that is pending, the scan stops there. -/
example : twoOutcomes.chain.pendingAt [handleStatus 7, handleStatus 8] 1 3 = [1] := by decide

theorem scan_tells_once_twoOutcomes : ∃ w',
    (TxnNotifierService.scan secondAttempt fullRegistry 4).exec twoOutcomes.machine fourPending =
        (.returned (), w') ∧
      (7, webhookResponse (handleStatus 7) [claimed] claimed.event) ∈
        twoOutcomes.told w'.posts := by
  obtain ⟨w', reports, hexec, htold, -, hmem⟩ := scan_tells_once (n := 1) ⟨rfl, by decide⟩
    (by decide) twoOutcomes_hears (by decide) 4 (by decide) twoOutcomes_digestible
  refine ⟨w', hexec, ?_⟩
  rw [htold]
  exact List.mem_append_right _ ((hmem 7 _).mpr ⟨handleStatus 7, by decide, rfl, 1, _, le_rfl,
    by decide, rfl, fun i hi hn => absurd hn (Nat.not_le.mpr hi), 0, rfl, rfl⟩)

end AccountService
