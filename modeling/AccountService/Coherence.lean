import AccountService.Inclusion

/-!
# What the notifier rests on

What holds of a scan in every state of the service, whatever fails: the heights
and hashes it works with are those of blocks that exist, a pass has read what
the chain holds of its block, the entries it read are still on the watch list,
and an extrinsic is named by at most one of the places it can be tracked in: a
job that has not written its entry yet, the outbox, the watch list, and the
passes that have removed it.
-/

namespace AccountService

open Async

/-! ## The heights of a scan -/

/-- The block at a height has a hash. -/
def Chain.HasHash (chain : Chain) (n : ℕ) (h : BlockHash) : Prop :=
  ∃ b, chain.blocks[n]? = some b ∧ b.hash = h

namespace Chain

variable {chain : Chain} {b : Block} {n : ℕ} {h : BlockHash}

theorem HasHash.lt (hhash : chain.HasHash n h) : n < chain.blocks.length := by
  obtain ⟨b, hb, -⟩ := hhash
  exact (List.getElem?_eq_some_iff.mp hb).1

theorem HasHash.push (hhash : chain.HasHash n h) (hb : b.hash ≠ 0)
    (hnew : b.hash ∉ chain.blocks.map Block.hash) : (chain.push b hb hnew).HasHash n h := by
  obtain ⟨b', hb', heq⟩ := hhash
  exact ⟨b', push_get hb', heq⟩

/-- The hash the node gives for a height is empty or that of a block. -/
theorem hasHash_hashAt (hne : chain.hashAt n ≠ 0) : chain.HasHash n (chain.hashAt n) := by
  unfold hashAt at hne ⊢
  cases hb : chain.blocks[n]? with
  | none => simp [hb] at hne
  | some b => exact ⟨b, hb, by simp⟩

end Chain

namespace NotifierPhase

/-- The heights and hashes a method works with are those of blocks that exist. -/
def Placed (chain : Chain) (lastSeen : Option ℕ) : NotifierPhase → Prop
  | headed b => b ≤ chain.best
  | seen b => b = lastSeen.getD 0
  | next n => n ≤ chain.blocks.length
  | reached n h => n ≤ chain.blocks.length ∧ (h ≠ 0 → chain.HasHash n h)
  | confirming n h | halted n h | checked n h => chain.HasHash n h
  | opened p | located p | dated p | notifying p _ | booking p _ | closing p _ =>
      chain.HasHash p.height p.hash
  | passed n => n < chain.blocks.length
  | _ => True

variable {s : NotifierPhase} {chain : Chain} {lastSeen : Option ℕ}

/-- A longer chain has the blocks it had. -/
theorem Placed.push {finalized : ℕ} {accepted : List Accepted} (h : s.Placed chain lastSeen)
    (hinclusions : Inclusions chain finalized accepted) {b : Block} (hb : b.hash ≠ 0)
    (hnew : b.hash ∉ chain.blocks.map Block.hash) : s.Placed (chain.push b hb hnew) lastSeen := by
  have hlength := hinclusions.length_eq
  have hlonger : (chain.push b hb hnew).blocks.length = chain.blocks.length + 1 :=
    List.length_append
  cases s with
  | headed b =>
      show b ≤ (chain.push _ hb hnew).best
      have hle : b ≤ chain.best := h
      rw [Chain.best_push]
      omega
  | next n =>
      have hle : n ≤ chain.blocks.length := h
      show n ≤ _
      omega
  | passed n =>
      have hlt : n < chain.blocks.length := h
      show n < _
      omega
  | reached n hash =>
      refine ⟨?_, fun hne => (h.2 hne).push hb hnew⟩
      have hle := h.1
      omega
  | confirming n hash => exact Chain.HasHash.push h hb hnew
  | halted n hash => exact Chain.HasHash.push h hb hnew
  | checked n hash => exact Chain.HasHash.push h hb hnew
  | opened p => exact Chain.HasHash.push h hb hnew
  | located p => exact Chain.HasHash.push h hb hnew
  | dated p => exact Chain.HasHash.push h hb hnew
  | notifying p todo => exact Chain.HasHash.push h hb hnew
  | booking p saved => exact Chain.HasHash.push h hb hnew
  | closing p booked => exact Chain.HasHash.push h hb hnew
  | _ => exact h

/-- The block of a pass exists. -/
theorem Placed.pass {p : Pass} (h : s.Placed chain lastSeen) (hp : s.pass = some p) :
    chain.HasHash p.height p.hash := by
  cases s with
  | opened _ | located _ | dated _ | notifying _ _ | booking _ _ | closing _ _ =>
      rw [← Option.some.inj hp]
      exact h
  | _ => cases hp

end NotifierPhase

/-- The last seen block exists, and so do the blocks a scan works with. -/
structure Bearings (w : ServiceWorld) : Prop where
  lastSeen : w.lastSeen.getD 0 ≤ w.chain.best
  phase : w.notifier.Placed w.chain w.lastSeen

namespace Bearings

variable {configService : ConfigService} {w : ServiceWorld} {c : Call} {cost : ℕ}
  {f : Fate Err c.Reply}

/-- **The blocks a scan goes on with exist.** -/
private theorem step (h : Bearings w) (hinclusions : Inclusions w.chain w.finalized w.accepted)
    (htimeliness : Timeliness w) {s' : NotifierPhase}
    (hstep : NotifierStep configService w.notifier c f s')
    (hreplies : ∀ reply, f.effect = some reply → w.Replies c reply) :
    s'.Placed w.chain (w.carryOut cost c f.effect).lastSeen := by
  have hphase := h.phase
  have hlength := hinclusions.length_eq
  generalize w.notifier = s at hstep hphase
  cases hstep with
  | finalizedHead b =>
      obtain ⟨⟨pick, hreply⟩, -⟩ := hreplies b rfl
      obtain rfl : w.finalized = b := hreply
      exact hinclusions.finalized
  | lastSeen reply =>
      obtain ⟨⟨pick, hreply⟩, -⟩ := hreplies reply rfl
      obtain rfl : w.lastSeen = reply := hreply
      rfl
  | births b pending =>
      obtain ⟨⟨pick, hreply⟩, -⟩ := hreplies pending rfl
      obtain rfl : w.watchList = pending := hreply
      obtain rfl : b = w.lastSeen.getD 0 := hphase
      -- a scan starts no later than the earliest birth on the list, which exists
      show TxnNotifierService.startingBlock _ w.watchList + 1 ≤ w.chain.blocks.length
      rw [hlength]
      refine Nat.succ_le_succ (TxnNotifierService.startingBlock_le h.lastSeen ?_)
      rcases List.eq_nil_or_concat w.watchList with hnil | ⟨ts, t, hts⟩
      · exact .inl hnil
      · have ht : t ∈ w.watchList := by simp [hts]
        obtain ⟨a, ha, -, hbirth⟩ := htimeliness.listed t ht
        exact .inr ⟨t, ht, hbirth.trans (hinclusions.sent a ha)⟩
  | blockHash n hash =>
      obtain ⟨⟨pick, hreply⟩, -⟩ := hreplies hash rfl
      obtain rfl : w.chain.hashAt n = hash := hreply
      exact ⟨hphase, Chain.hasHash_hashAt⟩
  | confirm n hash pending hsome hhash =>
      exact hphase.2 (by simpa [BlockHash.isEmpty] using hhash)
  | trust n hash pending hsome hhash =>
      exact hphase.2 (by simpa [BlockHash.isEmpty] using hhash)
  | remove p booked hsettled hcomplete reply => exact hphase.lt
  | _ => first | exact hphase | trivial

/-- What is stored as the last seen block exists. -/
private theorem stored (h : Bearings w) (hinclusions : Inclusions w.chain w.finalized w.accepted)
    (hcall : NotifierCall configService w.notifier c) :
    (w.carryOut cost c f.effect).lastSeen.getD 0 ≤ w.chain.best := by
  have hphase := h.phase
  have hlength := hinclusions.length_eq
  have hlast := h.lastSeen
  by_cases hc : ∃ b, c = .setLastSeen b
  · obtain ⟨b, rfl⟩ := hc
    cases f.effect with
    | none => exact hlast
    | some _ =>
        show b ≤ w.chain.best
        generalize w.notifier = s at hcall hphase
        cases hcall with
        | skip b => exact hphase
        | store n =>
            have hlt : b < w.chain.blocks.length := hphase
            omega
  · rw [ServiceWorld.carryOut_lastSeen fun b heq => hc ⟨b, heq⟩]
    exact hlast

end Bearings

variable {configService : ConfigService} {registry : Registry}

/-- **The blocks a scan works with exist.** -/
theorem service_bearings : NotifierPreserves configService registry (fun _ _ => True)
    (fun w => Inclusions w.chain w.finalized w.accepted ∧ Timeliness w) Bearings where
  besides w w₀ h := ⟨h.lastSeen, h.phase⟩
  env x P w' _ hknown h hw := by
    rcases ServiceWorld.env_cases hw with ⟨b, hb, hnew, -, rfl⟩ | ⟨n, -, -, rfl⟩ |
      ⟨status, -, -, rfl⟩ | ⟨status, -, rfl⟩ | ⟨epoch, rfl⟩
    · have hlast := h.lastSeen
      have hlength := hknown.1.length_eq
      refine ⟨?_, h.phase.push hknown.1 hb hnew⟩
      show P.world.lastSeen.getD 0 ≤ (P.world.chain.push b hb hnew).best
      rw [Chain.best_push]
      omega
    · exact ⟨h.lastSeen, h.phase⟩
    · exact ⟨h.lastSeen, h.phase⟩
    · exact ⟨h.lastSeen, h.phase⟩
    · exact ⟨h.lastSeen, h.phase⟩
  start reason P s _ _ h hs := by
    rcases hs with rfl | rfl <;> exact ⟨h.lastSeen, trivial⟩
  answer x c P f w' cost _ hcall hknown h _ hreplies := by
    refine ⟨by simpa using h.stored hknown.1 hcall, ?_⟩
    simpa using h.step hknown.1 hknown.2 (hcall.step f) hreplies
  crash P _ _ h := ⟨h.lastSeen, trivial⟩

/-! ## What a pass has read -/

/-- A pass has read its block, and for each notice the entry that was pending. -/
structure Pass.Read (b : Block) (p : Pass) : Prop where
  found : p.found = extrinsicIndices p.pending b.extrinsics
  epoch : p.epoch = b.epoch
  records : p.records = b.events
  entries : ∀ n ∈ p.notices, ∃ t ∈ p.pending, t.txHash = n.txHash ∧ n.status = some t

/-- A pass whose removals are due has found what is pending in its block; where
that is nothing it has read no further. -/
structure Pass.Done (b : Block) (p : Pass) : Prop where
  found : p.found = extrinsicIndices p.pending b.extrinsics
  read : p.found = [] ∨ p.Read b

/-- What has been read of the block of the pass in progress. -/
def NotifierPhase.Reads (b : Block) : NotifierPhase → Prop
  | opened p => p.found = [] ∧ p.notices = []
  | located p => p.found = extrinsicIndices p.pending b.extrinsics ∧ p.notices = []
  | dated p =>
      p.found = extrinsicIndices p.pending b.extrinsics ∧ p.epoch = b.epoch ∧ p.notices = []
  | notifying p todo => p.Read b ∧ ∀ e ∈ todo, e ∈ p.found
  | booking p _ => p.Read b
  | closing p _ => p.Done b
  | _ => True

/-- What holds of the pass in progress and of those whose removals were carried
out. -/
structure Reading (w : ServiceWorld) : Prop where
  pending : ∀ p, w.notifier.pass = some p → ∀ t ∈ p.pending, t ∈ w.watchList
  reads : ∀ p, w.notifier.pass = some p → ∀ b, w.chain.blocks[p.height]? = some b →
    w.notifier.Reads b
  removed : ∀ p ∈ w.removed, ∃ b, w.chain.blocks[p.height]? = some b ∧ p.Done b

/-! ## Where an extrinsic is tracked -/

/-- The hashes that are tracked: those of the entries on the list and on their
way to it, that of a job that has not written its entry yet, and those found by
a pass that has removed them. -/
def ServiceWorld.traces (w : ServiceWorld) : List Hash :=
  w.watchList.map ITxStatus.txHash ++ w.outbox.map ITxStatus.txHash ++
    w.publisher.unwritten.toList ++ w.removed.flatMap fun p => p.found.map Prod.fst

/-- Every accepted extrinsic is tracked in at most one place, and no other is. -/
def Traced (w : ServiceWorld) : Prop :=
  ∀ txHash, w.traces.count txHash ≤ (w.accepted.map Accepted.txHash).count txHash

namespace Traced

variable {w : ServiceWorld}

theorem nodup (h : Traced w) (hinclusions : Inclusions w.chain w.finalized w.accepted) :
    w.traces.Nodup :=
  List.nodup_iff_count_le_one.mpr fun txHash =>
    (h txHash).trans (List.nodup_iff_count_le_one.mp hinclusions.distinct txHash)

/-- An entry on its way is not on the list. -/
theorem not_listed (h : Traced w) (hinclusions : Inclusions w.chain w.finalized w.accepted)
    {status t : ITxStatus} (hstatus : status ∈ w.outbox) (ht : t ∈ w.watchList) :
    t.txHash ≠ status.txHash := by
  have hnodup := h.nodup hinclusions
  unfold ServiceWorld.traces at hnodup
  rw [List.append_assoc, List.append_assoc] at hnodup
  refine (List.nodup_append'.mp hnodup).2.2 (List.mem_map_of_mem ht) |> fun hnot heq => hnot ?_
  exact List.mem_append_left _ (heq ▸ List.mem_map_of_mem hstatus)

/-- The entry read under a hash of the list is the one that is there. -/
theorem hget_eq (h : Traced w) (hinclusions : Inclusions w.chain w.finalized w.accepted)
    {t : ITxStatus} (ht : t ∈ w.watchList) : w.watchList.hget t.txHash = some t := by
  have hnodup := h.nodup hinclusions
  unfold ServiceWorld.traces at hnodup
  rw [List.append_assoc, List.append_assoc] at hnodup
  obtain ⟨t', ht'⟩ := WatchList.hget_isSome ⟨t, ht, rfl⟩
  have heq : t'.txHash = t.txHash := by simpa using List.find?_some ht'
  rw [ht', List.inj_on_of_nodup_map (List.nodup_append'.mp hnodup).1
    (List.mem_of_find?_eq_some ht') ht heq]

/-- How often a hash is tracked, place by place. -/
theorem count_traces (txHash : Hash) : w.traces.count txHash =
    (w.watchList.map ITxStatus.txHash).count txHash + (w.outbox.map ITxStatus.txHash).count txHash +
      w.publisher.unwritten.toList.count txHash +
        (w.removed.flatMap fun p => p.found.map Prod.fst).count txHash := by
  simp only [ServiceWorld.traces, List.count_append]

/-- A write that lands replaces what was there. -/
private theorem count_hset (watchList : WatchList) (status : ITxStatus) (txHash : Hash) :
    ((watchList.hset status).map ITxStatus.txHash).count txHash ≤
      (watchList.map ITxStatus.txHash).count txHash + [status.txHash].count txHash := by
  unfold WatchList.hset
  rw [List.map_append, List.count_append]
  exact Nat.add_le_add_right ((List.filter_sublist.map _).count_le _) _

/-- A write on its way is one of the outbox. -/
private theorem count_erase {outbox : List ITxStatus} {status : ITxStatus} (h : status ∈ outbox)
    (txHash : Hash) : [status.txHash].count txHash +
      ((outbox.erase status).map ITxStatus.txHash).count txHash =
        (outbox.map ITxStatus.txHash).count txHash := by
  rw [((List.perm_cons_erase h).map ITxStatus.txHash).count_eq txHash, ← List.count_append]
  rfl

/-- What is pending is found once. -/
theorem found_nodup (hinclusions : Inclusions w.chain w.finalized w.accepted)
    (htimeliness : Timeliness w) {p : Pass} {b : Block}
    (hb : w.chain.blocks[p.height]? = some b)
    (hfound : p.found = extrinsicIndices p.pending b.extrinsics)
    (hpending : ∀ t ∈ p.pending, t ∈ w.watchList) : (p.found.map Prod.fst).Nodup := by
  rw [List.nodup_iff_count_le_one]
  intro txHash
  by_cases hmem : txHash ∈ p.found.map Prod.fst
  · obtain ⟨e, he, rfl⟩ := List.mem_map.mp hmem
    rw [hfound, mem_extrinsicIndices] at he
    obtain ⟨-, t, ht, heq⟩ := he
    obtain ⟨a, ha, hhash, -⟩ := htimeliness.listed t (hpending t ht)
    have hsublist : (p.found.map Prod.fst).Sublist b.extrinsics := by
      rw [hfound]
      have hfilter : (extrinsicIndices p.pending b.extrinsics).Sublist b.extrinsics.zipIdx :=
        List.filter_sublist
      simpa using hfilter.map Prod.fst
    -- an accepted extrinsic is in its block once
    refine (hsublist.count_le _).trans ?_
    rw [← heq, ← hhash]
    exact hinclusions.count a ha b (List.mem_of_getElem? hb)
  · exact (List.count_eq_zero.mpr hmem).le.trans (Nat.zero_le 1)

/-- What a pass removes was on the list, and is found once. -/
private theorem count_hdel (hinclusions : Inclusions w.chain w.finalized w.accepted)
    (htimeliness : Timeliness w) {p : Pass} {b : Block}
    (hb : w.chain.blocks[p.height]? = some b) (hdone : p.Done b)
    (hpending : ∀ t ∈ p.pending, t ∈ w.watchList) (txHash : Hash) :
    ((w.watchList.hdel p.hdels).map ITxStatus.txHash).count txHash +
      (p.found.map Prod.fst).count txHash ≤ (w.watchList.map ITxStatus.txHash).count txHash := by
  by_cases hfound : txHash ∈ p.found.map Prod.fst
  · -- it was listed, is found once and is listed no more
    obtain ⟨e, he, rfl⟩ := List.mem_map.mp hfound
    have he' := he
    rw [hdone.found, mem_extrinsicIndices] at he'
    obtain ⟨-, t, ht, heq⟩ := he'
    have hlisted : 1 ≤ (w.watchList.map ITxStatus.txHash).count e.1 :=
      List.one_le_count_iff.mpr (heq ▸ List.mem_map_of_mem (hpending t ht))
    have honce : (p.found.map Prod.fst).count e.1 ≤ 1 :=
      List.nodup_iff_count_le_one.mp (found_nodup hinclusions htimeliness hb hdone.found hpending) e.1
    have hgone : ((w.watchList.hdel p.hdels).map ITxStatus.txHash).count e.1 = 0 := by
      refine List.count_eq_zero.mpr fun hmem => ?_
      obtain ⟨t', ht', heq'⟩ := List.mem_map.mp hmem
      refine (WatchList.mem_hdel.mp ht').2 ?_
      rw [heq']
      exact List.mem_append_left _ hfound
    omega
  · rw [List.count_eq_zero.mpr hfound, Nat.add_zero]
    exact (List.filter_sublist.map _).count_le _

end Traced

/-- Everything the service rests on. -/
structure Coherent (w : ServiceWorld) : Prop where
  inclusions : Inclusions w.chain w.finalized w.accepted
  timeliness : Timeliness w
  bearings : Bearings w
  reading : Reading w
  traced : Traced w

namespace PublisherPhase

variable {s : PublisherPhase}

theorem Fresh.unwritten (h : s.Fresh) : s.unwritten = none := by
  cases s with
  | passed gate publishing =>
      obtain rfl : publishing = {} := h
      rfl
  | _ => rfl

/-- Only an accepted submission leaves an entry to be written. -/
theorem unwritten_next {obs : Obs Worker Err}
    (hobs : ∀ extrinsic nonce f, obs ≠ .await (.signAndSend extrinsic nonce) f) :
    (s.next configService obs).unwritten = none ∨
      (s.next configService obs).unwritten = s.unwritten := by
  cases s with
  | passed gate publishing =>
      by_cases hawait : ∃ c f, obs = .await c f
      · obtain ⟨c, f, rfl⟩ := hawait
        rcases next_passed_cases with heq | ⟨reply, -, heq⟩ <;> rw [heq]
        · exact .inl rfl
        · cases c with
          | signAndSend extrinsic nonce => exact absurd rfl (hobs extrinsic nonce f)
          | _ => exact .inr rfl
      · rcases next_passed_other fun c f heq => hawait ⟨c, f, heq⟩ with heq | heq <;> rw [heq]
        · exact .inl rfl
        · exact .inr rfl
  | _ => exact .inl (next_fresh (by simp) _).unwritten

end PublisherPhase

namespace Traced

variable {w : ServiceWorld} {c : Call} {f : Fate Err c.Reply} {cost : ℕ}

/-- A job writes the entry it owes. -/
private theorem written (h : Traced w) {txHash : Hash} {status : ITxStatus}
    (hallow : w.publisher.allow (.fire (.hset txHash status))) :
    Traced ((w.issue (.hset txHash status)).observe configService .publisher
      (.fire (.hset txHash status))) := by
  intro txHash'
  have hcount := h txHash'
  rw [count_traces] at hcount ⊢
  cases hs : w.publisher with
  | passed gate publishing =>
      rw [hs] at hallow hcount
      obtain ⟨hsent, hhash, -⟩ := hallow
      have howed : (PublisherPhase.passed gate publishing).unwritten.toList = [status.txHash] := by
        rw [hhash]
        exact congrArg Option.toList hsent
      -- what was owed is on its way
      rw [howed] at hcount
      simp only [ServiceWorld.observe_toRecord, ServiceWorld.issue_toRecord,
        ServiceWorld.observe_publisher_publisher, ServiceWorld.issue_publisher, hs]
      show (w.watchList.map ITxStatus.txHash).count txHash' +
        ((w.outbox ++ [status]).map ITxStatus.txHash).count txHash' + 0 + _ ≤ _
      rw [List.map_append, List.count_append, List.map_singleton]
      omega
  | _ => rw [hs] at hallow; exact hallow.elim

/-- A submission that is accepted is owed an entry. -/
private theorem sent (h : Traced w) {extrinsic : SubmittableExtrinsic} {nonce : ℕ}
    (hallow : w.publisher.allow (.await (.signAndSend extrinsic nonce)))
    (f : Fate Err (Call.signAndSend extrinsic nonce).Reply) :
    Traced ((w.carryOut cost (.signAndSend extrinsic nonce) f.effect).observe configService
      .publisher (.await (.signAndSend extrinsic nonce) f)) := by
  intro txHash
  have hcount := h txHash
  rw [count_traces] at hcount ⊢
  cases hs : w.publisher with
  | passed gate publishing =>
      simp only [ServiceWorld.observe_toOutside, ServiceWorld.observe_toRecord,
        ServiceWorld.observe_publisher_publisher, ServiceWorld.carryOut_publisher, hs]
      cases f with
      | refused e =>
          rw [Fate.effect_refused, ServiceWorld.carryOut_none]
          show _ + _ + 0 + _ ≤ _
          omega
      | done sent =>
          show (w.watchList.map ITxStatus.txHash).count txHash +
            (w.outbox.map ITxStatus.txHash).count txHash + [sent.1].count txHash +
              (w.removed.flatMap fun p => p.found.map Prod.fst).count txHash ≤
                ([sent.1] ++ w.accepted.map Accepted.txHash).count txHash
          rw [List.count_append]
          omega
      -- the node has accepted it, but the job fails and writes no entry
      | lost sent e =>
          show (w.watchList.map ITxStatus.txHash).count txHash +
            (w.outbox.map ITxStatus.txHash).count txHash + 0 +
              (w.removed.flatMap fun p => p.found.map Prod.fst).count txHash ≤
                ([sent.1] ++ w.accepted.map Accepted.txHash).count txHash
          rw [List.count_append]
          omega
  | _ => rw [hs] at hallow; exact hallow.elim

/-- A pass whose removals are carried out tracks what it has found. -/
private theorem removed (h : Traced w) (hcoherent : Coherent w) {hdels : List Hash}
    (hcall : NotifierCall configService w.notifier (.exec hdels))
    (f : Fate Err (Call.exec hdels).Reply) :
    Traced ((w.carryOut cost (.exec hdels) f.effect).observe configService .notifier
      (.await (.exec hdels) f)) := by
  intro txHash
  have hcount := h txHash
  rw [count_traces] at hcount ⊢
  cases hf : f.effect with
  | none =>
      rw [ServiceWorld.carryOut_none]
      simpa using hcount
  | some _ =>
      have hblock := hcoherent.bearings.phase
      have hpass := hcoherent.reading
      obtain ⟨p, booked, hs, rfl⟩ := hcall.closing
      have hp : w.notifier.pass = some p := by rw [hs]; rfl
      rw [hs] at hblock
      obtain ⟨b, hb, -⟩ := hblock
      have hdone : p.Done b := by
        have hreads := hcoherent.reading.reads p hp b hb
        rwa [hs] at hreads
      -- what leaves the list is what the pass has found
      have hdel := count_hdel hcoherent.inclusions hcoherent.timeliness hb hdone
        (hcoherent.reading.pending p hp) txHash
      simp only [ServiceWorld.observe_toOutside, ServiceWorld.observe_toRecord,
        ServiceWorld.observe_notifier_publisher, ServiceWorld.carryOut_publisher,
        ServiceWorld.carryOut_outbox]
      show ((w.watchList.hdel p.hdels).map ITxStatus.txHash).count txHash + _ + _ +
        ((w.notifier.pass.toList ++ w.removed).flatMap fun p => p.found.map Prod.fst).count txHash ≤
          (w.accepted.map Accepted.txHash).count txHash
      rw [hp, Option.toList_some, List.singleton_append, List.flatMap_cons, List.count_append]
      omega

/-- What a job was to write may be dropped. -/
private theorem narrow (h : Traced w) {w' : ServiceWorld} (hwatchList : w'.watchList = w.watchList)
    (houtbox : w'.outbox = w.outbox) (hremoved : w'.removed = w.removed)
    (haccepted : w'.accepted = w.accepted)
    (hunwritten : w'.publisher.unwritten = none ∨
      w'.publisher.unwritten = w.publisher.unwritten) : Traced w' := by
  intro txHash
  have hcount := h txHash
  rw [count_traces] at hcount ⊢
  rw [hwatchList, houtbox, hremoved, haccepted]
  rcases hunwritten with heq | heq <;> rw [heq]
  · rw [Option.toList_none, List.count_nil]
    omega
  · exact hcount

end Traced

/-- **Every accepted extrinsic is tracked in at most one place.** -/
theorem service_traced : (service configService registry).Preserves (course configService)
    (fun r w => w.phase r) (fun _ _ => True) Coherent Traced where
  env x P w' _ hcoherent h hw := by
    rcases ServiceWorld.env_cases hw with ⟨b, hb, hnew, -, rfl⟩ | ⟨n, -, -, rfl⟩ |
      ⟨status, hstatus, -, rfl⟩ | ⟨status, hstatus, rfl⟩ | ⟨epoch, rfl⟩
    · exact h
    · exact h
    · intro txHash
      have hcount := h txHash
      have hset := Traced.count_hset P.world.watchList status txHash
      have herase := Traced.count_erase hstatus txHash
      rw [Traced.count_traces] at hcount ⊢
      simp only
      omega
    · -- a write that is lost leaves its extrinsic tracked nowhere
      intro txHash
      have hcount := h txHash
      have herase := Traced.count_erase hstatus txHash
      rw [Traced.count_traces] at hcount ⊢
      simp only
      omega
    · exact h
  launch reason r P p w' _ _ h hw := by
    rcases service_launch hw with ⟨-, -, -, rfl⟩ | ⟨-, -, rfl⟩ | ⟨-, -, rfl⟩
    · exact h
    · exact h
    · exact h.narrow rfl rfl rfl rfl (.inl rfl)
  act r m w _ _ h := by
    refine h.narrow (by simp [service]) (by simp [service]) (by simp [service]) (by simp [service]) ?_
    cases r with
    | notifier => exact .inr (by simp [service])
    | publisher => simpa [service] using PublisherPhase.unwritten_next (by simp)
  issue r c w hallow _ h := by
    cases r with
    | notifier => exact (NotifierPhase.not_fire hallow).elim
    | publisher =>
        by_cases hc : ∃ txHash status, c = .hset txHash status
        · obtain ⟨txHash, status, rfl⟩ := hc
          exact h.written hallow
        · refine h.narrow (by simp [service]) ?_ (by simp [service]) (by simp [service]) ?_
          · cases c with
            | hset txHash status => exact absurd ⟨txHash, status, rfl⟩ hc
            | _ => rfl
          · simpa [service] using PublisherPhase.unwritten_next (by simp)
  answer r x c k P f w' _ _ hallow hcoherent h hw := by
    obtain ⟨cost, rfl, -⟩ := service_answer hw
    cases r with
    | notifier =>
        by_cases hc : ∃ hdels, c = .exec hdels
        · obtain ⟨hdels, rfl⟩ := hc
          exact h.removed hcoherent hallow f
        · have hne : ∀ hdels, c ≠ .exec hdels := fun hdels heq => hc ⟨hdels, heq⟩
          refine h.narrow ?_ (by simp) ?_ ?_ (.inr (by simp))
          · simpa using ServiceWorld.carryOut_watchList hne
          · simpa using ServiceWorld.carryOut_removed hne
          · simpa using ServiceWorld.carryOut_notifier_call hallow
    | publisher =>
        by_cases hc : ∃ extrinsic nonce, c = .signAndSend extrinsic nonce
        · obtain ⟨extrinsic, nonce, rfl⟩ := hc
          exact h.sent hallow f
        · have hne : ∀ extrinsic nonce, c ≠ .signAndSend extrinsic nonce :=
            fun extrinsic nonce heq => hc ⟨extrinsic, nonce, heq⟩
          rw [ServiceWorld.carryOut_publisher_call hallow, ServiceWorld.carryOut_accepted hne]
          refine h.narrow (by simp) (by simp) (by simp) (by simp) ?_
          rw [ServiceWorld.observe_publisher_publisher]
          refine PublisherPhase.unwritten_next fun extrinsic nonce f' heq => hne extrinsic nonce ?_
          exact (Obs.await.inj heq).1
  crash P _ _ h := h.narrow rfl rfl rfl rfl (.inl rfl)

/-! ## What a pass reads -/

namespace Pass

variable {b : Block} {p : Pass}

/-- A post about the extrinsic in hand changes nothing that was read. -/
theorem Read.posted (h : p.Read b) (ok : Bool) : (p.posted ok).Read b := by
  refine ⟨h.found, h.epoch, h.records, fun n hn => ?_⟩
  cases hnotices : p.notices with
  | nil =>
      simp only [Pass.posted, hnotices] at hn
      cases hn
  | cons n' notices =>
      simp only [Pass.posted, hnotices] at hn
      rcases List.mem_cons.mp hn with rfl | hold
      · exact h.entries n' (hnotices ▸ List.mem_cons_self)
      · exact h.entries n (hnotices ▸ List.mem_cons_of_mem n' hold)

theorem Read.done (h : p.Read b) : p.Done b := ⟨h.found, .inr h⟩

end Pass

namespace Reading

variable {w : ServiceWorld} {c : Call} {f : Fate Err c.Reply} {cost : ℕ}

/-- What is known of the pass a phase belongs to. -/
def Knows (w : ServiceWorld) (s : NotifierPhase) : Prop :=
  ∀ p, s.pass = some p → (∀ t ∈ p.pending, t ∈ w.watchList) ∧
    ∀ b, w.chain.blocks[p.height]? = some b → s.Reads b

theorem knows (h : Reading w) : Knows w w.notifier := fun p hp => ⟨h.pending p hp, h.reads p hp⟩

/-- A phase that belongs to no pass knows nothing. -/
theorem knows_of_pass {s : NotifierPhase} (h : s.pass = none) : Knows w s := by
  intro p hp
  rw [h] at hp
  cases hp

/-- The block read by the hash of a pass is the one at its height. -/
private theorem find_eq {p : Pass} {b : Block} (hhash : w.chain.HasHash p.height p.hash)
    (hb : w.chain.blocks[p.height]? = some b) : w.chain.find p.hash = some b := by
  obtain ⟨b', hb', heq⟩ := hhash
  obtain rfl : b = b' := Option.some.inj (hb.symm.trans hb')
  rw [← heq]
  exact w.chain.find_hash hb

/-- And its extrinsics are the ones the node gives. -/
private theorem extrinsics_eq {p : Pass} {b : Block} (hhash : w.chain.HasHash p.height p.hash)
    (hb : w.chain.blocks[p.height]? = some b) {pick : (c : Call) → c.Reply} {extrinsics : List Hash}
    (hreply : w.reply pick (.getBlock p.hash) = extrinsics) : extrinsics = b.extrinsics := by
  rw [← hreply]
  show ((w.chain.find p.hash).map Block.extrinsics).getD [] = _
  rw [find_eq hhash hb, Option.map_some, Option.getD_some]

/-- **A pass reads what the chain and the watch list hold.** -/
private theorem step (h : Reading w) (hcoherent : Coherent w) {s' : NotifierPhase}
    (hstep : NotifierStep configService w.notifier c f s')
    (hreplies : ∀ reply, f.effect = some reply → w.Replies c reply) : Knows w s' := by
  have hknows := h.knows
  have hphase := hcoherent.bearings.phase
  generalize w.notifier = s at hstep hknows hphase
  -- what is known of a pass that has read on
  have hgoes : ∀ {p' : Pass} {s' : NotifierPhase}, s'.pass = some p' →
      (∀ t ∈ p'.pending, t ∈ w.watchList) →
        (∀ b, w.chain.blocks[p'.height]? = some b → s'.Reads b) → Knows w s' := by
    intro p' s' hpass hpending hreads p hp
    obtain rfl := Option.some.inj (hpass.symm.trans hp)
    exact ⟨hpending, hreads⟩
  cases hstep with
  | pending n hash pending =>
      obtain ⟨⟨pick, hreply⟩, -⟩ := hreplies pending rfl
      obtain rfl : w.watchList = pending := hreply
      exact hgoes rfl (fun t ht => ht) fun b _ => ⟨rfl, rfl⟩
  | noneFound p extrinsics hnone =>
      obtain ⟨hpending, hreads⟩ := hknows p rfl
      obtain ⟨⟨pick, hreply⟩, -⟩ := hreplies extrinsics rfl
      refine hgoes rfl hpending fun b hb => ⟨?_, .inl (hreads b hb).1⟩
      rw [(hreads b hb).1, ← hnone, extrinsics_eq hphase hb hreply]
  | someFound p extrinsics hsome =>
      obtain ⟨hpending, hreads⟩ := hknows p rfl
      obtain ⟨⟨pick, hreply⟩, -⟩ := hreplies extrinsics rfl
      refine hgoes rfl hpending fun b hb => ⟨?_, (hreads b hb).2⟩
      rw [extrinsics_eq hphase hb hreply]
  | epoch p epoch =>
      obtain ⟨hpending, hreads⟩ := hknows p rfl
      obtain ⟨⟨pick, hreply⟩, -⟩ := hreplies epoch rfl
      refine hgoes rfl hpending fun b hb => ⟨(hreads b hb).1, ?_, (hreads b hb).2⟩
      show epoch = b.epoch
      rw [← hreply]
      show ((w.chain.find p.hash).map Block.epoch).getD 0 = _
      rw [find_eq hphase hb, Option.map_some, Option.getD_some]
  | events p records =>
      obtain ⟨hpending, hreads⟩ := hknows p rfl
      obtain ⟨⟨pick, hreply⟩, -⟩ := hreplies records rfl
      refine hgoes rfl hpending fun b hb => ?_
      obtain ⟨hfound, hepoch, hnotices⟩ := hreads b hb
      refine ⟨⟨hfound, hepoch, ?_, fun n hn => ?_⟩, fun e he => he⟩
      · show records = b.events
        rw [← hreply]
        show ((w.chain.find p.hash).map Block.events).getD [] = _
        rw [find_eq hphase hb, Option.map_some, Option.getD_some]
      · rw [show p.notices = [] from hnotices] at hn
        cases hn
  | entry p e todo hsettled status =>
      obtain ⟨hpending, hreads⟩ := hknows p rfl
      obtain ⟨⟨pick, hreply⟩, -⟩ := hreplies status rfl
      refine hgoes rfl hpending fun b hb => ?_
      obtain ⟨hread, htodo⟩ := hreads b hb
      refine ⟨⟨hread.found, hread.epoch, hread.records, List.forall_mem_cons.mpr ⟨?_, hread.entries⟩⟩,
        fun e' he' => htodo e' (List.mem_cons_of_mem e he')⟩
      -- the entry read is the one that was pending
      have hfound := htodo e List.mem_cons_self
      rw [hread.found, mem_extrinsicIndices] at hfound
      obtain ⟨-, t, ht, heq⟩ := hfound
      refine ⟨t, ht, heq, ?_⟩
      rw [← hreply, ← heq]
      exact hcoherent.traced.hget_eq hcoherent.inclusions (hpending t ht)
  | post p todo txHash url body hmay f =>
      obtain ⟨hpending, hreads⟩ := hknows p rfl
      exact hgoes rfl hpending fun b hb => ⟨(hreads b hb).1.posted _, (hreads b hb).2⟩
  | savedCapacity p hsettled hcomplete savedCapacity =>
      obtain ⟨hpending, hreads⟩ := hknows p rfl
      exact hgoes rfl hpending fun b hb => (hreads b hb).1
  | unread p hsettled hcomplete f e hseen =>
      obtain ⟨hpending, hreads⟩ := hknows p rfl
      exact hgoes rfl hpending fun b hb => (hreads b hb).1.done
  | unbooked p savedCapacity f e hseen =>
      obtain ⟨hpending, hreads⟩ := hknows p rfl
      exact hgoes rfl hpending fun b hb => (hreads b hb).done
  | book p savedCapacity seconds f =>
      obtain ⟨hpending, hreads⟩ := hknows p rfl
      exact hgoes rfl hpending fun b hb => (hreads b hb).done
  | api p reply => exact hknows
  | epochLength p savedCapacity epochLength => exact hknows
  | _ => exact knows_of_pass rfl

/-- A pipeline ends its pass. -/
private theorem passed {s s' : NotifierPhase} (hstep : NotifierStep configService s c f s')
    (hc : ∃ hdels, c = .exec hdels) : s'.pass = none := by
  obtain ⟨hdels, rfl⟩ := hc
  cases hstep <;> rfl

/-- A pass whose removals are carried out had found what is pending in its
block. -/
private theorem done (h : Reading w) (hcoherent : Coherent w) {hdels : List Hash}
    (hcall : NotifierCall configService w.notifier (.exec hdels)) {p : Pass}
    (hp : w.notifier.pass = some p) :
    p.hdels = hdels ∧ ∃ b, w.chain.blocks[p.height]? = some b ∧ p.Done b := by
  have hphase := hcoherent.bearings.phase
  have hreads := h.reads p hp
  generalize w.notifier = s at hcall hphase hp hreads
  cases hcall with
  | remove p' booked =>
      obtain rfl := Option.some.inj hp
      obtain ⟨b, hb, -⟩ := hphase
      exact ⟨rfl, b, hb, hreads b hb⟩

/-- What is known when nothing but the chain or the list of others changes. -/
private theorem of_knows {w' : ServiceWorld} (h : Reading w) (hknows : Knows w w'.notifier)
    (hchain : w'.chain = w.chain) (hwatchList : w'.watchList = w.watchList)
    (hremoved : w'.removed = w.removed) : Reading w' := by
  refine ⟨fun p hp => ?_, fun p hp => ?_, ?_⟩
  · rw [hwatchList]
    exact (hknows p hp).1
  · rw [hchain]
    exact (hknows p hp).2
  · rw [hchain, hremoved]
    exact h.removed

end Reading

/-- **A pass has read what the chain and the watch list hold**, until it removes
what it has found. -/
theorem service_reading :
    NotifierPreserves configService registry (fun _ _ => True) Coherent Reading where
  besides w w₀ h := ⟨h.pending, h.reads, h.removed⟩
  env x P w' _ hcoherent h hw := by
    rcases ServiceWorld.env_cases hw with ⟨b, hb, hnew, -, rfl⟩ | ⟨n, -, -, rfl⟩ |
      ⟨status, hstatus, -, rfl⟩ | ⟨status, -, rfl⟩ | ⟨epoch, rfl⟩
    · refine ⟨h.pending, fun p hp b' hb' => h.reads p hp b' ?_, fun p hp => ?_⟩
      · -- the block of the pass was there before
        have hhash := hcoherent.bearings.phase.pass hp
        have hget : (P.world.chain.push b hb hnew).blocks[p.height]? = some b' := hb'
        rcases Chain.push_get_cases hget with hold | ⟨hheight, -⟩
        · exact hold
        · exact absurd hhash.lt (by omega)
      · obtain ⟨b', hb', hdone⟩ := h.removed p hp
        have hget : (P.world.chain.push b hb hnew).blocks[p.height]? = some b' :=
          Chain.push_get hb'
        exact ⟨b', hget, hdone⟩
    · exact ⟨h.pending, h.reads, h.removed⟩
    · refine ⟨fun p hp t ht => ?_, h.reads, h.removed⟩
      have hlisted := h.pending p hp t ht
      exact WatchList.mem_hset.mpr
        (.inl ⟨hlisted, hcoherent.traced.not_listed hcoherent.inclusions hstatus hlisted⟩)
    · exact ⟨h.pending, h.reads, h.removed⟩
    · exact ⟨h.pending, h.reads, h.removed⟩
  start reason P s _ _ h hs := by
    rcases hs with rfl | rfl <;> exact h.of_knows (Reading.knows_of_pass rfl) rfl rfl rfl
  answer x c P f w' cost _ hcall hcoherent h _ hreplies := by
    by_cases hc : ∃ hdels, c = .exec hdels
    · -- the pass is over, and is recorded if its removals were carried out
      have hpass := Reading.passed (hcall.step f) hc
      obtain ⟨hdels, rfl⟩ := hc
      refine ⟨fun p hp => ?_, fun p hp => ?_, fun p hp => ?_⟩
      · rw [ServiceWorld.observe_notifier_notifier, ServiceWorld.carryOut_notifier, hpass] at hp
        cases hp
      · rw [ServiceWorld.observe_notifier_notifier, ServiceWorld.carryOut_notifier, hpass] at hp
        cases hp
      · simp only [ServiceWorld.observe_toRecord] at hp
        simp only [ServiceWorld.observe_toOutside, ServiceWorld.carryOut_chain]
        rcases ServiceWorld.mem_carryOut_removed hp with hold | ⟨_, -, hnow⟩
        · exact h.removed p hold
        · exact (h.done hcoherent hcall hnow).2
    · have hne : ∀ hdels, c ≠ .exec hdels := fun hdels heq => hc ⟨hdels, heq⟩
      refine h.of_knows ?_ (by simp) ?_ ?_
      · rw [ServiceWorld.observe_notifier_notifier, ServiceWorld.carryOut_notifier]
        exact h.step hcoherent (hcall.step f) hreplies
      · simpa using ServiceWorld.carryOut_watchList hne
      · simpa using ServiceWorld.carryOut_removed hne
  crash P _ _ h := h.of_knows (Reading.knows_of_pass rfl) rfl rfl rfl

/-- **The service stays coherent.** -/
theorem service_coherent : (service configService registry).Preserves (course configService)
    (fun r w => w.phase r) (fun _ _ => True) (fun _ => True) Coherent := by
  have hwhole : Coherent = fun w => Inclusions w.chain w.finalized w.accepted ∧ Timeliness w ∧
      Bearings w ∧ Reading w ∧ Traced w := by
    funext w
    exact propext ⟨fun h => ⟨h.inclusions, h.timeliness, h.bearings, h.reading, h.traced⟩,
      fun ⟨hinclusions, htimeliness, hbearings, hreading, htraced⟩ =>
        ⟨hinclusions, htimeliness, hbearings, hreading, htraced⟩⟩
  -- each part may use the whole, as it was before the step
  have hparts : (service configService registry).Preserves (course configService)
      (fun r w => w.phase r) (fun _ _ => True) Coherent Coherent := by
    nth_rewrite 2 [hwhole]
    exact (service_inclusions.assuming fun _ _ => trivial).conj
      ((service_timeliness.assuming fun _ h => h.inclusions).conj
        ((service_bearings.preserves.assuming fun _ h => ⟨h.inclusions, h.timeliness⟩).conj
          (service_reading.preserves.conj service_traced)))
  exact (hparts.assuming fun _ h => h.2).whole

/-- Before anything happens the service is coherent. -/
theorem coherent_init : Coherent .init where
  inclusions := by
    refine ⟨by simp [ServiceWorld.init], Nat.zero_le _, ?_, List.nodup_nil, ?_, ?_, ?_, ?_, ?_⟩
    · simp [ServiceWorld.init, Chain.epoch]
    all_goals exact fun a ha => (by cases ha)
  timeliness := ⟨trivial, fun t ht => (by cases ht), fun t ht => (by cases ht)⟩
  bearings := ⟨Nat.zero_le _, trivial⟩
  reading := ⟨fun p hp => (by cases hp), fun p hp => (by cases hp), fun p hp => (by cases hp)⟩
  traced := fun txHash => Nat.zero_le _

/-- **What every step of the service keeps** where `C` allows it, holds
wherever a run leads whose steps `C` allows. -/
theorem service_run_keeps {C : Label Role Happening Reason → ServicePool → Prop}
    {J : ServiceWorld → Prop} (keeps : (service configService registry).Preserves
      (course configService) (fun r w => w.phase r) C Coherent J) (hinit : J .init)
    {ls : List (Label Role Happening Reason)} {P : ServicePool}
    (hrun : (service configService registry).run ls ServicePool.init = some P)
    (hC : (service configService registry).Along C ls ServicePool.init) :
    Coherent P.world ∧ J P.world := by
  have hkeeps : (service configService registry).Preserves (course configService)
      (fun r w => w.phase r) C (fun _ => True) fun w => Coherent w ∧ J w :=
    service_coherent.under.and (keeps.assuming fun _ h => h.2)
  exact ((service_tracks configService registry).run_keeps hkeeps.keeps hC
    (Pool.following_empty _) ⟨coherent_init, hinit⟩ hrun).2

end AccountService
