import AccountService.Service

/-!
# The service's extrinsics on the chain

What holds of the accepted extrinsics in every state of the service, whatever
fails: each is included at most once, after the block it was sent at, for what
it costs; and each entry of the watch list, written or on its way, is that of an
accepted extrinsic and was born no later than it was sent.
-/

namespace AccountService

open Async

/-! ## The chain -/

namespace Chain

variable {chain : Chain} {b : Block} {txHash : Hash} {n : ℕ}

theorem includes_iff : chain.Includes txHash ↔ ∃ n, chain.IncludesAt txHash n := by
  constructor
  · rintro ⟨b, hb, hmem⟩
    obtain ⟨n, hn⟩ := List.getElem?_of_mem hb
    exact ⟨n, b, hn, hmem⟩
  · rintro ⟨n, b, hb, hmem⟩
    exact ⟨b, List.mem_of_getElem? hb, hmem⟩

section Push

variable {b' : Block} {hb : b.hash ≠ 0} {hnew : b.hash ∉ chain.blocks.map Block.hash}

theorem push_get (h : chain.blocks[n]? = some b') :
    (chain.push b hb hnew).blocks[n]? = some b' := by
  obtain ⟨hlt, -⟩ := List.getElem?_eq_some_iff.mp h
  exact (List.getElem?_append_left hlt).trans h

/-- A block of the longer chain was there before, or is the new one. -/
theorem push_get_cases (h : (chain.push b hb hnew).blocks[n]? = some b') :
    chain.blocks[n]? = some b' ∨ (n = chain.blocks.length ∧ b' = b) := by
  rcases Nat.lt_or_ge n chain.blocks.length with hlt | hge
  · exact .inl ((List.getElem?_append_left hlt).symm.trans h)
  · have hget : [b][n - chain.blocks.length]? = some b' :=
      (List.getElem?_append_right hge).symm.trans h
    obtain ⟨hlt, heq⟩ := List.getElem?_eq_some_iff.mp hget
    have hzero : n - chain.blocks.length = 0 := by simpa using hlt
    refine .inr ⟨by omega, ?_⟩
    simpa [hzero] using heq.symm

theorem push_includesAt (h : (chain.push b hb hnew).IncludesAt txHash n) :
    chain.IncludesAt txHash n ∨ (n = chain.blocks.length ∧ txHash ∈ b.extrinsics) := by
  obtain ⟨b', hb', hmem⟩ := h
  rcases push_get_cases hb' with hold | ⟨hn, rfl⟩
  · exact .inl ⟨b', hold, hmem⟩
  · exact .inr ⟨hn, hmem⟩

@[simp] theorem best_push : (chain.push b hb hnew).best = chain.blocks.length := by
  simp [best, push]

@[simp] theorem epoch_push : (chain.push b hb hnew).epoch = b.epoch := by
  simp [epoch, push]

end Push

/-- A height at which something is included lies on the chain. -/
theorem IncludesAt.lt (h : chain.IncludesAt txHash n) : n < chain.blocks.length := by
  obtain ⟨b, hb, -⟩ := h
  exact (List.getElem?_eq_some_iff.mp hb).1

end Chain

/-! ## Accepted extrinsics -/

/-- What holds of the chain and of the accepted extrinsics on it. -/
structure Inclusions (chain : Chain) (finalized : ℕ) (accepted : List Accepted) : Prop where
  blocks : chain.blocks ≠ []
  finalized : finalized ≤ chain.best
  epochs : ∀ b ∈ chain.blocks, b.epoch ≤ chain.epoch
  distinct : (accepted.map Accepted.txHash).Nodup
  sent : ∀ a ∈ accepted, a.sentAt ≤ chain.best
  after : ∀ a ∈ accepted, ∀ n, chain.IncludesAt a.txHash n → a.sentAt < n
  once : ∀ a ∈ accepted, ∀ n m, chain.IncludesAt a.txHash n → chain.IncludesAt a.txHash m → n = m
  count : ∀ a ∈ accepted, ∀ b ∈ chain.blocks, b.extrinsics.count a.txHash ≤ 1
  cost : ∀ a ∈ accepted, ∀ b ∈ chain.blocks, ∀ e ∈ b.extrinsics.zipIdx, e.1 = a.txHash →
    b.withdrawn e.2 = a.cost

namespace Inclusions

/-- A chain with a block has one more block than the height of the last. -/
theorem length_eq {chain : Chain} {finalized : ℕ} {accepted : List Accepted}
    (h : Inclusions chain finalized accepted) : chain.blocks.length = chain.best + 1 := by
  have hpos := List.length_pos_iff.mpr h.blocks
  unfold Chain.best
  omega

/-- A longer chain. -/
private theorem produce {w : ServiceWorld} {b : Block}
    (h : Inclusions w.chain w.finalized w.accepted) (hb : b.hash ≠ 0)
    (hnew : b.hash ∉ w.chain.blocks.map Block.hash) (hadmits : w.Admits b) :
    Inclusions (w.chain.push b hb hnew) w.finalized w.accepted where
  blocks := by simp [Chain.push]
  finalized := by
    have hle := h.finalized
    rw [Chain.best_push, h.length_eq]
    omega
  epochs b' hb' := by
    rw [Chain.epoch_push]
    rcases List.mem_append.mp hb' with hold | hlast
    · exact (h.epochs b' hold).trans hadmits.1
    · rw [List.mem_singleton.mp hlast]
  distinct := h.distinct
  sent a ha := by
    have hle := h.sent a ha
    rw [Chain.best_push, h.length_eq]
    omega
  after a ha n hn := by
    rcases Chain.push_includesAt hn with hold | ⟨rfl, -⟩
    · exact h.after a ha n hold
    · have hle := h.sent a ha
      rw [h.length_eq]
      omega
  once a ha n m hn hm := by
    rcases Chain.push_includesAt hn with hn | ⟨rfl, hmem⟩
    · rcases Chain.push_includesAt hm with hm | ⟨rfl, hmem⟩
      · exact h.once a ha n m hn hm
      · -- the new block includes nothing that is included already
        exact absurd (Chain.includes_iff.mpr ⟨n, hn⟩) (hadmits.2 a ha hmem).1
    · rcases Chain.push_includesAt hm with hm | ⟨rfl, -⟩
      · exact absurd (Chain.includes_iff.mpr ⟨m, hm⟩) (hadmits.2 a ha hmem).1
      · rfl
  count a ha b' hb' := by
    rcases List.mem_append.mp hb' with hold | hlast
    · exact h.count a ha b' hold
    · rw [List.mem_singleton.mp hlast]
      by_cases hmem : a.txHash ∈ b.extrinsics
      · exact (hadmits.2 a ha hmem).2.1.le
      · exact (List.count_eq_zero.mpr hmem).le.trans (Nat.zero_le 1)
  cost a ha b' hb' e he heq := by
    rcases List.mem_append.mp hb' with hold | hlast
    · exact h.cost a ha b' hold e he heq
    · obtain rfl := List.mem_singleton.mp hlast
      have hmem : a.txHash ∈ b'.extrinsics := heq ▸ List.fst_mem_of_mem_zipIdx he
      exact (hadmits.2 a ha hmem).2.2 e he heq

/-- One more accepted extrinsic. -/
private theorem accept {w : ServiceWorld} {a : Accepted}
    (h : Inclusions w.chain w.finalized w.accepted) (hsent : a.sentAt = w.chain.best)
    (hfresh : a.txHash ∉ w.accepted.map Accepted.txHash) (hnew : ¬w.chain.Includes a.txHash) :
    Inclusions w.chain w.finalized (a :: w.accepted) := by
  have hnever : ∀ n, ¬w.chain.IncludesAt a.txHash n := fun n hn =>
    hnew (Chain.includes_iff.mpr ⟨n, hn⟩)
  have hnowhere : ∀ b ∈ w.chain.blocks, a.txHash ∉ b.extrinsics := fun b hb hmem =>
    hnew ⟨b, hb, hmem⟩
  refine ⟨h.blocks, h.finalized, h.epochs, List.nodup_cons.mpr ⟨hfresh, h.distinct⟩, ?_, ?_, ?_, ?_,
    ?_⟩
  · exact List.forall_mem_cons.mpr ⟨hsent.le, h.sent⟩
  · exact List.forall_mem_cons.mpr ⟨fun n hn => absurd hn (hnever n), h.after⟩
  · exact List.forall_mem_cons.mpr ⟨fun n m hn => absurd hn (hnever n), h.once⟩
  · refine List.forall_mem_cons.mpr ⟨fun b hb => ?_, h.count⟩
    exact (List.count_eq_zero.mpr (hnowhere b hb)).le.trans (Nat.zero_le 1)
  · refine List.forall_mem_cons.mpr ⟨fun b hb e he heq => ?_, h.cost⟩
    exact absurd (heq ▸ List.fst_mem_of_mem_zipIdx he) (hnowhere b hb)

end Inclusions

variable {configService : ConfigService} {registry : Registry}

/-- **Accepted extrinsics are included once, later, and for what they cost.** -/
theorem service_inclusions : (service configService registry).Preserves (course configService)
    (fun r w => w.phase r) (fun _ _ => True) (fun _ => True)
    fun w => Inclusions w.chain w.finalized w.accepted where
  env x P w' _ _ h hw := by
    rcases ServiceWorld.env_cases hw with ⟨b, hb, hnew, hadmits, rfl⟩ | ⟨n, -, hn, rfl⟩ |
      ⟨status, -, -, rfl⟩ | ⟨status, -, rfl⟩ | ⟨epoch, rfl⟩
    · exact h.produce hb hnew hadmits
    · exact { h with finalized := hn }
    · exact h
    · exact h
    · exact h
  launch reason r P p w' _ _ h hw := by
    rcases service_launch hw with ⟨-, -, -, rfl⟩ | ⟨-, -, rfl⟩ | ⟨-, -, rfl⟩ <;> exact h
  act r m w _ _ h := by simpa [service] using h
  issue r c w _ _ h := by simpa [service] using h
  answer r x c k P f w' _ _ _ _ h hw := by
    obtain ⟨cost, rfl, hreplies⟩ := service_answer hw
    simp only [ServiceWorld.observe_toOutside, ServiceWorld.observe_toRecord,
      ServiceWorld.carryOut_chain, ServiceWorld.carryOut_finalized]
    by_cases hc : ∃ extrinsic nonce, c = .signAndSend extrinsic nonce
    · obtain ⟨extrinsic, nonce, rfl⟩ := hc
      cases hf : f.effect with
      | none => exact h
      | some sent =>
          obtain ⟨-, -, hfresh, hnew⟩ := hreplies sent hf
          exact h.accept rfl hfresh hnew
    · rw [ServiceWorld.carryOut_accepted fun extrinsic nonce heq => hc ⟨extrinsic, nonce, heq⟩]
      exact h
  crash P _ _ h := h

/-! ## Their entries -/

/-- The largest height a job has read or signed for. -/
def Publishing.reach (publishing : Publishing) : ℕ :=
  max (publishing.lastFinalizedBlockNumber.getD 0) publishing.phase

/-- What a job has read and signed for are blocks that existed when its
extrinsic was sent. -/
structure Publishing.Timely (best : ℕ) (accepted : List Accepted) (publishing : Publishing) :
    Prop where
  unsent : publishing.txHash = none → publishing.reach ≤ best
  sent : ∀ txHash, publishing.txHash = some txHash →
    ∃ a ∈ accepted, a.txHash = txHash ∧ publishing.reach ≤ a.sentAt

namespace PublisherPhase

/-- Nothing has been done for a job whose check has passed. -/
def Fresh : PublisherPhase → Prop
  | passed _ publishing => publishing = {}
  | _ => True

/-- A job in progress is in time. -/
def Timely (best : ℕ) (accepted : List Accepted) : PublisherPhase → Prop
  | passed _ publishing => publishing.Timely best accepted
  | _ => True

variable {s : PublisherPhase} {configService : ConfigService} {best best' : ℕ}
  {accepted accepted' : List Accepted}

/-- A check ends in a job for which nothing has been done. -/
theorem next_fresh (h : ∀ gate publishing, s ≠ passed gate publishing) (obs : Obs Worker Err) :
    (s.next configService obs).Fresh := by
  cases s with
  | passed gate publishing => exact absurd rfl (h gate publishing)
  | reading details epoch =>
      cases obs with
      | await c f =>
          simp only [next, answered]
          cases f.seen with
          | error e => rfl
          | ok reply =>
              simp only
              unfold read
              split <;> try trivial
              -- the reply that decides the check
              unfold decide
              split <;> try trivial
              split <;> trivial
      | _ => simp only [next, Fresh]
  | _ =>
      unfold next answered
      split <;> (try split) <;> (try split) <;> trivial

/-- What a step of a job whose check has passed leads to. -/
theorem next_passed_cases {gate : Option Gate} {publishing : Publishing} {c : Call}
    {f : Fate Err c.Reply} :
    (passed gate publishing).next configService (.await c f) = finished ∨
      ∃ reply, f.seen = .ok reply ∧
        (passed gate publishing).next configService (.await c f) =
          built gate publishing c reply := by
  simp only [next, answered]
  cases f.seen with
  | error e => exact .inl rfl
  | ok reply => exact .inr ⟨reply, rfl, rfl⟩

/-- An operation on memory, or a call nobody awaits, does not change what is
known of an extrinsic. -/
theorem next_passed_other {gate : Option Gate} {publishing : Publishing} {obs : Obs Worker Err}
    (hobs : ∀ c f, obs ≠ .await c f) :
    (passed gate publishing).next configService obs = finished ∨
      (passed gate publishing).next configService obs = passed gate publishing := by
  cases obs with
  | await c f => exact absurd rfl (hobs c f)
  | sync m r => exact .inr (by cases m <;> rfl)
  | fire c => cases c <;> first | exact .inr rfl | exact .inl rfl

theorem Fresh.timely (h : s.Fresh) : s.Timely best accepted := by
  cases s with
  | passed gate publishing =>
      obtain rfl : publishing = {} := h
      exact ⟨fun _ => Nat.zero_le _, fun txHash htxHash => (by cases htxHash)⟩
  | _ => trivial

theorem Timely.mono (hbest : best ≤ best') (haccepted : accepted ⊆ accepted')
    (h : s.Timely best accepted) : s.Timely best' accepted' := by
  cases s with
  | passed gate publishing =>
      refine ⟨fun hunsent => (h.unsent hunsent).trans hbest, fun txHash hsent => ?_⟩
      obtain ⟨a, ha, hreach⟩ := h.sent txHash hsent
      exact ⟨a, haccepted ha, hreach⟩
  | _ => trivial

theorem Timely.other (h : s.Timely best accepted) {obs : Obs Worker Err}
    (hobs : ∀ c f, obs ≠ .await c f) : (s.next configService obs).Timely best accepted := by
  cases s with
  | passed gate publishing =>
      rcases next_passed_other hobs with heq | heq <;> rw [heq]
      · trivial
      · exact h
  | _ => exact (next_fresh (by simp) _).timely

end PublisherPhase

/-- An entry is that of an accepted extrinsic, and was born no later than that
was sent. -/
def ITxStatus.Timely (accepted : List Accepted) (t : ITxStatus) : Prop :=
  ∃ a ∈ accepted, a.txHash = t.txHash ∧ t.birth ≤ a.sentAt

/-- The job in progress and all entries are in time. -/
structure Timeliness (w : ServiceWorld) : Prop where
  job : w.publisher.Timely w.chain.best w.accepted
  listed : ∀ t ∈ w.watchList, t.Timely w.accepted
  underway : ∀ t ∈ w.outbox, t.Timely w.accepted

namespace Timeliness

variable {w : ServiceWorld} {c : Call} {f : Fate Err c.Reply} {cost : ℕ}

/-- Nothing that was accepted is forgotten. -/
private theorem accepted_subset {o : Option c.Reply} :
    w.accepted ⊆ (w.carryOut cost c o).accepted := by
  by_cases hc : ∃ extrinsic nonce, c = .signAndSend extrinsic nonce
  · obtain ⟨extrinsic, nonce, rfl⟩ := hc
    cases o with
    | none => exact List.Subset.refl _
    | some sent => exact List.subset_cons_self _ _
  · rw [ServiceWorld.carryOut_accepted fun extrinsic nonce heq => hc ⟨extrinsic, nonce, heq⟩]
    exact List.Subset.refl _

/-- A job goes on in time, whatever it is answered. -/
private theorem job_answered (h : Timeliness w)
    (hinclusions : Inclusions w.chain w.finalized w.accepted)
    (hallow : w.publisher.allow (.await c))
    (hreplies : ∀ reply, f.effect = some reply → w.Replies c reply) :
    (w.publisher.next configService (.await c f)).Timely w.chain.best
      (w.carryOut cost c f.effect).accepted := by
  have hjob := h.job
  cases hs : w.publisher with
  | passed gate publishing =>
      rw [hs] at hjob hallow
      rcases PublisherPhase.next_passed_cases with heq | ⟨reply, hseen, heq⟩
      · rw [heq]
        trivial
      · rw [heq]
        have heffect := Fate.effect_of_seen hseen
        obtain ⟨⟨pick, hreply⟩, hpossible⟩ := hreplies reply heffect
        cases c with
        | getLatestFinalizedBlockNumber =>
            obtain rfl : w.finalized = reply := hreply
            refine ⟨fun hunsent => ?_, fun txHash hsent => ?_⟩
            · have hle := hjob.unsent hunsent
              have hfinalized := hinclusions.finalized
              simp only [Publishing.reach, Option.getD_some] at hle ⊢
              omega
            · rw [show publishing.txHash = none from hallow] at hsent
              cases hsent
        | tx call =>
            obtain rfl : (⟨call, .immortal⟩ : SubmittableExtrinsic) = reply := hreply
            -- an unsigned extrinsic is immortal and moves no bound
            have hsame : ({ publishing with phase := max publishing.phase 0 } : Publishing) =
                publishing := by rw [Nat.max_zero]
            show PublisherPhase.Timely _ _
              (.passed gate { publishing with phase := max publishing.phase 0 })
            rw [hsame]
            exact PublisherPhase.Timely.mono le_rfl accepted_subset hjob
        | signAndSend extrinsic nonce =>
            have hle := hjob.unsent hallow
            rw [heffect]
            refine ⟨fun hunsent => (by cases hunsent), fun txHash hsent => ?_⟩
            -- the era starts at a block that exists when the extrinsic is accepted
            obtain rfl := Option.some.inj hsent
            refine ⟨_, List.mem_cons_self, rfl, ?_⟩
            have hphase : reply.2.era.phaseBound ≤ w.chain.best := hpossible.1
            simp only [Publishing.reach] at hle ⊢
            omega
        | _ => exact PublisherPhase.Timely.mono le_rfl accepted_subset hjob
  | _ => exact (PublisherPhase.next_fresh (by simp) _).timely

/-- The entry a job writes is in time. -/
private theorem written (h : Timeliness w) {txHash : Hash} {status : ITxStatus}
    (hallow : w.publisher.allow (.fire (.hset txHash status))) : status.Timely w.accepted := by
  have hjob := h.job
  cases hs : w.publisher with
  | passed gate publishing =>
      rw [hs] at hjob hallow
      obtain ⟨hsent, hhash, lastFinalizedBlockNumber, hlast, hbirth⟩ := hallow
      obtain ⟨a, ha, heq, hreach⟩ := hjob.sent txHash hsent
      refine ⟨a, ha, heq.trans hhash.symm, hbirth.trans ?_⟩
      rwa [Publishing.reach, hlast, Option.getD_some] at hreach
  | _ => rw [hs] at hallow; exact hallow.elim

end Timeliness

/-- **Every entry is that of an accepted extrinsic**, and was born no later than
that was sent. -/
theorem service_timeliness : (service configService registry).Preserves (course configService)
    (fun r w => w.phase r) (fun _ _ => True)
    (fun w => Inclusions w.chain w.finalized w.accepted) Timeliness where
  env x P w' _ hinclusions h hw := by
    rcases ServiceWorld.env_cases hw with ⟨b, hb, hnew, -, rfl⟩ | ⟨n, -, -, rfl⟩ |
      ⟨status, hstatus, -, rfl⟩ | ⟨status, -, rfl⟩ | ⟨epoch, rfl⟩
    · refine ⟨h.job.mono ?_ (List.Subset.refl _), h.listed, h.underway⟩
      rw [Chain.best_push, hinclusions.length_eq]
      exact Nat.le_succ _
    · exact ⟨h.job, h.listed, h.underway⟩
    · refine ⟨h.job, fun t ht => ?_, fun t ht => h.underway t (List.mem_of_mem_erase ht)⟩
      -- an entry on the list was underway before
      rcases WatchList.mem_hset.mp ht with ⟨hold, -⟩ | rfl
      · exact h.listed t hold
      · exact h.underway t hstatus
    · exact ⟨h.job, h.listed, fun t ht => h.underway t (List.mem_of_mem_erase ht)⟩
    · exact ⟨h.job, h.listed, h.underway⟩
  launch reason r P p w' _ _ h hw := by
    rcases service_launch hw with ⟨-, -, -, rfl⟩ | ⟨-, -, rfl⟩ | ⟨-, -, rfl⟩
    · exact ⟨h.job, h.listed, h.underway⟩
    · exact ⟨h.job, h.listed, h.underway⟩
    · exact ⟨trivial, h.listed, h.underway⟩
  act r m w hallow _ h := by
    refine ⟨?_, by simpa [service] using h.listed, by simpa [service] using h.underway⟩
    simp only [service, ServiceWorld.observe_toOutside, ServiceWorld.observe_toRecord,
      ServiceWorld.act_toOutside, ServiceWorld.act_toRecord]
    cases r with
    | notifier => simpa [ServiceWorld.observe] using h.job
    | publisher => simpa [ServiceWorld.observe] using h.job.other (by simp)
  issue r c w hallow _ h := by
    cases r with
    | notifier => exact (NotifierPhase.not_fire hallow).elim
    | publisher =>
        refine ⟨?_, by simpa [service] using h.listed, fun t ht => ?_⟩
        · simpa [service, ServiceWorld.observe] using h.job.other (by simp)
        · cases c with
          | hset txHash status =>
              rcases List.mem_append.mp ht with hold | hnew
              · exact h.underway t hold
              · rw [List.mem_singleton.mp hnew]
                exact h.written hallow
          | _ => exact h.underway t ht
  answer r x c k P f w' _ _ hallow hinclusions h hw := by
    obtain ⟨cost, rfl, hreplies⟩ := service_answer hw
    -- accepted extrinsics stay accepted
    have hgrow : ∀ t : ITxStatus, t.Timely P.world.accepted → t.Timely
        ((P.world.carryOut cost c f.effect).observe configService r (.await c f)).accepted := by
      rintro t ⟨a, ha, hbirth⟩
      rw [ServiceWorld.observe_toRecord]
      exact ⟨a, Timeliness.accepted_subset ha, hbirth⟩
    refine ⟨?_, fun t ht => ?_, fun t ht => ?_⟩
    · simp only [ServiceWorld.observe_toOutside, ServiceWorld.observe_toRecord,
        ServiceWorld.carryOut_chain]
      cases r with
      | notifier =>
          simpa [ServiceWorld.observe] using h.job.mono le_rfl Timeliness.accepted_subset
      | publisher =>
          simpa [ServiceWorld.observe] using h.job_answered hinclusions hallow hreplies
    · simp only [ServiceWorld.observe_toOutside] at ht
      exact hgrow t (h.listed t (ServiceWorld.carryOut_watchList_subset ht))
    · simp only [ServiceWorld.observe_toOutside, ServiceWorld.carryOut_outbox] at ht
      exact hgrow t (h.underway t ht)
  crash P _ _ h := ⟨trivial, h.listed, h.underway⟩

end AccountService
