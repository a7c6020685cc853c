import AccountService.Coherence

/-!
# Whether the scanner overtakes an entry

An entry is written only after the node has accepted its extrinsic, by a call
nobody awaits, while other entries, or the start-up on an empty list, may
advance the last seen block.  So the entry may land on the list when the scan
has read the list for its block, and is then never found.

`Ahead` is what keeps an entry safe: its block is beyond the last seen one, and
the scan in progress still comes to it or has read the entry for it.  Every step
of the service keeps it for the entries of the list, but for two: the landing of
an entry, and the reading of the finalised head at start-up.
-/

namespace AccountService

open Async

namespace NotifierPhase

/-- The scan in progress still comes to block `n`, or is in a pass over it that
has read an entry for `txHash`. -/
def Meets (txHash : Hash) (n : ℕ) : NotifierPhase → Prop
  | headed b => b < n
  | next m | reached m _ | confirming m _ | halted m _ | checked m _ => m ≤ n
  | opened p | located p | dated p | notifying p _ | booking p _ | closing p _ =>
      p.height < n ∨ p.height = n ∧ ∃ t ∈ p.pending, t.txHash = txHash
  | passed m => m < n
  | _ => True

instance (txHash : Hash) (n : ℕ) (s : NotifierPhase) : Decidable (s.Meets txHash n) := by
  unfold Meets
  split <;> infer_instance

variable {s : NotifierPhase} {txHash : Hash} {n : ℕ}

/-- A block that is not there yet is met by every scan. -/
theorem Placed.meets {chain : Chain} {lastSeen : Option ℕ} (h : s.Placed chain lastSeen)
    (hblocks : chain.blocks ≠ []) : s.Meets txHash chain.blocks.length := by
  have hpos := List.length_pos_iff.mpr hblocks
  cases s with
  | headed b =>
      have hle : b ≤ chain.best := h
      show b < chain.blocks.length
      unfold Chain.best at hle
      omega
  | next m => exact h
  | reached m hash => exact h.1
  | confirming m hash => exact (Chain.HasHash.lt h).le
  | halted m hash => exact (Chain.HasHash.lt h).le
  | checked m hash => exact (Chain.HasHash.lt h).le
  | opened p => exact .inl (Chain.HasHash.lt h)
  | located p => exact .inl (Chain.HasHash.lt h)
  | dated p => exact .inl (Chain.HasHash.lt h)
  | notifying p todo => exact .inl (Chain.HasHash.lt h)
  | booking p saved => exact .inl (Chain.HasHash.lt h)
  | closing p booked => exact .inl (Chain.HasHash.lt h)
  | passed m => exact h
  | _ => trivial

end NotifierPhase

/-- The block at height `n` is ahead of the scanner for an entry of `txHash`. -/
structure ServiceWorld.Ahead (w : ServiceWorld) (txHash : Hash) (n : ℕ) : Prop where
  lastSeen : w.lastSeen.getD 0 < n
  meets : w.notifier.Meets txHash n

namespace ServiceWorld.Ahead

variable {configService : ConfigService} {w : ServiceWorld} {c : Call} {f : Fate Err c.Reply}
  {cost n : ℕ} {t : ITxStatus} {txHash : Hash}

/-- A scan is led no further than to the block of an entry that stays. -/
private theorem step (h : w.Ahead t.txHash n) (hcoherent : Coherent w) {s' : NotifierPhase}
    (hstep : NotifierStep configService w.notifier c f s')
    (ht : t ∈ (w.carryOut cost c f.effect).watchList) (hincluded : w.chain.IncludesAt t.txHash n)
    (hskip : (∃ reply, f = .done reply) → w.notifier = .empty → w.finalized < n)
    (hreplies : ∀ reply, f.effect = some reply → w.Replies c reply) : s'.Meets t.txHash n := by
  have hmeets := h.meets
  have hphase := hcoherent.bearings.phase
  have hreads := hcoherent.reading.reads
  have hlisted := ServiceWorld.carryOut_watchList_subset ht
  generalize w.notifier = s at hstep hmeets hphase hreads hskip
  cases hstep with
  | finalizedHead b =>
      obtain ⟨⟨pick, hreply⟩, -⟩ := hreplies b rfl
      obtain rfl : w.finalized = b := hreply
      exact hskip ⟨_, rfl⟩ rfl
  | births b pending =>
      obtain ⟨⟨pick, hreply⟩, -⟩ := hreplies pending rfl
      obtain rfl : w.watchList = pending := hreply
      obtain rfl : b = w.lastSeen.getD 0 := hphase
      show TxnNotifierService.startingBlock _ w.watchList + 1 ≤ n
      -- the entry was born before its extrinsic was sent
      obtain ⟨a, ha, hhash, hbirth⟩ := hcoherent.timeliness.listed t hlisted
      have hsent := hcoherent.inclusions.after a ha n (hhash ▸ hincluded)
      have hlast := h.lastSeen
      have hstart : TxnNotifierService.startingBlock (w.lastSeen.getD 0) w.watchList ≤ n - 1 :=
        TxnNotifierService.startingBlock_le (by omega) (.inr ⟨t, hlisted, by omega⟩)
      omega
  | pending m hash pending =>
      obtain ⟨⟨pick, hreply⟩, -⟩ := hreplies pending rfl
      obtain rfl : w.watchList = pending := hreply
      rcases Nat.lt_or_eq_of_le (show m ≤ n from hmeets) with hlt | heq
      · exact .inl hlt
      · exact .inr ⟨heq, t, hlisted, rfl⟩
  | remove p booked hsettled hcomplete reply =>
      show p.height < n
      rcases hmeets with hlt | ⟨rfl, t', ht', hhash⟩
      · exact hlt
      · -- the entry was pending in its block, so it is removed
        obtain ⟨b, hb, hmem⟩ := hincluded
        obtain ⟨i, hi⟩ := List.mem_iff_getElem?.mp hmem
        have hfound : (t.txHash, i) ∈ p.found := by
          rw [(hreads p rfl b hb).found, mem_extrinsicIndices]
          exact ⟨List.mem_zipIdx_iff_getElem?.mpr hi, t', ht', hhash⟩
        have hremoved : t.txHash ∈ p.hdels :=
          List.mem_append_left _ (List.mem_map_of_mem hfound)
        exact absurd hremoved (WatchList.mem_hdel.mp ht).2
  | _ => first | exact hmeets | trivial

/-- **A step of the notifier** leaves the block of an entry ahead that stays on
the list, unless it has read a finalised head beyond it. -/
theorem answer (h : w.Ahead t.txHash n) (hcoherent : Coherent w)
    (hcall : NotifierCall configService w.notifier c)
    (ht : t ∈ (w.carryOut cost c f.effect).watchList) (hincluded : w.chain.IncludesAt t.txHash n)
    (hskip : (∃ reply, f = .done reply) → w.notifier = .empty → w.finalized < n)
    (hreplies : ∀ reply, f.effect = some reply → w.Replies c reply) :
    ((w.carryOut cost c f.effect).observe configService .notifier (.await c f)).Ahead
      t.txHash n := by
  have hmeets := h.meets
  constructor
  · rw [ServiceWorld.observe_toOutside]
    by_cases hc : ∃ b, c = .setLastSeen b
    · obtain ⟨b, rfl⟩ := hc
      cases f.effect with
      | none => exact h.lastSeen
      | some _ =>
          show b < n
          generalize w.notifier = s at hcall hmeets
          cases hcall with
          | skip b => exact hmeets
          | store b => exact hmeets
    · rw [ServiceWorld.carryOut_lastSeen fun b heq => hc ⟨b, heq⟩]
      exact h.lastSeen
  · rw [ServiceWorld.observe_notifier_notifier, ServiceWorld.carryOut_notifier]
    exact h.step hcoherent (hcall.step f) ht hincluded hskip hreplies

/-- It stays ahead when the chain grows. -/
theorem env (h : w.Ahead txHash n) {x : Happening} {w' : ServiceWorld} (hw : w.env x = some w') :
    w'.Ahead txHash n := by
  rcases ServiceWorld.env_cases hw with ⟨b, hb, hnew, -, rfl⟩ | ⟨m, -, -, rfl⟩ |
    ⟨status, -, -, rfl⟩ | ⟨status, -, rfl⟩ | ⟨epoch, rfl⟩ <;> exact ⟨h.lastSeen, h.meets⟩

/-- A block is ahead when it is produced. -/
theorem produced (hcoherent : Coherent w) (txHash : Hash) :
    w.Ahead txHash w.chain.blocks.length where
  lastSeen := by
    have hlast := hcoherent.bearings.lastSeen
    rw [hcoherent.inclusions.length_eq]
    omega
  meets := hcoherent.bearings.phase.meets hcoherent.inclusions.blocks

end ServiceWorld.Ahead

/-! ## Entries written in time -/

/-- The block of every entry is ahead. -/
def AllAhead (w : ServiceWorld) : Prop :=
  ∀ t ∈ w.watchList, ∀ n, w.chain.IncludesAt t.txHash n → w.Ahead t.txHash n

/-- An entry lands while its block is ahead, and a finalised head that is
answered at start-up is below the block of every entry on the list. -/
def InTime : Label Role Happening Reason → ServicePool → Prop
  | .env (.land status), P =>
      ∀ n, P.world.chain.IncludesAt status.txHash n → P.world.Ahead status.txHash n
  | .reply .notifier (.settle how _ _), P =>
      how.answers → P.world.notifier = .empty →
        ∀ t ∈ P.world.watchList, ∀ n, P.world.chain.IncludesAt t.txHash n → P.world.finalized < n
  | _, _ => True

variable {configService : ConfigService} {registry : Registry}

private theorem service_allAhead :
    NotifierPreserves configService registry InTime Coherent AllAhead where
  besides w w₀ h := fun t ht n hn => ⟨(h t ht n hn).lastSeen, (h t ht n hn).meets⟩
  env x P w' hC hcoherent h hw := by
    have hkept : ∀ txHash n, P.world.Ahead txHash n → w'.Ahead txHash n :=
      fun _ _ hahead => hahead.env hw
    rcases ServiceWorld.env_cases hw with ⟨b, hb, hnew, -, rfl⟩ | ⟨n, -, -, rfl⟩ |
      ⟨status, hstatus, rfl, rfl⟩ | ⟨status, -, rfl⟩ | ⟨epoch, rfl⟩
    · intro t ht n hn
      have hincluded : (P.world.chain.push b hb hnew).IncludesAt t.txHash n := hn
      rcases Chain.push_includesAt hincluded with hold | ⟨rfl, -⟩
      · exact hkept _ _ (h t ht n hold)
      · exact hkept _ _ (ServiceWorld.Ahead.produced hcoherent t.txHash)
    · exact fun t ht n hn => hkept _ _ (h t ht n hn)
    · intro t ht n hn
      rcases WatchList.mem_hset.mp ht with ⟨hold, -⟩ | rfl
      · exact hkept _ _ (h t hold n hn)
      · exact hkept _ _ (hC n hn)
    · exact fun t ht n hn => hkept _ _ (h t ht n hn)
    · exact fun t ht n hn => hkept _ _ (h t ht n hn)
  start reason P s _ _ h hs := by
    rcases hs with rfl | rfl <;> exact fun t ht n hn => ⟨(h t ht n hn).lastSeen, trivial⟩
  answer x c P f w' cost hC hcall hcoherent h hw hreplies := by
    intro t ht n hn
    obtain ⟨how, pick, cost', rfl, hfate⟩ := service_answer_fate hw
    simp only [ServiceWorld.observe_toOutside] at ht hn
    rw [ServiceWorld.carryOut_chain] at hn
    have hlisted := ServiceWorld.carryOut_watchList_subset ht
    have hahead := h t hlisted n hn
    refine hahead.answer hcoherent hcall ht hn ?_ hreplies
    rintro ⟨reply, hdone⟩ hempty
    exact hC (Settle.answers_of_fate (hfate.symm.trans hdone)) hempty t hlisted n hn
  crash P _ _ h := fun t ht n hn => ⟨(h t ht n hn).lastSeen, trivial⟩

/-! ## The theorem -/

/-- The extrinsic has been found in a block, by the pass in progress or by one
whose removals were carried out. -/
def ServiceWorld.Matched (w : ServiceWorld) (txHash : Hash) : Prop :=
  ∃ p ∈ w.notifier.pass.toList ++ w.removed, txHash ∈ p.found.map Prod.fst

/-- No entry is overtaken: where its extrinsic is included in a block that has
not been matched, the last seen block is below that block, or the block is being
processed with the entry among those that were read. -/
def NotOvertaken (w : ServiceWorld) : Prop :=
  ∀ t ∈ w.watchList, ∀ n, w.chain.IncludesAt t.txHash n → ¬w.Matched t.txHash →
    w.lastSeen.getD 0 < n ∨
      ∃ p, w.notifier.pass = some p ∧ p.height = n ∧ ∃ t' ∈ p.pending, t'.txHash = t.txHash

/-- **No entry is overtaken** in a run whose entries are written in time. -/
theorem service_notOvertaken (configService : ConfigService) (registry : Registry)
    (ls : List (Label Role Happening Reason)) (P : ServicePool)
    (hrun : (service configService registry).run ls ServicePool.init = some P)
    (hintime : (service configService registry).Along InTime ls ServicePool.init) :
    NotOvertaken P.world := by
  have hinit : AllAhead .init := fun t ht => (by cases ht)
  obtain ⟨-, hahead⟩ := service_run_keeps service_allAhead.preserves hinit hrun hintime
  exact fun t ht n hn _ => .inl (hahead t ht n hn).lastSeen

section Runs

instance (w : ServiceWorld) (txHash : Hash) (n : ℕ) : Decidable (w.Ahead txHash n) :=
  decidable_of_iff (w.lastSeen.getD 0 < n ∧ w.notifier.Meets txHash n)
    ⟨fun h => ⟨h.1, h.2⟩, fun h => ⟨h.lastSeen, h.meets⟩⟩

instance (chain : Chain) (txHash : Hash) (J : ℕ → Prop) [DecidablePred J] :
    Decidable (∀ n, chain.IncludesAt txHash n → J n) :=
  decidable_of_iff (∀ n < chain.blocks.length, (∃ b ∈ chain.blocks[n]?, txHash ∈ b.extrinsics) → J n)
    ⟨fun h n hn => h n hn.lt hn, fun h n _ hn => h n hn⟩

instance : ∀ l P, Decidable (InTime l P)
  | .env (.land status), P =>
      inferInstanceAs (Decidable (∀ n, P.world.chain.IncludesAt status.txHash n →
        P.world.Ahead status.txHash n))
  | .reply .notifier (.settle how _ _), P =>
      inferInstanceAs (Decidable (how.answers → P.world.notifier = .empty →
        ∀ t ∈ P.world.watchList, ∀ n, P.world.chain.IncludesAt t.txHash n → P.world.finalized < n))
  | .reply .notifier (.produce _), _ => .isTrue trivial
  | .reply .notifier (.finalise _), _ => .isTrue trivial
  | .reply .notifier (.land _), _ => .isTrue trivial
  | .reply .notifier (.lose _), _ => .isTrue trivial
  | .reply .notifier (.expire _), _ => .isTrue trivial
  | .reply .publisher _, _ => .isTrue trivial
  | .env (.produce _), _ => .isTrue trivial
  | .env (.finalise _), _ => .isTrue trivial
  | .env (.lose _), _ => .isTrue trivial
  | .env (.expire _), _ => .isTrue trivial
  | .env (.settle _ _ _), _ => .isTrue trivial
  | .start _ _, _ => .isTrue trivial
  | .resume _, _ => .isTrue trivial
  | .crash, _ => .isTrue trivial

/-- A sign-up is written, included in block 1 and finalised. -/
def signupIncluded : List (Label Role Happening Reason) :=
  signupSteps 7 0 ++
    [.env (.land (signupStatus 7)), .env (.produce ⟨2, 0, [7], []⟩), .env (.finalise 1)]

theorem service_notOvertaken_signup : ∃ P : ServicePool,
    (service (.amountLimit 50) ⟨fun _ => none⟩).run
        (notifierSteps .bootstrap 4 ++ signupIncluded) ServicePool.init = some P ∧
      NotOvertaken P.world := by
  obtain ⟨P, hrun⟩ : ∃ P, (service (.amountLimit 50) ⟨fun _ => none⟩).run
      (notifierSteps .bootstrap 4 ++ signupIncluded) ServicePool.init = some P :=
    Option.isSome_iff_exists.mp (by decide +kernel)
  exact ⟨P, hrun, service_notOvertaken _ _ _ P hrun (by decide +kernel)⟩

/-- The start-up finds the list empty before the sign-up, and reads the
finalised head after it. -/
theorem service_overtaken :
    ¬∀ (configService : ConfigService) (registry : Registry)
        (ls : List (Label Role Happening Reason)) (P : ServicePool),
      (service configService registry).run ls ServicePool.init = some P →
        NotOvertaken P.world := by
  intro h
  have hstate : ((service (.amountLimit 50) ⟨fun _ => none⟩).run
      (notifierSteps .bootstrap 2 ++ signupIncluded ++
        List.replicate 2 (.reply .notifier (granted 0 0))) ServicePool.init).map
          (fun P => ((P.world.watchList, P.world.lastSeen),
            (P.world.notifier, P.world.removed.length), P.world.chain.blocks)) =
        some (([signupStatus 7], some 1), (.idle, 0), [genesis, ⟨2, 0, [7], []⟩]) := by
    decide +kernel
  obtain ⟨P, hrun, hP⟩ := Option.map_eq_some_iff.mp hstate
  simp only [Prod.mk.injEq] at hP
  obtain ⟨⟨hwatchList, hlastSeen⟩, ⟨hnotifier, hremoved⟩, hblocks⟩ := hP
  have hincluded : P.world.chain.IncludesAt 7 1 := ⟨⟨2, 0, [7], []⟩, by rw [hblocks]; rfl, by simp⟩
  have hunmatched : ¬P.world.Matched 7 := by
    rintro ⟨p, hp, -⟩
    rw [hnotifier, List.eq_nil_of_length_eq_zero hremoved] at hp
    cases hp
  rcases h _ _ _ P hrun (signupStatus 7) (by rw [hwatchList]; simp) 1 hincluded hunmatched with
    hseen | ⟨p, hp, -⟩
  · rw [hlastSeen] at hseen
    exact absurd hseen (by decide)
  · rw [hnotifier] at hp
    cases hp

end Runs

end AccountService
