import AccountService.Coherence
import Mathlib.Algebra.Order.BigOperators.Group.List

/-!
# Whether the capacity limit is honoured

The check before a job compares the limit with the counter of the epoch, which
holds what the notifier has scanned, and not with what has been sent.  What is
still to be included, or is included and not yet scanned, is `outstanding`.

In the runs whose checks read the counter while what is outstanding is covered
by the limit, or by a counter that closes the gate, each extrinsic is sent with
at most the limit outstanding before it.  The last one sent of those included in
an epoch is then the one by which the limit is exceeded.
-/

namespace AccountService

open Async JavaScript

/-! ## What an extrinsic withdraws -/

/-- The capacity withdrawn in a block under a hash. -/
def Block.withdrawnFor (b : Block) (txHash : Hash) : ℕ :=
  ((b.extrinsics.zipIdx.filter fun x => x.1 = txHash).map fun x => b.withdrawn x.2).sum

namespace Chain

/-- The capacity withdrawn in an epoch under a hash. -/
def withdrawnFor (chain : Chain) (e : ℕ) (txHash : Hash) : ℕ :=
  ((chain.blocks.filter fun b => b.epoch = e).map fun b => b.withdrawnFor txHash).sum

/-- An extrinsic is included in a block of an epoch. -/
def IncludesIn (chain : Chain) (e : ℕ) (txHash : Hash) : Prop :=
  ∃ b ∈ chain.blocks, b.epoch = e ∧ txHash ∈ b.extrinsics

/-- An extrinsic is included in a block of an epoch before another. -/
def IncludesBefore (chain : Chain) (e : ℕ) (txHash : Hash) : Prop :=
  ∃ b ∈ chain.blocks, b.epoch < e ∧ txHash ∈ b.extrinsics

instance (chain : Chain) (e : ℕ) (txHash : Hash) : Decidable (chain.IncludesBefore e txHash) :=
  inferInstanceAs (Decidable (∃ b ∈ chain.blocks, b.epoch < e ∧ txHash ∈ b.extrinsics))

/-- The cost of the extrinsics that are not included before an epoch: those
included in it, and those still to come. -/
def outstanding (chain : Chain) (accepted : List Accepted) (e : ℕ) : ℕ :=
  ((accepted.filter fun a => ¬chain.IncludesBefore e a.txHash).map Accepted.cost).sum

end Chain

/-- The capacity withdrawn in an epoch for the extrinsics the service has
submitted. -/
def ServiceWorld.withdrawn (w : ServiceWorld) (e : ℕ) : ℕ :=
  (w.accepted.map fun a => w.chain.withdrawnFor e a.txHash).sum

/-- A sum with one summand at most that is not zero. -/
private theorem sum_le_of_pairwise {α : Type} {g : α → ℕ} {c : ℕ} {xs : List α}
    (honce : xs.Pairwise fun x y => g x = 0 ∨ g y = 0) (hle : ∀ x ∈ xs, g x ≤ c) :
    (xs.map g).sum ≤ c := by
  induction honce with
  | nil => exact Nat.zero_le c
  | @cons x xs hx hxs ih =>
      rw [List.map_cons, List.sum_cons]
      by_cases hzero : g x = 0
      · rw [hzero, Nat.zero_add]
        exact ih fun y hy => hle y (List.mem_cons_of_mem x hy)
      · have hrest : (xs.map g).sum = 0 := by
          refine List.sum_eq_zero fun n hn => ?_
          obtain ⟨y, hy, rfl⟩ := List.mem_map.mp hn
          exact (hx y hy).resolve_left hzero
        rw [hrest, Nat.add_zero]
        exact hle x List.mem_cons_self

namespace Block

variable {b : Block} {txHash : Hash}

theorem withdrawnFor_of_notMem (h : txHash ∉ b.extrinsics) : b.withdrawnFor txHash = 0 := by
  have hnone : b.extrinsics.zipIdx.filter (fun x => x.1 = txHash) = [] := by
    rw [List.filter_eq_nil_iff]
    intro x hx heq
    exact h (of_decide_eq_true heq ▸ List.fst_mem_of_mem_zipIdx hx)
  rw [withdrawnFor, hnone]
  rfl

/-- An extrinsic that is in a block once withdraws its cost there. -/
theorem withdrawnFor_le {cost : ℕ} (honce : b.extrinsics.count txHash ≤ 1)
    (hcost : ∀ x ∈ b.extrinsics.zipIdx, x.1 = txHash → b.withdrawn x.2 = cost) :
    b.withdrawnFor txHash ≤ cost := by
  have hlength : (b.extrinsics.zipIdx.filter fun x => x.1 = txHash).length =
      b.extrinsics.count txHash := by
    have hfst : b.extrinsics.zipIdx.map Prod.fst = b.extrinsics := by
      rw [List.zipIdx_map_fst]
    conv_rhs => rw [← hfst]
    rw [List.count, List.countP_map, List.countP_eq_length_filter]
    congr 1
  have hbound := List.sum_le_card_nsmul
    ((b.extrinsics.zipIdx.filter fun x => x.1 = txHash).map fun x => b.withdrawn x.2) cost (by
      intro n hn
      obtain ⟨x, hx, rfl⟩ := List.mem_map.mp hn
      obtain ⟨hmem, heq⟩ := List.mem_filter.mp hx
      exact (hcost x hmem (of_decide_eq_true heq)).le)
  rw [List.length_map, hlength, Nat.nsmul_eq_mul] at hbound
  exact hbound.trans ((Nat.mul_le_mul_right cost honce).trans (Nat.one_mul cost).le)

end Block

namespace Inclusions

variable {chain : Chain} {finalized : ℕ} {accepted : List Accepted} {a : Accepted}

/-- An accepted extrinsic withdraws its cost at most. -/
theorem withdrawnFor_le (h : Inclusions chain finalized accepted) (ha : a ∈ accepted) (e : ℕ) :
    chain.withdrawnFor e a.txHash ≤ a.cost := by
  refine sum_le_of_pairwise ?_ fun b hb => ?_
  · refine List.Pairwise.filter _ (List.pairwise_iff_getElem.mpr fun i j hi hj hlt => ?_)
    by_contra hboth
    rw [not_or] at hboth
    -- both blocks include it
    have hin : ∀ n (hn : n < chain.blocks.length),
        chain.blocks[n].withdrawnFor a.txHash ≠ 0 → chain.IncludesAt a.txHash n := by
      intro n hn hne
      refine ⟨chain.blocks[n], List.getElem?_eq_getElem hn, ?_⟩
      by_contra hmem
      exact hne (Block.withdrawnFor_of_notMem hmem)
    exact hlt.ne (h.once a ha i j (hin i hi hboth.1) (hin j hj hboth.2))
  · have hmem := List.mem_of_mem_filter hb
    exact Block.withdrawnFor_le (h.count a ha b hmem) (h.cost a ha b hmem)

/-- And nothing in an epoch it is not included in. -/
theorem withdrawnFor_eq_zero {e : ℕ} (hnot : ¬chain.IncludesIn e a.txHash) :
    chain.withdrawnFor e a.txHash = 0 := by
  refine List.sum_eq_zero fun n hn => ?_
  obtain ⟨b, hb, rfl⟩ := List.mem_map.mp hn
  obtain ⟨hmem, hepoch⟩ := List.mem_filter.mp hb
  exact Block.withdrawnFor_of_notMem fun hin => hnot ⟨b, hmem, of_decide_eq_true hepoch, hin⟩

end Inclusions

/-! ## What is outstanding -/

namespace Chain

variable {chain : Chain} {accepted : List Accepted} {e : ℕ}

theorem outstanding_cons (a : Accepted) :
    chain.outstanding (a :: accepted) e =
      (if chain.IncludesBefore e a.txHash then 0 else a.cost) + chain.outstanding accepted e := by
  unfold outstanding
  by_cases hbefore : chain.IncludesBefore e a.txHash <;> simp [hbefore]

/-- What is outstanding does not grow with the chain. -/
theorem outstanding_push_le {b : Block} (hb : b.hash ≠ 0)
    (hnew : b.hash ∉ chain.blocks.map Block.hash) :
    (chain.push b hb hnew).outstanding accepted e ≤ chain.outstanding accepted e := by
  induction accepted with
  | nil => exact le_rfl
  | cons a accepted ih =>
      rw [outstanding_cons, outstanding_cons]
      refine Nat.add_le_add ?_ ih
      by_cases hbefore : chain.IncludesBefore e a.txHash
      · obtain ⟨b', hb', hepoch, hmem⟩ := hbefore
        have hstill : (chain.push b hb hnew).IncludesBefore e a.txHash :=
          ⟨b', List.mem_append_left _ hb', hepoch, hmem⟩
        rw [if_pos hstill]
        exact Nat.zero_le _
      · rw [if_neg hbefore]
        split
        · exact Nat.zero_le _
        · exact le_rfl

end Chain

/-- What is withdrawn in an epoch was outstanding for every epoch up to it.
The induction is on the extrinsics. -/
theorem Inclusions.withdrawn_le {chain : Chain} {finalized : ℕ} {accepted earlier : List Accepted}
    (h : Inclusions chain finalized accepted) (hsubset : earlier ⊆ accepted) {e e' : ℕ}
    (hle : e' ≤ e) :
    (earlier.map fun a => chain.withdrawnFor e a.txHash).sum ≤ chain.outstanding earlier e' := by
  induction earlier with
  | nil => exact le_rfl
  | cons a earlier ih =>
      have ha : a ∈ accepted := hsubset List.mem_cons_self
      rw [List.map_cons, List.sum_cons, Chain.outstanding_cons]
      refine Nat.add_le_add ?_ (ih fun a' ha' => hsubset (List.mem_cons_of_mem a ha'))
      by_cases hbefore : chain.IncludesBefore e' a.txHash
      · -- it is included once, and that in an earlier epoch
        obtain ⟨b, hb, hepoch, hmem⟩ := hbefore
        have hzero : chain.withdrawnFor e a.txHash = 0 := by
          refine Inclusions.withdrawnFor_eq_zero ?_
          rintro ⟨b', hb', heq, hmem'⟩
          obtain ⟨n, hn⟩ := List.getElem?_of_mem hb
          obtain ⟨m, hm⟩ := List.getElem?_of_mem hb'
          obtain rfl := h.once a ha n m ⟨b, hn, hmem⟩ ⟨b', hm, hmem'⟩
          obtain rfl := Option.some.inj (hn.symm.trans hm)
          omega
        rw [hzero]
        exact Nat.zero_le _
      · rw [if_neg hbefore]
        exact h.withdrawnFor_le ha e

/-! ## The gate -/

/-- The threshold of a limit whose value is an integer. -/
def ICapacityLimit.threshold (capacityLimit : ICapacityLimit) (value : ℤ)
    (totalCapacityIssued : ℕ) : ℤ :=
  match capacityLimit.type with
  | .percentage => Int.tdiv (totalCapacityIssued * value) 100
  | .amount => value

/-- The gate compares what was used with the threshold. -/
theorem thresholdReached_eq {capacityLimit : ICapacityLimit} {value : ℤ}
    (hvalue : capacityLimit.value.toBigInt = some value) (totalCapacityIssued used : ℕ) :
    thresholdReached capacityLimit totalCapacityIssued used =
      .ok (decide (capacityLimit.threshold value totalCapacityIssued ≤ used)) := by
  unfold thresholdReached ICapacityLimit.threshold
  cases capacityLimit.type with
  | percentage => simp only [hvalue]
  | amount =>
      simp only
      cases hkind : capacityLimit.value with
      | number q =>
          rw [hkind] at hvalue
          simp only [Numeric.toBigInt, Option.ite_none_right_eq_some, Option.some.injEq] at hvalue
          have hq : q = (value : ℚ) := by
            rw [← hvalue.2]
            exact ((Rat.den_eq_one_iff q).mp hvalue.1).symm
          simp only [bigIntGe, hq]
          norm_cast
      | string s =>
          rw [hkind] at hvalue
          have hliteral : stringToBigInt s = some value := hvalue
          simp only [bigIntGe, hliteral]

section Limit

variable (configService : ConfigService) (value : ℤ)

/-- What is outstanding for the epoch of a gate is within the limit it was held
to. -/
structure Gate.Within (chain : Chain) (accepted : List Accepted) (gate : Gate) : Prop where
  epoch : gate.epoch ≤ chain.epoch
  outstanding : (chain.outstanding accepted gate.epoch : ℤ) ≤
    configService.capacityLimit.threshold value gate.totalCapacityIssued

/-- A job goes on only behind a gate within the limit. -/
def PublisherPhase.Within (chain : Chain) (accepted : List Accepted) : PublisherPhase → Prop
  | reading _ epoch => epoch ≤ chain.epoch
  | available gate | resuming gate => gate.Within configService value chain accepted
  | passed gate publishing => publishing.txHash = none →
      ∃ g, gate = some g ∧ g.Within configService value chain accepted
  | _ => True

/-- An extrinsic was sent behind a gate that was within the limit before it, and
is included no earlier than in the epoch of the gate. -/
structure Accepted.Within (chain : Chain) (earlier : List Accepted) (a : Accepted) (g : Gate) :
    Prop where
  gate : a.gate = some g
  within : g.Within configService value chain earlier
  later : ∀ b ∈ chain.blocks, a.txHash ∈ b.extrinsics → g.epoch ≤ b.epoch

/-- And so was every other before it. -/
def AllWithin (chain : Chain) : List Accepted → Prop
  | [] => True
  | a :: earlier => (∃ g, a.Within configService value chain earlier g) ∧
      AllWithin chain earlier

/-- The limit is exceeded in no epoch by more than the cost of one extrinsic
that is included in it. -/
def Limited (w : ServiceWorld) : Prop :=
  ∀ e, w.withdrawn e = 0 ∨ ∃ a ∈ w.accepted, w.chain.IncludesIn e a.txHash ∧
    ∃ g, a.gate = some g ∧ (w.withdrawn e : ℤ) ≤
      configService.capacityLimit.threshold value g.totalCapacityIssued + a.cost

end Limit

section Within

variable {configService : ConfigService} {value : ℤ} {chain : Chain} {accepted : List Accepted}
  {b : Block}

/-- A gate stays within the limit on a longer chain. -/
theorem Gate.Within.push {g : Gate} (h : g.Within configService value chain accepted)
    (hb : b.hash ≠ 0) (hnew : b.hash ∉ chain.blocks.map Block.hash)
    (hepoch : chain.epoch ≤ b.epoch) :
    g.Within configService value (chain.push b hb hnew) accepted where
  epoch := by
    rw [Chain.epoch_push]
    exact h.epoch.trans hepoch
  outstanding := by
    have hle : (chain.push b hb hnew).outstanding accepted g.epoch ≤
        chain.outstanding accepted g.epoch := Chain.outstanding_push_le hb hnew
    exact (Int.ofNat_le.mpr hle).trans h.outstanding

theorem PublisherPhase.Within.push {s : PublisherPhase}
    (h : s.Within configService value chain accepted) (hb : b.hash ≠ 0)
    (hnew : b.hash ∉ chain.blocks.map Block.hash) (hepoch : chain.epoch ≤ b.epoch) :
    s.Within configService value (chain.push b hb hnew) accepted := by
  cases s with
  | reading details epoch =>
      have hle : epoch ≤ chain.epoch := h
      show epoch ≤ (chain.push b hb hnew).epoch
      rw [Chain.epoch_push]
      exact hle.trans hepoch
  | available gate => exact Gate.Within.push h hb hnew hepoch
  | resuming gate => exact Gate.Within.push h hb hnew hepoch
  | passed gate publishing =>
      intro hunsent
      obtain ⟨g, hg, hwithin⟩ := h hunsent
      exact ⟨g, hg, hwithin.push hb hnew hepoch⟩
  | _ => trivial

theorem AllWithin.push (h : AllWithin configService value chain accepted) (hb : b.hash ≠ 0)
    (hnew : b.hash ∉ chain.blocks.map Block.hash) (hepoch : chain.epoch ≤ b.epoch) :
    AllWithin configService value (chain.push b hb hnew) accepted := by
  induction accepted with
  | nil => trivial
  | cons a earlier ih =>
      obtain ⟨⟨g, hgate, hwithin, hlater⟩, hrest⟩ := h
      refine ⟨⟨g, hgate, hwithin.push hb hnew hepoch, fun b' hb' hmem => ?_⟩, ih hrest⟩
      rcases List.mem_append.mp hb' with hold | hlast
      · exact hlater b' hold hmem
      · rw [List.mem_singleton.mp hlast]
        exact hwithin.epoch.trans hepoch

/-- **The last extrinsic sent of those included in an epoch** is the one by
which the limit is exceeded.  The induction is on the extrinsics, the last one
first. -/
theorem AllWithin.withdrawn {finalized : ℕ} {earlier : List Accepted}
    (h : AllWithin configService value chain earlier)
    (hinclusions : Inclusions chain finalized accepted) (hsubset : earlier ⊆ accepted) (e : ℕ) :
    (earlier.map fun a => chain.withdrawnFor e a.txHash).sum = 0 ∨
      ∃ a ∈ earlier, chain.IncludesIn e a.txHash ∧ ∃ g, a.gate = some g ∧
        (((earlier.map fun a => chain.withdrawnFor e a.txHash).sum : ℕ) : ℤ) ≤
          configService.capacityLimit.threshold value g.totalCapacityIssued + a.cost := by
  induction earlier with
  | nil => exact .inl rfl
  | cons a earlier ih =>
      obtain ⟨⟨g, hgate, hwithin, hlater⟩, hrest⟩ := h
      have hrestsubset : earlier ⊆ accepted := fun a' ha' => hsubset (List.mem_cons_of_mem a ha')
      rw [List.map_cons, List.sum_cons]
      by_cases hin : chain.IncludesIn e a.txHash
      · refine .inr ⟨a, List.mem_cons_self, hin, g, hgate, ?_⟩
        obtain ⟨b, hb, hepoch, hmem⟩ := hin
        -- what was sent before it and included by then was outstanding at its check
        have hcost := hinclusions.withdrawnFor_le (hsubset List.mem_cons_self) e
        have hbefore := hinclusions.withdrawn_le hrestsubset (hepoch ▸ hlater b hb hmem)
        have houtstanding := hwithin.outstanding
        omega
      · have hzero : chain.withdrawnFor e a.txHash = 0 := Inclusions.withdrawnFor_eq_zero hin
        rw [hzero, Nat.zero_add]
        rcases ih hrest hrestsubset with hnone | ⟨a', ha', hrest'⟩
        · exact .inl hnone
        · exact .inr ⟨a', List.mem_cons_of_mem a ha', hrest'⟩

end Within

/-! ## The runs -/

/-- A call of a check that reads is answered. -/
def PublisherPhase.reads : PublisherPhase → Bool
  | reading _ _ => true
  | _ => false

/-- The reads of the publisher's checks succeed. -/
def ReadsSucceed : Label Role Happening Reason → ServicePool → Prop
  | .reply .publisher (.settle how _ _), P => P.world.publisher.reads → how.answers
  | _, _ => True

/-- A check awaits the counter of the epoch. -/
def readsCounter (P : ServicePool) : Bool :=
  match P.task .publisher with
  | some (.await (.getEpochCapacity _) _) => true
  | _ => false

/-- What is outstanding is covered by the limit, or by the counter. -/
def PublisherPhase.Covered (configService : ConfigService) (value : ℤ) (w : Outside)
    (accepted : List Accepted) : PublisherPhase → Prop
  | reading details epoch =>
      (w.chain.outstanding accepted epoch : ℤ) ≤
        max (configService.capacityLimit.threshold value details.totalCapacityIssued)
          ((w.epochCapacity epoch).getD 0 : ℕ)
  | _ => True

/-- What is outstanding is covered where a check reads the counter. -/
def Covered (configService : ConfigService) (value : ℤ) :
    Label Role Happening Reason → ServicePool → Prop
  | .reply .publisher _, P => readsCounter P →
      P.world.publisher.Covered configService value P.world.toOutside P.world.accepted
  | _, _ => True

/-- Every gate was within the limit. -/
structure Heeded (configService : ConfigService) (value : ℤ) (w : ServiceWorld) : Prop where
  publisher : w.publisher.Within configService value w.chain w.accepted
  accepted : AllWithin configService value w.chain w.accepted

namespace PublisherPhase.Within

variable {configService : ConfigService} {value : ℤ} {chain : Chain} {accepted : List Accepted}
  {s : PublisherPhase}

/-- Operations on memory, and calls nobody awaits, leave a gate as it is. -/
theorem other (h : s.Within configService value chain accepted) {obs : Obs Worker Err}
    (hobs : ∀ c f, obs ≠ .await c f) :
    (s.next configService obs).Within configService value chain accepted := by
  cases s with
  | passed gate publishing =>
      rcases next_passed_other hobs with heq | heq <;> rw [heq]
      · trivial
      · exact h
  | available gate =>
      cases obs with
      | await c f => exact absurd rfl (hobs c f)
      | sync m r => cases m <;> exact h
      | fire c => cases c <;> exact h
  | _ =>
      cases obs with
      | await c f => exact absurd rfl (hobs c f)
      | sync m r =>
          cases m <;> first
            | exact h
            | trivial
            | (unfold next; simp only; split <;> trivial)
      | fire c => cases c <;> exact h

end PublisherPhase.Within

namespace Heeded

variable {configService : ConfigService} {value : ℤ} {w : ServiceWorld} {c : Call} {cost : ℕ}
  {f : Fate Err c.Reply}

/-- **A check that opens the gate** has found what is outstanding within the
limit. -/
private theorem decided (hvalue : configService.capacityLimit.value.toBigInt = some value)
    {details : CapacityDetails} {epoch : ℕ} (hepoch : epoch ≤ w.chain.epoch)
    (hcovered : (PublisherPhase.reading details epoch).Covered configService value w.toOutside
      w.accepted) :
    (PublisherPhase.decide configService details epoch ((w.epochCapacity epoch).getD 0)).Within
      configService value w.chain w.accepted := by
  unfold PublisherPhase.decide
  by_cases hnone : details.remainingCapacity = 0
  · rw [if_pos hnone]
    trivial
  · rw [if_neg hnone, thresholdReached_eq hvalue]
    by_cases hreached : configService.capacityLimit.threshold value details.totalCapacityIssued ≤
        ((w.epochCapacity epoch).getD 0 : ℕ)
    · rw [decide_eq_true hreached]
      trivial
    · rw [decide_eq_false hreached]
      -- below the limit, the larger of the two bounds is the limit
      have hmax : (w.chain.outstanding w.accepted epoch : ℤ) ≤ max _ _ := hcovered
      rw [max_eq_left (not_le.mp hreached).le] at hmax
      exact ⟨hepoch, hmax⟩

/-- A call of a check, or of a job that submits nothing, keeps the gate within
the limit. -/
private theorem answered (h : Heeded configService value w)
    (hvalue : configService.capacityLimit.value.toBigInt = some value)
    (hallow : w.publisher.allow (.await c))
    (hreads : w.publisher.reads → ∃ reply, f = .done reply)
    (hcovered : ∀ e, c = .getEpochCapacity e →
      w.publisher.Covered configService value w.toOutside w.accepted)
    (hreplies : ∀ reply, f.effect = some reply → w.Replies c reply)
    (hc : ∀ extrinsic nonce, c ≠ .signAndSend extrinsic nonce) :
    (w.publisher.next configService (.await c f)).Within configService value w.chain w.accepted := by
  have hwithin := h.publisher
  cases hs : w.publisher with
  | reading details epoch =>
      rw [hs] at hallow hreads hcovered hwithin
      obtain ⟨reply, rfl⟩ := hreads rfl
      obtain ⟨⟨pick, hreply⟩, -⟩ := hreplies reply rfl
      cases c with
      | getEpochCapacity e =>
          obtain rfl : e = epoch := hallow
          obtain rfl : w.epochCapacity e = reply := hreply
          exact decided hvalue hwithin (hcovered e rfl)
      | currentEpoch =>
          obtain rfl : w.chain.epoch = reply := hreply
          exact le_refl w.chain.epoch
      | _ => exact hwithin
  | exhausted =>
      simp only [PublisherPhase.next, PublisherPhase.answered]
      cases f.seen <;> trivial
  | available gate =>
      rw [hs] at hwithin
      simp only [PublisherPhase.next, PublisherPhase.answered]
      cases f.seen with
      | ok reply => exact hwithin
      | error e => exact fun _ => ⟨gate, rfl, hwithin⟩
  | resuming gate =>
      rw [hs] at hwithin
      exact fun _ => ⟨gate, rfl, hwithin⟩
  | passed gate publishing =>
      rw [hs] at hwithin
      rcases PublisherPhase.next_passed_cases with heq | ⟨reply, -, heq⟩ <;> rw [heq]
      · trivial
      · cases c with
        | signAndSend extrinsic nonce => exact absurd rfl (hc extrinsic nonce)
        | _ => exact hwithin
  | _ => trivial

/-- **A submission that is accepted** was sent behind a gate within the limit. -/
private theorem sent (h : Heeded configService value w) {extrinsic : SubmittableExtrinsic}
    {nonce : ℕ} (hallow : w.publisher.allow (.await (.signAndSend extrinsic nonce)))
    {f : Fate Err (Call.signAndSend extrinsic nonce).Reply}
    (hreplies : ∀ reply, f.effect = some reply → w.Replies (.signAndSend extrinsic nonce) reply) :
    Heeded configService value ((w.carryOut cost (.signAndSend extrinsic nonce) f.effect).observe
      configService .publisher (.await (.signAndSend extrinsic nonce) f)) := by
  have hwithin := h.publisher
  cases hs : w.publisher with
  | passed gate publishing =>
      rw [hs] at hallow hwithin
      obtain ⟨g, rfl, hg⟩ := hwithin hallow
      constructor
      · rw [ServiceWorld.observe_publisher_publisher, ServiceWorld.carryOut_publisher, hs]
        cases f with
        | done reply => exact fun hunsent => (by cases hunsent)
        | refused e => trivial
        | lost reply e => trivial
      · rw [ServiceWorld.observe_toOutside, ServiceWorld.observe_toRecord,
          ServiceWorld.carryOut_chain]
        cases hf : f.effect with
        | none => exact h.accepted
        | some reply =>
            -- the hash is new, so no block includes it yet
            obtain ⟨-, -, -, hnew⟩ := hreplies reply hf
            have hgate : w.publisher.gate = some g := by rw [hs]; rfl
            refine ⟨⟨g, hgate, hg, fun b hb hmem => ?_⟩, h.accepted⟩
            exact absurd ⟨b, hb, hmem⟩ hnew
  | _ => rw [hs] at hallow; exact hallow.elim

end Heeded

variable {configService : ConfigService} {registry : Registry} {value : ℤ}

private theorem service_heeded (hvalue : configService.capacityLimit.value.toBigInt = some value) :
    (service configService registry).Preserves (course configService) (fun r w => w.phase r)
      (fun l P => ReadsSucceed l P ∧ Covered configService value l P) Coherent
        (Heeded configService value) where
  env x P w' _ _ h hw := by
    rcases ServiceWorld.env_cases hw with ⟨b, hb, hnew, hadmits, rfl⟩ | ⟨n, -, -, rfl⟩ |
      ⟨status, -, -, rfl⟩ | ⟨status, -, rfl⟩ | ⟨epoch, rfl⟩
    · exact ⟨h.publisher.push hb hnew hadmits.1, h.accepted.push hb hnew hadmits.1⟩
    · exact ⟨h.publisher, h.accepted⟩
    · exact ⟨h.publisher, h.accepted⟩
    · exact ⟨h.publisher, h.accepted⟩
    · exact ⟨h.publisher, h.accepted⟩
  launch reason r P p w' _ _ h hw := by
    rcases service_launch hw with ⟨-, -, -, rfl⟩ | ⟨-, -, rfl⟩ | ⟨-, -, rfl⟩
    · exact ⟨h.publisher, h.accepted⟩
    · exact ⟨h.publisher, h.accepted⟩
    · exact ⟨Nat.zero_le _, h.accepted⟩
  act r m w _ _ h := by
    refine ⟨?_, by simpa [service] using h.accepted⟩
    cases r with
    | notifier => simpa [service] using h.publisher
    | publisher => simpa [service] using h.publisher.other (by simp)
  issue r c w _ _ h := by
    refine ⟨?_, by simpa [service] using h.accepted⟩
    cases r with
    | notifier => simpa [service] using h.publisher
    | publisher => simpa [service] using h.publisher.other (by simp)
  answer r x c k P f w' hC htask hallow _ h hw := by
    obtain ⟨how, pick, cost', rfl, hf⟩ := service_answer_fate hw
    obtain ⟨cost, rfl, hreplies⟩ := service_answer hw
    cases r with
    | notifier =>
        have hcall : NotifierCall configService P.world.notifier c := hallow
        refine ⟨?_, ?_⟩
        · simpa [ServiceWorld.carryOut_notifier_call hcall] using h.publisher
        · simpa [ServiceWorld.carryOut_notifier_call hcall] using h.accepted
    | publisher =>
        by_cases hc : ∃ extrinsic nonce, c = .signAndSend extrinsic nonce
        · obtain ⟨extrinsic, nonce, rfl⟩ := hc
          exact h.sent hallow hreplies
        · have hne : ∀ extrinsic nonce, c ≠ .signAndSend extrinsic nonce :=
            fun extrinsic nonce heq => hc ⟨extrinsic, nonce, heq⟩
          -- the condition on the step is about the call that is settled
          have hreads : P.world.publisher.reads → ∃ reply, f = .done reply := fun hreading =>
            ⟨_, hf.trans (Settle.fate_of_answers (hC.1 hreading) _)⟩
          have hcovered : ∀ e, c = .getEpochCapacity e →
              P.world.publisher.Covered configService value P.world.toOutside P.world.accepted := by
            rintro e rfl
            exact hC.2 (by simp [readsCounter, htask])
          have hnext := h.answered hvalue hallow hreads hcovered hreplies hne
          refine ⟨?_, ?_⟩
          · simpa [ServiceWorld.carryOut_accepted hne] using hnext
          · simpa [ServiceWorld.carryOut_accepted hne] using h.accepted
  crash P _ _ h := ⟨trivial, h.accepted⟩

/-! ## The theorem -/

/-- **The limit is honoured** in a run whose checks read the counter only while
what is outstanding is covered. -/
theorem service_limited (configService : ConfigService) (registry : Registry) (value : ℤ)
    (hvalue : configService.capacityLimit.value.toBigInt = some value)
    (ls : List (Label Role Happening Reason)) (P : ServicePool)
    (hrun : (service configService registry).run ls ServicePool.init = some P)
    (hreads : (service configService registry).Along ReadsSucceed ls ServicePool.init)
    (hcovered : (service configService registry).Along (Covered configService value) ls
      ServicePool.init) : Limited configService value P.world := by
  have hinit : Heeded configService value .init := ⟨trivial, trivial⟩
  obtain ⟨hcoherent, hheeded⟩ := service_run_keeps (service_heeded hvalue) hinit hrun
    (hreads.and _ hcovered)
  exact hheeded.accepted.withdrawn hcoherent.inclusions (List.Subset.refl _)

section Runs

instance : ∀ l P, Decidable (ReadsSucceed l P)
  | .reply .publisher (.settle how _ _), P =>
      inferInstanceAs (Decidable (P.world.publisher.reads → how.answers))
  | .reply .publisher (.produce _), _ => .isTrue trivial
  | .reply .publisher (.finalise _), _ => .isTrue trivial
  | .reply .publisher (.land _), _ => .isTrue trivial
  | .reply .publisher (.lose _), _ => .isTrue trivial
  | .reply .publisher (.expire _), _ => .isTrue trivial
  | .reply .notifier _, _ => .isTrue trivial
  | .env _, _ => .isTrue trivial
  | .start _ _, _ => .isTrue trivial
  | .resume _, _ => .isTrue trivial
  | .crash, _ => .isTrue trivial

instance (configService : ConfigService) (value : ℤ) (w : Outside) (accepted : List Accepted)
    (s : PublisherPhase) : Decidable (s.Covered configService value w accepted) := by
  unfold PublisherPhase.Covered
  split <;> infer_instance

instance (configService : ConfigService) (value : ℤ) :
    ∀ l P, Decidable (Covered configService value l P)
  | .reply .publisher _, P =>
      inferInstanceAs (Decidable (readsCounter P →
        P.world.publisher.Covered configService value P.world.toOutside P.world.accepted))
  | .reply .notifier _, _ => .isTrue trivial
  | .env _, _ => .isTrue trivial
  | .start _ _, _ => .isTrue trivial
  | .resume _, _ => .isTrue trivial
  | .crash, _ => .isTrue trivial

/-- Two sign-ups that cost 5 each, the second of which is checked when the first
has been scanned. -/
def signupsInTurn : List (Label Role Happening Reason) :=
  signupCharged ++ firstScan 14 ++ signupSteps 8 5 ++
    [.env (.produce ⟨3, 0, [8], [⟨.applyExtrinsic 0, .capacityWithdrawn 1 5⟩]⟩)]

/-- They exceed a limit of 6 by less than either costs. -/
theorem service_limited_signups : ∃ P : ServicePool,
    (service (.amountLimit 6) ⟨fun _ => none⟩).run signupsInTurn ServicePool.init = some P ∧
      Limited (.amountLimit 6) 6 P.world ∧ P.world.withdrawn 0 = 10 := by
  have hstate : ((service (.amountLimit 6) ⟨fun _ => none⟩).run signupsInTurn
      ServicePool.init).map (fun P => P.world.withdrawn 0) = some 10 := by decide +kernel
  obtain ⟨P, hrun, hP⟩ := Option.map_eq_some_iff.mp hstate
  have hlimited := service_limited _ _ 6 (by decide +kernel) _ P hrun (by decide +kernel)
    (by decide +kernel)
  exact ⟨P, hrun, hlimited, hP⟩

/-- Three sign-ups that cost 10 each, sent before any is scanned, are included
in block 1. -/
theorem service_limit_exceeded :
    ¬∀ (configService : ConfigService) (registry : Registry) (value : ℤ),
      configService.capacityLimit.value.toBigInt = some value →
        ∀ (ls : List (Label Role Happening Reason)) (P : ServicePool),
          (service configService registry).run ls ServicePool.init = some P →
            (service configService registry).Along ReadsSucceed ls ServicePool.init →
              Limited configService value P.world := by
  intro h
  have hstate : ((service (.amountLimit 1) ⟨fun _ => none⟩).run
      (signupSteps 7 10 ++ signupSteps 8 10 ++ signupSteps 9 10 ++
        [.env (.produce ⟨2, 0, [7, 8, 9],
          [⟨.applyExtrinsic 0, .capacityWithdrawn 1 10⟩, ⟨.applyExtrinsic 1, .capacityWithdrawn 1 10⟩,
            ⟨.applyExtrinsic 2, .capacityWithdrawn 1 10⟩]⟩)]) ServicePool.init).map
        (fun P => (P.world.withdrawn 0, P.world.accepted.map Accepted.cost)) =
          some (30, [10, 10, 10]) := by decide +kernel
  obtain ⟨P, hrun, hP⟩ := Option.map_eq_some_iff.mp hstate
  obtain ⟨hwithdrawn, hcosts⟩ := Prod.mk.inj hP
  have hlimited := h _ _ 1 (by decide +kernel) _ P hrun (by decide +kernel)
  rcases hlimited 0 with hnone | ⟨a, ha, -, g, -, hle⟩
  · rw [hwithdrawn] at hnone
    cases hnone
  · have hcost : a.cost = 10 := by
      have hmem : a.cost ∈ P.world.accepted.map Accepted.cost := List.mem_map_of_mem ha
      rw [hcosts] at hmem
      simpa using hmem
    have hthreshold : (ConfigService.amountLimit 1).capacityLimit.threshold 1
        g.totalCapacityIssued = 1 := rfl
    rw [hwithdrawn, hthreshold, hcost] at hle
    omega

end Runs

end AccountService
