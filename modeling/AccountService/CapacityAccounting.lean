import AccountService.Coherence

/-!
# What the counter of an epoch holds

A pass adds the capacity its watched extrinsics have used to the counter of the
epoch, by reading the counter and writing the sum, and then removes their
entries.  The two are separate: errors of the first are swallowed, the second
may fail, and the process may die in between.

`Booked` is what holds in every run: a counter that has not expired holds the
sum of what was written to it.  `Balanced` compares what was written with what
was removed; it holds in the runs in which the two go together.
-/

namespace AccountService

open Async

/-! ## Sums -/

/-- The sum of the amounts under an epoch. -/
def sumFor (e : ℕ) (amounts : List (ℕ × ℕ)) : ℕ :=
  ((amounts.filter fun x => x.1 = e).map Prod.snd).sum

@[simp] theorem sumFor_nil (e : ℕ) : sumFor e [] = 0 := rfl

@[simp] theorem sumFor_cons (e : ℕ) (x : ℕ × ℕ) (amounts : List (ℕ × ℕ)) :
    sumFor e (x :: amounts) = (if x.1 = e then x.2 else 0) + sumFor e amounts := by
  unfold sumFor
  by_cases hx : x.1 = e <;> simp [hx]

/-! ## What was written -/

namespace NotifierPhase

/-- What has been read of the counter is what it holds. -/
def Saved (epochCapacity : ℕ → Option ℕ) (expired : List ℕ) : NotifierPhase → Prop
  | booking p savedCapacity =>
      p.epoch ∉ expired → savedCapacity.getD 0 = (epochCapacity p.epoch).getD 0
  | _ => True

/-- What a pass has added to the counter, while it has not removed its entries. -/
def due : NotifierPhase → List (ℕ × ℕ)
  | closing p true => [(p.epoch, p.capacityWithdrawn)]
  | _ => []

/-- The pass whose pipeline is executed next, and whether it has added to the
counter. -/
def closes : NotifierPhase → Option (Pass × Bool)
  | closing p booked => some (p, booked)
  | _ => none

variable {s s' : NotifierPhase} {configService : ConfigService} {c : Call}

/-- Only the write of the counter leaves something due. -/
theorem due_step {f : Fate Err c.Reply} (hstep : NotifierStep configService s c f s')
    (hc : ∀ e seconds value, c ≠ .setexEpochCapacity e seconds value) : s'.due = [] := by
  cases hstep with
  | book p savedCapacity seconds f => exact absurd rfl (hc _ _ _)
  | _ => rfl

/-- Nothing is due but where the pipeline is executed. -/
theorem due_of_call (hcall : NotifierCall configService s c) (hc : ∀ hdels, c ≠ .exec hdels) :
    s.due = [] := by
  cases hcall with
  | remove p booked hsettled hcomplete => exact absurd rfl (hc _)
  | _ => rfl

/-- What is read of the counter stays what it holds while the counter does. -/
theorem Saved.step {w : ServiceWorld} {f : Fate Err c.Reply}
    (h : w.notifier.Saved w.epochCapacity w.expired)
    (hstep : NotifierStep configService w.notifier c f s')
    (hc : ∀ e seconds value, c ≠ .setexEpochCapacity e seconds value)
    (hreplies : ∀ reply, f.effect = some reply → w.Replies c reply) :
    s'.Saved w.epochCapacity w.expired := by
  generalize w.notifier = s at h hstep
  cases hstep with
  | book p savedCapacity seconds f => exact absurd rfl (hc _ _ _)
  | savedCapacity p hsettled hcomplete savedCapacity =>
      obtain ⟨⟨pick, hreply⟩, -⟩ := hreplies savedCapacity rfl
      intro _
      rw [← hreply]
      rfl
  | epochLength p savedCapacity epochLength => exact h
  | _ => trivial

end NotifierPhase

/-- A counter that has not expired holds what was written to it. -/
structure Booked (w : ServiceWorld) : Prop where
  counter : ∀ e ∉ w.expired, (w.epochCapacity e).getD 0 = sumFor e w.booked
  saved : w.notifier.Saved w.epochCapacity w.expired

namespace Booked

variable {configService : ConfigService} {w : ServiceWorld} {c : Call} {cost : ℕ}

/-- A write adds to what was read. -/
private theorem written (h : Booked w) {e seconds value : ℕ}
    (hcall : NotifierCall configService w.notifier (.setexEpochCapacity e seconds value))
    (f : Fate Err (Call.setexEpochCapacity e seconds value).Reply) :
    Booked ((w.carryOut cost (.setexEpochCapacity e seconds value) f.effect).observe configService
      .notifier (.await (.setexEpochCapacity e seconds value) f)) := by
  have hsaved := h.saved
  obtain ⟨p, saved, hs, rfl, rfl⟩ := hcall.booking
  rw [hs] at hsaved
  refine ⟨fun e he => ?_, ?_⟩
  · rw [ServiceWorld.observe_toRecord, ServiceWorld.carryOut_expired] at he
    rw [ServiceWorld.observe_toRecord, ServiceWorld.observe_toOutside]
    have hold := h.counter e he
    cases f.effect with
    | none => exact hold
    | some _ =>
        show (Function.update w.epochCapacity p.epoch _ e).getD 0 =
          sumFor e (w.notifier.pass.toList.map (fun p => (p.epoch, p.capacityWithdrawn)) ++ w.booked)
        have hpass : w.notifier.pass = some p := by rw [hs]; rfl
        rw [hpass, Option.toList_some, List.map_singleton, List.singleton_append, sumFor_cons]
        by_cases hepoch : p.epoch = e
        · subst hepoch
          have hread : saved.getD 0 = (w.epochCapacity p.epoch).getD 0 := hsaved he
          rw [Function.update_self, Option.getD_some, if_pos rfl, hread, hold, Nat.add_comm]
        · rw [Function.update_of_ne (Ne.symm hepoch), if_neg hepoch, Nat.zero_add, hold]
  · rw [ServiceWorld.observe_notifier_notifier, ServiceWorld.carryOut_notifier, hs]
    trivial

end Booked

variable {configService : ConfigService} {registry : Registry}

theorem service_booked :
    NotifierPreserves configService registry (fun _ _ => True) Coherent Booked where
  besides w w₀ h := ⟨h.counter, h.saved⟩
  env x P w' _ _ h hw := by
    rcases ServiceWorld.env_cases hw with ⟨b, hb, hnew, -, rfl⟩ | ⟨n, -, -, rfl⟩ |
      ⟨status, -, -, rfl⟩ | ⟨status, -, rfl⟩ | ⟨epoch, rfl⟩
    · exact ⟨h.counter, h.saved⟩
    · exact ⟨h.counter, h.saved⟩
    · exact ⟨h.counter, h.saved⟩
    · exact ⟨h.counter, h.saved⟩
    · -- the other counters are as they were
      have hkept : ∀ e ∉ epoch :: P.world.expired,
          (Function.update P.world.epochCapacity epoch none e).getD 0 =
            (P.world.epochCapacity e).getD 0 := by
        intro e he
        have hne : e ≠ epoch := fun heq => he (by rw [heq]; exact List.mem_cons_self)
        rw [Function.update_of_ne hne]
      refine ⟨fun e he => ?_, ?_⟩
      · show (Function.update P.world.epochCapacity epoch none e).getD 0 = _
        rw [hkept e he]
        exact h.counter e fun hold => he (List.mem_cons_of_mem _ hold)
      · have hsaved := h.saved
        show P.world.notifier.Saved (Function.update P.world.epochCapacity epoch none) _
        cases hs : P.world.notifier with
        | booking p saved =>
            rw [hs] at hsaved
            intro hp
            rw [hkept p.epoch hp]
            exact hsaved fun hold => hp (List.mem_cons_of_mem _ hold)
        | _ => trivial
  start reason P s _ _ h hs := by
    rcases hs with rfl | rfl <;> exact ⟨h.counter, trivial⟩
  answer x c P f w' cost _ hcall _ h _ hreplies := by
    by_cases hc : ∃ e seconds value, c = .setexEpochCapacity e seconds value
    · obtain ⟨e, seconds, value, rfl⟩ := hc
      exact h.written hcall f
    · have hne : ∀ e seconds value, c ≠ .setexEpochCapacity e seconds value :=
        fun e seconds value heq => hc ⟨e, seconds, value, heq⟩
      refine ⟨?_, ?_⟩
      · simp only [ServiceWorld.observe_toRecord, ServiceWorld.observe_toOutside,
          ServiceWorld.carryOut_expired, ServiceWorld.carryOut_epochCapacity hne,
          ServiceWorld.carryOut_booked hne]
        exact h.counter
      · have hmoved := h.saved.step (hcall.step f) hne hreplies
        simpa [ServiceWorld.carryOut_epochCapacity hne] using hmoved
  crash P _ _ h := ⟨h.counter, trivial⟩

/-! ## What was written and what was removed -/

/-- What was added to the counters is what the removed passes have withdrawn,
and what is due. -/
def Balanced (w : ServiceWorld) : Prop :=
  ∀ e, sumFor e w.booked =
    sumFor e (w.removed.map fun p => (p.epoch, p.capacityWithdrawn)) + sumFor e w.notifier.due

/-- A pass that has withdrawn capacity removes its entries exactly if it has
added to the counter, and no crash and no other scan comes between the two. -/
def Paired : Label Role Happening Reason → ServicePool → Prop
  | .reply .notifier (.settle how _ _), P =>
      ∀ x ∈ P.world.notifier.closes, x.1.capacityWithdrawn ≠ 0 → how.carriedOut = x.2
  | .start _ .notifier, P | .crash, P =>
      ∀ x ∈ P.world.notifier.closes, x.1.capacityWithdrawn ≠ 0 → x.2 = false
  | _, _ => True

namespace Balanced

variable {w : ServiceWorld} {c : Call} {cost : ℕ}

/-- Where nothing is written or removed, nothing may be due. -/
private theorem of_due {w' : ServiceWorld} (h : Balanced w) (hbooked : w'.booked = w.booked)
    (hremoved : w'.removed = w.removed)
    (hdue : ∀ e, sumFor e w'.notifier.due = sumFor e w.notifier.due) :
    Balanced w' := by
  intro e
  rw [hbooked, hremoved, hdue e]
  exact h e

/-- A pass that is abandoned has nothing due. -/
private theorem due_of_closes {s : NotifierPhase}
    (hclear : ∀ x ∈ s.closes, x.1.capacityWithdrawn ≠ 0 → x.2 = false) (e : ℕ) :
    sumFor e s.due = 0 := by
  cases s with
  | closing p booked =>
      cases booked with
      | false => rfl
      | true =>
          have hnone : p.capacityWithdrawn = 0 := by
            by_contra hne
            exact absurd (hclear (p, true) rfl hne) (by simp)
          show sumFor e [(p.epoch, p.capacityWithdrawn)] = 0
          rw [sumFor_cons, hnone]
          simp
  | _ => rfl

private theorem sumFor_due (e : ℕ) (p : Pass) (booked : Bool) :
    sumFor e (NotifierPhase.closing p booked).due =
      if booked ∧ p.epoch = e then p.capacityWithdrawn else 0 := by
  cases booked with
  | false => simp [NotifierPhase.due]
  | true => simp [NotifierPhase.due]

/-- A write is due until the removals. -/
private theorem written (h : Balanced w) {e seconds value : ℕ}
    (hcall : NotifierCall configService w.notifier (.setexEpochCapacity e seconds value))
    (f : Fate Err (Call.setexEpochCapacity e seconds value).Reply) :
    Balanced ((w.carryOut cost (.setexEpochCapacity e seconds value) f.effect).observe
      configService .notifier (.await (.setexEpochCapacity e seconds value) f)) := by
  obtain ⟨p, saved, hs, rfl, rfl⟩ := hcall.booking
  intro e'
  have hbalance := h e'
  rw [hs] at hbalance
  rw [ServiceWorld.observe_notifier_notifier, ServiceWorld.observe_toRecord,
    ServiceWorld.carryOut_notifier, hs, ServiceWorld.carryOut_removed (by simp)]
  show _ = _ + sumFor e' (NotifierPhase.closing p f.effect.isSome).due
  rw [sumFor_due]
  cases f.effect with
  | none =>
      rw [ServiceWorld.carryOut_none, hbalance]
      simp [NotifierPhase.due]
  | some _ =>
      have hpass : w.notifier.pass = some p := by rw [hs]; rfl
      show sumFor e' (w.notifier.pass.toList.map _ ++ w.booked) = _
      rw [hpass, Option.toList_some, List.map_singleton, List.singleton_append, sumFor_cons,
        hbalance]
      simp [NotifierPhase.due, Nat.add_comm]

/-- What was due is removed. -/
private theorem removed (h : Balanced w) {hdels : List Hash}
    (hcall : NotifierCall configService w.notifier (.exec hdels))
    {f : Fate Err (Call.exec hdels).Reply}
    (hpaired : ∀ x ∈ w.notifier.closes, x.1.capacityWithdrawn ≠ 0 → f.effect.isSome = x.2) :
    Balanced ((w.carryOut cost (.exec hdels) f.effect).observe configService .notifier
      (.await (.exec hdels) f)) := by
  have hdone := NotifierPhase.due_step (hcall.step f) (by simp)
  obtain ⟨p, booked, hs, rfl⟩ := hcall.closing
  -- with nothing withdrawn it makes no difference whether the counter was written
  have hpair : p.capacityWithdrawn ≠ 0 → f.effect.isSome = booked :=
    hpaired (p, booked) (by rw [hs]; rfl)
  intro e
  have hbalance := h e
  rw [hs, sumFor_due] at hbalance
  rw [ServiceWorld.observe_notifier_notifier, ServiceWorld.carryOut_notifier, hdone,
    ServiceWorld.observe_toRecord, ServiceWorld.carryOut_booked (by simp), hbalance, sumFor_nil]
  cases hf : f.effect with
  | none =>
      rw [ServiceWorld.carryOut_none]
      rw [hf] at hpair
      by_cases hnone : p.capacityWithdrawn = 0
      · simp [hnone]
      · simp [← hpair hnone]
  | some _ =>
      have hpass : w.notifier.pass = some p := by rw [hs]; rfl
      rw [hf] at hpair
      show _ = sumFor e ((w.notifier.pass.toList ++ w.removed).map _) + 0
      rw [hpass, Option.toList_some, List.singleton_append, List.map_cons, sumFor_cons]
      by_cases hnone : p.capacityWithdrawn = 0
      · simp [hnone]
      · simp [← hpair hnone, Nat.add_comm]

end Balanced

theorem service_balanced : NotifierPreserves configService registry Paired Coherent Balanced where
  besides w w₀ h := h.of_due rfl rfl fun e => rfl
  env x P w' _ _ h hw := by
    rcases ServiceWorld.env_cases hw with ⟨b, hb, hnew, -, rfl⟩ | ⟨n, -, -, rfl⟩ |
      ⟨status, -, -, rfl⟩ | ⟨status, -, rfl⟩ | ⟨epoch, rfl⟩ <;> exact h
  start reason P s hC _ h hs := by
    rcases hs with rfl | rfl <;>
      exact h.of_due rfl rfl fun e => (Balanced.due_of_closes hC e).symm
  answer x c P f w' cost hC hcall _ h hw _ := by
    obtain ⟨how, pick, cost', rfl, hf⟩ := service_answer_fate hw
    by_cases hexec : ∃ hdels, c = .exec hdels
    · obtain ⟨hdels, rfl⟩ := hexec
      refine h.removed hcall fun x hx hne => ?_
      rw [hf, Settle.fate_isSome]
      exact hC x hx hne
    · have hremoved : ∀ hdels, c ≠ .exec hdels := fun hdels heq => hexec ⟨hdels, heq⟩
      by_cases hc : ∃ e seconds value, c = .setexEpochCapacity e seconds value
      · obtain ⟨e, seconds, value, rfl⟩ := hc
        exact h.written hcall f
      · -- nothing falls due and nothing is removed
        have hne : ∀ e seconds value, c ≠ .setexEpochCapacity e seconds value :=
          fun e seconds value heq => hc ⟨e, seconds, value, heq⟩
        refine h.of_due ?_ ?_ fun e => ?_
        · simpa using ServiceWorld.carryOut_booked hne
        · simpa using ServiceWorld.carryOut_removed hremoved
        · rw [ServiceWorld.observe_notifier_notifier, ServiceWorld.carryOut_notifier,
            NotifierPhase.due_step (hcall.step f) hne, NotifierPhase.due_of_call hcall hremoved]
  crash P hC _ h := h.of_due rfl rfl fun e => (Balanced.due_of_closes hC e).symm

/-! ## The theorem -/

/-- The capacity withdrawn in the blocks of an epoch for the extrinsics found
there by the passes whose removals were carried out. -/
def ServiceWorld.withdrawnIn (w : ServiceWorld) (e : ℕ) : ℕ :=
  (w.removed.map fun p =>
    (w.chain.blocks[p.height]?.map fun b =>
      if b.epoch = e then (p.found.map fun x => b.withdrawn x.2).sum else 0).getD 0).sum

/-- The counters hold exactly what was withdrawn for the watched extrinsics that
were found in a block and have left the watch list: each of them was an entry
of the list and an extrinsic of the block, all such of the block were found,
none is found again, and none is on the list. -/
structure ExactlyCounted (w : ServiceWorld) : Prop where
  found : ∀ p ∈ w.removed, ∃ b, w.chain.blocks[p.height]? = some b ∧
    p.found = extrinsicIndices p.pending b.extrinsics
  once : (w.removed.flatMap fun p => p.found.map Prod.fst).Nodup
  left : ∀ p ∈ w.removed, ∀ x ∈ p.found, ∀ t ∈ w.watchList, t.txHash ≠ x.1
  counter : ∀ e ∉ w.expired, (w.epochCapacity e).getD 0 = w.withdrawnIn e

/-- What a pass adds to a counter is what its block has withdrawn for what it
has found. -/
theorem Pass.Done.capacityWithdrawn {p : Pass} {b : Block} (h : p.Done b) (e : ℕ) :
    (if p.epoch = e then p.capacityWithdrawn else 0) =
      if b.epoch = e then (p.found.map fun x => b.withdrawn x.2).sum else 0 := by
  rcases h.read with hnone | hread
  · have hzero : p.capacityWithdrawn = 0 := by
      have hevents : p.events = [] := by simp [Pass.events, watchedEvents, hnone]
      rw [Pass.capacityWithdrawn, hevents]
      rfl
    rw [hzero, hnone]
    simp
  · have hdistinct : (p.found.map Prod.snd).Nodup := by
      rw [h.found]
      exact nodup_indices _ _
    rw [Pass.capacityWithdrawn, Pass.events, hread.epoch, hread.records,
      totalCapacityWithdrawn_watched hdistinct]
    rfl

/-- What was removed is what the blocks have withdrawn for it. -/
private theorem withdrawnIn_eq {w : ServiceWorld}
    (hremoved : ∀ p ∈ w.removed, ∃ b, w.chain.blocks[p.height]? = some b ∧ p.Done b) (e : ℕ) :
    w.withdrawnIn e = sumFor e (w.removed.map fun p => (p.epoch, p.capacityWithdrawn)) := by
  unfold ServiceWorld.withdrawnIn
  generalize w.removed = removed at hremoved ⊢
  induction removed with
  | nil => rfl
  | cons p removed ih =>
      obtain ⟨b, hb, hdone⟩ := hremoved p List.mem_cons_self
      have hrest := ih fun p' hp' => hremoved p' (List.mem_cons_of_mem p hp')
      rw [List.map_cons, List.sum_cons, List.map_cons, sumFor_cons, hrest, hb, Option.map_some,
        Option.getD_some, ← hdone.capacityWithdrawn e]

/-- **A counter holds what was written to it**, whatever fails and whenever the
process dies. -/
theorem service_counter (configService : ConfigService) (registry : Registry)
    (ls : List (Label Role Happening Reason)) (P : ServicePool)
    (hrun : (service configService registry).run ls ServicePool.init = some P) (e : ℕ)
    (he : e ∉ P.world.expired) :
    (P.world.epochCapacity e).getD 0 = sumFor e P.world.booked := by
  have hinit : Booked .init := ⟨fun e _ => rfl, trivial⟩
  obtain ⟨-, hbooked⟩ := service_run_keeps service_booked.preserves hinit hrun (World.along_true _ _ _)
  exact hbooked.counter e he

/-- **The accounting is exact** in a run whose passes remove their entries
exactly if they have added to the counter, wherever nothing is due. -/
theorem service_exactlyCounted (configService : ConfigService) (registry : Registry)
    (ls : List (Label Role Happening Reason)) (P : ServicePool)
    (hrun : (service configService registry).run ls ServicePool.init = some P)
    (hpaired : (service configService registry).Along Paired ls ServicePool.init)
    (hdue : P.world.notifier.due = []) : ExactlyCounted P.world := by
  have hinit : Balanced .init := fun e => rfl
  obtain ⟨hcoherent, hbalanced⟩ := service_run_keeps service_balanced.preserves hinit hrun hpaired
  have hnodup := hcoherent.traced.nodup hcoherent.inclusions
  have hremoved := hcoherent.reading.removed
  unfold ServiceWorld.traces at hnodup
  obtain ⟨hlisted, honce, hdisjoint⟩ := List.nodup_append'.mp hnodup
  -- the list, the writes on their way, the entry owed and the passes share no hash
  refine ⟨fun p hp => ?_, honce, fun p hp x hx t ht heq => ?_, fun e he => ?_⟩
  · obtain ⟨b, hb, hdone⟩ := hremoved p hp
    exact ⟨b, hb, hdone.found⟩
  · have hmem : x.1 ∈ P.world.removed.flatMap fun p => p.found.map Prod.fst :=
      List.mem_flatMap.mpr ⟨p, hp, List.mem_map_of_mem hx⟩
    refine hdisjoint ?_ hmem
    rw [List.append_assoc]
    exact List.mem_append_left _ (heq ▸ List.mem_map_of_mem ht)
  · rw [service_counter configService registry ls P hrun e he, withdrawnIn_eq hremoved]
    have hbalance := hbalanced e
    rw [hdue] at hbalance
    exact hbalance

section Runs

instance : ∀ l P, Decidable (Paired l P)
  | .reply .notifier (.settle how _ _), P =>
      inferInstanceAs (Decidable (∀ x ∈ P.world.notifier.closes, x.1.capacityWithdrawn ≠ 0 →
        how.carriedOut = x.2))
  | .start _ .notifier, P | .crash, P =>
      inferInstanceAs (Decidable (∀ x ∈ P.world.notifier.closes, x.1.capacityWithdrawn ≠ 0 →
        x.2 = false))
  | .reply .notifier (.produce _), _ => .isTrue trivial
  | .reply .notifier (.finalise _), _ => .isTrue trivial
  | .reply .notifier (.land _), _ => .isTrue trivial
  | .reply .notifier (.lose _), _ => .isTrue trivial
  | .reply .notifier (.expire _), _ => .isTrue trivial
  | .reply .publisher _, _ => .isTrue trivial
  | .start _ .publisher, _ => .isTrue trivial
  | .env _, _ => .isTrue trivial
  | .resume _, _ => .isTrue trivial

theorem service_exactlyCounted_signup : ∃ P : ServicePool,
    (service (.amountLimit 50) ⟨fun _ => none⟩).run (signupCharged ++ firstScan 14)
        ServicePool.init = some P ∧
      ExactlyCounted P.world ∧ P.world.withdrawnIn 0 = 5 := by
  have hstate : ((service (.amountLimit 50) ⟨fun _ => none⟩).run (signupCharged ++ firstScan 14)
      ServicePool.init).map (fun P => (P.world.notifier.due, P.world.withdrawnIn 0)) =
        some ([], 5) := by decide +kernel
  obtain ⟨P, hrun, hP⟩ := Option.map_eq_some_iff.mp hstate
  obtain ⟨hdue, hwithdrawn⟩ := Prod.mk.inj hP
  exact ⟨P, hrun, service_exactlyCounted _ _ _ P hrun (by decide +kernel) hdue, hwithdrawn⟩

/-- The process dies after the counter has been written and before the entry is
removed; the next scan counts the extrinsic once more. -/
theorem service_countedTwice :
    ¬∀ (configService : ConfigService) (registry : Registry)
        (ls : List (Label Role Happening Reason)) (P : ServicePool),
      (service configService registry).run ls ServicePool.init = some P →
        P.world.notifier.due = [] → ExactlyCounted P.world := by
  intro h
  have hstate : ((service (.amountLimit 50) ⟨fun _ => none⟩).run
      (signupCharged ++ firstScan 13 ++ [.crash] ++ firstScan 14) ServicePool.init).map
        (fun P => ((P.world.notifier.due, P.world.expired),
          P.world.epochCapacity 0, P.world.withdrawnIn 0)) =
        some (([], []), some 10, 5) := by decide +kernel
  obtain ⟨P, hrun, hP⟩ := Option.map_eq_some_iff.mp hstate
  simp only [Prod.mk.injEq] at hP
  obtain ⟨⟨hdue, hexpired⟩, hcounter, hwithdrawn⟩ := hP
  have hexact := (h _ _ _ P hrun hdue).counter 0 (by rw [hexpired]; simp)
  rw [hcounter, hwithdrawn] at hexact
  exact absurd hexact (by decide)

end Runs

end AccountService
