import AccountService.Notifications

/-!
# The scan goes forward

A scan starts after the last seen block and stores the height of each block it
has passed.  The start-up on an empty list stores the finalised height instead,
which lies behind where the scanner has not looked at finality.  Where it does,
the last seen block never goes back, through any failures, crashes and restarts,
and a block up to it is not processed again.  What makes the scanner look at
finality is the setting to trust unfinalised blocks.
-/

namespace AccountService

open Async

/-! ## Where a scan stands -/

/-- A method works beyond the last seen block, and from the moment it has
checked a block, up to the finalised one. -/
def NotifierPhase.Climbs (lastSeen finalized : ℕ) : NotifierPhase → Prop
  | headed b => lastSeen ≤ b ∧ b ≤ finalized
  | seen b => lastSeen ≤ b
  | next n | reached n _ | confirming n _ | halted n _ => lastSeen < n
  | checked n _ | passed n => lastSeen < n ∧ n ≤ finalized
  | opened p | located p | dated p | notifying p _ | booking p _ | closing p _ =>
      lastSeen < p.height ∧ p.height ≤ finalized
  | _ => True

/-- The last seen block is finalised, and a scan works beyond it. -/
structure Climbing (w : ServiceWorld) : Prop where
  lastSeen : w.lastSeen.getD 0 ≤ w.finalized
  phase : w.notifier.Climbs (w.lastSeen.getD 0) w.finalized

/-- Since the last seen block was `lastSeen` and the passes with removals were
`removed`, the last seen block has not gone back, and only blocks beyond it were
passed. -/
structure Onward (lastSeen : ℕ) (removed : List Pass) (w : ServiceWorld) : Prop where
  climbing : Climbing w
  le : lastSeen ≤ w.lastSeen.getD 0
  later : ∃ later, w.removed = later ++ removed ∧ ∀ p ∈ later, lastSeen < p.height

namespace NotifierPhase

variable {s s' : NotifierPhase} {lastSeen finalized finalized' : ℕ}

/-- Blocks are only ever finalised. -/
theorem Climbs.mono (h : s.Climbs lastSeen finalized) (hle : finalized ≤ finalized') :
    s.Climbs lastSeen finalized' := by
  cases s <;> first | exact h | exact ⟨h.1, h.2.trans hle⟩

/-- The block of a pass is beyond the last seen one. -/
theorem Climbs.lt_height (h : s.Climbs lastSeen finalized) {p : Pass} (hp : s.pass = some p) :
    lastSeen < p.height := by
  cases s with
  | opened _ | located _ | dated _ | notifying _ _ | booking _ _ | closing _ _ =>
      rw [← Option.some.inj hp]
      exact h.1
  | _ => cases hp

end NotifierPhase

namespace Climbing

variable {configService : ConfigService} {w : ServiceWorld} {c : Call} {f : Fate Err c.Reply}

/-- **A scan goes on beyond the last seen block**, and stores what it has
passed. -/
private theorem step (h : Climbing w)
    (honly : (TxnNotifierService.scanParameters configService).onlyFinalized = some true)
    (cost : ℕ) {s' : NotifierPhase} (hstep : NotifierStep configService w.notifier c f s')
    (hreplies : ∀ reply, f.effect = some reply → w.Replies c reply) :
    s'.Climbs ((w.carryOut cost c f.effect).lastSeen.getD 0) w.finalized := by
  have hphase := h.phase
  have hlast := h.lastSeen
  generalize w.notifier = s at hstep hphase
  cases hstep with
  | finalizedHead b =>
      obtain ⟨⟨pick, hreply⟩, -⟩ := hreplies b rfl
      obtain rfl : w.finalized = b := hreply
      exact ⟨hlast, le_rfl⟩
  | lastSeen reply =>
      obtain ⟨⟨pick, hreply⟩, -⟩ := hreplies reply rfl
      obtain rfl : w.lastSeen = reply := hreply
      exact le_rfl
  | births b pending =>
      have hle : w.lastSeen.getD 0 ≤ b := hphase
      exact Nat.lt_succ_of_le (hle.trans (TxnNotifierService.le_startingBlock b pending))
  | trust n hash pending hsome hhash hnot => exact absurd honly hnot
  | finalised n hash finalized hfinal =>
      obtain ⟨⟨pick, hreply⟩, -⟩ := hreplies finalized rfl
      obtain rfl : w.finalized = finalized := hreply
      exact ⟨hphase, hfinal⟩
  | store n reply => exact Nat.lt_succ_self n
  | book p savedCapacity seconds f =>
      rw [ServiceWorld.carryOut_lastSeen (by simp)]
      exact hphase
  | _ => first | exact hphase | trivial

/-- What is stored as the last seen block lies ahead. -/
private theorem stored (h : Climbing w) (hcall : NotifierCall configService w.notifier c)
    (cost : ℕ) :
    w.lastSeen.getD 0 ≤ (w.carryOut cost c f.effect).lastSeen.getD 0 ∧
      (w.carryOut cost c f.effect).lastSeen.getD 0 ≤ w.finalized := by
  have hphase := h.phase
  by_cases hc : ∃ b, c = .setLastSeen b
  · obtain ⟨b, rfl⟩ := hc
    cases f.effect with
    | none => exact ⟨le_rfl, h.lastSeen⟩
    | some _ =>
        show w.lastSeen.getD 0 ≤ b ∧ b ≤ w.finalized
        generalize w.notifier = s at hcall hphase
        cases hcall with
        | skip b => exact hphase
        | store n => exact ⟨hphase.1.le, hphase.2⟩
  · rw [ServiceWorld.carryOut_lastSeen fun b heq => hc ⟨b, heq⟩]
    exact ⟨le_rfl, h.lastSeen⟩

end Climbing

variable {configService : ConfigService} {registry : Registry}

/-- **The scan goes forward** where the scanner looks at finality. -/
theorem service_onward
    (honly : (TxnNotifierService.scanParameters configService).onlyFinalized = some true)
    (lastSeen : ℕ) (removed : List Pass) :
    NotifierPreserves configService registry (fun _ _ => True) (fun _ => True)
      (Onward lastSeen removed) where
  besides w w₀ h := ⟨⟨h.climbing.lastSeen, h.climbing.phase⟩, h.le, h.later⟩
  env x P w' _ _ h hw := by
    rcases ServiceWorld.env_cases hw with ⟨b, hb, hnew, -, rfl⟩ | ⟨n, hn, -, rfl⟩ |
      ⟨status, -, -, rfl⟩ | ⟨status, -, rfl⟩ | ⟨epoch, rfl⟩
    · exact ⟨⟨h.climbing.lastSeen, h.climbing.phase⟩, h.le, h.later⟩
    · exact ⟨⟨h.climbing.lastSeen.trans hn, h.climbing.phase.mono hn⟩, h.le, h.later⟩
    · exact ⟨⟨h.climbing.lastSeen, h.climbing.phase⟩, h.le, h.later⟩
    · exact ⟨⟨h.climbing.lastSeen, h.climbing.phase⟩, h.le, h.later⟩
    · exact ⟨⟨h.climbing.lastSeen, h.climbing.phase⟩, h.le, h.later⟩
  start reason P s _ _ h hs := by
    rcases hs with rfl | rfl <;> exact ⟨⟨h.climbing.lastSeen, trivial⟩, h.le, h.later⟩
  answer x c P f w' cost _ hcall _ h _ hreplies := by
    obtain ⟨hle, hfinal⟩ := h.climbing.stored (f := f) hcall cost
    obtain ⟨later, hremoved, hlater⟩ := h.later
    have hstep := h.climbing.step honly cost (hcall.step f) hreplies
    refine ⟨⟨by simpa using hfinal, by simpa using hstep⟩, h.le.trans (by simpa using hle), ?_⟩
    rw [ServiceWorld.observe_toRecord]
    by_cases hc : ∃ hdels, c = .exec hdels
    · obtain ⟨hdels, rfl⟩ := hc
      cases f.effect with
      | none => exact ⟨later, hremoved, hlater⟩
      | some _ =>
          refine ⟨P.world.notifier.pass.toList ++ later, ?_, fun p hp => ?_⟩
          · show P.world.notifier.pass.toList ++ P.world.removed = _
            rw [hremoved, List.append_assoc]
          · rcases List.mem_append.mp hp with hnow | hold
            · exact h.le.trans_lt (h.climbing.phase.lt_height (Option.mem_toList.mp hnow))
            · exact hlater p hold
    · rw [ServiceWorld.carryOut_removed fun hdels heq => hc ⟨hdels, heq⟩]
      exact ⟨later, hremoved, hlater⟩
  crash P _ _ h := ⟨⟨h.climbing.lastSeen, trivial⟩, h.le, h.later⟩

/-- Between two states the last seen block has not gone back, the passes whose
removals were carried out are over blocks beyond it, and so is the pass in
progress. -/
structure Advances (w w' : ServiceWorld) : Prop where
  lastSeen : w.lastSeen.getD 0 ≤ w'.lastSeen.getD 0
  removed : ∃ later, w'.removed = later ++ w.removed ∧ ∀ p ∈ later, w.lastSeen.getD 0 < p.height
  pass : ∀ p, w'.notifier.pass = some p → w.lastSeen.getD 0 < p.height

/-- However a run goes on, it advances. -/
private theorem service_advances
    (honly : (TxnNotifierService.scanParameters configService).onlyFinalized = some true)
    {ls ls' : List (Label Role Happening Reason)} {P P' : ServicePool}
    (hrun : (service configService registry).run ls ServicePool.init = some P)
    (hrun' : (service configService registry).run ls' P = some P') :
    Advances P.world P'.world := by
  have hinit : Onward 0 [] .init := ⟨⟨le_rfl, trivial⟩, le_rfl, [], rfl, fun p hp => (by cases hp)⟩
  have htracks := service_tracks configService registry
  -- where the first part leads, the scan stands beyond the last seen block
  obtain ⟨hfollowing, hfirst⟩ := htracks.run_keeps (service_onward honly 0 []).preserves.keeps
    (World.along_true _ _ _) (Pool.following_empty _) hinit hrun
  obtain ⟨-, hthen⟩ := htracks.run_keeps
    (service_onward honly (P.world.lastSeen.getD 0) P.world.removed).preserves.keeps
    (World.along_true _ _ _) hfollowing
    ⟨hfirst.climbing, le_rfl, [], rfl, fun p hp => (by cases hp)⟩ hrun'
  exact ⟨hthen.le, hthen.later, fun p hp => hthen.le.trans_lt (hthen.climbing.phase.lt_height hp)⟩

/-- An unfinalised block is passed, its entry is removed, and the start-up finds
the list empty: the last seen block goes back to the finalised one. -/
private theorem service_goes_back : ∃ P P' : ServicePool,
    (service (.attempts 1 zero_le_one) ⟨fun _ => none⟩).run
        (signupScanned ++ List.replicate 2 (.reply .notifier (granted 0 0))) ServicePool.init =
          some P ∧
      (service (.attempts 1 zero_le_one) ⟨fun _ => none⟩).run
        ([.crash] ++ notifierSteps .bootstrap 4) P = some P' ∧
      P.world.lastSeen = some 1 ∧ P'.world.lastSeen = some 0 := by
  let W := service (.attempts 1 zero_le_one) ⟨fun _ => none⟩
  have hstate : (W.run (signupScanned ++ List.replicate 2 (.reply .notifier (granted 0 0)))
      ServicePool.init).map (fun P => (P.world.lastSeen,
        (W.run ([.crash] ++ notifierSteps .bootstrap 4) P).map fun P' => P'.world.lastSeen)) =
          some (some 1, some (some 0)) := by decide +kernel
  obtain ⟨P, hrun, hP⟩ := Option.map_eq_some_iff.mp hstate
  obtain ⟨hlastSeen, hP'⟩ := Prod.mk.inj hP
  obtain ⟨P', hrun', hlastSeen'⟩ := Option.map_eq_some_iff.mp hP'
  exact ⟨P, P', hrun, hrun', hlastSeen, hlastSeen'⟩

/-- **Nothing is scanned again.**  However a run goes on, through any failures,
crashes and restarts, the last seen block does not go back and no block up to it
is processed again, exactly if the setting makes the scanner look at finality. -/
theorem service_never_rescans_iff (trustUnfinalizedBlocks : Bool) :
    (∀ (configService : ConfigService) (registry : Registry)
        (ls ls' : List (Label Role Happening Reason)) (P P' : ServicePool),
      configService.trustUnfinalizedBlocks = trustUnfinalizedBlocks →
        (service configService registry).run ls ServicePool.init = some P →
          (service configService registry).run ls' P = some P' → Advances P.world P'.world) ↔
      trustUnfinalizedBlocks = true := by
  constructor
  · intro h
    by_contra hnot
    obtain ⟨P, P', hrun, hrun', hlastSeen, hlastSeen'⟩ := service_goes_back
    have hadvances := h _ _ _ _ P P' (Bool.eq_false_of_not_eq_true hnot).symm hrun hrun'
    have hle := hadvances.lastSeen
    rw [hlastSeen, hlastSeen'] at hle
    exact absurd hle (by decide)
  · rintro rfl configService registry ls ls' P P' htrust hrun hrun'
    refine service_advances ?_ hrun hrun'
    simp [TxnNotifierService.scanParameters, IBlockchainScanParameters.merge, htrust]

end AccountService
