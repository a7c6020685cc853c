import AccountService.Async.Pool
import AccountService.Chain
import AccountService.NotifierCourse

/-!
# Finality

Scans of a chain that grows and finalises blocks as it likes, any number of
them at a time.  `TRUST_UNFINALIZED_BLOCKS` is handed to the scanner as
`onlyFinalized`: the scanner looks at finality where it is told to trust
unfinalised blocks, and does not where it is told not to.  Neither makes a
difference as long as the node answers with the hashes of finalised blocks only.
-/

namespace AccountService

open Async

/-! ## Phases and finality -/

/-- The block that is being processed. -/
def NotifierPhase.processing : NotifierPhase → Option ℕ
  | checked n _ => some n
  | opened p => some p.height
  | located p => some p.height
  | dated p => some p.height
  | notifying p _ => some p.height
  | booking p _ => some p.height
  | closing p _ => some p.height
  | _ => none

/-- The block that a scan has come to, once its hash is known not to be empty. -/
def NotifierPhase.reachedBlock : NotifierPhase → Option ℕ
  | reached n h => if h.isEmpty then none else some n
  | confirming n _ => some n
  | s => s.processing

/-- What is being processed has been reached. -/
theorem NotifierPhase.reachedBlock_of_processing {s : NotifierPhase} {n : ℕ}
    (h : s.processing = some n) : s.reachedBlock = some n := by
  cases s with
  | reached m hash => cases h
  | confirming m hash => cases h
  | _ => exact h

/-! ## Scans of a growing chain -/

/-- The chain, its latest finalised height, the scan flag and how far each
method of the notifier has come. -/
structure FinalityWorld where
  chain : Chain
  finalized : ℕ
  scanInProgress : Bool
  phase : ℕ → NotifierPhase

/-- What the environment decides: that a block is produced, that blocks are
finalised, and how a call settles. -/
inductive FinalityChoice where
  | produce (b : Block)
  | finalise (n : ℕ)
  | settle (fate : (c : Call) → Fate Err c.Reply)

/-- Why a method of the notifier is run. -/
inductive NotifierStart where
  | bootstrap
  | scan (fuel : ℕ)

namespace FinalityWorld

/-- Method `i` has done something. -/
def observe (configService : ConfigService) (w : FinalityWorld) (i : ℕ) (o : Obs Worker Err) :
    FinalityWorld :=
  { w with phase := Function.update w.phase i ((w.phase i).move configService o) }

/-- The node answers with what it has. -/
def Truthful (w : FinalityWorld) : (c : Call) → Fate Err c.Reply → Prop
  | .getBlockHash n, f => ∀ h ∈ f.effect, h = w.chain.hashAt n
  | .getLatestFinalizedBlockNumber, f => ∀ b ∈ f.effect, b = w.finalized
  | _, _ => True

instance (w : FinalityWorld) (c : Call) (f : Fate Err c.Reply) : Decidable (w.Truthful c f) := by
  unfold Truthful
  split <;> infer_instance

/-- A hash that comes back is that of a finalised block, or the empty one. -/
def HashesFinal (w : FinalityWorld) : (c : Call) → Fate Err c.Reply → Prop
  | .getBlockHash n, f => ∀ h ∈ f.seen.toOption, ¬h.isEmpty → n ≤ w.finalized
  | _, _ => True

instance (w : FinalityWorld) (c : Call) (f : Fate Err c.Reply) :
    Decidable (w.HashesFinal c f) := by
  unfold HashesFinal
  split <;> infer_instance

/-- The result of an operation on memory. -/
def result (w : FinalityWorld) : (m : Memory) → m.Result
  | .scanInProgress => w.scanInProgress
  | m => m.blank

/-- The effect of an operation on memory. -/
def act (w : FinalityWorld) : Memory → FinalityWorld
  | .setScanInProgress b => { w with scanInProgress := b }
  | _ => w

/-- An empty chain, and nothing runs. -/
def init : FinalityWorld := ⟨⟨[], by simp, by simp⟩, 0, false, fun _ => .absent⟩

end FinalityWorld

/-- The methods of the notifier at places of their own. -/
def finalityWorld (configService : ConfigService) (registry : Registry) :
    World Worker Err Unit ℕ FinalityWorld FinalityChoice NotifierStart where
  act i m w := (w.result m, (w.act m).observe configService i (.sync m (w.result m)))
  issue i c w := w.observe configService i (.fire c)
  answer i c x w :=
    match x with
    | .settle fate =>
        if w.Truthful c (fate c) then
          some (fate c, w.observe configService i (.await c (fate c)))
        else none
    | _ => none
  env x w :=
    match x with
    | .produce b =>
        if h : b.hash ≠ 0 ∧ b.hash ∉ w.chain.blocks.map Block.hash then
          some { w with chain := w.chain.push b h.1 h.2 }
        else none
    | .finalise n =>
        if w.finalized ≤ n ∧ n < w.chain.blocks.length then some { w with finalized := n } else none
    | .settle _ => none
  launch start i w :=
    match start with
    | .bootstrap =>
        some (TxnNotifierService.onApplicationBootstrap,
          { w with phase := Function.update w.phase i .booting })
    | .scan fuel =>
        some (TxnNotifierService.scan configService registry fuel,
          { w with phase := Function.update w.phase i .starting })
  crash w := { w with scanInProgress := false, phase := fun _ => .absent }

private theorem answer_eq {configService : ConfigService} {registry : Registry} {i : ℕ} {c : Call}
    {x : FinalityChoice} {w w' : FinalityWorld} {f : Fate Err c.Reply}
    (h : (finalityWorld configService registry).answer i c x w = some (f, w')) :
    w.Truthful c f ∧ (∃ fate, x = .settle fate ∧ f = fate c) ∧
      w' = w.observe configService i (.await c f) := by
  cases x with
  | settle fate =>
      simp only [finalityWorld, Option.ite_none_right_eq_some, Option.some.injEq,
        Prod.mk.injEq] at h
      obtain ⟨htrue, rfl, rfl⟩ := h
      exact ⟨htrue, ⟨fate, rfl, rfl⟩, rfl⟩
  | _ => cases h

/-- The chain grows and finalises without the notifier. -/
private theorem env_eq {configService : ConfigService} {registry : Registry} {x : FinalityChoice}
    {w w' : FinalityWorld} (h : (finalityWorld configService registry).env x w = some w') :
    w'.phase = w.phase ∧ w.finalized ≤ w'.finalized := by
  cases x with
  | produce b =>
      simp only [finalityWorld, Option.dite_none_right_eq_some] at h
      obtain ⟨_, h⟩ := h
      obtain rfl := Option.some.inj h
      exact ⟨rfl, le_rfl⟩
  | finalise n =>
      simp only [finalityWorld, Option.ite_none_right_eq_some, Option.some.injEq] at h
      obtain ⟨hle, rfl⟩ := h
      exact ⟨rfl, hle.1⟩
  | settle fate => cases h

/-- A pool of methods of the notifier. -/
abbrev FinalityPool := Pool Worker Err Unit ℕ FinalityWorld

/-- The pool before anything happens. -/
def FinalityPool.init : FinalityPool := ⟨.init, fun _ => none⟩

/-- What the setting promises: without trust in unfinalised blocks only
finalised blocks are processed, and with it no block is left because it is not
finalised. -/
structure Disciplined (configService : ConfigService) (w : FinalityWorld) : Prop where
  untrusted : configService.trustUnfinalizedBlocks = false →
    ∀ i n, (w.phase i).processing = some n → n ≤ w.finalized
  trusted : configService.trustUnfinalizedBlocks = true → ∀ i n h, w.phase i ≠ .halted n h

/-- The node answers with the hashes of finalised blocks only. -/
def HashesFinal : Label ℕ FinalityChoice NotifierStart → FinalityPool → Prop
  | .reply i (.settle fate), P =>
      ∀ c ∈ (P.task i).bind Prog.awaited, P.world.HashesFinal c (fate c)
  | _, _ => True

instance : ∀ l P, Decidable (HashesFinal l P)
  | .reply i (.settle fate), P =>
      inferInstanceAs (Decidable
        (∀ c ∈ (P.task i).bind Prog.awaited, P.world.HashesFinal c (fate c)))
  | .reply _ (.produce _), _ => .isTrue trivial
  | .reply _ (.finalise _), _ => .isTrue trivial
  | .env _, _ => .isTrue trivial
  | .start _ _, _ => .isTrue trivial
  | .resume _, _ => .isTrue trivial
  | .crash, _ => .isTrue trivial

/-! ## The theorem -/

private theorem finality_tracks (configService : ConfigService) (registry : Registry) :
    (finalityWorld configService registry).Tracks (fun _ => notifierCourse configService)
      (fun _ _ _ => True) (fun _ _ _ => True) fun i w => w.phase i where
  act i m w := by cases m <;> simp [finalityWorld, FinalityWorld.observe, FinalityWorld.act]
  act_other i j m w hj := by
    cases m <;> simp [finalityWorld, FinalityWorld.observe, FinalityWorld.act]
  issue i c w := by simp [finalityWorld, FinalityWorld.observe]
  issue_other i j c w hj := by simp [finalityWorld, FinalityWorld.observe]
  answer i c x w f w' h := by
    obtain ⟨-, -, rfl⟩ := answer_eq h
    simp [FinalityWorld.observe]
  answer_other i j c x w f w' hj h := by
    obtain ⟨-, -, rfl⟩ := answer_eq h
    simp [FinalityWorld.observe, hj]
  env i x w w' h := by rw [(env_eq h).1]
  launch start i w p w' h := by
    cases start with
    | bootstrap =>
        obtain ⟨rfl, rfl⟩ := Prod.mk.inj (Option.some.inj h)
        simpa using onApplicationBootstrap_keepsCourse
    | scan fuel =>
        obtain ⟨rfl, rfl⟩ := Prod.mk.inj (Option.some.inj h)
        simpa using scan_keepsCourse fuel
  launch_other start i j w p w' hj h := by
    cases start <;> obtain ⟨rfl, rfl⟩ := Prod.mk.inj (Option.some.inj h) <;> simp [hj]

/-- The blocks that scans have come to are final, and no scan has stopped at
one that is not. -/
structure ReachedFinal (w : FinalityWorld) : Prop where
  reached : ∀ i n, (w.phase i).reachedBlock = some n → n ≤ w.finalized
  halted : ∀ i n h, w.phase i ≠ .halted n h

/-- Then either setting is kept to. -/
private theorem ReachedFinal.disciplined {configService : ConfigService} {w : FinalityWorld}
    (h : ReachedFinal w) : Disciplined configService w :=
  ⟨fun _ i n hn => h.reached i n (NotifierPhase.reachedBlock_of_processing hn),
    fun _ => h.halted⟩

section Keeps

variable {configService : ConfigService} {s s' : NotifierPhase} {w : FinalityWorld} {c : Call}
  {f : Fate Err c.Reply}

/-- **A scan comes to a block by its hash.**  Every other call leaves it with the
block it has come to, or with none. -/
private theorem step_reachedBlock (hstep : NotifierStep configService s c f s')
    (hfinal : w.HashesFinal c f) (hbefore : ∀ n, s.reachedBlock = some n → n ≤ w.finalized) :
    ∀ n, s'.reachedBlock = some n → n ≤ w.finalized := by
  intro n hn
  cases hstep with
  | blockHash m hash =>
      obtain ⟨hhash, heq⟩ := Option.ite_none_left_eq_some.mp hn
      obtain rfl := Option.some.inj heq
      exact hfinal hash rfl hhash
  | confirm m hash pending hsome hhash honly =>
      exact hbefore n (by rw [← hn]; exact if_neg hhash)
  | trust m hash pending hsome hhash honly =>
      exact hbefore n (by rw [← hn]; exact if_neg hhash)
  | _ => first | exact hbefore n hn | cases hn

/-- A scan stops at a block only if the finalised height is lower. -/
private theorem step_halted (hstep : NotifierStep configService s c f s')
    (htrue : w.Truthful c f) (hbefore : ∀ n, s.reachedBlock = some n → n ≤ w.finalized)
    (n : ℕ) (h : BlockHash) : s' ≠ .halted n h := by
  intro hhalted
  cases hstep with
  | unfinalised m hash finalized hlate =>
      have hreply : finalized = w.finalized := htrue finalized rfl
      exact absurd (hbefore m rfl) (not_le.mpr (hreply ▸ hlate))
  | _ => cases hhalted

/-- A method that moves keeps to final blocks if its new phase does. -/
private theorem ReachedFinal.update {w' : FinalityWorld} {i : ℕ} (h : ReachedFinal w)
    (hphase : w'.phase = Function.update w.phase i s) (hfinalized : w'.finalized = w.finalized)
    (hreached : ∀ n, s.reachedBlock = some n → n ≤ w.finalized)
    (hhalted : ∀ n h, s ≠ .halted n h) : ReachedFinal w' := by
  refine ⟨fun j n hn => ?_, fun j n hash => ?_⟩
  · rw [hfinalized]
    rw [hphase] at hn
    by_cases hj : j = i
    · subst hj
      rw [Function.update_self] at hn
      exact hreached n hn
    · rw [Function.update_of_ne hj] at hn
      exact h.reached j n hn
  · rw [hphase]
    by_cases hj : j = i
    · subst hj
      rw [Function.update_self]
      exact hhalted n hash
    · rw [Function.update_of_ne hj]
      exact h.halted j n hash

private theorem finality_keeps (configService : ConfigService) (registry : Registry) :
    (finalityWorld configService registry).Keeps (fun _ => notifierCourse configService)
      (fun i w => w.phase i) HashesFinal ReachedFinal fun _ => ReachedFinal where
  env x P w' _ hJ h := by
    obtain ⟨hphase, hle⟩ := env_eq h
    exact ⟨fun i n hn => (hJ.reached i n (hphase ▸ hn)).trans hle, fun i => hphase ▸ hJ.halted i⟩
  launch start i P p w' _ _ hJ h := by
    cases start <;> obtain ⟨rfl, rfl⟩ := Prod.mk.inj (Option.some.inj h) <;>
      exact hJ.update rfl rfl (fun n hn => by cases hn) fun n h => by simp
  resume i P s c f _ _ _ hJ := hJ
  act i m w _ hJ := by
    have hphase : ((w.act m).observe configService i (.sync m (w.result m))).phase =
        Function.update w.phase i (w.phase i) := by
      cases m <;> rfl
    refine hJ.update hphase ?_ (hJ.reached i) (hJ.halted i)
    cases m <;> rfl
  issue i c w hallow _ := (NotifierPhase.not_fire hallow).elim
  close i w h := h
  answer i x c k P f w' hC htask hallow hJ h := by
    obtain ⟨htrue, ⟨fate, rfl, rfl⟩, rfl⟩ := answer_eq h
    have hcall : NotifierCall configService (P.world.phase i) c := hallow
    have hfinal := hC c (by rw [htask]; rfl)
    exact hJ.update rfl rfl (step_reachedBlock (hcall.step (fate c)) hfinal (hJ.reached i))
      (step_halted (hcall.step (fate c)) htrue (hJ.reached i))
  crash P _ hJ := ⟨fun i n hn => (by cases hn), fun i n h => by simp [finalityWorld]⟩

end Keeps

private theorem reachedFinal_init : ReachedFinal .init :=
  ⟨fun i n hn => (by cases hn), fun i n h => by simp [FinalityWorld.init]⟩

/-- **The setting is kept to** as long as the node answers with the hashes of
finalised blocks only. -/
theorem finality_disciplined (configService : ConfigService) (registry : Registry)
    (ls : List (Label ℕ FinalityChoice NotifierStart)) (P : FinalityPool)
    (hrun : (finalityWorld configService registry).run ls FinalityPool.init = some P)
    (hfinal : (finalityWorld configService registry).Along HashesFinal ls FinalityPool.init) :
    Disciplined configService P.world :=
  ((finality_tracks configService registry).run_keeps (finality_keeps configService registry)
    hfinal (Pool.following_empty _) reachedFinal_init hrun).2.disciplined

/-- One entry is pending, and there is one block after the first. -/
def oneBlockAhead : (c : Call) → Fate Err c.Reply
  | .hlen _ => .done 1
  | .getBlockHash n => .done (if n = 1 then 2 else 0)
  | .getLatestFinalizedBlockNumber => .done 1
  | _ => .done default

/-- Two blocks, and a scan up to the decision on the second, with something
happening before the scan. -/
def scanOneBlock (before : List (Label ℕ FinalityChoice NotifierStart)) :
    List (Label ℕ FinalityChoice NotifierStart) :=
  [.env (.produce ⟨1, 0, [], []⟩), .env (.produce ⟨2, 0, [], []⟩)] ++ before ++
    [.start (.scan 1) 0, .reply 0 (.settle oneBlockAhead), .resume 0] ++
      List.replicate 4 (.reply 0 (.settle oneBlockAhead))

theorem finality_disciplined_scanOneBlock : ∃ P : FinalityPool,
    (finalityWorld (.amountLimit 1) ⟨fun _ => none⟩).run
        (scanOneBlock [.env (.finalise 1)]) FinalityPool.init = some P ∧
      Disciplined (.amountLimit 1) P.world := by
  obtain ⟨P, hrun⟩ : ∃ P, (finalityWorld (.amountLimit 1) ⟨fun _ => none⟩).run
      (scanOneBlock [.env (.finalise 1)]) FinalityPool.init = some P :=
    Option.isSome_iff_exists.mp (by decide +kernel)
  exact ⟨P, hrun, finality_disciplined _ _ _ P hrun (by decide +kernel)⟩

theorem finality_not_disciplined :
    ¬∀ (configService : ConfigService) (registry : Registry)
        (ls : List (Label ℕ FinalityChoice NotifierStart)) (P : FinalityPool),
      (finalityWorld configService registry).run ls FinalityPool.init = some P →
        Disciplined configService P.world := by
  intro h
  have hstate : ((finalityWorld (.amountLimit 1) ⟨fun _ => none⟩).run (scanOneBlock [])
      FinalityPool.init).map (fun P => ((P.world.phase 0).processing, P.world.finalized)) =
        some (some 1, 0) := by decide +kernel
  obtain ⟨P, hrun, hP⟩ := Option.map_eq_some_iff.mp hstate
  obtain ⟨hprocessing, hfinalized⟩ := Prod.mk.inj hP
  have hle := (h _ _ _ P hrun).untrusted rfl 0 1 hprocessing
  omega

end AccountService
