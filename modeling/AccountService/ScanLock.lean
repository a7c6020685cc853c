import AccountService.Async.Pool
import AccountService.Notifier

/-!
# Overlapping scans

Any number of `scan()` invocations, started by the interval timer at any time
and interleaved at their awaits, with nothing assumed about the replies.
`scanInProgress` is tested before the initial check is awaited and set after it,
and it is cleared by every invocation that enters the `try` block, admitted or
not; so it excludes a second scan only where no check ends while a scan is in
progress.
-/

namespace AccountService

open Async

/-! ## Where an invocation is -/

/-- How far an invocation of `scan` has come.  `inside` is the part between the
initial check and the `finally` block. -/
inductive ScanPhase where
  | absent
  | testing
  | skipped
  | checking
  | admitted
  | rejected
  | inside
  | cleared
  deriving DecidableEq

/-- What an invocation may do next. -/
def ScanPhase.allow : ScanPhase → Act Worker → Prop
  | .testing, .sync .scanInProgress => True
  | .checking, .await (.hlen .checkInitialScanParameters) => True
  | .admitted, .sync (.setScanInProgress true) => True
  | .rejected, .sync (.setScanInProgress false) => True
  | .inside, .await _ => True
  | .inside, .sync (.setScanInProgress false) => True
  | .cleared, .sync (.setScanInProgress false) => True
  | _, _ => False

/-- Where an operation or a call leads. -/
def ScanPhase.next : ScanPhase → Obs Worker Err → ScanPhase
  | .testing, .sync .scanInProgress r => if r then .skipped else .checking
  | .checking, .await (.hlen _) f =>
      match f.seen with
      | .ok 0 => .rejected
      | .ok _ => .admitted
      | .error _ => .rejected
  | .admitted, .sync (.setScanInProgress true) _ => .inside
  | _, .sync (.setScanInProgress false) _ => .cleared
  | s, _ => s

/-- The course of an invocation. -/
def lock : Protocol Worker Err ScanPhase where
  allow := ScanPhase.allow
  next := ScanPhase.next

/-! ## The code keeps to it -/

/-- Awaiting a call, and nothing else. -/
def awaits : Act Worker → Prop
  | .await _ => True
  | _ => False

@[simp] theorem awaits_await (c : Call) : awaits (.await c) ↔ True := Iff.rfl

section Awaits

variable (configService : ConfigService) (registry : Registry)

private theorem processFound_awaits (h : BlockHash) (indices : List (Hash × ℕ)) :
    Prog.Only awaits (TxnNotifierService.processFound configService registry h indices) := by
  refine Prog.Follows.only_mono (fun act hact => ?_)
    ((processFound_notification configService registry h indices).mono (fun _ _ _ => trivial)
      fun _ _ _ => trivial)
  cases act with
  | await c => trivial
  | _ => exact hact

private theorem processCurrentBlock_awaits (h : BlockHash) (n : ℕ) :
    Prog.Only awaits (TxnNotifierService.processCurrentBlock configService registry h n) := by
  refine Prog.Only.bind (by simp) fun pendingTxns => Prog.Only.bind (by simp) fun extrinsics =>
    Prog.Only.ite (by simp) ?_
  exact Prog.Only.bind (processFound_awaits configService registry h _) fun _ => by simp

private theorem checkScanParameters_awaits (n : ℕ) (h : BlockHash) :
    Prog.Only awaits (TxnNotifierService.checkScanParameters configService n h) := by
  refine Prog.Only.bind (by simp) fun pendingTxns => Prog.Only.ite trivial ?_
  refine Prog.Only.ite trivial (Prog.Only.ite ?_ trivial)
  exact Prog.Only.bind (by simp) fun _ => Prog.Only.ite trivial trivial

private theorem scanFrom_awaits (fuel : ℕ) : ∀ (n : ℕ) (h : BlockHash),
    Prog.Only awaits ((TxnNotifierService.scanner configService registry).scanFrom fuel n h) := by
  induction fuel with
  | zero => intro n h; trivial
  | succ fuel ih =>
      intro n h
      exact Prog.Only.bind (checkScanParameters_awaits configService n h) fun _ =>
        Prog.Only.bind (processCurrentBlock_awaits configService registry h n) fun _ =>
          Prog.Only.bind (by simp [BlockchainScannerService.setLastSeenBlockNumber]) fun _ =>
            Prog.Only.bind (by simp) fun nextHash => ih (n + 1) nextHash

end Awaits

@[simp] theorem lock_allow (s : ScanPhase) (a : Act Worker) : lock.allow s a ↔ s.allow a := Iff.rfl

@[simp] theorem lock_next (s : ScanPhase) (o : Obs Worker Err) : lock.next s o = s.next o := rfl

section Allow

variable {s : ScanPhase}

attribute [local simp] ScanPhase.allow ScanPhase.next

@[simp] theorem ScanPhase.allow_test : s.allow (.sync .scanInProgress) ↔ s = .testing := by
  cases s <;> simp

@[simp] theorem ScanPhase.allow_set : s.allow (.sync (.setScanInProgress true)) ↔
    s = .admitted := by
  cases s <;> simp

theorem ScanPhase.allow_clear : s.allow (.sync (.setScanInProgress false)) ↔
    s = .rejected ∨ s = .inside ∨ s = .cleared := by
  cases s <;> simp

@[simp] theorem ScanPhase.not_allow_doesExist : ¬s.allow (.sync .doesExist) := by
  cases s <;> simp

@[simp] theorem ScanPhase.not_allow_deleteTimeout : ¬s.allow (.sync .deleteTimeout) := by
  cases s <;> simp

@[simp] theorem ScanPhase.not_allow_addTimeout (delay : ℤ) :
    ¬s.allow (.sync (.addTimeout delay)) := by
  cases s <;> simp

@[simp] theorem ScanPhase.not_allow_fire (c : Call) : ¬s.allow (.fire c) := by
  cases s <;> simp

theorem ScanPhase.allow_await {c : Call} (h : s.allow (.await c)) :
    s = .checking ∨ s = .inside := by
  cases s <;> simp_all

theorem ScanPhase.next_test (b : Bool) :
    ScanPhase.testing.next (.sync .scanInProgress b) = .skipped ∨
      ScanPhase.testing.next (.sync .scanInProgress b) = .checking := by
  cases b
  · exact .inr rfl
  · exact .inl rfl

@[simp] theorem ScanPhase.next_set (u : Unit) :
    ScanPhase.admitted.next (.sync (.setScanInProgress true) u) = .inside := rfl

@[simp] theorem ScanPhase.next_clear (u : Unit) :
    s.next (.sync (.setScanInProgress false) u) = .cleared := by
  cases s <;> rfl

/-- The initial check does not enter. -/
theorem ScanPhase.next_checking (c : Call) (f : Fate Err c.Reply) :
    ScanPhase.checking.next (.await c f) ≠ .inside := by
  cases c with
  | hlen site =>
      simp only [ScanPhase.next]
      cases f.seen with
      | error e => simp
      | ok n => cases n <;> simp
  | _ => simp

end Allow

/-- What awaits its calls inside stays inside. -/
private theorem follows_inside {α : Type} {p : Svc α} (h : Prog.Only awaits p) :
    p.Follows lock (fun _ s => s = .inside) (fun _ s => s = .inside) .inside :=
  h.follows (fun act hact => by cases act <;> first | exact trivial | cases hact)
    (fun l r hl => by cases hl) (fun _ hc => by cases hc) fun _ _ _ => rfl

private theorem checkInitialScanParameters_locks :
    TxnNotifierService.checkInitialScanParameters.Follows lock (fun _ s => s = .admitted)
      (fun _ s => s = .rejected) .checking := by
  simp only [TxnNotifierService.checkInitialScanParameters, Prog.bind_eq, Prog.follows_bind,
    follows_call]
  refine ⟨trivial, fun pendingTxns => ?_, fun _ => rfl, fun _ _ => rfl⟩
  cases pendingTxns with
  | zero => rfl
  | succ pendingTxns => rfl

private theorem scanBody_locks (configService : ConfigService) (registry : Registry)
    (fuel : ℕ) :
    ((TxnNotifierService.scanner configService registry).scanBody fuel).Follows lock
      (fun _ s => s = .inside ∨ s = .cleared) (fun _ s => s = .inside ∨ s = .rejected)
      .checking := by
  have hseen : Prog.Only awaits TxnNotifierService.getLastSeenBlockNumber :=
    Prog.Only.bind (Prog.Only.bind (by simp) fun _ => by simp) fun _ =>
      Prog.Only.bind (by simp) fun _ => by simp
  simp only [BlockchainScannerService.scanBody, Prog.bind_eq, Prog.follows_bind,
    TxnNotifierService.scanner]
  refine checkInitialScanParameters_locks.mono ?_ fun _ _ h => .inr h
  rintro _ s rfl
  rw [follows_memory]
  refine ⟨trivial, fun _ => (follows_inside hseen).mono ?_ fun _ _ h => .inl h⟩
  rintro lastSeenBlockNumber s rfl
  rw [follows_call]
  refine ⟨trivial, fun currentBlockHash => ?_, fun _ => .inl rfl, fun _ _ => .inl rfl⟩
  rw [Prog.follows_ite]
  split
  · exact ⟨trivial, fun _ => .inr rfl⟩
  · exact (follows_inside (scanFrom_awaits configService registry fuel _ _)).mono
      (fun _ _ h => .inl h) fun _ _ h => .inl h

/-- **An invocation keeps to its course**, and clears the flag at its end if it
entered the `try` block. -/
theorem scan_follows (configService : ConfigService) (registry : Registry) (fuel : ℕ) :
    (TxnNotifierService.scan configService registry fuel).Follows lock
      (fun _ s => s = .skipped ∨ s = .cleared) (fun _ s => s = .cleared) .testing := by
  -- the phases in which the `finally` block may run
  have clears : ∀ s, s = ScanPhase.inside ∨ s = .rejected ∨ s = .cleared →
      s.allow (.sync (.setScanInProgress false)) ∧
        s.next (.sync (.setScanInProgress false) ()) = .cleared := by
    rintro s (rfl | rfl | rfl) <;> exact ⟨trivial, rfl⟩
  simp only [TxnNotifierService.scan, BlockchainScannerService.scan, Prog.bind_eq,
    Prog.follows_bind, follows_memory]
  refine ⟨trivial, fun scanInProgress => ?_⟩
  cases scanInProgress with
  | true => exact .inl rfl
  | false =>
      simp only [Bool.false_eq_true, if_false, Prog.follows_tryFinally, Prog.follows_tryCatch]
      refine (scanBody_locks configService registry fuel).mono ?_ ?_
      · intro _ s hs
        rw [follows_memory]
        have hclear := clears s (by tauto)
        exact ⟨hclear.1, fun _ => .inr hclear.2⟩
      · intro e s hs
        have hclear := clears s (by tauto)
        cases e <;> simp only [BlockchainScannerService.scanCatch, Prog.pure_eq,
          Prog.follows_done, Prog.follows_throw, follows_memory] <;>
          first
          | exact ⟨hclear.1, fun _ => .inr hclear.2⟩
          | exact ⟨hclear.1, fun _ => hclear.2⟩

/-! ## Scans side by side -/

/-- The flag of the process and how far each invocation has come. -/
structure ScanWorld where
  scanInProgress : Bool
  phase : ℕ → ScanPhase

namespace ScanWorld

/-- Invocation `i` has done something. -/
def observe (w : ScanWorld) (i : ℕ) (o : Obs Worker Err) : ScanWorld :=
  { w with phase := Function.update w.phase i ((w.phase i).next o) }

/-- The result of an operation on memory. -/
def result (w : ScanWorld) : (m : Memory) → m.Result
  | .scanInProgress => w.scanInProgress
  | m => m.blank

/-- The effect of an operation on memory. -/
def act (w : ScanWorld) : Memory → ScanWorld
  | .setScanInProgress b => { w with scanInProgress := b }
  | _ => w

/-- Nothing runs. -/
def init : ScanWorld := ⟨false, fun _ => .absent⟩

end ScanWorld

/-- Invocations of `scan` at places of their own.  A call settles in any way,
and the process may die and start again. -/
def scans (configService : ConfigService) (registry : Registry) :
    World Worker Err Unit ℕ ScanWorld ((c : Call) → Fate Err c.Reply) ℕ where
  act i m w := (w.result m, (w.act m).observe i (.sync m (w.result m)))
  issue i c w := w.observe i (.fire c)
  answer i c fate w := some (fate c, w.observe i (.await c (fate c)))
  env _ _ := none
  launch fuel i w :=
    if w.phase i = .absent then
      some (TxnNotifierService.scan configService registry fuel,
        { w with phase := Function.update w.phase i .testing })
    else none
  crash _ := .init

/-- A pool of invocations of `scan`. -/
abbrev ScanPool := Pool Worker Err Unit ℕ ScanWorld

/-- The pool in which nothing runs. -/
def ScanPool.init : ScanPool := ⟨.init, fun _ => none⟩

/-- The invocation has its check behind it and is not in the protected part. -/
def ScanPhase.outside : ScanPhase → Prop
  | .admitted | .rejected | .cleared => True
  | _ => False

instance : DecidablePred ScanPhase.outside := fun s => by
  cases s <;> first | exact .isTrue trivial | exact .isFalse id

/-- An invocation runs on from its initial check only while no scan is in
progress. -/
def ChecksEndAlone : Label ℕ ((c : Call) → Fate Err c.Reply) ℕ → ScanPool → Prop
  | .resume i, P => (P.world.phase i).outside → P.world.scanInProgress = false
  | _, _ => True

instance : ∀ l P, Decidable (ChecksEndAlone l P)
  | .resume i, P =>
      inferInstanceAs (Decidable ((P.world.phase i).outside → P.world.scanInProgress = false))
  | .env _, _ => .isTrue trivial
  | .start _ _, _ => .isTrue trivial
  | .reply _ _, _ => .isTrue trivial
  | .crash, _ => .isTrue trivial

/-- Invocation `i` is between its initial check and its `finally` block. -/
def Inside (P : ScanPool) (i : ℕ) : Prop := P.world.phase i = .inside

/-- Whoever is inside has set the flag and is alone. -/
structure Exclusive (w : ScanWorld) : Prop where
  flag : ∀ i, w.phase i = .inside → w.scanInProgress = true
  unique : ∀ i j, w.phase i = .inside → w.phase j = .inside → i = j

/-- What the start of an invocation leads to. -/
private theorem scans_launch {configService : ConfigService} {registry : Registry} {fuel i : ℕ}
    {w w' : ScanWorld} {p : Svc Unit}
    (h : (scans configService registry).launch fuel i w = some (p, w')) :
    p = TxnNotifierService.scan configService registry fuel ∧
      w' = { w with phase := Function.update w.phase i .testing } := by
  simp only [scans] at h
  split at h
  · obtain ⟨rfl, rfl⟩ := Prod.mk.inj (Option.some.inj h)
    exact ⟨rfl, rfl⟩
  · cases h

/-- What an answer leads to. -/
private theorem scans_answer {configService : ConfigService} {registry : Registry} {i : ℕ}
    {c : Call} {x : (c : Call) → Fate Err c.Reply} {w w' : ScanWorld} {f : Fate Err c.Reply}
    (h : (scans configService registry).answer i c x w = some (f, w')) :
    f = x c ∧ w' = w.observe i (.await c (x c)) := by
  obtain ⟨rfl, rfl⟩ := Prod.mk.inj (Option.some.inj h)
  exact ⟨rfl, rfl⟩

private theorem scans_tracks (configService : ConfigService) (registry : Registry) :
    (scans configService registry).Tracks (fun _ => lock)
      (fun _ _ s => s = .skipped ∨ s = .cleared) (fun _ _ s => s = .cleared)
      fun i w => w.phase i where
  act i m w := by cases m <;> simp [scans, ScanWorld.observe, ScanWorld.act]
  act_other i j m w hj := by cases m <;> simp [scans, ScanWorld.observe, ScanWorld.act, hj]
  issue i c w := by simp [scans, ScanWorld.observe]
  issue_other i j c w hj := by simp [scans, ScanWorld.observe, hj]
  answer i c x w f w' h := by
    obtain ⟨rfl, rfl⟩ := scans_answer h
    simp [ScanWorld.observe]
  answer_other i j c x w f w' hj h := by
    obtain ⟨rfl, rfl⟩ := scans_answer h
    simp [ScanWorld.observe, hj]
  env i x w w' h := by simp [scans] at h
  launch fuel i w p w' h := by
    obtain ⟨rfl, rfl⟩ := scans_launch h
    simpa using scan_follows configService registry fuel
  launch_other fuel i j w p w' hj h := by
    obtain ⟨rfl, rfl⟩ := scans_launch h
    simp [hj]

private theorem exclusive_init : Exclusive ScanWorld.init :=
  ⟨fun _ h => (by cases h), fun _ _ h => (by cases h)⟩

/-- An invocation that moves without entering disturbs nobody. -/
private theorem Exclusive.update {w : ScanWorld} (h : Exclusive w) (i : ℕ) {s : ScanPhase}
    (hs : s = .inside → w.phase i = .inside) :
    Exclusive { w with phase := Function.update w.phase i s } := by
  have hinside : ∀ j, Function.update w.phase i s j = .inside → w.phase j = .inside := by
    intro j hj
    by_cases hji : j = i
    · subst hji
      exact hs (by simpa using hj)
    · simpa [hji] using hj
  exact ⟨fun j hj => h.flag j (hinside j hj),
    fun j k hj hk => h.unique j k (hinside j hj) (hinside k hk)⟩

/-- While the flag is clear nobody is inside. -/
private theorem Exclusive.nobody {w : ScanWorld} (h : Exclusive w)
    (hflag : w.scanInProgress = false) (i : ℕ) : w.phase i ≠ .inside := by
  intro hi
  rw [h.flag i hi] at hflag
  cases hflag

/-- What holds while invocation `i` runs from one await to the next. -/
private def ScanSegment (i : ℕ) (w : ScanWorld) : Prop :=
  Exclusive w ∧ ((w.phase i).outside → w.scanInProgress = false)

/-- Setting the flag makes an invocation the one inside. -/
private theorem ScanSegment.enter {i : ℕ} {w : ScanWorld} (h : ScanSegment i w)
    (hi : w.phase i = .admitted) :
    ScanSegment i ⟨true, Function.update w.phase i .inside⟩ := by
  have hnobody := h.1.nobody (h.2 (by simp [hi, ScanPhase.outside]))
  have honly : ∀ j, Function.update w.phase i .inside j = .inside → j = i := by
    intro j hj
    by_contra hji
    exact hnobody j (by simpa [hji] using hj)
  refine ⟨⟨fun _ _ => rfl, fun j k hj hk => (honly j hj).trans (honly k hk).symm⟩, ?_⟩
  simp [ScanPhase.outside]

/-- Clearing the flag leaves nobody inside. -/
private theorem ScanSegment.leave {i : ℕ} {w : ScanWorld} (h : ScanSegment i w)
    (hi : w.phase i = .inside ∨ (w.phase i).outside) :
    ScanSegment i ⟨false, Function.update w.phase i .cleared⟩ := by
  have hnobody : ∀ j, Function.update w.phase i .cleared j ≠ .inside := by
    intro j hj
    by_cases hji : j = i
    · subst hji
      simp at hj
    · have hj' : w.phase j = .inside := by simpa [hji] using hj
      rcases hi with hi | hi
      · exact hji (h.1.unique j i hj' hi)
      · exact h.1.nobody (h.2 hi) j hj'
  exact ⟨⟨fun j hj => absurd hj (hnobody j), fun j _ hj _ => absurd hj (hnobody j)⟩, fun _ => rfl⟩

private theorem scans_keeps (configService : ConfigService) (registry : Registry) :
    (scans configService registry).Keeps (fun _ => lock) (fun i w => w.phase i) ChecksEndAlone
      Exclusive ScanSegment where
  env x P w' _ _ h := by cases h
  launch fuel i P p w' _ _ hJ h := by
    obtain ⟨-, rfl⟩ := scans_launch h
    exact ⟨hJ.update i (by simp), by simp [ScanPhase.outside]⟩
  resume i P s c f hC _ _ hJ := ⟨hJ, hC⟩
  act i m w hallow h := by
    cases m with
    | scanInProgress =>
        have hi : w.phase i = .testing := by simpa using hallow
        have hnext := ScanPhase.next_test w.scanInProgress
        refine ⟨h.1.update i fun hinside => ?_, ?_⟩
        · simp only [ScanWorld.act, ScanWorld.result, hi] at hinside
          rcases hnext with hnext | hnext <;> rw [hnext] at hinside <;> cases hinside
        · simp only [scans, ScanWorld.act, ScanWorld.observe, ScanWorld.result,
            Function.update_self, hi]
          rcases hnext with hnext | hnext <;> rw [hnext] <;> exact False.elim
    | setScanInProgress b =>
        cases b with
        | true =>
            have hi : w.phase i = .admitted := by simpa using hallow
            simpa [scans, ScanWorld.act, ScanWorld.observe, hi] using h.enter hi
        | false =>
            have hi : w.phase i = .inside ∨ (w.phase i).outside := by
              simp only [lock_allow, ScanPhase.allow_clear] at hallow
              rcases hallow with hi | hi | hi <;> simp [hi, ScanPhase.outside]
            simpa [scans, ScanWorld.act, ScanWorld.observe] using h.leave hi
    | doesExist => simp at hallow
    | deleteTimeout => simp at hallow
    | addTimeout delay => simp at hallow
  issue i c w hallow h := by simp at hallow
  close i w h := h.1
  answer i x c k P f w' _ _ hallow hJ h := by
    obtain ⟨rfl, rfl⟩ := scans_answer h
    refine hJ.update i fun hinside => ?_
    -- an answer never leads into the `try` block, it only stays there
    rcases ScanPhase.allow_await hallow with hi | hi
    · rw [hi] at hinside
      exact absurd hinside (ScanPhase.next_checking c _)
    · exact hi
  crash P _ _ := exclusive_init

/-- **At most one scan at a time**, in every run in which no invocation runs on
from its initial check while a scan is in progress. -/
theorem scan_exclusive (configService : ConfigService) (registry : Registry)
    (ls : List (Label ℕ ((c : Call) → Fate Err c.Reply) ℕ)) (P : ScanPool)
    (hrun : (scans configService registry).run ls ScanPool.init = some P)
    (hchecks : (scans configService registry).Along ChecksEndAlone ls ScanPool.init) :
    ∀ i j, Inside P i → Inside P j → i = j := by
  exact ((scans_tracks configService registry).run_keeps (scans_keeps configService registry)
    hchecks (Pool.following_empty _) exclusive_init hrun).2.unique

/-- Every call is answered, and one transaction is pending. -/
def onePending (c : Call) : Fate Err c.Reply :=
  match c with
  | .hlen _ => .done 1
  | _ => .done default

/-- One invocation enters, and another finds the flag set. -/
def enterAndSkip : List (Label ℕ ((c : Call) → Fate Err c.Reply) ℕ) :=
  [.start 1 0, .reply 0 onePending, .resume 0, .start 1 1]

theorem scan_exclusive_enterAndSkip : ∃ P : ScanPool,
    (scans (.amountLimit 1) ⟨fun _ => none⟩).run enterAndSkip ScanPool.init = some P ∧
      ∀ i j, Inside P i → Inside P j → i = j := by
  obtain ⟨P, hrun⟩ : ∃ P, (scans (.amountLimit 1) ⟨fun _ => none⟩).run enterAndSkip
      ScanPool.init = some P := Option.isSome_iff_exists.mp (by decide +kernel)
  exact ⟨P, hrun, scan_exclusive _ _ _ P hrun (by decide +kernel)⟩

/-- Two invocations test the flag before either check has ended. -/
def enterTwice : List (Label ℕ ((c : Call) → Fate Err c.Reply) ℕ) :=
  [.start 1 0, .start 1 1, .reply 0 onePending, .reply 1 onePending, .resume 0, .resume 1]

theorem scan_not_exclusive :
    ¬∀ (configService : ConfigService) (registry : Registry)
        (ls : List (Label ℕ ((c : Call) → Fate Err c.Reply) ℕ)) (P : ScanPool),
      (scans configService registry).run ls ScanPool.init = some P →
        ∀ i j, Inside P i → Inside P j → i = j := by
  intro h
  have hphases : ((scans (.amountLimit 1) ⟨fun _ => none⟩).run enterTwice
      ScanPool.init).map (fun P => (P.world.phase 0, P.world.phase 1)) =
        some (.inside, .inside) := by decide +kernel
  obtain ⟨P, hrun, hP⟩ := Option.map_eq_some_iff.mp hphases
  obtain ⟨h0, h1⟩ := Prod.mk.inj hP
  exact absurd (h _ _ _ P hrun 0 1 h0 h1) (by decide)

end AccountService
