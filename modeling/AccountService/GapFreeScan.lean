import AccountService.NotifierCourse
import AccountService.Async.Steps
import Mathlib.Data.List.Range

/-!
# Scanning without gaps

A scan of the notifier from any last seen number, over any chain and with any
of its calls failing.  It starts after the oldest birth of the watch list, so
it may jump over heights; every entry that has ever been on the list is kept on
record, to see which heights it was pending at.

* `Consecutive` is what a scan has done so far: a run of heights, each
  processed and then stored.
* `Swept` is the invariant from scan to scan: an entry has been pending at every
  height from its birth and its addition on, up to the last seen one or to its
  removal.  A jump keeps it, since no pending entry was born before.
-/

namespace AccountService

open Async

/-! ## The watch list and its past -/

/-- An entry that has been on the watch list: the last seen number when it was
added, the heights that were processed while it was pending, and, once it is
gone, the height it was removed at. -/
structure WatchRecord where
  entry : ITxStatus
  seenAt : ℕ
  processed : List ℕ := []
  removedAt : Option ℕ := none
  deriving DecidableEq

namespace WatchRecord

/-- Height `n` is processed, with a pipeline of some removals. -/
def pass (n : ℕ) (hdels : List Hash) (r : WatchRecord) : WatchRecord :=
  if r.removedAt = none then
    { r with
      processed := n :: r.processed
      removedAt := if r.entry.txHash ∈ hdels then some n else none }
  else r

/-- An entry is written under a hash, over the one that is there. -/
def overwrite (b : ℕ) (txHash : Hash) (r : WatchRecord) : WatchRecord :=
  if r.removedAt = none ∧ r.entry.txHash = txHash then { r with removedAt := some b } else r

end WatchRecord

/-! ## A scan -/

/-- What a scan does about a height. -/
inductive ScanEvent where
  | begun (n : ℕ)
  | completed (n : ℕ)
  | stored (n : ℕ)
  deriving DecidableEq

/-- What the node answers to each call, and how each call settles. -/
structure ScanSurroundings where
  reply : ℕ → (c : Call) → c.Reply
  settle : ℕ → Settle Err

/-- What is stored in Redis, with a record of the entries and of what the scans
have done: the watch list holds the entries that have not been removed, and
`current` is the height that is being processed. -/
structure ScannerWorld where
  lastSeen : Option ℕ := none
  records : List WatchRecord := []
  log : List ScanEvent := []
  current : ℕ := 0
  calls : ℕ := 0

namespace ScannerWorld

/-- The watch list. -/
def pendingTxns (w : ScannerWorld) : List ITxStatus :=
  (w.records.filter fun r => r.removedAt = none).map WatchRecord.entry

/-- An entry is added. -/
def add (w : ScannerWorld) (status : ITxStatus) : ScannerWorld :=
  { w with
    records := w.records.map (WatchRecord.overwrite (w.lastSeen.getD 0) status.txHash) ++
      [{ entry := status, seenAt := w.lastSeen.getD 0 }] }

/-- What Redis and the node answer. -/
def answers (around : ScanSurroundings) (w : ScannerWorld) : (c : Call) → c.Reply
  | .hlen _ => w.pendingTxns.length
  | .hvals _ => w.pendingTxns
  | .hget txHash => w.pendingTxns.find? fun status => status.txHash = txHash
  | .getLastSeen => w.lastSeen
  | c => around.reply w.calls c

/-- What a call of the scan leaves behind.  A height is begun when its pass
reads the watch list, and completed when the pipeline is answered. -/
def carryOut (w : ScannerWorld) : (c : Call) → Fate Err c.Reply → ScannerWorld
  | .hvals (.processCurrentBlock n), _ => { w with log := w.log ++ [.begun n], current := n }
  | .exec hdels, .done _ =>
      { w with
        records := w.records.map (WatchRecord.pass w.current hdels)
        log := w.log ++ [.completed w.current] }
  | .exec hdels, .lost _ _ =>
      { w with records := w.records.map (WatchRecord.pass w.current hdels) }
  | .setLastSeen b, .done _ | .setLastSeen b, .lost _ _ =>
      { w with lastSeen := some b, log := w.log ++ [.stored b] }
  | _, _ => w

end ScannerWorld

/-- Each call is answered, or refused, or carried out without its answer. -/
def scanMachine (around : ScanSurroundings) : Machine Worker Err ScannerWorld where
  act m w := (m.blank, w)
  answer c w :=
    let w₁ := { w with calls := w.calls + 1 }
    let f := (around.settle w.calls).fate (w₁.answers around c)
    (f, w₁.carryOut c f)

/-- What a scan leaves behind. -/
def scanOnce (configService : ConfigService) (registry : Registry) (around : ScanSurroundings)
    (fuel : ℕ) (w : ScannerWorld) : ScannerWorld :=
  ((TxnNotifierService.scan configService registry fuel).exec (scanMachine around) w).2

/-! ## Consecutive heights -/

/-- The events of `j` heights after `m`, one after the other. -/
def scanned (m j : ℕ) : List ScanEvent :=
  (List.range' (m + 1) j).flatMap fun n => [.begun n, .completed n, .stored n]

theorem scanned_succ (m j : ℕ) : scanned m (j + 1) = scanned m j ++
    [.begun (m + j + 1), .completed (m + j + 1), .stored (m + j + 1)] := by
  have hlast : m + 1 + j = m + j + 1 := by omega
  simp [scanned, List.range'_1_concat, hlast]

/-- A scan has processed and stored `j` heights after `m`, and done `tail` about
the next one. -/
structure Consecutive (before : ScannerWorld) (m j : ℕ) (tail : List ScanEvent) (w : ScannerWorld) :
    Prop where
  log : w.log = before.log ++ scanned m j ++ tail
  lastSeen : w.lastSeen = if j = 0 then before.lastSeen else some (m + j)

/-- A scan from `m` on has processed consecutive heights, in order, and has
stored the last one it completed; of the next one it has stored nothing. -/
def ScannedFrom (m : ℕ) (before w : ScannerWorld) : Prop :=
  ∃ j tail, Consecutive before m j tail w ∧
    tail <+: [.begun (m + j + 1), .completed (m + j + 1)]

/-! ## The invariant -/

/-- Every entry was pending when a height was processed that is greater than its
birth and than the last seen number at its addition, up to height `b` or to its
removal. -/
def Swept (b : ℕ) (w : ScannerWorld) : Prop :=
  ∀ r ∈ w.records, ∀ n, r.entry.birth < n → r.seenAt < n → (r.removedAt = none → n ≤ b) →
    n ∈ r.processed ∨ ∃ h ∈ r.removedAt, h < n

namespace Swept

variable {b b' : ℕ} {w w' : ScannerWorld}

theorem mono (h : Swept b w) (hle : b' ≤ b) : Swept b' w :=
  fun r hr n hbirth hseen hn => h r hr n hbirth hseen fun hpending => (hn hpending).trans hle

theorem congr (h : Swept b w) (hrecords : w'.records = w.records) : Swept b w' := by
  intro r hr
  rw [hrecords] at hr
  exact h r hr

/-- **A jump** to the oldest birth passes over no height that matters. -/
theorem jump (h : Swept b w) : Swept (TxnNotifierService.startingBlock b w.pendingTxns) w := by
  intro r hr n hbirth hseen hn
  refine h r hr n hbirth hseen fun hpending => ?_
  by_contra hlate
  have hmem : r.entry ∈ w.pendingTxns :=
    List.mem_map_of_mem (List.mem_filter.mpr ⟨hr, decide_eq_true hpending⟩)
  -- the oldest birth is before `n`, and so is the block the scan starts after
  have hstart : TxnNotifierService.startingBlock b w.pendingTxns ≤ n - 1 :=
    TxnNotifierService.startingBlock_le (by omega) (.inr ⟨r.entry, hmem, by omega⟩)
  have hle := hn hpending
  omega

/-- **A pass** over the next height sweeps it. -/
theorem pass (h : Swept b w) (hdels : List Hash)
    (hrecords : w'.records = w.records.map (WatchRecord.pass (b + 1) hdels)) :
    Swept (b + 1) w' := by
  intro r' hr' n hbirth hseen hn
  rw [hrecords] at hr'
  obtain ⟨r, hr, rfl⟩ := List.mem_map.mp hr'
  by_cases hpending : r.removedAt = none
  · have hpass : r.pass (b + 1) hdels =
        { r with
          processed := (b + 1) :: r.processed
          removedAt := if r.entry.txHash ∈ hdels then some (b + 1) else none } := if_pos hpending
    rw [hpass] at hbirth hseen hn ⊢
    rcases Nat.lt_trichotomy n (b + 1) with hlt | rfl | hgt
    · rcases h r hr n hbirth hseen fun _ => Nat.lt_succ_iff.mp hlt with hmem | ⟨h, hh, -⟩
      · exact .inl (List.mem_cons_of_mem _ hmem)
      · rw [hpending] at hh
        cases hh
    · exact .inl List.mem_cons_self
    · -- beyond the height of the pass the entry must have been removed
      have hdel : r.entry.txHash ∈ hdels := by
        by_contra hnot
        have := hn (if_neg hnot)
        omega
      exact .inr ⟨b + 1, if_pos hdel, hgt⟩
  · have hpass : r.pass (b + 1) hdels = r := if_neg hpending
    rw [hpass] at hbirth hseen ⊢
    exact h r hr n hbirth hseen fun hp => absurd hp hpending

/-- **An addition** starts from the last seen number, and what it overwrites
ends there. -/
theorem add (h : Swept (w.lastSeen.getD 0) w) (status : ITxStatus) :
    Swept (w.lastSeen.getD 0) (w.add status) := by
  intro r' hr' n hbirth hseen hn
  rcases List.mem_append.mp hr' with hold | hnew
  · obtain ⟨r, hr, rfl⟩ := List.mem_map.mp hold
    unfold WatchRecord.overwrite at hbirth hseen hn ⊢
    by_cases hover : r.removedAt = none ∧ r.entry.txHash = status.txHash
    · -- an addition under the hash of a pending entry overwrites it
      rw [if_pos hover] at hbirth hseen ⊢
      by_cases hle : n ≤ w.lastSeen.getD 0
      · rcases h r hr n hbirth hseen fun _ => hle with hmem | ⟨h, hh, -⟩
        · exact .inl hmem
        · rw [hover.1] at hh
          cases hh
      · exact .inr ⟨_, rfl, Nat.lt_of_not_le hle⟩
    · rw [if_neg hover] at hbirth hseen hn ⊢
      exact h r hr n hbirth hseen hn
  · obtain rfl := List.mem_singleton.mp hnew
    have hle := hn rfl
    have hlt : w.lastSeen.getD 0 < n := hseen
    omega

end Swept

/-! ## A scan on its course -/

section Scan

variable {configService : ConfigService} {registry : Registry} {before w w' : ScannerWorld} {m : ℕ}
  {s : NotifierPhase}

/-- The invariant up to height `b`, if it held before the scan. -/
def Sweeps (before : ScannerWorld) (b : ℕ) (w : ScannerWorld) : Prop :=
  Swept (before.lastSeen.getD 0) before → Swept b w

/-- A scan has come to height `n` and done `tail` about it. -/
def ComeTo (before : ScannerWorld) (m n : ℕ) (tail : List ScanEvent) (w : ScannerWorld) : Prop :=
  ∃ j, n = m + j + 1 ∧ Consecutive before m j tail w ∧ Sweeps before (m + j) w

/-- What holds of the world in a phase of a scan that reads the last seen number
and the watch list of `before`. -/
def AtPhase (before : ScannerWorld) (m : ℕ) (w : ScannerWorld) : NotifierPhase → Prop
  | .starting | .entered =>
      Consecutive before m 0 [] w ∧ w.records = before.records
  | .seen b =>
      (Consecutive before m 0 [] w ∧ w.records = before.records) ∧ b = before.lastSeen.getD 0
  | .next n | .reached n _ | .confirming n _ | .halted n _ | .checked n _ =>
      ComeTo before m n [] w
  | .opened p | .located p | .dated p | .notifying p _ | .booking p _ | .closing p _ =>
      ComeTo before m p.height [.begun p.height] w ∧ w.current = p.height
  | .passed n =>
      ComeTo before m n [.begun n, .completed n] w ∧ Sweeps before n w
  | .idle => ScannedFrom m before w ∧ Sweeps before (w.lastSeen.getD 0) w
  | .absent | .booting | .empty | .headed _ => False

/-- Two worlds differ in nothing a scan leaves behind. -/
structure SameScan (w w' : ScannerWorld) : Prop where
  lastSeen : w'.lastSeen = w.lastSeen
  records : w'.records = w.records
  log : w'.log = w.log
  current : w'.current = w.current

theorem Sweeps.congr {b : ℕ} (h : Sweeps before b w) (hrecords : w'.records = w.records) :
    Sweeps before b w' := fun hbefore => (h hbefore).congr hrecords

theorem Sweeps.mono {b b' : ℕ} (h : Sweeps before b w) (hle : b' ≤ b) : Sweeps before b' w :=
  fun hbefore => (h hbefore).mono hle

theorem Consecutive.congr {j : ℕ} {tail : List ScanEvent} (h : Consecutive before m j tail w)
    (hsame : SameScan w w') : Consecutive before m j tail w' :=
  ⟨hsame.log.trans h.log, hsame.lastSeen.trans h.lastSeen⟩

theorem ComeTo.congr {n : ℕ} {tail : List ScanEvent} (h : ComeTo before m n tail w)
    (hsame : SameScan w w') : ComeTo before m n tail w' := by
  obtain ⟨j, hn, hconsecutive, hswept⟩ := h
  exact ⟨j, hn, hconsecutive.congr hsame, hswept.congr hsame.records⟩

theorem AtPhase.congr (h : AtPhase before m w s) (hsame : SameScan w w') :
    AtPhase before m w' s := by
  cases s with
  | starting => exact ⟨h.1.congr hsame, hsame.records.trans h.2⟩
  | entered => exact ⟨h.1.congr hsame, hsame.records.trans h.2⟩
  | seen b => exact ⟨⟨h.1.1.congr hsame, hsame.records.trans h.1.2⟩, h.2⟩
  | next n => exact ComeTo.congr h hsame
  | reached n hash => exact ComeTo.congr h hsame
  | confirming n hash => exact ComeTo.congr h hsame
  | halted n hash => exact ComeTo.congr h hsame
  | checked n hash => exact ComeTo.congr h hsame
  | passed n => exact ⟨ComeTo.congr h.1 hsame, h.2.congr hsame.records⟩
  | idle =>
      obtain ⟨⟨j, tail, hconsecutive, htail⟩, hswept⟩ := h
      refine ⟨⟨j, tail, hconsecutive.congr hsame, htail⟩, ?_⟩
      rw [hsame.lastSeen]
      exact hswept.congr hsame.records
  | absent => exact h
  | booting => exact h
  | empty => exact h
  | headed b => exact h
  | _ => exact ⟨ComeTo.congr h.1 hsame, hsame.current.trans h.2⟩

/-- The last seen number is no greater than the height a scan has come after. -/
private theorem Consecutive.lastSeen_le {j : ℕ} {tail : List ScanEvent}
    (h : Consecutive before m j tail w) (hm : before.lastSeen.getD 0 ≤ m) :
    w.lastSeen.getD 0 ≤ m + j := by
  rw [h.lastSeen]
  split
  · exact hm.trans (Nat.le_add_right m j)
  · exact le_rfl

/-- A scan may end wherever it has come to. -/
private theorem ComeTo.idle {n : ℕ} {tail : List ScanEvent} (h : ComeTo before m n tail w)
    (hm : before.lastSeen.getD 0 ≤ m) (htail : tail <+: [.begun n, .completed n]) :
    AtPhase before m w .idle := by
  obtain ⟨j, rfl, hconsecutive, hswept⟩ := h
  exact ⟨⟨j, tail, hconsecutive, htail⟩, hswept.mono (hconsecutive.lastSeen_le hm)⟩

private theorem AtPhase.idle (h : AtPhase before m w s) (hm : before.lastSeen.getD 0 ≤ m) :
    AtPhase before m w .idle := by
  have hearly : Consecutive before m 0 [] w ∧ w.records = before.records →
      AtPhase before m w .idle := by
    -- nothing has been processed yet
    rintro ⟨hconsecutive, hrecords⟩
    refine ⟨⟨0, [], hconsecutive, List.nil_prefix⟩, fun hbefore => ?_⟩
    rw [hconsecutive.lastSeen, if_pos rfl]
    exact hbefore.congr hrecords
  cases s with
  | starting => exact hearly h
  | entered => exact hearly h
  | seen b => exact hearly h.1
  | next n => exact ComeTo.idle h hm List.nil_prefix
  | reached n hash => exact ComeTo.idle h hm List.nil_prefix
  | confirming n hash => exact ComeTo.idle h hm List.nil_prefix
  | halted n hash => exact ComeTo.idle h hm List.nil_prefix
  | checked n hash => exact ComeTo.idle h hm List.nil_prefix
  | passed n => exact ComeTo.idle h.1 hm List.prefix_rfl
  | idle => exact h
  | absent => exact h.elim
  | booting => exact h.elim
  | empty => exact h.elim
  | headed b => exact h.elim
  | _ => exact ComeTo.idle h.1 hm (List.prefix_append [ScanEvent.begun _] [.completed _])

/-- The pass over a height begins. -/
private theorem ComeTo.begin {n : ℕ} (h : ComeTo before m n [] w) :
    ComeTo before m n [.begun n] { w with log := w.log ++ [.begun n], current := n } := by
  obtain ⟨j, hn, hconsecutive, hswept⟩ := h
  refine ⟨j, hn, ⟨?_, hconsecutive.lastSeen⟩, hswept.congr rfl⟩
  show w.log ++ [.begun n] = _
  rw [hconsecutive.log, List.append_nil]

/-- The pipeline of the pass is executed. -/
private theorem ComeTo.remove {n : ℕ} (h : ComeTo before m n [.begun n] w)
    (hcurrent : w.current = n) (hdels : List Hash) :
    ComeTo before m n [.begun n]
        { w with records := w.records.map (WatchRecord.pass w.current hdels) } ∧
      Sweeps before n
        { w with records := w.records.map (WatchRecord.pass w.current hdels) } := by
  obtain ⟨j, rfl, hconsecutive, hswept⟩ := h
  have hswept' : Sweeps before (m + j + 1)
      { w with records := w.records.map (WatchRecord.pass w.current hdels) } :=
    fun hbefore => (hswept hbefore).pass hdels (by rw [hcurrent])
  exact ⟨⟨j, rfl, ⟨hconsecutive.log, hconsecutive.lastSeen⟩, hswept'.mono (Nat.le_succ _)⟩, hswept'⟩

/-- The height is stored. -/
private theorem ComeTo.store {n : ℕ} (h : ComeTo before m n [.begun n, .completed n] w)
    (hswept : Sweeps before n w) :
    ComeTo before m (n + 1) [] { w with lastSeen := some n, log := w.log ++ [.stored n] } := by
  obtain ⟨j, rfl, hconsecutive, -⟩ := h
  refine ⟨j + 1, rfl, ⟨?_, ?_⟩, hswept.congr rfl⟩
  · show w.log ++ [.stored (m + j + 1)] = _
    rw [hconsecutive.log, scanned_succ]
    simp
  · rw [if_neg (Nat.succ_ne_zero j)]
    rfl

/-- **A scan starts** at the oldest birth, or after the last seen block. -/
private theorem ComeTo.start (h : Consecutive before m 0 [] w) (hrecords : w.records = before.records)
    (hm : m = TxnNotifierService.startingBlock (before.lastSeen.getD 0) before.pendingTxns) :
    ComeTo before m (m + 1) [] w := by
  refine ⟨0, rfl, h, fun hbefore => Swept.congr ?_ hrecords⟩
  show Swept m before
  rw [hm]
  exact hbefore.jump

/-- A call that fails ends the scan where it has come to. -/
private theorem AtPhase.failed {c : Call} (hcall : NotifierCall configService s c)
    (h : AtPhase before m w s) (hle : before.lastSeen.getD 0 ≤ m) {f : Fate Err c.Reply} {e : Err}
    (hseen : f.seen = .error e) : AtPhase before m (w.carryOut c f) .idle := by
  have hidle := h.idle hle
  cases hcall with
  | pending n hash =>
      exact (ComeTo.begin h).idle hle (List.prefix_append [ScanEvent.begun n] [.completed n])
  | remove p booked hsettled hcomplete =>
      cases f with
      | done reply => cases hseen
      | refused e => exact hidle
      | lost reply e =>
          exact (h.1.remove h.2 p.hdels).1.idle hle
            (List.prefix_append [ScanEvent.begun p.height] [.completed p.height])
  | skip b => exact h.elim
  | store n =>
      cases f with
      | done reply => cases hseen
      | refused e => exact hidle
      -- the removal was carried out, but the height is not stored
      | lost reply e => exact (h.1.store h.2).idle hle List.nil_prefix
  | _ => exact hidle

/-- **A call** of a scan keeps what holds in each phase. -/
private theorem AtPhase.step (around : ScanSurroundings) {c : Call} {f : Fate Err c.Reply}
    {s' : NotifierPhase} (hstep : NotifierStep configService s c f s') (h : AtPhase before m w s)
    (hm : m = TxnNotifierService.startingBlock (before.lastSeen.getD 0) before.pendingTxns)
    (hf : ∀ reply, f.effect = some reply → reply = w.answers around c) :
    AtPhase before m (w.carryOut c f) s' := by
  have hle : before.lastSeen.getD 0 ≤ m := by
    rw [hm]
    exact TxnNotifierService.le_startingBlock _ _
  cases hstep with
  | failed s c hcall f e hseen hidle => exact h.failed hcall hle hseen
  | nonePending => exact h.idle hle
  | leave n hash pending hleave => exact h.idle hle
  | lastSeen reply =>
      refine ⟨h, ?_⟩
      rw [hf reply rfl]
      exact congrArg (fun seen => seen.getD 0) h.1.lastSeen
  | births b pending =>
      obtain ⟨⟨hconsecutive, hrecords⟩, rfl⟩ := h
      have hreply : pending = before.pendingTxns := by
        rw [hf pending rfl]
        exact congrArg (fun records =>
          (records.filter fun r => r.removedAt = none).map WatchRecord.entry) hrecords
      show ComeTo before m (TxnNotifierService.startingBlock (before.lastSeen.getD 0) pending + 1) [] w
      -- the scan starts at what it has read, which is what was there before it
      rw [hreply, ← hm]
      exact ComeTo.start hconsecutive hrecords hm
  | pending n hash pending => exact ⟨ComeTo.begin h, rfl⟩
  | remove p booked hsettled hcomplete reply =>
      obtain ⟨hcome, hcurrent⟩ := h
      obtain ⟨⟨j, hj, hconsecutive, hbelow⟩, hswept⟩ := hcome.remove hcurrent p.hdels
      refine ⟨⟨j, hj, ⟨?_, hconsecutive.lastSeen⟩, hbelow.congr rfl⟩, hswept.congr rfl⟩
      -- the height is complete when its removals are
      show w.log ++ [.completed w.current] = _
      rw [show w.log = _ from hconsecutive.log, hcurrent]
      simp
  | store n reply => exact h.1.store h.2
  | _ => first | exact h | exact h.elim

private theorem scanMachine_tracks (around : ScanSurroundings)
    (hm : m = TxnNotifierService.startingBlock (before.lastSeen.getD 0) before.pendingTxns) :
    (scanMachine around).Tracks (notifierCourse configService) (AtPhase before m) where
  act l w s _ h := h
  issue c w s hallow _ := (NotifierPhase.not_fire hallow).elim
  answer c w s hallow h := by
    have hcall : NotifierCall configService s c := hallow
    have hcounted : AtPhase before m { w with calls := w.calls + 1 } s :=
      h.congr ⟨rfl, rfl, rfl, rfl⟩
    exact hcounted.step around (hcall.step _) hm fun reply => Settle.fate_effect

/-- **A scan**, however it ends, has processed consecutive heights and keeps the
invariant. -/
private theorem scanOnce_idle (configService : ConfigService) (registry : Registry)
    (around : ScanSurroundings) (fuel : ℕ) (before : ScannerWorld) :
    AtPhase before (TxnNotifierService.startingBlock (before.lastSeen.getD 0) before.pendingTxns)
      (scanOnce configService registry around fuel before) .idle := by
  have hstart : AtPhase before
      (TxnNotifierService.startingBlock (before.lastSeen.getD 0) before.pendingTxns) before
        .starting := ⟨⟨by simp [scanned], rfl⟩, rfl⟩
  obtain ⟨s, hs, -⟩ := Prog.exec_follows (scanMachine_tracks around rfl) (scan_keepsCourse fuel)
    hstart
  exact hs.idle (TxnNotifierService.le_startingBlock _ _)

end Scan

/-! ## Scan after scan -/

/-- What happens to the last seen number and the watch list: an entry is added,
or a scan runs. -/
inductive ScanStep where
  | add (status : ITxStatus)
  | scan (around : ScanSurroundings) (fuel : ℕ)

/-- Scans one after the other, with entries added only between them. -/
def scanSteps (configService : ConfigService) (registry : Registry) :
    System ScanStep ScannerWorld where
  step
    | .add status, w => some (w.add status)
    | .scan around fuel, w => some (scanOnce configService registry around fuel w)

/-- Every height the last seen number has passed, of those greater than an
entry's birth and than the last seen number at its addition, was processed while
the entry was pending. -/
def PassedPending (w : ScannerWorld) : Prop :=
  ∀ r ∈ w.records, ∀ n, r.entry.birth < n → r.seenAt < n → n ≤ w.lastSeen.getD 0 →
    n ∈ r.processed

/-- The same for the heights up to the one the entry was removed at. -/
def PassedUntilRemoval (w : ScannerWorld) : Prop :=
  ∀ r ∈ w.records, ∀ n, r.entry.birth < n → r.seenAt < n → n ≤ w.lastSeen.getD 0 →
    n ∈ r.processed ∨ ∃ h ∈ r.removedAt, h < n

/-- **Scanning without gaps.**  A scan processes consecutive heights from the
last seen number or the oldest birth on and stores the last one it has
completed; from scan to scan, no height is passed that matters to an entry that
is pending. -/
theorem scan_gapFree (configService : ConfigService) (registry : Registry) :
    (∀ (around : ScanSurroundings) (fuel oldest : ℕ) (w : ScannerWorld),
      (w.pendingTxns.map ITxStatus.birth).min? = some oldest →
        ScannedFrom (max (w.lastSeen.getD 0) oldest) w
          (scanOnce configService registry around fuel w)) ∧
      ∀ (lastSeen : Option ℕ) (ls : List ScanStep),
        (scanSteps configService registry).Throughout PassedUntilRemoval ls
          { lastSeen := lastSeen } := by
  constructor
  · intro around fuel oldest w hmin
    have hstart : TxnNotifierService.startingBlock (w.lastSeen.getD 0) w.pendingTxns =
        max (w.lastSeen.getD 0) oldest := by
      unfold TxnNotifierService.startingBlock
      rw [hmin]
    have hidle := scanOnce_idle configService registry around fuel w
    rw [hstart] at hidle
    exact hidle.1
  · intro lastSeen ls
    have hswept : (scanSteps configService registry).Throughout
        (fun w => Swept (w.lastSeen.getD 0) w) ls { lastSeen := lastSeen } := by
      -- the invariant is kept by an addition and by a whole scan
      refine (System.each_true ls _).throughout (fun l w w' _ hJ hstep => ?_)
        fun r hr => (by cases hr)
      cases l with
      | add status =>
          obtain rfl := Option.some.inj hstep
          exact hJ.add status
      | scan around fuel =>
          obtain rfl := Option.some.inj hstep
          exact (scanOnce_idle configService registry around fuel w).2 hJ
    exact hswept.mono fun w h r hr n hbirth hseen hle => h r hr n hbirth hseen fun _ => hle

/-- An entry born with the chain. -/
def bornFirst (txHash : Hash) : ITxStatus :=
  ⟨.siwfSignin, "1", "1", txHash, ⟨"system", "ExtrinsicSuccess"⟩, 0, 100⟩

/-- Two blocks, the first of them with extrinsic 1. -/
def firstOfTwo : ScanSurroundings where
  reply _
    | .getBlockHash n => if n ≤ 2 then n else 0
    | .getBlock h => if h = 1 then [1] else []
    | _ => default
  settle _ := .answer

/-- With two entries pending, both blocks are processed and stored. -/
theorem scan_gapFree_firstOfTwo :
    let before := (({} : ScannerWorld).add (bornFirst 1)).add (bornFirst 2)
    let after := scanOnce (.amountLimit 1) ⟨fun _ => none⟩ firstOfTwo 3 before
    ScannedFrom 0 before after ∧
      after.log = [.begun 1, .completed 1, .stored 1, .begun 2, .completed 2, .stored 2] :=
  ⟨(scan_gapFree (.amountLimit 1) ⟨fun _ => none⟩).1 firstOfTwo 3 0
    ((({} : ScannerWorld).add (bornFirst 1)).add (bornFirst 2)) (by decide), by decide +kernel⟩

theorem scan_passes_removed :
    ¬∀ (configService : ConfigService) (registry : Registry) (lastSeen : Option ℕ)
        (ls : List ScanStep),
      (scanSteps configService registry).Throughout PassedPending ls { lastSeen := lastSeen } := by
  intro h
  have hstate : ((scanSteps (.amountLimit 1) ⟨fun _ => none⟩).run
      [.add (bornFirst 1), .add (bornFirst 2), .scan firstOfTwo 3] {}).map
        (fun w => (w.records, w.lastSeen)) =
      some ([⟨bornFirst 1, 0, [1], some 1⟩, ⟨bornFirst 2, 0, [2, 1], none⟩], some 2) := by
    decide +kernel
  obtain ⟨w, hrun, hw⟩ := Option.map_eq_some_iff.mp hstate
  obtain ⟨hrecords, hlastSeen⟩ := Prod.mk.inj hw
  have hpassed := (h _ _ none _).run hrun
  -- the first entry was removed at height 1
  have hmem := hpassed ⟨bornFirst 1, 0, [1], some 1⟩ (by rw [hrecords]; simp) 2 (by decide)
    (by decide) (by rw [hlastSeen]; decide)
  simp at hmem

end AccountService
