import AccountService.Publisher

/-!
# The validity window of an entry

An extrinsic signed against block `C` with a mortal era of period `p` is valid
in the window of that era around `C`.  `process` computes the window it stores
around another block, the finalised one it read before it built the extrinsic,
and the expiry pass of the notifier goes by what is stored.

The window around `C` begins with `C` itself, so the two agree only if the
finalised block was already `C`, or if `C` lies in the first period of the chain.
-/

namespace AccountService

open Async

/-! ## Signing a batch -/

/-- The finalised block a job reads, and the block and the period its extrinsic
is signed with. -/
structure Signing where
  finalized : ℕ
  block : ℕ
  period : ℕ
  le : finalized ≤ block
  pos : 0 < period

namespace Signing

variable (signing : Signing)

/-- The era of the extrinsic. -/
def era : MortalEra := ⟨signing.period, signing.block % signing.period⟩

/-- The machine that answers so; every other call settles as it likes.  Its
state lists the entries written. -/
def machine (others : (c : Call) → Fate Err c.Reply) (memory : (m : Memory) → m.Result) :
    Machine Worker Err (List ITxStatus) where
  act m w := (memory m, w)
  answer c w :=
    match c with
    | .getLatestFinalizedBlockNumber => (.done signing.finalized, w)
    | .signAndSend ext nonce =>
        match others (.signAndSend ext nonce) with
        | .done sent =>
            (.done (sent.1, { ext with era := .mortal signing.era.period signing.era.phase }), w)
        | f => (f, w)
    | .hset txHash status => (others (.hset txHash status), w ++ [status])
    | c => (others c, w)

/-- The recorded window is the one in which the chain accepts the extrinsic, and
the expiry pass keeps the entry within it. -/
structure Recorded (status : ITxStatus) : Prop where
  birth : status.birth = signing.era.birth signing.block
  death : status.death = signing.era.death signing.block
  kept : ∀ n < signing.era.death signing.block, expiredTxns [status] n = []

/-- The window around the block of signing begins with it. -/
theorem birth_block : signing.era.birth signing.block = signing.block := by
  have hmod := Nat.mod_le signing.block signing.period
  have hdvd := Nat.div_mul_cancel (Nat.dvd_sub_mod (n := signing.period) signing.block)
  unfold MortalEra.birth era
  rw [max_eq_left hmod, hdvd, Nat.sub_add_cancel hmod]

/-- The window around the finalised block is the window around the block of
signing only if the two are one block, or in the first period of the chain. -/
theorem birth_finalized_iff : signing.era.birth signing.finalized = signing.block ↔
    signing.finalized = signing.block ∨ signing.block < signing.period := by
  constructor
  · intro h
    have hle := signing.era.birth_le signing.finalized
    by_contra hnot
    have hsigning := signing.le
    have hlt := Nat.mod_lt signing.block signing.pos
    have hphase : signing.era.phase = signing.block % signing.period := rfl
    omega
  · rintro (h | h)
    · rw [h, birth_block]
    · have hphase : signing.era.phase = signing.block := Nat.mod_eq_of_lt h
      have hle := signing.le
      unfold MortalEra.birth
      rw [hphase, max_eq_right hle, Nat.sub_self, Nat.zero_div, Nat.zero_mul, Nat.zero_add]

/-- An entry whose window was computed around the finalised block. -/
theorem recorded_iff {status : ITxStatus}
    (hbirth : status.birth = signing.era.birth signing.finalized)
    (hdeath : status.death = signing.era.death signing.finalized) :
    signing.Recorded status ↔
      signing.finalized = signing.block ∨ signing.block < signing.period := by
  rw [← birth_finalized_iff]
  constructor
  · intro h
    rw [← hbirth, h.birth, birth_block]
  · intro h
    have hdeath' : status.death = signing.era.death signing.block := by
      rw [hdeath, MortalEra.death, MortalEra.death, h, birth_block]
    refine ⟨?_, hdeath', fun n hn => ?_⟩
    · rw [hbirth, h, birth_block]
    · have hlate : ¬status.death ≤ n := by omega
      simp [expiredTxns, hlate]

end Signing

/-! ## What a batch records -/

/-- What a job has read and signed so far. -/
structure Known where
  finalized : Option ℕ := none
  era : Option ExtrinsicEra := none

/-- An entry is written with the window of the signed era around the finalised
block. -/
def windowCourse : Protocol Worker Err Known where
  allow known act :=
    match act with
    | .fire (.hset _ status) => ∃ finalized era, known.finalized = some finalized ∧
        known.era.bind ExtrinsicEra.asMortalEra = some era ∧
          status.birth = era.birth finalized ∧ status.death = era.death finalized
    | .fire (.signAndSend _ _) | .await (.hset _ _) => False
    | _ => True
  next known obs :=
    match obs with
    | .await .getLatestFinalizedBlockNumber f => { known with finalized := f.seen.toOption }
    | .await (.signAndSend _ _) f => { known with era := f.seen.toOption.map fun sent => sent.2.era }
    | _ => known

section Course

variable {configService : ConfigService} {known : Known}

private theorem checkCapacity_known : (checkCapacity configService).Follows windowCourse
    (fun _ s => s = known) (fun _ s => s = known) known := by
  refine (checkCapacity_gate configService).follows ?_ ?_ ?_ ?_
  · rintro (m | c | c) hact
    · trivial
    · cases c <;> trivial
    · cases c <;> trivial
  · exact fun m r _ => rfl
  · exact fun c _ => rfl
  · intro c f hact
    cases c <;> first | rfl | exact hact.elim

private theorem getNextNonce_known : getNextNonce.Follows windowCourse
    (fun _ s => s = known) (fun _ _ => True) known := by
  simp only [getNextNonce, Prog.bind_eq, Prog.follows_bind, follows_call]
  refine ⟨trivial, fun index => ?_, fun _ => trivial, fun _ _ => trivial⟩
  refine ⟨trivial, fun position => ?_, fun _ => trivial, fun _ _ => trivial⟩
  rw [Prog.follows_ite]
  split <;> rfl

/-- A batch is written with the window of its era around the finalised block
that was read. -/
private theorem batch_follows (configService : ConfigService) (id : String) (calls : Option (List String))
    (providerId referenceId : String) :
    (process configService ⟨id, .siwfSignup calls, providerId, referenceId⟩).Follows windowCourse
      (fun _ _ => True) (fun _ _ => True) {} := by
  simp only [process, Prog.tryCatch_throw, Prog.bind_eq, Prog.follows_bind]
  refine checkCapacity_known.mono ?_ fun _ _ _ => trivial
  rintro available _ rfl
  cases available with
  | false => exact ⟨trivial, trivial⟩
  | true =>
      simp only [if_true, publish, submit, Prog.bind_eq, Prog.follows_bind, follows_call,
        Prog.pure_eq, Prog.follows_done]
      refine ⟨trivial, fun finalized => ?_, fun _ => trivial, fun _ _ => trivial⟩
      refine (Prog.follows_mapM (J := fun s => s = { finalized := some finalized }) ?_ _ _
        rfl).mono ?_ fun _ _ h => h
      · rintro x _ rfl
        rw [follows_call]
        exact ⟨trivial, fun _ => rfl, fun _ => trivial, fun _ _ => trivial⟩
      · -- nothing that is read in between replaces the finalised height
        rintro txns _ rfl
        simp only [processBatchTxn, Prog.bind_eq, Prog.follows_bind, follows_call, Prog.pure_eq,
          Prog.follows_done]
        refine ⟨trivial, fun ext => ?_, fun _ => trivial, fun _ _ => trivial⟩
        refine getNextNonce_known.mono ?_ fun _ _ _ => trivial
        rintro nonce _ rfl
        refine ⟨trivial, fun sent => ?_, fun _ => trivial, fun _ _ => trivial⟩
        cases hera : sent.2.era.asMortalEra with
        | none => trivial
        | some era => exact ⟨⟨finalized, era, rfl, hera, rfl, rfl⟩, trivial⟩

end Course

/-- The machine keeps what has been read and signed, and an entry it holds has
the window of the era around the finalised block. -/
private theorem window_tracks (signing : Signing) (others : (c : Call) → Fate Err c.Reply)
    (memory : (m : Memory) → m.Result) :
    (signing.machine others memory).Tracks windowCourse fun w known =>
      (∀ finalized ∈ known.finalized, finalized = signing.finalized) ∧
        (∀ era ∈ known.era, era = .mortal signing.era.period signing.era.phase) ∧
          ∀ status ∈ w, status.birth = signing.era.birth signing.finalized ∧
            status.death = signing.era.death signing.finalized where
  act m w known _ h := h
  issue c w known hallow h := by
    cases c with
    | hset txHash status =>
        refine ⟨h.1, h.2.1, fun status' hstatus => ?_⟩
        rcases List.mem_append.mp hstatus with hold | hnew
        · exact h.2.2 status' hold
        · obtain ⟨finalized, era, hfinalized, hera, hbirth, hdeath⟩ := hallow
          obtain ⟨signed, hsigned, hmortal⟩ := Option.bind_eq_some_iff.mp hera
          obtain rfl := h.1 finalized hfinalized
          obtain rfl := h.2.1 signed hsigned
          obtain rfl := Option.some.inj hmortal
          -- both the height and the era are those of the machine
          rw [List.mem_singleton.mp hnew]
          exact ⟨hbirth, hdeath⟩
    | signAndSend ext nonce => exact hallow.elim
    | _ => exact h
  answer c w known hallow h := by
    cases c with
    | getLatestFinalizedBlockNumber =>
        refine ⟨fun finalized hfinalized => ?_, h.2⟩
        exact (Option.some.inj hfinalized).symm
    | signAndSend ext nonce =>
        cases hf : others (.signAndSend ext nonce) with
        | done sent =>
            simp only [Signing.machine, hf]
            refine ⟨h.1, fun era hera => ?_, h.2.2⟩
            exact (Option.some.inj hera).symm
        | refused e =>
            simp only [Signing.machine, hf]
            exact ⟨h.1, fun era hera => (by cases hera), h.2.2⟩
        | lost sent e =>
            simp only [Signing.machine, hf]
            exact ⟨h.1, fun era hera => (by cases hera), h.2.2⟩
    | hset txHash status => exact hallow.elim
    | _ => exact h

/-! ## The recorded window -/

/-- The entries a batch writes that is signed in the given way. -/
def Signing.entries (signing : Signing) (others : (c : Call) → Fate Err c.Reply)
    (memory : (m : Memory) → m.Result) (configService : ConfigService) (id : String)
    (calls : Option (List String)) (providerId referenceId : String) : List ITxStatus :=
  ((process configService ⟨id, .siwfSignup calls, providerId, referenceId⟩).exec
    (signing.machine others memory) []).2

/-- **The recorded window is the real one exactly if** the finalised block that
was read is the block the extrinsic was signed against, or that block lies in
the first period of the chain. -/
theorem recorded_window_iff (signing : Signing) (others : (c : Call) → Fate Err c.Reply)
    (memory : (m : Memory) → m.Result) (configService : ConfigService) (id : String)
    (calls : Option (List String)) (providerId referenceId : String) :
    ∀ status ∈ signing.entries others memory configService id calls providerId referenceId,
      signing.Recorded status ↔
        signing.finalized = signing.block ∨ signing.block < signing.period := by
  intro status hstatus
  obtain ⟨known, ⟨-, -, hentries⟩, -⟩ := Prog.exec_follows (window_tracks signing others memory)
    (batch_follows configService id calls providerId referenceId)
    (w := []) ⟨by simp, by simp, by simp⟩
  obtain ⟨hbirth, hdeath⟩ := hentries status hstatus
  exact signing.recorded_iff hbirth hdeath

/-- The finalised block is read one block before the one the batch is signed
against. -/
def movedOn : Signing where
  finalized := 99
  block := 100
  period := 64
  le := by decide
  pos := by decide

/-- Every call succeeds and capacity is available. -/
def sufficient : (c : Call) → Fate Err c.Reply
  | .capacityLedger _ => .done (some ⟨100, 100⟩)
  | .incrementNonce _ _ _ => .done 1
  | _ => .done default

theorem recorded_window_movedOn :
    ∃ status ∈ movedOn.entries sufficient Memory.blank (.amountLimit 50) "a" (some []) "1" "a",
      (movedOn.Recorded status ↔
        movedOn.finalized = movedOn.block ∨ movedOn.block < movedOn.period) := by
  obtain ⟨status, hstatus⟩ := List.exists_mem_of_ne_nil
    (movedOn.entries sufficient Memory.blank (.amountLimit 50) "a" (some []) "1" "a")
    (by decide +kernel)
  exact ⟨status, hstatus, recorded_window_iff _ _ _ _ _ _ _ _ status hstatus⟩

theorem recorded_window_not_real :
    ¬∀ (signing : Signing) (others : (c : Call) → Fate Err c.Reply)
        (memory : (m : Memory) → m.Result) (configService : ConfigService) (id : String)
        (calls : Option (List String)) (providerId referenceId : String),
      ∀ status ∈ signing.entries others memory configService id calls providerId referenceId,
        signing.Recorded status := by
  intro h
  have hwindows : (movedOn.entries sufficient Memory.blank (.amountLimit 50) "a" (some []) "1"
      "a").map (fun status => (status.birth, status.death)) = [(36, 100)] := by decide +kernel
  obtain ⟨status, hstatus, hwindow⟩ := List.mem_map.mp (hwindows ▸ List.mem_singleton_self _)
  have hbirth := (h _ _ _ _ _ _ _ _ status hstatus).birth
  rw [Signing.birth_block, (Prod.mk.inj hwindow).1] at hbirth
  cases hbirth

end AccountService
