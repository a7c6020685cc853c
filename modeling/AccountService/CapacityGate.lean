import AccountService.Publisher
import Mathlib.Data.Rat.Floor
import Mathlib.Tactic.FieldSimp

/-!
# The capacity gate

`CAPACITY_LIMIT` is checked by a schema that converts what it reads, and then
used unconverted: the gate gets the number or the string that stood in the JSON
text.  A percentage is converted by `BigInt`, which throws on anything but an
integer literal, and the handler around the check turns the exception into the
answer that there is capacity.  An amount is compared with a `BigInt` as it is,
which is exact for a number and false for a string that is no integer literal.

So the gate is right about every limit it can convert, and answers that there is
capacity about any other.
-/

namespace AccountService

open Async JavaScript

/-! ## The admitted limits -/

/-- What the validator's number schema makes of a string.  Where the string is
an integer literal as well, both read the same number. -/
structure NumberSchema where
  convert : String → Option ℚ
  agrees : ∀ s q z, convert s = some q → stringToBigInt s = some z → q = z

/-- The number the schema sees. -/
def NumberSchema.read (schema : NumberSchema) : Numeric → Option ℚ
  | .number q => some q
  | .string s => schema.convert s

/-- A limit the environment schema accepts, with the number it was read as. -/
structure AdmittedLimit (schema : NumberSchema) where
  limit : ICapacityLimit
  value : ℚ
  read : schema.read limit.value = some value
  nonneg : 0 ≤ value
  percentage : limit.type = .percentage → value ≤ 100

namespace AdmittedLimit

variable {schema : NumberSchema} (admitted : AdmittedLimit schema)

/-- The limit that is meant. -/
def threshold (totalCapacityIssued : ℕ) : ℚ :=
  match admitted.limit.type with
  | .percentage => ⌊(totalCapacityIssued : ℚ) * admitted.value / 100⌋
  | .amount => admitted.value

/-- The gate can convert the limit. -/
def Converts : Prop :=
  match admitted.limit.type, admitted.limit.value with
  | .amount, .number _ => True
  | _, value => value.toBigInt.isSome

/-- What `BigInt` makes of the limit is the number the schema read. -/
theorem value_eq {z : ℤ} (h : admitted.limit.value.toBigInt = some z) : admitted.value = z := by
  have hread := admitted.read
  cases hvalue : admitted.limit.value with
  | number q =>
      rw [hvalue] at h hread
      simp only [Numeric.toBigInt, Option.ite_none_right_eq_some, Option.some.injEq] at h
      have hq : q = admitted.value := Option.some.inj hread
      have hnum := (Rat.den_eq_one_iff q).mp h.1
      rw [← hq, ← hnum, h.2]
  | string s =>
      rw [hvalue] at h hread
      exact schema.agrees s _ z hread h

/-- A limit that converts is compared as it is meant. -/
theorem thresholdReached_of_converts (h : admitted.Converts) (totalCapacityIssued used : ℕ) :
    thresholdReached admitted.limit totalCapacityIssued used =
      .ok (decide (admitted.threshold totalCapacityIssued ≤ used)) := by
  unfold Converts at h
  unfold thresholdReached threshold
  cases htype : admitted.limit.type with
  | percentage =>
      rw [htype] at h
      obtain ⟨z, hz⟩ := Option.isSome_iff_exists.mp h
      have hvalue := admitted.value_eq hz
      -- the division of the source truncates, which is the floor above zero
      have hnonneg : 0 ≤ z := by exact_mod_cast hvalue ▸ admitted.nonneg
      have hfloor : ⌊(totalCapacityIssued : ℚ) * admitted.value / 100⌋ =
          Int.tdiv (totalCapacityIssued * z) 100 := by
        rw [Int.tdiv_eq_ediv_of_nonneg (by positivity), hvalue]
        exact_mod_cast Rat.floor_intCast_div_natCast (totalCapacityIssued * z) 100
      simp only [hz, hfloor]
      norm_cast
  | amount =>
      rw [htype] at h
      have hread := admitted.read
      cases hvalue : admitted.limit.value with
      | number q =>
          rw [hvalue] at hread
          have hq : q = admitted.value := Option.some.inj hread
          simp only [bigIntGe, hq]
          norm_cast
      | string s =>
          rw [hvalue] at h
          obtain ⟨z, hz⟩ := Option.isSome_iff_exists.mp h
          have hthreshold := admitted.value_eq (hvalue ▸ hz)
          have hliteral : stringToBigInt s = some z := hz
          simp only [bigIntGe, hliteral, hthreshold]
          norm_cast

/-- A limit that does not convert is never reached. -/
theorem thresholdReached_of_not_converts (h : ¬admitted.Converts) (totalCapacityIssued used : ℕ) :
    thresholdReached admitted.limit totalCapacityIssued used ≠ .ok true := by
  unfold Converts at h
  unfold thresholdReached
  cases htype : admitted.limit.type with
  | percentage =>
      rw [htype] at h
      have hnone := Option.not_isSome_iff_eq_none.mp h
      simp [hnone]
  | amount =>
      rw [htype] at h
      cases hvalue : admitted.limit.value with
      | number q => exact absurd trivial (by rwa [hvalue] at h)
      | string s =>
          rw [hvalue] at h
          have hnone : stringToBigInt s = none := Option.not_isSome_iff_eq_none.mp h
          simp [bigIntGe, hnone]

end AdmittedLimit

/-! ## The check -/

private theorem capacityExhausted_ends (info : CapacityInfo) : (capacityExhausted info).Ends := by
  refine Prog.Ends.bind (by simp) fun _ => Prog.Ends.tryCatch ?_ fun _ => trivial
  refine Prog.Ends.bind (by simp) fun registered => ?_
  cases registered with
  | false => exact Prog.Ends.bind (by simp) fun added => by simp
  | true =>
      refine Prog.Ends.bind (by simp) fun deleted => Prog.Ends.bind (by simp) fun _ => ?_
      exact Prog.Ends.bind (by simp) fun added => by simp

private theorem capacityAvailable_ends : capacityAvailable.Ends := by
  refine Prog.Ends.bind (by simp) fun failedJobs => Prog.Ends.bind ?_ fun _ => ?_
  · exact Prog.Ends.forM (fun job : FailedJob => ends_unawaited (.retry job.id)) _
  · refine Prog.Ends.bind (Prog.Ends.tryCatch ?_ fun _ => trivial) fun _ => by simp
    exact Prog.Ends.bind (by simp) fun deleted => by simp

/-- Once the decision is taken, it is the answer, however pausing or resuming
the queue ends. -/
private theorem decided_exec {σ : Type} (M : Machine Worker Err σ) (info : CapacityInfo)
    (outOfCapacity : Bool) (w : σ) : ∃ w', (Prog.tryCatch
      (if outOfCapacity = true then (capacityExhausted info).bind fun _ => Prog.done (!outOfCapacity)
        else capacityAvailable.bind fun _ => Prog.done (!outOfCapacity))
      fun _ => Prog.done (!outOfCapacity)).exec M w = (.returned (!outOfCapacity), w') := by
  have hends : ∀ p : Svc Unit, p.Ends → ∃ w', (Prog.tryCatch
      (p.bind fun _ => Prog.done (!outOfCapacity)) fun _ => Prog.done (!outOfCapacity)).exec M w =
        (.returned (!outOfCapacity), w') := by
    intro p hp
    simp only [Prog.exec_tryCatch, Prog.exec_bind]
    rcases hp.exec (M := M) w with ⟨a, w', heq⟩ | ⟨e, w', heq⟩ <;> exact ⟨w', by rw [heq]; rfl⟩
  cases outOfCapacity with
  | true => exact hends _ (capacityExhausted_ends info)
  | false => exact hends _ capacityAvailable_ends

/-- What the reads of the check find: the start and the length of the epoch, the
provider's capacity, the block, the epoch, and the capacity recorded for it. -/
structure CapacityState where
  epochStart : ℕ
  epochLength : ℕ
  details : Option CapacityDetails
  blockNumber : ℕ
  currentEpoch : ℕ
  epochUsedCapacity : Option ℕ

namespace CapacityState

variable (state : CapacityState)

/-- The machine on which every read succeeds.  Every other call, and every
operation on memory, ends as it likes; the state counts what has been done. -/
def machine (others : ℕ → (c : Call) → Fate Err c.Reply) (memory : ℕ → (m : Memory) → m.Result) :
    Machine Worker Err ℕ where
  act m time := (memory time m, time + 1)
  answer c time :=
    (match c with
      | .currentEpochInfo => .done state.epochStart
      | .epochLength => .done state.epochLength
      | .capacityLedger _ => .done state.details
      | .blockNumber => .done state.blockNumber
      | .currentEpoch => .done state.currentEpoch
      | .getEpochCapacity epoch =>
          if epoch = state.currentEpoch then .done state.epochUsedCapacity
          else others time (.getEpochCapacity epoch)
      | c => others time c, time + 1)

/-- The provider's capacity; there is none where the ledger has no entry. -/
def capacity : CapacityDetails := state.details.getD ⟨0, 0⟩

/-- What the check knows of it. -/
def info : CapacityInfo where
  currentEpoch := state.currentEpoch
  currentBlockNumber := state.blockNumber
  nextEpochStart := state.epochStart + state.epochLength
  remainingCapacity := state.capacity.remainingCapacity
  totalCapacityIssued := state.capacity.totalCapacityIssued

/-- The answer of the check. -/
def check (others : ℕ → (c : Call) → Fate Err c.Reply) (memory : ℕ → (m : Memory) → m.Result)
    (configService : ConfigService) : Outcome Err Bool :=
  ((checkCapacity configService).exec (state.machine others memory) 0).1

variable {others : ℕ → (c : Call) → Fate Err c.Reply} {memory : ℕ → (m : Memory) → m.Result}

private theorem capacityInfo_exec (providerId : String) (time : ℕ) :
    (capacityInfo providerId).exec (state.machine others memory) time =
      (.returned state.info, time + 5) := rfl

/-- The answer is the decision, however pausing or resuming the queue ends. -/
theorem check_eq (configService : ConfigService) : state.check others memory configService =
    .returned (decide (state.capacity.remainingCapacity ≠ 0 ∧
      thresholdReached configService.capacityLimit state.capacity.totalCapacityIssued
        (state.epochUsedCapacity.getD 0) ≠ .ok true)) := by
  unfold check checkCapacity
  have hread : ((state.machine others memory).answer (.getEpochCapacity state.info.currentEpoch)
      (0 + 5)) = (.done state.epochUsedCapacity, 6) := by simp [machine, info]
  rw [Prog.exec_tryCatch]
  simp only [Prog.bind_eq, Prog.exec_bind, capacityInfo_exec, exec_call, hread, Fate.seen_done,
    Prog.pure_eq, Prog.bind_done]
  show _ = Outcome.returned (decide (state.info.remainingCapacity ≠ 0 ∧
    thresholdReached configService.capacityLimit state.info.totalCapacityIssued
      (state.epochUsedCapacity.getD 0) ≠ .ok true))
  by_cases hnone : state.info.remainingCapacity = 0
  · obtain ⟨w', hw'⟩ := decided_exec (state.machine others memory) state.info true 6
    rw [if_pos rfl] at hw'
    rw [if_pos hnone, if_pos trivial, hw']
    simp [hnone]
  · rw [if_neg hnone]
    cases hthreshold : thresholdReached configService.capacityLimit
        state.info.totalCapacityIssued (state.epochUsedCapacity.getD 0) with
    | error e => simp [hnone]
    | ok reached =>
        obtain ⟨w', hw'⟩ := decided_exec (state.machine others memory) state.info reached 6
        simp only [Prog.exec_bind, Prog.exec_ofExcept]
        rw [hw']
        cases reached <;> simp [hnone]

/-! ## When the gate is right -/

variable {schema : NumberSchema}

/-- The gate is right about an admitted limit: it opens exactly if the provider
has capacity left and what is recorded for the epoch is below the limit. -/
def Right (others : ℕ → (c : Call) → Fate Err c.Reply) (memory : ℕ → (m : Memory) → m.Result)
    (configService : ConfigService) (admitted : AdmittedLimit schema) : Prop :=
  state.check others memory { configService with capacityLimit := admitted.limit } =
      .returned true ↔
    0 < state.capacity.remainingCapacity ∧
      ((state.epochUsedCapacity.getD 0 : ℕ) : ℚ) <
        admitted.threshold state.capacity.totalCapacityIssued

end CapacityState

/-- **The gate is right exactly if** it can convert the limit, or the provider
has no capacity left, or what is recorded is below the limit. -/
theorem gate_right_iff (state : CapacityState) {schema : NumberSchema}
    (admitted : AdmittedLimit schema) (others : ℕ → (c : Call) → Fate Err c.Reply)
    (memory : ℕ → (m : Memory) → m.Result) (configService : ConfigService) :
    state.Right others memory configService admitted ↔
      admitted.Converts ∨ state.capacity.remainingCapacity = 0 ∨
        ((state.epochUsedCapacity.getD 0 : ℕ) : ℚ) <
          admitted.threshold state.capacity.totalCapacityIssued := by
  unfold CapacityState.Right
  rw [CapacityState.check_eq]
  by_cases hconverts : admitted.Converts
  · refine iff_of_true ?_ (.inl hconverts)
    rw [admitted.thresholdReached_of_converts hconverts]
    simp [Nat.pos_iff_ne_zero]
  · have hnot := admitted.thresholdReached_of_not_converts hconverts
      state.capacity.totalCapacityIssued (state.epochUsedCapacity.getD 0)
    by_cases hnone : state.capacity.remainingCapacity = 0
    · simp [hnone]
    · have hpos := Nat.pos_of_ne_zero hnone
      simp [hconverts, hnone, hnot, hpos]

/-- A schema that reads integer literals. -/
def integerSchema : NumberSchema where
  convert s := (stringToBigInt s).map fun z => (z : ℚ)
  agrees s q z hq hz := by
    rw [hz] at hq
    exact (Option.some.inj hq).symm

/-- Half a percent. -/
def halfPercent : AdmittedLimit integerSchema where
  limit := ⟨.percentage, .number (1 / 2)⟩
  value := 1 / 2
  read := rfl
  nonneg := by norm_num
  percentage _ := by norm_num

/-- Seven of a thousand have been used. -/
def sevenOfAThousand : CapacityState where
  epochStart := 0
  epochLength := 100
  details := some ⟨1000, 1000⟩
  blockNumber := 10
  currentEpoch := 1
  epochUsedCapacity := some 7

theorem gate_not_right :
    ¬∀ (state : CapacityState) (schema : NumberSchema) (admitted : AdmittedLimit schema)
        (others : ℕ → (c : Call) → Fate Err c.Reply) (memory : ℕ → (m : Memory) → m.Result)
        (configService : ConfigService), state.Right others memory configService admitted := by
  intro h
  have hright := h sevenOfAThousand integerSchema halfPercent (fun _ _ => .done default)
    (fun _ => Memory.blank) (.amountLimit 1)
  unfold CapacityState.Right at hright
  rw [CapacityState.check_eq] at hright
  have hopen : thresholdReached halfPercent.limit 1000 7 ≠ .ok true := by decide +kernel
  have hlimit : halfPercent.threshold 1000 = 5 := by
    norm_num [AdmittedLimit.threshold, halfPercent]
  have hbelow := (hright.mp (by simpa [sevenOfAThousand, CapacityState.capacity] using hopen)).2
  rw [show sevenOfAThousand.capacity.totalCapacityIssued = 1000 from rfl, hlimit] at hbelow
  norm_num [sevenOfAThousand] at hbelow

end AccountService
