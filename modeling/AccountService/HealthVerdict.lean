import AccountService.ProviderWebhook

/-!
# The verdicts of the health check

A verdict rests on consecutive outcomes: the counters are the lengths of the
runs of failures and of successes at the end of what has come out since the
latest `webhook.unhealthy`.  Between two verdicts there is one next check, and
its delay is given in milliseconds where the last check failed.  Where it
succeeded the code takes the number of seconds for one of milliseconds.
-/

namespace AccountService

open Async ProviderWebhookService

/-! ## Consecutive outcomes -/

/-- How many of the last outcomes, the newest first, are `ok` in a row. -/
def consecutive (ok : Bool) (outcomes : List Bool) : ℕ :=
  (outcomes.takeWhile (· = ok)).length

/-- The last `bound` or more outcomes are all `ok`. -/
def LastAll (ok : Bool) (bound : ℚ) (outcomes : List Bool) : Prop :=
  ∃ n : ℕ, bound ≤ n ∧ n ≤ outcomes.length ∧ ∀ outcome ∈ outcomes.take n, outcome = ok

@[simp] theorem consecutive_nil (ok : Bool) : consecutive ok [] = 0 := rfl

@[simp] theorem consecutive_cons_self (ok : Bool) (outcomes : List Bool) :
    consecutive ok (ok :: outcomes) = consecutive ok outcomes + 1 := by
  simp [consecutive]

@[simp] theorem consecutive_cons_not (ok : Bool) (outcomes : List Bool) :
    consecutive (!ok) (ok :: outcomes) = 0 := by
  cases ok <;> rfl

theorem le_consecutive_iff {ok : Bool} {outcomes : List Bool} {n : ℕ} :
    n ≤ consecutive ok outcomes ↔
      n ≤ outcomes.length ∧ ∀ outcome ∈ outcomes.take n, outcome = ok := by
  induction outcomes generalizing n with
  | nil => simp
  | cons outcome outcomes ih =>
      cases n with
      | zero => simp
      | succ n =>
          rw [List.take_succ_cons, List.forall_mem_cons, List.length_cons, Nat.succ_le_succ_iff]
          by_cases h : outcome = ok
          · subst h
            rw [consecutive_cons_self, Nat.succ_le_succ_iff, ih]
            simp
          · obtain rfl : ok = !outcome := by cases ok <;> cases outcome <;> simp_all
            simp

theorem lastAll_iff {ok : Bool} {bound : ℚ} {outcomes : List Bool} :
    LastAll ok bound outcomes ↔ bound ≤ consecutive ok outcomes := by
  constructor
  · rintro ⟨n, hbound, hn⟩
    have hle := le_consecutive_iff.mpr hn
    exact hbound.trans (by exact_mod_cast hle)
  · intro h
    exact ⟨_, h, le_consecutive_iff.mp le_rfl⟩

/-! ## Checks and what they announce -/

/-- The number of consecutive outcomes a verdict needs. -/
def verdictBound (configService : HealthCheckConfig) (ok : Bool) : ℚ :=
  if ok then configService.healthCheckSuccessThreshold
  else max 1 configService.healthCheckMaxRetries

/-- The delay in seconds to the check after the `k`-th of a row of outcomes. -/
def secondsToNext (configService : HealthCheckConfig) (ok : Bool) (k : ℕ) : ℚ :=
  if ok then configService.webhookRetryIntervalSeconds
  else min (2 ^ (k - 1)) configService.healthCheckMaxRetryIntervalSeconds

/-- The events a step emits. -/
def announced (w w' : HealthWorld) : List HealthEvent := w'.emitted.drop w.emitted.length

/-- The timers a step starts that have not fired. -/
def scheduled (w w' : HealthWorld) : List Timeout := w'.timers.filter (w.created ≤ ·.id)

/-- What a check does that comes out as `ok`. -/
structure Verdict (configService : HealthCheckConfig) (ok : Bool) (w w' : HealthWorld) : Prop where
  healthy : .healthy ∈ announced w w' ↔
    LastAll true configService.healthCheckSuccessThreshold w'.outcomes
  shutdown : .shutdown ∈ announced w w' ↔
    LastAll false (max 1 configService.healthCheckMaxRetries) w'.outcomes
  settled : announced w w' ≠ [] → scheduled w w' = []
  next : announced w w' = [] → ∃ timer, scheduled w w' = [timer] ∧
    (timer.delay : ℚ) =
      secondsToNext configService ok (consecutive ok w'.outcomes) * ProviderWebhookService.MILLISECONDS_PER_SECOND
  counters : ¬ (0 < w'.failedHealthChecks ∧ 0 < w'.successfulHealthChecks)

/-- The outcome brings the verdict, or it is a failure after which the delay is
a number of milliseconds a timer can have. -/
def Spaced (configService : HealthCheckConfig) (ok : Bool) (outcomes : List Bool) : Prop :=
  LastAll ok (verdictBound configService ok) (ok :: outcomes) ∨
    ok = false ∧
      let delay := secondsToNext configService ok (consecutive ok (ok :: outcomes)) *
        ProviderWebhookService.MILLISECONDS_PER_SECOND
      delay ≤ TIMEOUT_MAX ∧ (⌊delay⌋ : ℚ) = delay

/-- What holds between the steps of a service that is not destroyed. -/
structure Counting (w : HealthWorld) : Prop where
  failed : w.failedHealthChecks = consecutive false w.outcomes
  successful : w.successfulHealthChecks = consecutive true w.outcomes
  registered : 0 < w.inFlight ∨ w.timers ≠ [] → w.registered.isSome
  created : ∀ timer ∈ w.timers, timer.id < w.created

section Steps

variable {configService : HealthCheckConfig} {ok : Bool} {w w' : HealthWorld}

theorem counting_init : Counting .init where
  failed := rfl
  successful := rfl
  registered h := by simp [HealthWorld.init] at h
  created t ht := absurd ht List.not_mem_nil

/-- There is no next check exactly if the outcome brings a verdict. -/
theorem nextDelay_eq_none_iff (configService : HealthCheckConfig) (ok : Bool) (h : Counting w) :
    nextDelay configService ok w = none ↔
      LastAll ok (verdictBound configService ok) (ok :: w.outcomes) := by
  rw [lastAll_iff, consecutive_cons_self, verdictBound, nextDelay]
  push_cast
  cases ok with
  | true =>
      rw [h.successful]
      simp
  | false =>
      rw [h.failed]
      have hone : (1 : ℚ) ≤ consecutive false w.outcomes + 1 := by
        have := Nat.cast_nonneg (α := ℚ) (consecutive false w.outcomes)
        linarith
      simp [hone]

/-- An outcome brings no verdict of the other kind. -/
theorem not_lastAll_not (ok : Bool) {bound : ℚ} (hbound : 1 ≤ bound) (outcomes : List Bool) :
    ¬ LastAll (!ok) bound (ok :: outcomes) := by
  rw [lastAll_iff, consecutive_cons_not, Nat.cast_zero]
  intro h
  linarith

theorem one_le_verdictBound (configService : HealthCheckConfig) (ok : Bool) :
    1 ≤ verdictBound configService ok := by
  cases ok with
  | true => exact configService.one_le_threshold
  | false => exact le_max_left 1 _

/-- The delay that a check asks for, in terms of the outcomes. -/
theorem nextDelay_eq_some (h : Counting w) {delay : ℚ}
    (hdelay : nextDelay configService ok w = some delay) :
    delay = if ok then configService.webhookRetryIntervalSeconds
      else secondsToNext configService false (consecutive false (false :: w.outcomes)) *
        ProviderWebhookService.MILLISECONDS_PER_SECOND := by
  cases ok with
  | true =>
      simp only [nextDelay, if_true] at hdelay
      split at hdelay
      · cases hdelay
      · exact (Option.some.inj hdelay).symm
  | false =>
      simp only [nextDelay, Bool.false_eq_true, if_false] at hdelay
      split at hdelay
      · cases hdelay
      · -- the bound is applied in milliseconds, the wanted delay is bounded in seconds
        rw [← Option.some.inj hdelay, secondsToNext, h.failed]
        have hpos : (0 : ℚ) ≤ ProviderWebhookService.MILLISECONDS_PER_SECOND := by
          unfold ProviderWebhookService.MILLISECONDS_PER_SECOND
          norm_num
        simp [min_mul_of_nonneg _ _ hpos]

private theorem cast_floor {q : ℚ} (hq : 0 ≤ q) : (⌊q⌋.toNat : ℚ) = ⌊q⌋ := by
  have hnonneg : 0 ≤ ⌊q⌋ := Int.floor_nonneg.mpr hq
  exact_mod_cast Int.toNat_of_nonneg hnonneg

/-- A timer has the delay asked for if that is a whole number of milliseconds
within its range. -/
theorem timerDelay_eq_iff {delay : ℚ} (hdelay : 1 < delay) :
    (timerDelay delay : ℚ) = delay ↔ delay ≤ TIMEOUT_MAX ∧ (⌊delay⌋ : ℚ) = delay := by
  have hfloor : (⌊delay⌋.toNat : ℚ) = ⌊delay⌋ := cast_floor (by linarith)
  unfold timerDelay
  by_cases hmax : delay ≤ TIMEOUT_MAX
  · rw [if_pos ⟨hdelay.le, hmax⟩, hfloor]
    simp [hmax]
  · rw [if_neg (by tauto)]
    constructor
    · intro h
      rw [Nat.cast_one] at h
      linarith
    · exact fun h => absurd h.1 hmax

/-- A number of seconds taken for one of milliseconds is never right. -/
theorem timerDelay_ne {seconds : ℚ} (hseconds : 1 ≤ seconds) :
    (timerDelay seconds : ℚ) ≠ seconds * ProviderWebhookService.MILLISECONDS_PER_SECOND := by
  have hle : (timerDelay seconds : ℚ) ≤ seconds := by
    unfold timerDelay
    split
    · rw [cast_floor (by linarith)]
      exact Int.floor_le seconds
    · exact_mod_cast hseconds
  intro h
  rw [h] at hle
  unfold ProviderWebhookService.MILLISECONDS_PER_SECOND at hle
  linarith

/-- No timer that runs already counts as one the step starts. -/
theorem Counting.scheduled_nil (h : Counting w) (ok : Bool) : scheduled w (w.counted ok) = [] := by
  rw [scheduled, HealthWorld.counted_timers, List.filter_eq_nil_iff]
  intro timer htimer
  have hlt := h.created timer htimer
  simp [hlt]

theorem Counting.scheduled_replaced (h : Counting w) (ok : Bool) (id : ℕ) (delay : ℚ) :
    scheduled w ((w.counted ok).replaced id delay) = [⟨w.created, timerDelay delay⟩] := by
  have hothers : (w.others id).filter (w.created ≤ ·.id) = [] := by
    rw [List.filter_eq_nil_iff]
    intro timer htimer
    have hlt := h.created timer (List.mem_of_mem_filter htimer)
    simp [hlt]
  simpa [scheduled, HealthWorld.replaced, HealthWorld.others] using hothers

theorem counters_apart (h : Counting w) :
    ¬ (0 < w.failedHealthChecks ∧ 0 < w.successfulHealthChecks) := by
  rw [h.failed, h.successful]
  cases w.outcomes with
  | nil => simp
  | cons outcome outcomes => cases outcome <;> simp [consecutive]

/-- A step of a service that is not destroyed goes on counting. -/
theorem Counting.step {l : HealthLabel} (hl : l ≠ .destroy) (h : Counting w)
    (hstep : (healthChecks configService).step l w = some w') : Counting w' := by
  cases l with
  | unhealthy =>
      rw [healthChecks_unhealthy hstep]
      refine ⟨rfl, rfl, fun _ => rfl, fun timer htimer => ?_⟩
      rcases List.mem_append.mp htimer with hold | hnew
      · exact (h.created timer hold).trans (Nat.lt_succ_self _)
      · rw [List.mem_singleton.mp hnew]
        exact Nat.lt_succ_self _
  | fire id =>
      obtain ⟨hmem, rfl⟩ := healthChecks_fire hstep
      have hsome : w.registered.isSome := by
        -- a timer that fires was set, so one is registered
        refine h.registered (.inr ?_)
        rintro hnil
        simp [hnil] at hmem
      refine ⟨h.failed, h.successful, fun _ => hsome, fun timer htimer => ?_⟩
      exact h.created timer (List.mem_of_mem_filter htimer)
  | settle ok =>
      obtain ⟨hflight, hw'⟩ := healthChecks_settle hstep
      obtain ⟨id, hid⟩ := Option.isSome_iff_exists.mp (h.registered (.inl hflight))
      have hfailed : (w.counted ok).failedHealthChecks = consecutive false (ok :: w.outcomes) := by
        cases ok <;> simp [HealthWorld.counted, h.failed, consecutive]
      have hsuccessful :
          (w.counted ok).successfulHealthChecks = consecutive true (ok :: w.outcomes) := by
        cases ok <;> simp [HealthWorld.counted, h.successful, consecutive]
      cases hdelay : nextDelay configService ok w with
      | none =>
          simp only [hdelay] at hw'
          subst hw'
          refine ⟨hfailed, hsuccessful, fun _ => ?_, fun timer htimer => ?_⟩
          · simp [hid]
          · simp only [HealthWorld.counted_timers, HealthWorld.counted_created] at htimer ⊢
            exact h.created timer htimer
      | some delay =>
          simp only [hdelay, hid] at hw'
          subst hw'
          refine ⟨hfailed, hsuccessful, fun _ => rfl, fun timer htimer => ?_⟩
          simp only [HealthWorld.replaced, HealthWorld.others, HealthWorld.counted_timers,
            HealthWorld.counted_created] at htimer ⊢
          rcases List.mem_append.mp htimer with hold | hnew
          · exact (h.created timer (List.mem_of_mem_filter hold)).trans (Nat.lt_succ_self _)
          · rw [List.mem_singleton.mp hnew]
            exact Nat.lt_succ_self _
  | destroy => exact absurd rfl hl

/-- The timer has the delay it should have exactly if the check is spaced. -/
theorem Counting.timer_right_iff (h : Counting w) {delay : ℚ}
    (hdelay : nextDelay configService ok w = some delay) :
    (timerDelay delay : ℚ) = secondsToNext configService ok (consecutive ok (ok :: w.outcomes)) *
        ProviderWebhookService.MILLISECONDS_PER_SECOND ↔
      Spaced configService ok w.outcomes := by
  have hlast : ¬ LastAll ok (verdictBound configService ok) (ok :: w.outcomes) := by
    rw [← nextDelay_eq_none_iff configService ok h, hdelay]
    simp
  have hwanted := nextDelay_eq_some h hdelay
  cases ok with
  | true =>
      rw [if_pos rfl] at hwanted
      rw [hwanted]
      simpa [Spaced, hlast, secondsToNext] using timerDelay_ne configService.one_le_retry
  | false =>
      rw [if_neg (by simp)] at hwanted
      -- a delay below one millisecond would be rounded up
      have hone : 1 < delay := by
        have hpow : (1 : ℚ) ≤ 2 ^ (consecutive false (false :: w.outcomes) - 1) :=
          one_le_pow₀ (by norm_num)
        have hmin := le_min hpow configService.one_le_interval
        rw [hwanted, secondsToNext, if_neg (by simp), ProviderWebhookService.MILLISECONDS_PER_SECOND]
        linarith
      rw [← hwanted, timerDelay_eq_iff hone]
      simp only [Spaced, hlast, false_or, true_and]
      rw [← hwanted]

/-- **One check.**  Its verdict is as it should be exactly if it is spaced. -/
theorem Counting.verdict_iff (h : Counting w)
    (hstep : (healthChecks configService).step (.settle ok) w = some w') :
    Verdict configService ok w w' ↔ Spaced configService ok w.outcomes := by
  have hcounters := counters_apart (h.step (by simp) hstep)
  obtain ⟨hflight, hw'⟩ := healthChecks_settle hstep
  obtain ⟨id, hid⟩ := Option.isSome_iff_exists.mp (h.registered (.inl hflight))
  have hverdict := nextDelay_eq_none_iff configService ok h
  have hother := not_lastAll_not ok (one_le_verdictBound configService !ok) w.outcomes
  cases hdelay : nextDelay configService ok w with
  | none =>
      -- the last outcomes agree: the verdict is announced and no check follows
      have hlast := hverdict.mp hdelay
      simp only [hdelay] at hw'
      have houtcomes : w'.outcomes = ok :: w.outcomes := by rw [hw']
      have hannounced : announced w w' = [verdict ok] := by simp [announced, hw']
      have hscheduled : scheduled w w' = [] := by
        rw [← h.scheduled_nil ok, hw']
        rfl
      constructor
      · exact fun _ => .inl hlast
      · intro _
        refine ⟨?_, ?_, fun _ => hscheduled, fun hnil => ?_, hcounters⟩
        · rw [hannounced, houtcomes]
          cases ok with
          | true => simpa [verdict, verdictBound] using hlast
          | false => simpa [verdict, verdictBound] using hother
        · rw [hannounced, houtcomes]
          cases ok with
          | true => simpa [verdict, verdictBound] using hother
          | false => simpa [verdict, verdictBound] using hlast
        · rw [hannounced] at hnil
          cases hnil
  | some delay =>
      -- no verdict yet: the next check is scheduled, spaced or not
      have hlast : ¬ LastAll ok (verdictBound configService ok) (ok :: w.outcomes) := by
        rw [← hverdict, hdelay]
        simp
      simp only [hdelay, hid] at hw'
      have houtcomes : w'.outcomes = ok :: w.outcomes := by rw [hw']
      have hannounced : announced w w' = [] := by simp [announced, hw', HealthWorld.replaced]
      have hscheduled : scheduled w w' = [⟨w.created, timerDelay delay⟩] := by
        rw [← h.scheduled_replaced ok id delay, hw']
        rfl
      have htimer := h.timer_right_iff hdelay
      rw [← houtcomes] at htimer
      constructor
      · intro hv
        obtain ⟨timer, htimer', hright⟩ := hv.next hannounced
        rw [hscheduled, List.singleton_inj] at htimer'
        rw [← htimer', htimer] at hright
        exact hright
      · intro hspaced
        refine ⟨?_, ?_, fun hne => absurd hannounced hne, fun _ => ?_, hcounters⟩
        · rw [hannounced, houtcomes]
          cases ok with
          | true => simpa [verdictBound] using hlast
          | false => simpa [verdictBound] using hother
        · rw [hannounced, houtcomes]
          cases ok with
          | true => simpa [verdictBound] using hother
          | false => simpa [verdictBound] using hlast
        · exact ⟨_, hscheduled, htimer.mpr hspaced⟩

end Steps

/-! ## Verdicts of a run -/

/-- **Health verdicts.**  In a run of a service that is not destroyed every
check that completes has the right verdict exactly if every one is spaced. -/
theorem health_verdicts_iff (configService : HealthCheckConfig) (ls : List HealthLabel)
    (hls : .destroy ∉ ls) :
    (healthChecks configService).Each
        (fun l w w' => ∀ ok, l = .settle ok → Verdict configService ok w w') ls .init ↔
      (healthChecks configService).Each
        (fun l w _ => ∀ ok, l = .settle ok → Spaced configService ok w.outcomes) ls .init := by
  refine System.each_congr (J := Counting) (fun l hl w w' h hstep => ?_)
    (fun l _ w w' h hstep => ?_) counting_init
  · exact h.step (fun heq => hls (heq ▸ hl)) hstep
  · refine forall₂_congr fun ok hok => ?_
    subst hok
    exact h.verdict_iff hstep

private theorem defaults_retries : (0 : ℚ) ≤ 20 := by norm_num

private theorem defaults_seconds : (1 : ℚ) ≤ 10 := by norm_num

private theorem defaults_interval : (1 : ℚ) ≤ 64 := by norm_num

/-- The settings as they come. -/
def HealthCheckConfig.defaults : HealthCheckConfig where
  healthCheckMaxRetries := 20
  healthCheckSuccessThreshold := 10
  healthCheckMaxRetryIntervalSeconds := 64
  webhookRetryIntervalSeconds := 10
  retries_nonneg := defaults_retries
  one_le_threshold := defaults_seconds
  one_le_interval := defaults_interval
  one_le_retry := defaults_seconds

/-- The webhook is unhealthy, and the first check that runs comes out as `ok`. -/
def firstCheck (ok : Bool) : List HealthLabel := [.unhealthy, .fire 0, .settle ok]

/-- A first failure is followed by a check a second later. -/
theorem health_verdicts_first_failure :
    (healthChecks .defaults).Each
      (fun l w w' => ∀ ok, l = .settle ok → Verdict .defaults ok w w') (firstCheck false) .init := by
  refine (health_verdicts_iff .defaults (firstCheck false) (by decide)).mpr ?_
  intro w hw
  refine ⟨fun _ hl => (by cases hl), ?_⟩
  intro w₁ hw₁
  refine ⟨fun _ hl => (by cases hl), ?_⟩
  intro w₂ hw₂
  refine ⟨fun ok hok => ?_, trivial⟩
  obtain rfl := HealthLabel.settle.inj hok
  obtain rfl := (healthChecks_fire hw₁).2
  rw [healthChecks_unhealthy hw]
  right
  simp only [true_and]
  decide +kernel

/-- A first success is followed by a check ten milliseconds later, and not ten
seconds. -/
theorem health_verdicts_first_success :
    ((healthChecks .defaults).run (firstCheck true) .init).map HealthWorld.timers =
        some [⟨1, 10⟩] ∧
      ¬ (healthChecks .defaults).Each
        (fun l w w' => ∀ ok, l = .settle ok → Verdict .defaults ok w w') (firstCheck true) .init := by
  refine ⟨by decide +kernel, fun h => ?_⟩
  have hheard : (healthChecks .defaults).step .unhealthy .init =
      some ⟨0, 0, some 0, [⟨0, 1⟩], 1, 0, [], [], false⟩ := by decide +kernel
  have hfired : (healthChecks .defaults).step (.fire 0)
      ⟨0, 0, some 0, [⟨0, 1⟩], 1, 0, [], [], false⟩ =
        some ⟨0, 0, some 0, [], 1, 1, [], [], false⟩ := by decide +kernel
  have hsettled : (healthChecks .defaults).step (.settle true)
      ⟨0, 0, some 0, [], 1, 1, [], [], false⟩ =
        some ⟨0, 1, some 1, [⟨1, 10⟩], 2, 0, [], [true], false⟩ := by decide +kernel
  have hverdict := (((h _ hheard).2 _ hfired).2 _ hsettled).1 true rfl
  obtain ⟨timer, htimer, hdelay⟩ := hverdict.next rfl
  have htimer' : (⟨1, 10⟩ : Timeout) = timer := List.singleton_inj.mp htimer
  rw [← htimer'] at hdelay
  exact absurd hdelay (by decide +kernel)

end AccountService
