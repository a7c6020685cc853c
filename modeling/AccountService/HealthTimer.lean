import AccountService.ProviderWebhook

/-!
# The timer of the health check

The registry is to hold every timer that has not fired, so that deleting its
one entry leaves none behind.  A check keeps to that: it deletes the entry
before it adds the next.  The handler of `webhook.unhealthy` does not, and an
entry outlives its timer.  So the registry holds the timers exactly as long as
every event finds the name free, as the first one does, and the second only
after the module was destroyed.
-/

namespace AccountService

open Async ProviderWebhookService

/-- The handler has not thrown, and at most one timer has not fired, which is
the one the registry holds. -/
structure Owned (w : HealthWorld) : Prop where
  threw : w.threw = false
  one : w.timers.length ≤ 1
  held : ∀ t ∈ w.timers, w.registered = some t.id

/-- The event finds the name free. -/
def FindsFree (l : HealthLabel) (w : HealthWorld) : Prop :=
  l = .unhealthy → w.registered = none

/-- Nothing is left where the module is destroyed. -/
def LeavesNone (l : HealthLabel) (w' : HealthWorld) : Prop :=
  l = .destroy → w'.timers = []

section

variable {configService : HealthCheckConfig} {w w' : HealthWorld}

theorem owned_init : Owned .init :=
  ⟨rfl, Nat.zero_le 1, fun _ ht => absurd ht List.not_mem_nil⟩

/-- Without an entry there is no timer. -/
theorem Owned.timers_eq_nil (h : Owned w) (hnone : w.registered = none) : w.timers = [] := by
  rw [List.eq_nil_iff_forall_not_mem]
  intro t ht
  have hheld := h.held t ht
  rw [hnone] at hheld
  cases hheld

/-- Apart from that of the entry there is no timer. -/
theorem Owned.others_eq_nil (h : Owned w) {id : ℕ} (hid : w.registered = some id) :
    w.others id = [] := by
  rw [HealthWorld.others, List.filter_eq_nil_iff]
  intro t ht
  have hheld := h.held t ht
  rw [hid, Option.some.injEq] at hheld
  simp [hheld]

/-- A check that starts the next timer does so in place of the last. -/
theorem Owned.replaced (h : Owned w) {id : ℕ} (hid : w.registered = some id) (delay : ℚ) :
    Owned (w.replaced id delay) where
  threw := h.threw
  one := by
    show (w.others id ++ [_]).length ≤ 1
    rw [h.others_eq_nil hid]
    exact Nat.le_refl 1
  held := by
    show ∀ t ∈ w.others id ++ [_], some w.created = some t.id
    rw [h.others_eq_nil hid]
    intro t ht
    rw [List.nil_append, List.mem_singleton] at ht
    rw [ht]

theorem Owned.counted (h : Owned w) (ok : Bool) : Owned (w.counted ok) := by
  constructor
  · rw [HealthWorld.counted_threw]
    exact h.threw
  · rw [HealthWorld.counted_timers]
    exact h.one
  · rw [HealthWorld.counted_timers, HealthWorld.counted_registered]
    exact h.held

/-- The timers and the entry are all that ownership is about. -/
theorem Owned.congr (h : Owned w) (hthrew : w'.threw = w.threw) (htimers : w'.timers = w.timers)
    (hregistered : w'.registered = w.registered) : Owned w' := by
  constructor
  · rw [hthrew]
    exact h.threw
  · rw [htimers]
    exact h.one
  · rw [htimers, hregistered]
    exact h.held

/-- Every step keeps the timers owned, if the events find the name free. -/
theorem Owned.step {l : HealthLabel} (hfree : FindsFree l w) (h : Owned w)
    (hstep : (healthChecks configService).step l w = some w') : Owned w' := by
  cases l with
  | unhealthy =>
      have hnone := hfree rfl
      have hnil := h.timers_eq_nil hnone
      rw [healthChecks_unhealthy hstep, hnone, hnil]
      constructor
      · simpa using h.threw
      · exact Nat.le_refl 1
      · intro t ht
        rw [List.nil_append, List.mem_singleton] at ht
        rw [ht]
        rfl
  | fire id =>
      obtain ⟨-, rfl⟩ := healthChecks_fire hstep
      constructor
      · exact h.threw
      · exact (List.length_filter_le _ _).trans h.one
      · exact fun t ht => h.held t (List.mem_of_mem_filter ht)
  | settle ok =>
      obtain ⟨-, hw'⟩ := healthChecks_settle hstep
      have hcounted := h.counted ok
      cases hdelay : nextDelay configService ok w with
      | none =>
          simp only [hdelay] at hw'
          rw [hw']
          exact hcounted.congr rfl rfl rfl
      | some delay =>
          rcases Option.eq_none_or_eq_some w.registered with hnone | ⟨id, hid⟩
          · simp only [hdelay, hnone] at hw'
            rw [hw']
            exact hcounted.congr rfl rfl rfl
          · simp only [hdelay, hid] at hw'
            rw [hw']
            have hid' : (w.counted ok).registered = some id := by simpa using hid
            -- the timer of the name is cleared before the next is registered
            exact (hcounted.replaced hid' delay).congr rfl rfl rfl
  | destroy =>
      have hw' := healthChecks_destroy hstep
      rcases Option.eq_none_or_eq_some w.registered with hnone | ⟨id, hid⟩
      · simp only [hnone] at hw'
        rw [hw']
        exact h
      · simp only [hid] at hw'
        -- no timer was set but the one that is cleared
        rw [hw', h.others_eq_nil hid]
        exact ⟨h.threw, Nat.zero_le 1, fun t ht => absurd ht List.not_mem_nil⟩

/-- An event that does not find the name free makes the handler throw. -/
theorem findsFree_of_owned {l : HealthLabel}
    (hstep : (healthChecks configService).step l w = some w') (h : Owned w') : FindsFree l w := by
  intro hl
  subst hl
  have hthrew := h.threw
  rw [healthChecks_unhealthy hstep] at hthrew
  simp only [Bool.or_eq_false_iff] at hthrew
  simpa using hthrew.2

/-- Where the timers are owned, destroying the module leaves none. -/
theorem Owned.leavesNone {l : HealthLabel} (h : Owned w)
    (hstep : (healthChecks configService).step l w = some w') : LeavesNone l w' := by
  intro hl
  subst hl
  have hw' := healthChecks_destroy hstep
  rcases Option.eq_none_or_eq_some w.registered with hnone | ⟨id, hid⟩
  · simp only [hnone] at hw'
    rw [hw']
    exact h.timers_eq_nil hnone
  · simp only [hid] at hw'
    rw [hw']
    exact h.others_eq_nil hid

end

/-- **Timer ownership.**  In every state of a run the timers are owned, and none
is left where the module is destroyed, exactly if every `webhook.unhealthy` of
the run finds the name free. -/
theorem health_timers_owned_iff (configService : HealthCheckConfig) (ls : List HealthLabel) :
    ((healthChecks configService).Throughout Owned ls .init ∧
        (healthChecks configService).Each (fun l _ w' => LeavesNone l w') ls .init) ↔
      (healthChecks configService).Each (fun l w _ => FindsFree l w) ls .init := by
  have howned : (healthChecks configService).Throughout Owned ls .init ↔
      (healthChecks configService).Each (fun l w _ => FindsFree l w) ls .init :=
    System.throughout_iff_each owned_init (fun _ h => h)
      (fun _ _ _ hfree h hstep => h.step hfree hstep)
      fun _ _ _ _ hstep h => findsFree_of_owned hstep h
  constructor
  · exact fun h => howned.mp h.1
  · intro h
    have hthroughout := howned.mpr h
    refine ⟨hthroughout, ?_⟩
    exact hthroughout.each fun l w w' hJ hstep => hJ.leavesNone hstep

/-- The settings as they come, but one good check ends an outage. -/
def HealthCheckConfig.brief : HealthCheckConfig where
  healthCheckMaxRetries := 20
  healthCheckSuccessThreshold := 1
  healthCheckMaxRetryIntervalSeconds := 64
  webhookRetryIntervalSeconds := 10
  retries_nonneg := by norm_num
  one_le_threshold := by norm_num
  one_le_interval := by norm_num
  one_le_retry := by norm_num

/-- The webhook is unhealthy, a check ends the outage, and the webhook is
unhealthy again. -/
def secondOutage : List HealthLabel := [.unhealthy, .fire 0, .settle true, .unhealthy]

/-- The entry of the first outage is still there: the handler throws, the timer
it has started is not the one the registry holds, and it is left where the
module is destroyed. -/
theorem second_outage_not_owned :
    (∃ w, (healthChecks .brief).run secondOutage .init = some w ∧ w.threw = true ∧
      w.timers = [⟨1, 1⟩] ∧ w.registered = some 0 ∧
        (healthChecks .brief).step .destroy w = some { w with registered := none }) ∧
      ¬ (healthChecks .brief).Throughout Owned secondOutage .init := by
  have hrun : (healthChecks .brief).run secondOutage .init =
      some ⟨0, 0, some 0, [⟨1, 1⟩], 2, 0, [.healthy], [], true⟩ := by decide +kernel
  refine ⟨⟨_, hrun, rfl, rfl, rfl, by decide +kernel⟩, fun h => ?_⟩
  have howned := h.run hrun
  exact absurd howned.threw (by decide)

end AccountService
