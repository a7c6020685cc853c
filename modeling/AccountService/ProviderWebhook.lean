import AccountService.Async.Exec
import AccountService.Async.Steps
import AccountService.Types
import Mathlib.Data.Rat.Floor

/-!
# The health check of the provider webhook

A `webhook.unhealthy` event sets both counters to zero and starts a timer; the
check that runs when the timer fires counts its outcome, and either announces a
verdict or starts the next timer.

The scheduler registry and the timers are two things.  The registry holds one
timer under a name, and goes on holding it after it has fired; it refuses a
second one, but a timer runs from the moment `setTimeout` is evaluated, whether
the registry takes it or not.
-/

namespace AccountService

open Async

/-! ## The service and what it acts upon -/

/-- The settings of the health check, within the bounds of the schema. -/
structure HealthCheckConfig where
  healthCheckMaxRetries : ℚ
  healthCheckSuccessThreshold : ℚ
  healthCheckMaxRetryIntervalSeconds : ℚ
  webhookRetryIntervalSeconds : ℚ
  retries_nonneg : 0 ≤ healthCheckMaxRetries
  one_le_threshold : 1 ≤ healthCheckSuccessThreshold
  one_le_interval : 1 ≤ healthCheckMaxRetryIntervalSeconds
  one_le_retry : 1 ≤ webhookRetryIntervalSeconds

/-- The events the service emits. -/
inductive HealthEvent where
  | shutdown
  | healthy
  deriving DecidableEq

/-- The counters of the service, the scheduler registry under the name
`health_check`, `setTimeout` and the event emitter. -/
inductive HealthMemory where
  | failedHealthChecks
  | successfulHealthChecks
  | setFailedHealthChecks (n : ℕ)
  | setSuccessfulHealthChecks (n : ℕ)
  | doesExist
  | deleteTimeout
  | addTimeout (timer : ℕ)
  | setTimeout (delay : ℚ)
  | emit (event : HealthEvent)

@[reducible] def HealthMemory.Result : HealthMemory → Type
  | failedHealthChecks => ℕ
  | successfulHealthChecks => ℕ
  | doesExist => Bool
  | deleteTimeout => Except Err Unit
  | addTimeout _ => Except Err Unit
  | setTimeout _ => ℕ
  | _ => Unit

/-- The one call is the request for `/health`. -/
@[reducible] def Health : Interface where
  Call := Unit
  Reply _ := Unit
  Local := HealthMemory
  Result := HealthMemory.Result

abbrev HealthSvc := Prog Health Err

/-- Operate on the memory of the service. -/
def health (m : HealthMemory) : HealthSvc m.Result := Prog.perform (I := Health) m

/-- Await the request for `/health`. -/
def getHealth : HealthSvc Unit := Prog.request (I := Health) ()

@[simp] theorem exec_health {σ : Type} {M : Machine Health Err σ} {w : σ} (m : HealthMemory) :
    Prog.exec (α := no_index m.Result) M (health m) w = (.returned (M.act m w).1, (M.act m w).2) :=
  rfl

namespace ProviderWebhookService

def MILLISECONDS_PER_SECOND : ℚ := 1000

def onModuleDestroy : HealthSvc Unit :=
  Prog.tryCatch
    (do
      if (← health .doesExist) then
        Prog.ofExcept (← health .deleteTimeout))
    fun _ => Prog.done ()

/-- `deleteTimeout`, then `addTimeout` of a new timer: the argument is evaluated
before the call. -/
def replaceTimeout (delay : ℚ) : HealthSvc Unit := do
  Prog.ofExcept (← health .deleteTimeout)
  let timer ← health (.setTimeout delay)
  Prog.ofExcept (← health (.addTimeout timer))

def checkProviderWebhook (configService : HealthCheckConfig) : HealthSvc Unit := do
  Prog.tryCatch
    (do
      getHealth
      let successfulHealthChecks ← health .successfulHealthChecks
      health (.setSuccessfulHealthChecks (successfulHealthChecks + 1))
      health (.setFailedHealthChecks 0))
    fun _ => do
      health (.setSuccessfulHealthChecks 0)
      let failedHealthChecks ← health .failedHealthChecks
      health (.setFailedHealthChecks (failedHealthChecks + 1))
  let failedHealthChecks ← health .failedHealthChecks
  if 0 < failedHealthChecks then
    if configService.healthCheckMaxRetries ≤ failedHealthChecks then
      health (.emit .shutdown)
    else
      replaceTimeout (min (2 ^ (failedHealthChecks - 1) * MILLISECONDS_PER_SECOND)
        (configService.healthCheckMaxRetryIntervalSeconds * MILLISECONDS_PER_SECOND))
  else
    let successfulHealthChecks ← health .successfulHealthChecks
    if 0 < successfulHealthChecks then
      if configService.healthCheckSuccessThreshold ≤ successfulHealthChecks then
        health (.emit .healthy)
      else
        replaceTimeout configService.webhookRetryIntervalSeconds

def startWebhookHealthCheck : HealthSvc Unit := do
  health (.setFailedHealthChecks 0)
  health (.setSuccessfulHealthChecks 0)
  let timer ← health (.setTimeout 0)
  Prog.ofExcept (← health (.addTimeout timer))

end ProviderWebhookService

/-! ## Timers and the registry -/

/-- A timer that has not fired, and its delay in milliseconds. -/
structure Timeout where
  id : ℕ
  delay : ℕ
  deriving DecidableEq

/-- The longest delay of a timer. -/
def TIMEOUT_MAX : ℚ := 2147483647

/-- The delay of a timer: truncated, and one millisecond where it is out of
range. -/
def timerDelay (after : ℚ) : ℕ :=
  if 1 ≤ after ∧ after ≤ TIMEOUT_MAX then ⌊after⌋.toNat else 1

/-- The service, the timer its registry holds, the timers that have not fired,
the checks whose request is on its way and the events emitted, with a record of
the outcomes since the latest `webhook.unhealthy`, the newest first, and of
whether the handler of that event has thrown. -/
structure HealthWorld where
  failedHealthChecks : ℕ
  successfulHealthChecks : ℕ
  registered : Option ℕ
  timers : List Timeout
  created : ℕ
  inFlight : ℕ
  emitted : List HealthEvent
  outcomes : List Bool
  threw : Bool
  deriving DecidableEq

namespace HealthWorld

def init : HealthWorld := ⟨0, 0, none, [], 0, 0, [], [], false⟩

/-- The timers other than `id`. -/
def others (w : HealthWorld) (id : ℕ) : List Timeout := w.timers.filter (·.id ≠ id)

end HealthWorld

/-- The request for `/health` succeeds or fails. -/
def healthMachine (ok : Bool) : Machine Health Err HealthWorld where
  act m w :=
    match m with
    | .failedHealthChecks => (w.failedHealthChecks, w)
    | .successfulHealthChecks => (w.successfulHealthChecks, w)
    | .setFailedHealthChecks n => ((), { w with failedHealthChecks := n })
    | .setSuccessfulHealthChecks n => ((), { w with successfulHealthChecks := n })
    | .doesExist => (w.registered.isSome, w)
    | .deleteTimeout =>
        match w.registered with
        | some id => (.ok (), { w with registered := none, timers := w.others id })
        | none => (.error (.error "No Timeout was found with the given name (health_check)"), w)
    | .addTimeout timer =>
        match w.registered with
        | some _ => (.error (.error "Timeout with the given name (health_check) already exists"), w)
        | none => (.ok (), { w with registered := some timer })
    | .setTimeout delay =>
        (w.created,
          { w with timers := w.timers ++ [⟨w.created, timerDelay delay⟩], created := w.created + 1 })
    | .emit event => ((), { w with emitted := w.emitted ++ [event] })
  answer _ w := (if ok then .done () else .refused (.error "health check failed"), w)

section Machine

variable (ok : Bool) (w : HealthWorld)

@[simp] theorem healthMachine_failed : (healthMachine ok).act .failedHealthChecks w =
    (w.failedHealthChecks, w) := rfl

@[simp] theorem healthMachine_successful : (healthMachine ok).act .successfulHealthChecks w =
    (w.successfulHealthChecks, w) := rfl

@[simp] theorem healthMachine_setFailed (n : ℕ) :
    (healthMachine ok).act (.setFailedHealthChecks n) w =
      ((), { w with failedHealthChecks := n }) := rfl

@[simp] theorem healthMachine_setSuccessful (n : ℕ) :
    (healthMachine ok).act (.setSuccessfulHealthChecks n) w =
      ((), { w with successfulHealthChecks := n }) := rfl

@[simp] theorem healthMachine_setTimeout (delay : ℚ) :
    (healthMachine ok).act (.setTimeout delay) w =
      (w.created,
        { w with
          timers := w.timers ++ [⟨w.created, timerDelay delay⟩]
          created := w.created + 1 }) := rfl

@[simp] theorem healthMachine_emit (event : HealthEvent) :
    (healthMachine ok).act (.emit event) w = ((), { w with emitted := w.emitted ++ [event] }) := rfl

@[simp] theorem exec_getHealth : getHealth.exec (healthMachine ok) w =
    (if ok then .returned () else .threw (.error "health check failed"), w) := by
  cases ok <;> rfl

end Machine

/-- What happens to the service.  A check is in flight from the moment its
timer fires until its request settles, and does nothing in between. -/
inductive HealthLabel where
  | unhealthy
  | fire (id : ℕ)
  | settle (ok : Bool)
  | destroy
  deriving DecidableEq

/-- Whether a call has thrown. -/
def hasThrown {α : Type} : Outcome Err α → Bool
  | .threw _ => true
  | _ => false

open ProviderWebhookService in
/-- The service in its surroundings. -/
def healthChecks (configService : HealthCheckConfig) : System HealthLabel HealthWorld where
  step l w :=
    match l with
    | .unhealthy =>
        let r := startWebhookHealthCheck.exec (healthMachine true) w
        some { r.2 with outcomes := [], threw := r.2.threw || hasThrown r.1 }
    | .fire id =>
        if id ∈ w.timers.map Timeout.id then
          some { w with timers := w.others id, inFlight := w.inFlight + 1 }
        else none
    | .settle ok =>
        if 0 < w.inFlight then
          let r := (checkProviderWebhook configService).exec (healthMachine ok)
            { w with inFlight := w.inFlight - 1 }
          some { r.2 with outcomes := ok :: w.outcomes }
        else none
    | .destroy => some (onModuleDestroy.exec (healthMachine true) w).2

/-! ## What each step does -/

namespace HealthWorld

/-- The outcome of a check is counted. -/
def counted (w : HealthWorld) (ok : Bool) : HealthWorld :=
  if ok then { w with successfulHealthChecks := w.successfulHealthChecks + 1, failedHealthChecks := 0 }
  else { w with successfulHealthChecks := 0, failedHealthChecks := w.failedHealthChecks + 1 }

/-- The registry's timer `id` makes way for a new one. -/
def replaced (w : HealthWorld) (id : ℕ) (delay : ℚ) : HealthWorld :=
  { w with
    registered := some w.created
    timers := w.others id ++ [⟨w.created, timerDelay delay⟩]
    created := w.created + 1 }

variable {w : HealthWorld}

@[simp] theorem counted_registered (ok : Bool) : (w.counted ok).registered = w.registered := by
  cases ok <;> rfl

@[simp] theorem counted_timers (ok : Bool) : (w.counted ok).timers = w.timers := by
  cases ok <;> rfl

@[simp] theorem counted_created (ok : Bool) : (w.counted ok).created = w.created := by
  cases ok <;> rfl

@[simp] theorem counted_emitted (ok : Bool) : (w.counted ok).emitted = w.emitted := by
  cases ok <;> rfl

@[simp] theorem counted_threw (ok : Bool) : (w.counted ok).threw = w.threw := by
  cases ok <;> rfl

end HealthWorld

namespace ProviderWebhookService

variable {configService : HealthCheckConfig} {ok : Bool} {w : HealthWorld}

theorem replaceTimeout_exec {id : ℕ} (delay : ℚ) (h : w.registered = some id) :
    (replaceTimeout delay).exec (healthMachine ok) w = (.returned (), w.replaced id delay) := by
  simp [replaceTimeout, healthMachine, h, HealthWorld.replaced, HealthWorld.others]

theorem replaceTimeout_exec_none (delay : ℚ) (h : w.registered = none) :
    ((replaceTimeout delay).exec (healthMachine ok) w).2 = w := by
  simp [replaceTimeout, healthMachine, h]

/-- The delay to the next check after one more outcome, where there is one. -/
def nextDelay (configService : HealthCheckConfig) (ok : Bool) (w : HealthWorld) : Option ℚ :=
  if ok then
    if configService.healthCheckSuccessThreshold ≤ w.successfulHealthChecks + 1 then none
    else some configService.webhookRetryIntervalSeconds
  else
    if configService.healthCheckMaxRetries ≤ w.failedHealthChecks + 1 then none
    else some (min (2 ^ w.failedHealthChecks * ProviderWebhookService.MILLISECONDS_PER_SECOND)
      (configService.healthCheckMaxRetryIntervalSeconds * ProviderWebhookService.MILLISECONDS_PER_SECOND))

/-- The event that announces that there is no next check. -/
def verdict (ok : Bool) : HealthEvent := if ok then .healthy else .shutdown

/-- A check counts its outcome, and then announces a verdict or replaces the
registry's timer. -/
theorem checkProviderWebhook_exec :
    (checkProviderWebhook configService).exec (healthMachine ok) w =
      match nextDelay configService ok w with
      | none => (.returned (),
          { w.counted ok with emitted := w.emitted ++ [verdict ok] })
      | some delay => (replaceTimeout delay).exec (healthMachine ok) (w.counted ok) := by
  cases ok with
  | true =>
      by_cases h : configService.healthCheckSuccessThreshold ≤ w.successfulHealthChecks + 1
      · simp [checkProviderWebhook, nextDelay, h, HealthWorld.counted, verdict]
      · simp [checkProviderWebhook, nextDelay, h, HealthWorld.counted]
  | false =>
      by_cases h : configService.healthCheckMaxRetries ≤ w.failedHealthChecks + 1
      · simp [checkProviderWebhook, nextDelay, h, HealthWorld.counted, verdict]
      · simp [checkProviderWebhook, nextDelay, h, HealthWorld.counted]

theorem startWebhookHealthCheck_exec :
    startWebhookHealthCheck.exec (healthMachine ok) w =
      (if w.registered = none then .returned ()
        else .threw (.error "Timeout with the given name (health_check) already exists"),
        { w with
          failedHealthChecks := 0
          successfulHealthChecks := 0
          timers := w.timers ++ [⟨w.created, timerDelay 0⟩]
          created := w.created + 1
          registered := some (w.registered.getD w.created) }) := by
  cases h : w.registered with
  | none => simp [startWebhookHealthCheck, healthMachine, h]
  | some id => simp [startWebhookHealthCheck, healthMachine, h]

theorem onModuleDestroy_exec :
    (onModuleDestroy.exec (healthMachine ok) w).2 =
      match w.registered with
      | some id => { w with registered := none, timers := w.others id }
      | none => w := by
  cases h : w.registered with
  | none => simp [onModuleDestroy, healthMachine, h]
  | some id => simp [onModuleDestroy, healthMachine, h]

end ProviderWebhookService

section Steps

open ProviderWebhookService

variable {configService : HealthCheckConfig} {w w' : HealthWorld}

/-- The event is heard: the counters are zero, and a timer runs, which the
registry holds if it held none. -/
theorem healthChecks_unhealthy (h : (healthChecks configService).step .unhealthy w = some w') :
    w' = { w with
      failedHealthChecks := 0
      successfulHealthChecks := 0
      timers := w.timers ++ [⟨w.created, timerDelay 0⟩]
      created := w.created + 1
      registered := some (w.registered.getD w.created)
      outcomes := []
      threw := w.threw || w.registered.isSome } := by
  simp only [healthChecks, startWebhookHealthCheck_exec, Option.some.injEq] at h
  rw [← h]
  cases w.registered <;> simp [hasThrown]

/-- A timer fires, and a check is in flight. -/
theorem healthChecks_fire {id : ℕ} (h : (healthChecks configService).step (.fire id) w = some w') :
    id ∈ w.timers.map Timeout.id ∧
      w' = { w with timers := w.others id, inFlight := w.inFlight + 1 } := by
  simpa [healthChecks, eq_comm] using h

/-- A check completes. -/
theorem healthChecks_settle {ok : Bool}
    (h : (healthChecks configService).step (.settle ok) w = some w') :
    0 < w.inFlight ∧ w' =
      match nextDelay configService ok w, w.registered with
      | none, _ =>
          { w.counted ok with
            inFlight := w.inFlight - 1
            emitted := w.emitted ++ [verdict ok]
            outcomes := ok :: w.outcomes }
      | some delay, some id =>
          { (w.counted ok).replaced id delay with
            inFlight := w.inFlight - 1
            outcomes := ok :: w.outcomes }
      | some _, none =>
          { w.counted ok with inFlight := w.inFlight - 1, outcomes := ok :: w.outcomes } := by
  simp only [healthChecks] at h
  split at h
  · next hpos =>
    refine ⟨hpos, ?_⟩
    rw [← Option.some.inj h, checkProviderWebhook_exec]
    have hdelay : nextDelay configService ok { w with inFlight := w.inFlight - 1 } =
        nextDelay configService ok w := rfl
    rw [hdelay]
    cases nextDelay configService ok w with
    | none => cases ok <;> rfl
    | some delay =>
        cases hregistered : w.registered with
        | none =>
            simp only
            -- the timeout is cleared first, which throws where there is none
            rw [replaceTimeout_exec_none delay (by simp)]
            cases ok <;> simp [HealthWorld.counted, hregistered]
        | some id =>
            simp only
            rw [replaceTimeout_exec delay (HealthWorld.counted_registered ok)]
            cases ok <;> rfl
  · cases h

/-- The module is destroyed. -/
theorem healthChecks_destroy (h : (healthChecks configService).step .destroy w = some w') :
    w' = match w.registered with
      | some id => { w with registered := none, timers := w.others id }
      | none => w := by
  simpa [healthChecks, onModuleDestroy_exec, eq_comm] using h

end Steps

end AccountService
