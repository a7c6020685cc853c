import AccountService.Async.Steps
import Mathlib.Data.List.Basic

/-!
# The timer of the connection to Redis

Each of the two applications ends its process when the connection to Redis has
been down for 30 seconds.  A timer is set at the start and whenever the
connection closes, unless one is set; it is cleared when the connection is
ready.

The listeners that do so are registered only after the context of the
application is there, and what Redis has emitted before is lost on them.  The
worker therefore looks at `redisReady` when it registers them, and the API does
not.  With the look no process is ended whose connection is not down, but one
whose connection has been ready and has closed again before is not ended at all.
Without it the process is ended in time whenever the connection is down, and may
be ended when it is not.
-/

namespace AccountService

open Async

/-! ## The process -/

/-- The two applications. -/
inductive App where
  | worker
  | api
  deriving DecidableEq

/-- Whether it looks at `redisReady` before it registers its listeners. -/
def App.looksAtReady : App → Bool
  | worker => true
  | api => false

/-- `30_000` milliseconds -/
def REDIS_TIMEOUT_MS : ℕ := 30000

/-- A timer that ends the process, with the time it is due. -/
structure ExitTimeout where
  id : ℕ
  due : ℕ
  deriving DecidableEq

/-- The process with the timers that have not fired and the variable that holds
one, and, read by nothing, the time since which the connection is down. -/
structure RedisWatch where
  now : ℕ
  timers : List ExitTimeout
  created : ℕ
  redisConnectTimeout : Option ℕ
  redisReady : Bool
  listening : Bool
  exited : Bool
  downSince : Option ℕ
  deriving DecidableEq

inductive RedisLabel where
  /-- Time goes on, by a number of milliseconds. -/
  | elapse (ms : ℕ)
  /-- A timer fires that is due. -/
  | fire (id : ℕ)
  /-- The client emits an event. -/
  | ready
  | close
  | error
  /-- The context is there, and the listeners are registered. -/
  | listen

namespace RedisWatch

/-- `redisConnectTimeout = createTimeout(…, 30_000)` -/
def createTimeout (w : RedisWatch) : RedisWatch :=
  { w with
    timers := w.timers ++ [⟨w.created, w.now + REDIS_TIMEOUT_MS⟩]
    created := w.created + 1
    redisConnectTimeout := some w.created }

/-- `clearTimeout(redisConnectTimeout); redisConnectTimeout = null` -/
def clearTimeout (w : RedisWatch) : RedisWatch :=
  { w with
    timers := w.timers.filter fun t => some t.id ≠ w.redisConnectTimeout
    redisConnectTimeout := none }

/-- The process has just started. -/
def init : RedisWatch :=
  { now := 0
    timers := [⟨0, REDIS_TIMEOUT_MS⟩]
    created := 1
    redisConnectTimeout := some 0
    redisReady := false
    listening := false
    exited := false
    downSince := some 0 }

/-- The listener of `redis.ready`. -/
def onReady (w : RedisWatch) : RedisWatch :=
  if w.redisConnectTimeout ≠ none then w.clearTimeout else w

/-- The listener of `redis.close`. -/
def onClose (w : RedisWatch) : RedisWatch :=
  if w.redisConnectTimeout = none then w.createTimeout else w

/-- An event reaches its listener, if that is registered. -/
def heard (w : RedisWatch) (listener : RedisWatch → RedisWatch) : RedisWatch :=
  if w.listening then listener w else w

/-- What comes after the context: the look at `redisReady`, if there is one, and
the listeners. -/
def listen (app : App) (w : RedisWatch) : RedisWatch :=
  { (if app.looksAtReady && w.redisReady then w.clearTimeout else w) with listening := true }

end RedisWatch

open RedisWatch in
/-- The process of an application. -/
def redisWatch (app : App) : System RedisLabel RedisWatch where
  step l w :=
    if w.exited then none
    else
      match l with
      | .elapse ms => some { w with now := w.now + ms }
      | .fire id =>
          if ∃ t ∈ w.timers, t.id = id ∧ t.due ≤ w.now then some { w with exited := true }
          else none
      | .ready =>
          some { w.heard onReady with redisReady := true, downSince := none }
      | .close =>
          some { w.heard onClose with downSince := w.downSince.or (some w.now) }
      | .error => some w
      | .listen => if w.listening then none else some (w.listen app)

/-! ## The one timer -/

namespace RedisWatch

/-- The variable holds the one timer there is, which is due within 30 seconds. -/
structure Held (w : RedisWatch) : Prop where
  one : w.timers.map ExitTimeout.id = w.redisConnectTimeout.toList
  due : ∀ t ∈ w.timers, t.due ≤ w.now + REDIS_TIMEOUT_MS
  down : ∀ s ∈ w.downSince, s ≤ w.now

variable {w w' : RedisWatch}

/-- Clearing it leaves none. -/
theorem Held.clearTimeout_timers (h : w.Held) : w.clearTimeout.timers = [] := by
  rw [clearTimeout, List.filter_eq_nil_iff]
  intro t ht
  have hid : t.id ∈ w.redisConnectTimeout.toList := by
    rw [← h.one]
    exact List.mem_map_of_mem ht
  simp [Option.mem_toList.mp hid]

/-- Without one in the variable there is none. -/
theorem Held.timers_eq_nil (h : w.Held) (hnone : w.redisConnectTimeout = none) :
    w.timers = [] := by
  have hone := h.one
  rw [hnone, Option.toList_none] at hone
  exact List.map_eq_nil_iff.mp hone

/-- When the connection is ready there is none. -/
theorem Held.onReady_timers (h : w.Held) : w.onReady.timers = [] := by
  unfold onReady
  split
  · exact h.clearTimeout_timers
  · next hnone => exact h.timers_eq_nil (not_not.mp hnone)

theorem Held.cleared (h : w.Held) : w.clearTimeout.Held where
  one := by
    rw [h.clearTimeout_timers]
    rfl
  due t ht := by
    rw [h.clearTimeout_timers] at ht
    cases ht
  down := h.down

/-- When the connection closes there is the one that was there, or a new one. -/
theorem Held.onClose_timers (h : w.Held) : w.onClose.timers = w.timers ∧ w.timers ≠ [] ∨
    w.onClose.timers = [⟨w.created, w.now + REDIS_TIMEOUT_MS⟩] ∧ w.timers = [] := by
  unfold onClose
  split
  · next hnone =>
    right
    rw [createTimeout, h.timers_eq_nil hnone]
    exact ⟨rfl, rfl⟩
  · next hsome =>
    refine .inl ⟨rfl, fun hnil => hsome ?_⟩
    have hone := h.one
    rw [hnil] at hone
    exact Option.toList_eq_nil_iff.mp hone.symm

theorem Held.closed (h : w.Held) : w.onClose.Held := by
  unfold onClose
  split
  · next hnone =>
    have hnil := h.timers_eq_nil hnone
    constructor
    · simp [createTimeout, hnil]
    · simp [createTimeout, hnil]
    · exact h.down
  · exact h

/-- What the timers do not depend on may change, and time goes on. -/
theorem Held.congr (h : w.Held) (htimers : w'.timers = w.timers)
    (hvariable : w'.redisConnectTimeout = w.redisConnectTimeout) (hnow : w.now ≤ w'.now)
    (hdown : ∀ s ∈ w'.downSince, s ≤ w'.now) : w'.Held where
  one := by rw [htimers, hvariable, h.one]
  due t ht := by
    rw [htimers] at ht
    exact Nat.le_trans (h.due t ht) (Nat.add_le_add_right hnow _)
  down := hdown

/-- Where the connection closes, it is down since then or longer. -/
theorem mem_down_or {s : ℕ} (hs : s ∈ w.downSince.or (some w.now)) :
    s ∈ w.downSince ∨ w.downSince = none ∧ s = w.now := by
  rcases Option.or_eq_some_iff.mp hs with hold | ⟨hnone, hnow⟩
  · exact .inl hold
  · exact .inr ⟨hnone, (Option.some.inj hnow).symm⟩

/-- A listener touches the timers and the variable only. -/
theorem heard_eq {listener : RedisWatch → RedisWatch}
    (h : listener = onReady ∨ listener = onClose) :
    (w.heard listener).now = w.now ∧ (w.heard listener).listening = w.listening ∧
      (w.heard listener).redisReady = w.redisReady ∧ (w.heard listener).exited = w.exited := by
  rcases h with rfl | rfl
  · unfold heard onReady
    split <;> [split <;> exact ⟨rfl, rfl, rfl, rfl⟩; exact ⟨rfl, rfl, rfl, rfl⟩]
  · unfold heard onClose
    split <;> [split <;> exact ⟨rfl, rfl, rfl, rfl⟩; exact ⟨rfl, rfl, rfl, rfl⟩]

/-- **There is one timer at most**, and it can be cleared. -/
theorem Held.step {app : App} {l : RedisLabel} (h : w.Held)
    (hstep : (redisWatch app).step l w = some w') : w'.Held := by
  obtain ⟨-, hstep⟩ := Option.ite_none_left_eq_some.mp hstep
  cases l with
  | elapse ms =>
      obtain rfl := Option.some.inj hstep
      have hnow : w.now ≤ w.now + ms := Nat.le_add_right _ _
      exact h.congr rfl rfl hnow fun s hs => Nat.le_trans (h.down s hs) hnow
  | fire id =>
      obtain ⟨-, heq⟩ := Option.ite_none_right_eq_some.mp hstep
      obtain rfl := Option.some.inj heq
      exact h.congr rfl rfl (Nat.le_refl _) h.down
  | ready =>
      obtain rfl := Option.some.inj hstep
      have hready : (w.heard onReady).Held := by
        unfold heard onReady
        split
        · split
          · exact h.cleared
          · exact h
        · exact h
      exact hready.congr rfl rfl (Nat.le_refl _) fun s hs => (by cases hs)
  | close =>
      obtain rfl := Option.some.inj hstep
      have hclose : (w.heard onClose).Held := by
        unfold heard
        split
        · exact h.closed
        · exact h
      refine hclose.congr rfl rfl (Nat.le_refl _) fun s hs => ?_
      show s ≤ (w.heard onClose).now
      rw [(heard_eq (.inr rfl)).1]
      rcases mem_down_or hs with hold | ⟨-, rfl⟩
      · exact h.down s hold
      · exact Nat.le_refl _
  | error =>
      obtain rfl := Option.some.inj hstep
      exact h
  | listen =>
      obtain ⟨-, heq⟩ := Option.ite_none_left_eq_some.mp hstep
      obtain rfl := Option.some.inj heq
      unfold RedisWatch.listen
      split
      · exact h.cleared.congr rfl rfl (Nat.le_refl _) h.down
      · exact h.congr rfl rfl (Nat.le_refl _) h.down

/-! ## Whom it ends -/

/-- The connection is down for 30 seconds. -/
def Lost (w : RedisWatch) : Prop := ∃ s ∈ w.downSince, s + REDIS_TIMEOUT_MS ≤ w.now

/-- A timer is due no earlier than 30 seconds after the connection has gone
down; before the listeners are registered, no earlier than 30 seconds after the
start, since when the connection is down unless it was ready. -/
structure Spares (w : RedisWatch) : Prop where
  early : w.listening = false → (∀ t ∈ w.timers, REDIS_TIMEOUT_MS ≤ t.due) ∧
    (w.redisReady = false → w.downSince = some 0)
  late : w.listening = true → ∀ t ∈ w.timers, ∃ s ∈ w.downSince, s + REDIS_TIMEOUT_MS ≤ t.due
  exited : w.exited = true → w.listening = true → w.Lost

/-- **The worker spares a process whose connection is not down.** -/
theorem Spares.step {l : RedisLabel} (hheld : w.Held) (h : w.Spares)
    (hstep : (redisWatch .worker).step l w = some w') : w'.Spares := by
  obtain ⟨hrunning, hstep⟩ := Option.ite_none_left_eq_some.mp hstep
  cases l with
  | elapse ms =>
      obtain rfl := Option.some.inj hstep
      exact ⟨h.early, h.late, fun hexited => absurd hexited hrunning⟩
  | fire id =>
      obtain ⟨⟨t, ht, -, hdue⟩, heq⟩ := Option.ite_none_right_eq_some.mp hstep
      obtain rfl := Option.some.inj heq
      refine ⟨h.early, h.late, fun _ hlistening => ?_⟩
      obtain ⟨s, hs, hle⟩ := h.late hlistening t ht
      exact ⟨s, hs, Nat.le_trans hle hdue⟩
  | ready =>
      obtain rfl := Option.some.inj hstep
      obtain ⟨-, hlistening, -, hexited⟩ := w.heard_eq (.inl rfl)
      refine ⟨fun hnot => ?_, fun hyes => ?_, fun hexited' => ?_⟩
      · have hnot' : w.listening = false := hlistening ▸ hnot
        refine ⟨?_, fun hready => nomatch hready⟩
        show ∀ t ∈ (w.heard onReady).timers, _
        rw [heard, if_neg (by simp [hnot'])]
        exact (h.early hnot').1
      · have hyes' : w.listening = true := hlistening ▸ hyes
        show ∀ t ∈ (w.heard onReady).timers, _
        rw [heard, if_pos hyes', hheld.onReady_timers]
        exact fun t ht => (by cases ht)
      · exact absurd (hexited ▸ hexited') hrunning
  | close =>
      obtain rfl := Option.some.inj hstep
      obtain ⟨-, hlistening, hready, hexited⟩ := w.heard_eq (.inr rfl)
      refine ⟨fun hnot => ?_, fun hyes => ?_, fun hexited' => ?_⟩
      · have hnot' : w.listening = false := hlistening ▸ hnot
        refine ⟨?_, fun hready' => ?_⟩
        · show ∀ t ∈ (w.heard onClose).timers, _
          rw [heard, if_neg (by simp [hnot'])]
          exact (h.early hnot').1
        · show w.downSince.or _ = _
          rw [(h.early hnot').2 (hready ▸ hready')]
          rfl
      · have hyes' : w.listening = true := hlistening ▸ hyes
        show ∀ t ∈ (w.heard onClose).timers, ∃ s ∈ w.downSince.or (some w.now), _
        rw [heard, if_pos hyes']
        rcases hheld.onClose_timers with ⟨htimers, -⟩ | ⟨htimers, -⟩
        · -- the timer that was there stays
          rw [htimers]
          intro t ht
          obtain ⟨s, hs, hle⟩ := h.late hyes' t ht
          exact ⟨s, by rw [Option.mem_def.mp hs]; rfl, hle⟩
        · -- a new one is set
          rw [htimers]
          intro t ht
          rw [List.mem_singleton.mp ht]
          cases hdown : w.downSince with
          | none => exact ⟨w.now, rfl, Nat.le_refl _⟩
          | some s => exact ⟨s, rfl, Nat.add_le_add_right (hheld.down s hdown) _⟩
      · exact absurd (hexited ▸ hexited') hrunning
  | error =>
      obtain rfl := Option.some.inj hstep
      exact h
  | listen =>
      obtain ⟨hnot, heq⟩ := Option.ite_none_left_eq_some.mp hstep
      obtain rfl := Option.some.inj heq
      have hearly := h.early (Bool.not_eq_true _ ▸ hnot)
      unfold RedisWatch.listen
      cases hready : w.redisReady with
      | true =>
          refine ⟨fun hnot => (by cases hnot), fun _ t ht => ?_,
            fun hexited => absurd hexited hrunning⟩
          have ht' : t ∈ w.clearTimeout.timers := ht
          rw [hheld.clearTimeout_timers] at ht'
          cases ht'
      | false =>
          refine ⟨fun hnot => (by cases hnot), fun _ t ht => ?_,
            fun hexited => absurd hexited hrunning⟩
          exact ⟨0, hearly.2 hready, by rw [Nat.zero_add]; exact hearly.1 t ht⟩

/-- Where the connection is down, a timer is due within 30 seconds of that;
before the listeners are registered, within 30 seconds of the start. -/
structure Ends (w : RedisWatch) : Prop where
  early : w.listening = false → ∃ t ∈ w.timers, t.due ≤ REDIS_TIMEOUT_MS
  late : w.listening = true →
    ∀ s ∈ w.downSince, ∃ t ∈ w.timers, t.due ≤ s + REDIS_TIMEOUT_MS

/-- **The API ends a process whose connection is down.** -/
theorem Ends.step {l : RedisLabel} (hheld : w.Held) (h : w.Ends)
    (hstep : (redisWatch .api).step l w = some w') : w'.Ends := by
  obtain ⟨-, hstep⟩ := Option.ite_none_left_eq_some.mp hstep
  cases l with
  | elapse ms =>
      obtain rfl := Option.some.inj hstep
      exact ⟨h.early, h.late⟩
  | fire id =>
      obtain ⟨-, heq⟩ := Option.ite_none_right_eq_some.mp hstep
      obtain rfl := Option.some.inj heq
      exact ⟨h.early, h.late⟩
  | ready =>
      obtain rfl := Option.some.inj hstep
      obtain ⟨-, hlistening, -⟩ := w.heard_eq (.inl rfl)
      refine ⟨fun hnot => ?_, fun _ s hs => (by cases hs)⟩
      have hnot' : w.listening = false := hlistening ▸ hnot
      show ∃ t ∈ (w.heard onReady).timers, _
      rw [heard, if_neg (by simp [hnot'])]
      exact h.early hnot'
  | close =>
      obtain rfl := Option.some.inj hstep
      obtain ⟨-, hlistening, -⟩ := w.heard_eq (.inr rfl)
      refine ⟨fun hnot => ?_, fun hyes => ?_⟩
      · have hnot' : w.listening = false := hlistening ▸ hnot
        show ∃ t ∈ (w.heard onClose).timers, _
        rw [heard, if_neg (by simp [hnot'])]
        exact h.early hnot'
      · have hyes' : w.listening = true := hlistening ▸ hyes
        show ∀ s ∈ w.downSince.or (some w.now), ∃ t ∈ (w.heard onClose).timers, _
        rw [heard, if_pos hyes']
        intro s hs
        rcases hheld.onClose_timers with ⟨htimers, hsome⟩ | ⟨htimers, hnil⟩
        · rw [htimers]
          rcases mem_down_or hs with hold | ⟨-, rfl⟩
          · exact h.late hyes' s hold
          · -- the one there is due in time
            obtain ⟨t, ht⟩ := List.exists_mem_of_ne_nil _ hsome
            exact ⟨t, ht, hheld.due t ht⟩
        · rw [htimers]
          rcases mem_down_or hs with hold | ⟨-, rfl⟩
          · -- there was one
            obtain ⟨t, ht, -⟩ := h.late hyes' s hold
            rw [hnil] at ht
            cases ht
          · exact ⟨_, List.mem_singleton_self _, Nat.le_refl _⟩
  | error =>
      obtain rfl := Option.some.inj hstep
      exact h
  | listen =>
      obtain ⟨hnot, heq⟩ := Option.ite_none_left_eq_some.mp hstep
      obtain rfl := Option.some.inj heq
      obtain ⟨t, ht, hdue⟩ := h.early (Bool.not_eq_true _ ▸ hnot)
      refine ⟨fun hnot => (by cases hnot), fun _ s _ => ⟨t, ht, ?_⟩⟩
      exact Nat.le_trans hdue (Nat.le_add_left _ _)

/-- What the steps of an application keep beside the one timer holds in every
state it comes to. -/
theorem run_keeps {app : App} {J : RedisWatch → Prop} (hinit : J init)
    (hkeep : ∀ l w w', w.Held → J w → (redisWatch app).step l w = some w' → J w')
    {ls : List RedisLabel} (hrun : (redisWatch app).run ls init = some w) : J w := by
  have hheld : init.Held :=
    ⟨rfl, by simp [init], fun s hs => Nat.le_of_eq (Option.some.inj hs).symm⟩
  have hthroughout := (System.each_true ls init).throughout (J := fun w => w.Held ∧ J w)
    (fun l w w' _ h hstep => ⟨h.1.step hstep, hkeep l w w' h.1 h.2 hstep⟩) ⟨hheld, hinit⟩
  exact (hthroughout.run hrun).2

end RedisWatch

/-- The connection of an API is ready before its listeners are there, and does
not close: the process ends all the same. -/
theorem redisWatch_api_ended : ∃ w,
    (redisWatch .api).run [.ready, .listen, .elapse 30000, .fire 0] .init = some w ∧
      w.exited = true ∧ w.listening = true ∧ w.downSince = none :=
  ⟨_, rfl, rfl, rfl, rfl⟩

/-- The connection of a worker is ready and closes before its listeners are
there: it is down, and the timer is cleared all the same. -/
theorem redisWatch_worker_cleared : ∃ w,
    (redisWatch .worker).run [.ready, .close, .listen] .init = some w ∧
      w.listening = true ∧ w.downSince = some 0 ∧ w.timers = [] :=
  ⟨_, rfl, rfl, rfl, rfl⟩

/-- **Whom the timer ends.**  That a process which has registered its listeners
is ended by the timer only when the connection has been down for 30 seconds is
so of all runs of the worker, and not of the API. -/
theorem redisWatch_spares_iff (app : App) :
    (∀ (ls : List RedisLabel) (w : RedisWatch), (redisWatch app).run ls .init = some w →
      w.exited = true → w.listening = true → w.Lost) ↔ app = .worker := by
  constructor
  · intro h
    cases app with
    | worker => rfl
    | api =>
        obtain ⟨w, hrun, hexited, hlistening, hup⟩ := redisWatch_api_ended
        obtain ⟨s, hs, -⟩ := h _ w hrun hexited hlistening
        rw [hup] at hs
        cases hs
  · rintro rfl ls w hrun
    have hinit : RedisWatch.init.Spares :=
      ⟨fun _ => ⟨by simp [RedisWatch.init], fun _ => rfl⟩, fun hyes => (by cases hyes),
        fun hexited => (by cases hexited)⟩
    exact (RedisWatch.run_keeps hinit (fun _ _ _ hheld h hstep => h.step hheld hstep) hrun).exited

/-- **Whom it does not end.**  That a timer is set which ends the process within
30 seconds, whenever the connection is down after the listeners were registered,
is so of all runs of the API, and not of the worker. -/
theorem redisWatch_ends_iff (app : App) :
    (∀ (ls : List RedisLabel) (w : RedisWatch), (redisWatch app).run ls .init = some w →
      w.listening = true →
        ∀ s ∈ w.downSince, ∃ t ∈ w.timers, t.due ≤ s + REDIS_TIMEOUT_MS) ↔ app = .api := by
  constructor
  · intro h
    cases app with
    | api => rfl
    | worker =>
        obtain ⟨w, hrun, hlistening, hdown, hcleared⟩ := redisWatch_worker_cleared
        obtain ⟨t, ht, -⟩ := h _ w hrun hlistening 0 hdown
        rw [hcleared] at ht
        cases ht
  · rintro rfl ls w hrun
    have hinit : RedisWatch.init.Ends :=
      ⟨fun _ => ⟨_, List.mem_singleton_self _, Nat.le_refl _⟩, fun hyes => (by cases hyes)⟩
    exact (RedisWatch.run_keeps hinit (fun _ _ _ hheld h hstep => h.step hheld hstep) hrun).late

end AccountService
