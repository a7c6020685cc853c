import AccountService.Async.Pool
import AccountService.Publisher
import Mathlib.Tactic.Ring

/-!
# Reserving nonces

Any number of `getNextNonce` calls side by side, each reading the next index of
the account, which only grows, and running the script on Redis later, when the
index may have moved on.  A reservation lasts two seconds.

The keys of a call are spelled from the index it read, so the script tells apart
the calls that read the same index.  A call that finds all its keys taken gives
up and answers with the nonce after them, which nobody has reserved.
-/

namespace AccountService

open Async

/-! ## The script -/

/-- The script answers `-1` exactly if every key is taken, and otherwise with
the position of the first free key, counting from `i`. -/
theorem incrementNonceFrom_spec (keyExists : String → Bool) (keys : List String) :
    ∀ i : ℕ, (incrementNonceFrom keyExists i keys = -1 ∧ ∀ key ∈ keys, keyExists key) ∨
      ∃ (slot : ℕ) (key : String), keys[slot]? = some key ∧
        incrementNonceFrom keyExists i keys = (i : ℤ) + slot ∧ keyExists key = false ∧
          ∀ earlier < slot, ∀ key ∈ keys[earlier]?, keyExists key := by
  induction keys with
  | nil => intro i; exact .inl ⟨rfl, by simp⟩
  | cons key keys ih =>
      intro i
      cases hkey : keyExists key with
      | false => exact .inr ⟨0, key, rfl, by simp [incrementNonceFrom, hkey], hkey, by simp⟩
      | true =>
          rcases ih (i + 1) with ⟨hnone, hall⟩ | ⟨slot, key', hslot, hindex, hfree, htaken⟩
          · refine .inl ⟨by simpa [incrementNonceFrom, hkey] using hnone, ?_⟩
            simpa [hkey] using hall
          · refine .inr ⟨slot + 1, key', by simpa using hslot, ?_, hfree, fun earlier hlt => ?_⟩
            · simp only [incrementNonceFrom, hkey, if_true, hindex]
              push_cast
              ring
            · cases earlier with
              | zero => simpa using hkey
              | succ earlier => simpa using htaken earlier (by omega)

theorem incrementNonce_spec (keyExists : String → Bool) (keys : List String) :
    (incrementNonce keyExists keys = -1 ∧ ∀ key ∈ keys, keyExists key) ∨
      ∃ (slot : ℕ) (key : String), keys[slot]? = some key ∧
        incrementNonce keyExists keys = 1 + (slot : ℤ) ∧ keyExists key = false ∧
          ∀ earlier < slot, ∀ key ∈ keys[earlier]?, keyExists key := by
  unfold incrementNonce
  exact_mod_cast incrementNonceFrom_spec keyExists keys 1

theorem getNextPossibleKeys_get {n slot : ℕ} {key : String}
    (h : (getNextPossibleKeys n)[slot]? = some key) :
    slot < NUMBER_OF_NONCE_KEYS_TO_CHECK ∧ key = getNonceKey (indexPlus n slot) := by
  rw [getNextPossibleKeys, List.getElem?_map, Option.map_eq_some_iff] at h
  obtain ⟨i, hi, rfl⟩ := h
  obtain ⟨hlt, hi⟩ := List.getElem?_eq_some_iff.mp hi
  rw [List.getElem_range] at hi
  exact ⟨by simpa using hlt, by rw [hi]⟩

/-! ## The course of a call -/

/-- How far a call of `getNextNonce` has come: it has read an index, and the
script has given it the position of a key or found all keys taken. -/
inductive NonceCourse where
  | absent
  | asking
  | asked (index : ℕ)
  | reserved (index : ℕ) (position : ℤ)
  | full (index : ℕ)
  | failed

/-- What a call does: read the index, then run the script on its keys. -/
def nonceProtocol : Protocol Worker Err NonceCourse where
  allow s act :=
    match s, act with
    | .asking, .await .accountNextIndex => True
    | .asked index, .await (.incrementNonce keys size expire) =>
        keys = getNextPossibleKeys index ∧ size = keys.length ∧ expire = NONCE_KEY_EXPIRE_SECONDS
    | _, _ => False
  next s obs :=
    match s, obs with
    | .asking, .await .accountNextIndex f =>
        match f.seen with
        | .ok index => .asked index
        | .error _ => .failed
    | .asked index, .await (.incrementNonce _ _ _) f =>
        match f.seen with
        | .ok position => if position = -1 then .full index else .reserved index position
        | .error _ => .failed
    | s, _ => s

/-- The nonce a call returns. -/
def NonceCourse.Returns (nonce : ℕ) : NonceCourse → Prop
  | .reserved index position => nonce = (index + position - 1).toNat
  | .full index => nonce = index + NUMBER_OF_NONCE_KEYS_TO_CHECK
  | _ => False

theorem getNextNonce_follows :
    getNextNonce.Follows nonceProtocol (fun nonce s => s.Returns nonce)
      (fun _ s => s = .failed) .asking := by
  simp only [getNextNonce, Prog.bind_eq, Prog.follows_bind, follows_call]
  refine ⟨trivial, fun index => ?_, fun _ => rfl, fun _ _ => rfl⟩
  refine ⟨⟨rfl, rfl, rfl⟩, fun position => ?_, fun _ => rfl, fun _ _ => rfl⟩
  by_cases hfull : position = -1
  · simp [nonceProtocol, hfull, NonceCourse.Returns]
  · simp [nonceProtocol, hfull, NonceCourse.Returns]

/-! ## Calls side by side -/

/-- What the calls share, with a record of each call and of the time its script
ran: the next index of the account, the time in milliseconds, and the keys in
Redis with the time each expires. -/
structure NonceWorld where
  index : ℕ
  time : ℕ
  expiry : String → Option ℕ
  course : ℕ → NonceCourse
  ranAt : ℕ → ℕ

/-- What the environment decides: that the index grows, that time passes, and
how a call settles, with the index the chain answers with where it is asked. -/
inductive NonceChoice where
  | advance (n : ℕ)
  | tick (milliseconds : ℕ)
  | settle (how : Settle Err) (index : ℕ)

namespace NonceWorld

/-- `EXISTS` -/
def keyExists (w : NonceWorld) (key : String) : Bool :=
  match w.expiry key with
  | some expiry => w.time < expiry
  | none => false

/-- The script: its answer, and the keys it leaves. -/
def script (w : NonceWorld) (keys : List String) (expire : ℕ) : ℤ × (String → Option ℕ) :=
  match incrementNonce w.keyExists keys with
  | .ofNat (slot + 1) =>
      match keys[slot]? with
      | some key =>
          (slot + 1,
            Function.update w.expiry key (some (w.time + expire * MILLISECONDS_PER_SECOND)))
      | none => (slot + 1, w.expiry)
  | position => (position, w.expiry)

/-- A call settles. -/
def answer (w : NonceWorld) (i : ℕ) (how : Settle Err) (index : ℕ) :
    (c : Call) → Option (Fate Err c.Reply × NonceWorld)
  | .accountNextIndex =>
      if index = w.index then
        some (how.fate index,
          { w with
            course := Function.update w.course i
              (nonceProtocol.next (w.course i) (.await .accountNextIndex (how.fate index))) })
      else none
  | .incrementNonce keys size expire =>
      match w.script keys expire with
      | (position, expiry) =>
          let f : Fate Err ℤ := how.fate position
          some (f,
            { w with
              expiry := if f.effect.isSome then expiry else w.expiry
              ranAt := Function.update w.ranAt i w.time
              course := Function.update w.course i
                (nonceProtocol.next (w.course i) (.await (.incrementNonce keys size expire) f)) })
  | _ => none

end NonceWorld

/-- Calls of `getNextNonce` at places of their own. -/
def nonceCalls : World Worker Err ℕ ℕ NonceWorld NonceChoice Unit where
  act _ m w := (m.blank, w)
  issue _ _ w := w
  answer i c x w :=
    match x with
    | .settle how index => w.answer i how index c
    | _ => none
  env x w :=
    match x with
    | .advance n => some { w with index := w.index + n }
    | .tick milliseconds => some { w with time := w.time + milliseconds }
    | .settle _ _ => none
  launch _ i w :=
    match w.course i with
    | .absent => some (getNextNonce, { w with course := Function.update w.course i .asking })
    | _ => none
  crash w := w

abbrev NoncePool := Pool Worker Err ℕ ℕ NonceWorld

/-- The pool before the first call, with nothing reserved. -/
def NoncePool.init : NoncePool :=
  ⟨⟨0, 0, fun _ => none, fun _ => .absent, fun _ => 0⟩, fun _ => none⟩

/-- How long a reservation lasts, in milliseconds. -/
def reservationTime : ℕ := NONCE_KEY_EXPIRE_SECONDS * MILLISECONDS_PER_SECOND

/-- What is true of the reservations.  A reservation that was made stands in
Redis until it expires, and a key is not given away a second time before. -/
structure Reserved (w : NonceWorld) : Prop where
  ran : ∀ i n p, w.course i = .reserved n p → w.ranAt i ≤ w.time
  key : ∀ i n p, w.course i = .reserved n p → ∃ slot : ℕ,
    p = 1 + (slot : ℤ) ∧ slot < NUMBER_OF_NONCE_KEYS_TO_CHECK ∧
      ∃ expiry, w.expiry (getNonceKey (indexPlus n slot)) = some expiry ∧
        w.ranAt i + reservationTime ≤ expiry
  apart : ∀ i j n p, i ≠ j → w.course i = .reserved n p → w.course j = .reserved n p →
    w.ranAt i ≤ w.ranAt j → w.ranAt i + reservationTime ≤ w.ranAt j

/-- A call that settles moves its own course and nobody else's. -/
private theorem answer_course {i : ℕ} {c : Call} {x : NonceChoice} {w w' : NonceWorld}
    {f : Fate Err c.Reply} (h : nonceCalls.answer i c x w = some (f, w')) :
    w'.course =
      Function.update w.course i (nonceProtocol.next (w.course i) (.await c f)) := by
  cases x with
  | settle how index =>
      cases c <;> simp only [nonceCalls, NonceWorld.answer, Option.some.injEq, Prod.mk.injEq,
        Option.ite_none_right_eq_some, reduceCtorEq] at h
      · obtain ⟨rfl, rfl⟩ := h
        rfl
      · obtain ⟨-, rfl, rfl⟩ := h
        rfl
  | _ => cases h

private theorem launch_course {i : ℕ} {w w' : NonceWorld} {p : Svc ℕ}
    (h : nonceCalls.launch () i w = some (p, w')) :
    p = getNextNonce ∧ w.course i = .absent ∧
      w' = { w with course := Function.update w.course i .asking } := by
  simp only [nonceCalls] at h
  split at h
  · next habsent =>
    obtain ⟨rfl, rfl⟩ := Prod.mk.inj (Option.some.inj h)
    exact ⟨rfl, habsent, rfl⟩
  · cases h

private theorem nonceCalls_tracks :
    nonceCalls.Tracks (fun _ => nonceProtocol) (fun _ nonce s => s.Returns nonce)
      (fun _ _ s => s = .failed) fun i w => w.course i where
  act i m w := by cases h : w.course i <;> simp [nonceCalls, nonceProtocol, h]
  act_other i j m w hj := rfl
  issue i c w := by cases h : w.course i <;> simp [nonceCalls, nonceProtocol, h]
  issue_other i j c w hj := rfl
  answer i c x w f w' h := by rw [answer_course h, Function.update_self]
  answer_other i j c x w f w' hj h := by rw [answer_course h, Function.update_of_ne hj]
  env i x w w' h := by
    cases x <;> simp only [nonceCalls, Option.some.injEq, reduceCtorEq] at h <;> rw [← h]
  launch k i w p w' h := by
    obtain ⟨rfl, -, rfl⟩ := launch_course h
    simpa using getNextNonce_follows
  launch_other k i j w p w' hj h := by
    obtain ⟨rfl, -, rfl⟩ := launch_course h
    simp [hj]

/-- A key that stands in `w` stands in `w'`. -/
private def Lasts (w w' : NonceWorld) : Prop :=
  ∀ key expiry t, w.expiry key = some expiry → t + reservationTime ≤ expiry → t ≤ w.time →
    ∃ expiry', w'.expiry key = some expiry' ∧ t + reservationTime ≤ expiry'

/-- Steps after which no call has a reservation that it had not before. -/
private theorem Reserved.mono {w w' : NonceWorld} (h : Reserved w) (htime : w.time ≤ w'.time)
    (hlasts : Lasts w w')
    (hcourse : ∀ i n p, w'.course i = .reserved n p →
      w.course i = .reserved n p ∧ w'.ranAt i = w.ranAt i) : Reserved w' where
  ran i n p hi := by
    obtain ⟨hi, hran⟩ := hcourse i n p hi
    rw [hran]
    exact (h.ran i n p hi).trans htime
  key i n p hi := by
    obtain ⟨hi, hran⟩ := hcourse i n p hi
    obtain ⟨slot, hp, hslot, expiry, hexpiry, hle⟩ := h.key i n p hi
    rw [hran]
    exact ⟨slot, hp, hslot, hlasts _ expiry _ hexpiry hle (h.ran i n p hi)⟩
  apart i j n p hij hi hj hle := by
    obtain ⟨hi, hrani⟩ := hcourse i n p hi
    obtain ⟨hj, hranj⟩ := hcourse j n p hj
    rw [hrani, hranj] at hle
    rw [hrani, hranj]
    exact h.apart i j n p hij hi hj hle

/-- A step of call `i` after which it has no reservation. -/
private theorem Reserved.unreserved {w w' : NonceWorld} (h : Reserved w) (i : ℕ)
    {s : NonceCourse} (htime : w.time ≤ w'.time) (hlasts : Lasts w w')
    (hcourse : w'.course = Function.update w.course i s)
    (hran : ∀ j, j ≠ i → w'.ranAt j = w.ranAt j) (hs : ∀ n p, s ≠ .reserved n p) :
    Reserved w' := by
  refine h.mono htime hlasts fun j n p hj => ?_
  rw [hcourse] at hj
  by_cases hji : j = i
  · subst hji
    exact absurd (by simpa using hj) (hs n p)
  · exact ⟨by simpa [hji] using hj, hran j hji⟩

/-- The script leaves every key that stands standing. -/
private theorem lasts_script (w : NonceWorld) (keys : List String) {w' : NonceWorld}
    (hexpiry : w'.expiry = (w.script keys NONCE_KEY_EXPIRE_SECONDS).2) : Lasts w w' := by
  intro key expiry t hkey hle ht
  rw [hexpiry, NonceWorld.script]
  split
  · next slot _ =>
    cases keys[slot]? with
    | none => exact ⟨expiry, hkey, hle⟩
    | some key' =>
        by_cases hkey' : key = key'
        · subst hkey'
          exact ⟨_, Function.update_self .., by unfold reservationTime; omega⟩
        · exact ⟨expiry, by simp only [Function.update_of_ne hkey', hkey], hle⟩
  · exact ⟨expiry, hkey, hle⟩

/-- What the script does where it finds a free key. -/
private theorem script_reserve {w : NonceWorld} {keys : List String} {slot : ℕ} {key : String}
    (hkey : keys[slot]? = some key) (hindex : incrementNonce w.keyExists keys = 1 + (slot : ℤ)) :
    w.script keys NONCE_KEY_EXPIRE_SECONDS =
      (1 + (slot : ℤ), Function.update w.expiry key (some (w.time + reservationTime))) := by
  have hindex' : incrementNonce w.keyExists keys = Int.ofNat (slot + 1) := by
    rw [hindex, Int.ofNat_eq_natCast]
    push_cast
    ring
  simp only [NonceWorld.script, hindex', hkey, reservationTime]
  rw [add_comm]

/-- What the script does where every key is taken. -/
private theorem script_full {w : NonceWorld} {keys : List String}
    (hfull : incrementNonce w.keyExists keys = -1) :
    w.script keys NONCE_KEY_EXPIRE_SECONDS = (-1, w.expiry) := by
  simp only [NonceWorld.script, hfull]

/-- A script that finds none leaves the keys as they are. -/
private theorem script_keeps {w : NonceWorld} {keys : List String} {expire : ℕ}
    (hfull : (w.script keys expire).1 = -1) : (w.script keys expire).2 = w.expiry := by
  unfold NonceWorld.script at hfull ⊢
  split at hfull
  · next slot _ =>
    -- the position of a key is positive
    have hpositive : (slot : ℤ) + 1 ≠ -1 := by omega
    split at hfull <;> exact absurd hfull hpositive
  · rfl

/-- A call for which the script finds a free key gets a reservation of its own:
whoever holds the same key ran the script long enough before. -/
private theorem Reserved.reserve {w w' : NonceWorld} (h : Reserved w) (i n slot : ℕ)
    (hslot : slot < NUMBER_OF_NONCE_KEYS_TO_CHECK)
    (hfree : w.keyExists (getNonceKey (indexPlus n slot)) = false)
    (hcourse : w'.course = Function.update w.course i (.reserved n (1 + (slot : ℤ))))
    (htime : w'.time = w.time) (hran : w'.ranAt = Function.update w.ranAt i w.time)
    (hnew : w'.expiry (getNonceKey (indexPlus n slot)) = some (w.time + reservationTime))
    (hlasts : Lasts w w') : Reserved w' := by
  -- who holds the key that was free now has lost it before
  have hbefore : ∀ j, w.course j = .reserved n (1 + (slot : ℤ)) →
      w.ranAt j + reservationTime ≤ w.time := by
    intro j hj
    obtain ⟨slot', hp, -, expiry, hexpiry, hle⟩ := h.key j n _ hj
    obtain rfl : slot' = slot := by omega
    have hexpired : expiry ≤ w.time := by simpa [NonceWorld.keyExists, hexpiry] using hfree
    exact hle.trans hexpired
  refine ⟨fun j m p hj => ?_, fun j m p hj => ?_, fun j k m p hjk hj hk hle => ?_⟩
  · rw [hcourse] at hj
    rw [hran, htime]
    by_cases hji : j = i
    · subst hji
      simp
    · simp only [Function.update_of_ne hji] at hj ⊢
      exact h.ran j m p hj
  · rw [hcourse] at hj
    rw [hran]
    by_cases hji : j = i
    · subst hji
      simp only [Function.update_self, NonceCourse.reserved.injEq] at hj ⊢
      obtain ⟨rfl, rfl⟩ := hj
      exact ⟨slot, rfl, hslot, _, hnew, le_rfl⟩
    · simp only [Function.update_of_ne hji] at hj ⊢
      obtain ⟨slot', hp, hslot', expiry, hexpiry, hle⟩ := h.key j m p hj
      exact ⟨slot', hp, hslot', hlasts _ expiry _ hexpiry hle (h.ran j m p hj)⟩
  · rw [hcourse] at hj hk
    rw [hran] at hle ⊢
    by_cases hji : j = i
    · subst hji
      have hkj : k ≠ j := fun h => hjk h.symm
      simp only [Function.update_self, NonceCourse.reserved.injEq] at hj
      obtain ⟨rfl, rfl⟩ := hj
      simp only [Function.update_self, Function.update_of_ne hkj] at hk hle ⊢
      have hk' := hbefore k hk
      have hpos : 0 < reservationTime := by decide
      omega
    · by_cases hki : k = i
      · subst hki
        simp only [Function.update_self, NonceCourse.reserved.injEq] at hk
        obtain ⟨rfl, rfl⟩ := hk
        simp only [Function.update_self, Function.update_of_ne hji] at hj ⊢
        exact hbefore j hj
      · simp only [Function.update_of_ne hji, Function.update_of_ne hki] at hj hk hle ⊢
        exact h.apart j k m p hjk hj hk hle

/-- A call that asks for the index reserves nothing yet. -/
private theorem Reserved.answerIndex {w w' : NonceWorld} (h : Reserved w) {i index : ℕ}
    {how : Settle Err} {f : Fate Err Call.accountNextIndex.Reply} (hi : w.course i = .asking)
    (hanswer : w.answer i how index .accountNextIndex = some (f, w')) : Reserved w' := by
  simp only [NonceWorld.answer, Option.ite_none_right_eq_some, Option.some.injEq,
    Prod.mk.injEq] at hanswer
  obtain ⟨-, rfl, rfl⟩ := hanswer
  refine h.unreserved i le_rfl (fun _ expiry _ hkey hle _ => ⟨expiry, hkey, hle⟩) rfl
    (fun _ _ => rfl) fun n p hp => ?_
  rw [hi] at hp
  cases how <;> simp [nonceProtocol, Settle.fate] at hp

/-- A call that runs the script has reserved the key it is answered, if any. -/
private theorem Reserved.answerScript {w w' : NonceWorld} (h : Reserved w) {i index n size : ℕ}
    {how : Settle Err} (hi : w.course i = .asked n)
    {f : Fate Err
      (Call.incrementNonce (getNextPossibleKeys n) size NONCE_KEY_EXPIRE_SECONDS).Reply}
    (hanswer : w.answer i how index
      (.incrementNonce (getNextPossibleKeys n) size NONCE_KEY_EXPIRE_SECONDS) = some (f, w')) :
    Reserved w' := by
  simp only [NonceWorld.answer, Option.some.injEq, Prod.mk.injEq] at hanswer
  obtain ⟨rfl, rfl⟩ := hanswer
  have hran : ∀ j, j ≠ i → Function.update w.ranAt i w.time j = w.ranAt j :=
    fun j hj => Function.update_of_ne hj _ _
  cases how with
  | refuse e =>
      refine h.unreserved i le_rfl (fun _ expiry _ hkey hle _ => ⟨expiry, hkey, hle⟩) rfl hran ?_
      simp [hi, nonceProtocol, Settle.fate]
  | lose e =>
      -- the script has run, and the key it took is nobody's
      refine h.unreserved i le_rfl (lasts_script _ _ rfl) rfl hran ?_
      simp [hi, nonceProtocol, Settle.fate]
  | answer =>
      rcases incrementNonce_spec w.keyExists (getNextPossibleKeys n) with
        ⟨hfull, -⟩ | ⟨slot, key, hkey, hindex, hfree, -⟩
      · refine h.unreserved i le_rfl (lasts_script _ _ rfl) rfl hran ?_
        simp [hi, nonceProtocol, Settle.fate, script_full hfull]
      · have hscript := script_reserve hkey hindex
        obtain ⟨hslot, rfl⟩ := getNextPossibleKeys_get hkey
        have hne : 1 + (slot : ℤ) ≠ -1 := by omega
        refine h.reserve i n slot hslot hfree ?_ rfl rfl ?_ (lasts_script _ _ rfl)
        · simp [hi, nonceProtocol, Settle.fate, hscript, hne]
        · simp [Settle.fate, hscript]

private theorem nonceCalls_keeps :
    nonceCalls.Keeps (fun _ => nonceProtocol) (fun i w => w.course i) (fun _ _ => True) Reserved
      fun _ => Reserved where
  env x P w' _ hJ h := by
    cases x with
    | advance n =>
        obtain rfl := Option.some.inj h
        exact ⟨hJ.ran, hJ.key, hJ.apart⟩
    | tick milliseconds =>
        obtain rfl := Option.some.inj h
        exact ⟨fun i n p hi => (hJ.ran i n p hi).trans (Nat.le_add_right _ _), hJ.key, hJ.apart⟩
    | settle how index => cases h
  launch k i P p w' _ _ hJ h := by
    obtain ⟨-, -, rfl⟩ := launch_course h
    exact hJ.unreserved i le_rfl (fun _ expiry _ hkey hle _ => ⟨expiry, hkey, hle⟩) rfl
      (fun _ _ => rfl) (by simp)
  resume i P s c f _ _ _ hJ := hJ
  act i m w hallow _ := by cases h : w.course i <;> simp [nonceProtocol, h] at hallow
  issue i c w hallow _ := by cases h : w.course i <;> simp [nonceProtocol, h] at hallow
  close i w h := h
  answer i x c k P f w' _ _ hallow hJ h := by
    cases x with
    | settle how index =>
        have hanswer : P.world.answer i how index c = some (f, w') := h
        cases hi : P.world.course i with
        | asking =>
            cases c <;> simp only [nonceProtocol, hi] at hallow
            exact hJ.answerIndex hi hanswer
        | asked n =>
            cases c <;> simp only [nonceProtocol, hi] at hallow
            obtain ⟨rfl, rfl, rfl⟩ := hallow
            exact hJ.answerScript hi hanswer
        | _ => simp [nonceProtocol, hi] at hallow
    | _ => cases h
  crash P _ hJ := hJ

/-! ## Uniqueness -/

/-- Call `i` has returned a nonce. -/
def Returned (P : NoncePool) (i nonce : ℕ) : Prop := P.task i = some (.done nonce)

private theorem nonceCalls_run {ls : List (Label ℕ NonceChoice Unit)} {P : NoncePool}
    (hrun : nonceCalls.run ls NoncePool.init = some P) :
    P.Following (fun _ => nonceProtocol) (fun _ nonce s => s.Returns nonce)
      (fun _ _ s => s = .failed) (fun i w => w.course i) ∧ Reserved P.world :=
  nonceCalls_tracks.run_keeps nonceCalls_keeps (nonceCalls.along_true ls _) (Pool.following_empty _)
    ⟨by simp, by simp, by simp⟩ hrun

/-- An answer that gives a call its index, or tells it that all keys are taken,
adds no key. -/
private theorem answer_keeps {w w' : NonceWorld} {i index : ℕ} {c : Call} {x : NonceChoice}
    {f : Fate Err c.Reply} (hallow : nonceProtocol.allow (w.course i) (.await c))
    (hanswer : nonceCalls.answer i c x w = some (f, w'))
    (hcourse : w'.course i = .asked index ∨ w'.course i = .full index) :
    w'.expiry = w.expiry := by
  rw [answer_course hanswer, Function.update_self] at hcourse
  cases x with
  | settle how answer =>
      cases hi : w.course i with
      | asking =>
          cases c <;> simp only [nonceProtocol, hi] at hallow
          simp only [nonceCalls, NonceWorld.answer, Option.ite_none_right_eq_some,
            Option.some.injEq, Prod.mk.injEq] at hanswer
          obtain ⟨-, -, rfl⟩ := hanswer
          rfl
      | asked n =>
          cases c with
          | incrementNonce keys size expire =>
              simp only [nonceCalls, NonceWorld.answer, Option.some.injEq,
                Prod.mk.injEq] at hanswer
              obtain ⟨rfl, rfl⟩ := hanswer
              simp only [nonceProtocol, hi] at hcourse
              cases how with
              | refuse e => rfl
              | lose e => simp [Settle.fate] at hcourse
              | answer =>
                  have hfull : (w.script keys expire).1 = -1 := by
                    by_contra hne
                    simp [Settle.fate, hne] at hcourse
                  exact script_keeps hfull
          | _ => simp [nonceProtocol, hi] at hallow
      | _ => simp [nonceProtocol, hi] at hallow
  | _ => cases hanswer

/-- **A call that gives up has reserved nothing**: neither of its two answers
adds a key. -/
private theorem reply_keeps {P P' : NoncePool} {i index : ℕ} {x : NonceChoice}
    (hfollowing : P.Following (fun _ => nonceProtocol) (fun _ nonce s => s.Returns nonce)
      (fun _ _ s => s = .failed) fun i w => w.course i)
    (hstep : nonceCalls.step (.reply i x) P = some P')
    (hcourse : P'.world.course i = .asked index ∨ P'.world.course i = .full index) :
    P'.world.expiry = P.world.expiry := by
  simp only [World.step] at hstep
  split at hstep
  · next c k htask =>
    obtain ⟨⟨f, w'⟩, hanswer, rfl⟩ := Option.map_eq_some_iff.mp hstep
    exact answer_keeps (hfollowing.follows i _ htask).1 hanswer hcourse
  · cases hstep

/-- **Calls that read the same index and found a free key return different
nonces** while the reservation of the earlier one stands; and a call that found
no free key reserves nothing and returns the nonce after its fifty, which no
call that read the same index and found one returns. -/
theorem nonce_unique (ls : List (Label ℕ NonceChoice Unit)) (P : NoncePool)
    (hrun : nonceCalls.run ls NoncePool.init = some P) :
    (∀ i j index p q nonce nonce', i ≠ j → Returned P i nonce → Returned P j nonce' →
      P.world.course i = .reserved index p → P.world.course j = .reserved index q →
        P.world.ranAt i ≤ P.world.ranAt j → P.world.ranAt j < P.world.ranAt i + reservationTime →
          nonce ≠ nonce') ∧
      (∀ i index nonce, Returned P i nonce → P.world.course i = .full index →
        nonce = index + NUMBER_OF_NONCE_KEYS_TO_CHECK ∧
          ∀ j q nonce', Returned P j nonce' → P.world.course j = .reserved index q →
            nonce' ≠ nonce) ∧
        ∀ i index x P', nonceCalls.step (.reply i x) P = some P' →
          P'.world.course i = .asked index ∨ P'.world.course i = .full index →
            P'.world.expiry = P.world.expiry := by
  obtain ⟨hfollowing, hreserved⟩ := nonceCalls_run hrun
  have hreturns : ∀ i nonce, Returned P i nonce → (P.world.course i).Returns nonce :=
    fun i nonce hi => hfollowing.follows i _ hi
  refine ⟨fun i j index p q nonce nonce' hij hi hj hp hq hle hlt heq => ?_,
    fun i index nonce hi hfull => ?_, fun i index x P' hstep hcourse =>
      reply_keeps hfollowing hstep hcourse⟩
  · obtain ⟨slot, rfl, -, -⟩ := hreserved.key i index p hp
    obtain ⟨slot', rfl, -, -⟩ := hreserved.key j index q hq
    have hi' := hreturns i nonce hi
    have hj' := hreturns j nonce' hj
    simp only [hp, hq, NonceCourse.Returns] at hi' hj'
    obtain rfl : slot' = slot := by omega
    -- the same nonce is the same position, and the reservations are too far apart for that
    have happart := hreserved.apart i j index _ hij hp hq hle
    omega
  · have hi' := hreturns i nonce hi
    simp only [hfull, NonceCourse.Returns] at hi'
    refine ⟨hi', fun j q nonce' hj hq heq => ?_⟩
    obtain ⟨slot, rfl, hslot, -⟩ := hreserved.key j index q hq
    have hj' := hreturns j nonce' hj
    simp only [hq, NonceCourse.Returns] at hj'
    omega

/-- Call `i` runs to its end with everything answered. -/
def runCall (index i : ℕ) : List (Label ℕ NonceChoice Unit) :=
  [.start () i, .reply i (.settle .answer index), .reply i (.settle .answer index)]

theorem nonce_unique_runCall : ∃ P : NoncePool,
    nonceCalls.run (runCall 0 0 ++ runCall 0 1) NoncePool.init = some P ∧
      ∀ p q nonce nonce', Returned P 0 nonce → Returned P 1 nonce' →
        P.world.course 0 = .reserved 0 p → P.world.course 1 = .reserved 0 q →
          P.world.ranAt 0 ≤ P.world.ranAt 1 →
            P.world.ranAt 1 < P.world.ranAt 0 + reservationTime → nonce ≠ nonce' := by
  obtain ⟨P, hrun⟩ : ∃ P, nonceCalls.run (runCall 0 0 ++ runCall 0 1) NoncePool.init = some P :=
    Option.isSome_iff_exists.mp (by decide +kernel)
  exact ⟨P, hrun, fun p q nonce nonce' => (nonce_unique _ P hrun).1 0 1 0 p q nonce nonce'
    (by decide)⟩

/-- Fifty calls reserve the nonces from 0 to 49, while call 50 has read the
index 0 as well; the index moves to 50, call 51 reserves the nonce 50, and call
50 finds its fifty keys taken. -/
def fullWindow : List (Label ℕ NonceChoice Unit) :=
  (List.range 50).flatMap (runCall 0) ++ [.start () 50, .reply 50 (.settle .answer 0)] ++
    [.env (.advance 50)] ++ runCall 50 51 ++ [.env (.tick 1), .reply 50 (.settle .answer 0)]

theorem nonce_not_unique :
    ¬∀ (ls : List (Label ℕ NonceChoice Unit)) (P : NoncePool),
      nonceCalls.run ls NoncePool.init = some P →
        ∀ i j nonce nonce', i ≠ j → Returned P i nonce → Returned P j nonce' →
          P.world.ranAt i ≤ P.world.ranAt j →
            P.world.ranAt j < P.world.ranAt i + reservationTime → nonce ≠ nonce' := by
  intro h
  have hreturned : (nonceCalls.run fullWindow NoncePool.init).map (fun P =>
      ((P.task 51).bind Prog.value, (P.task 50).bind Prog.value, P.world.ranAt 51,
        P.world.ranAt 50)) = some (some 50, some 50, 0, 1) := by decide +kernel
  obtain ⟨P, hrun, hP⟩ := Option.map_eq_some_iff.mp hreturned
  simp only [Prod.mk.injEq, Option.bind_eq_some_iff, Prog.value_eq_some, exists_eq_right] at hP
  obtain ⟨h51, h50, hran51, hran50⟩ := hP
  refine h fullWindow P hrun 51 50 50 50 (by decide) h51 h50 ?_ ?_ rfl
  · rw [hran51, hran50]
    decide
  · rw [hran51, hran50]
    decide

end AccountService
