import AccountService.NonceReservation

/-!
# The least free nonce

A call of `getNextNonce` looks for the first of its fifty keys that does not
exist.  The key of a nonce is spelled from the index the call has read and the
offset from it, one after the other, so one nonce has a key for every index it
is reached from, and one key stands for several nonces.

The call finds the least free nonce as long as its own keys tell what is
reserved.  That is so among calls that have read the same index, and not in
general: `10 + 1` and `11 + 0` are one nonce with two keys.
-/

namespace AccountService

open Async

/-! ## Reservations -/

/-- A reservation that has not expired: the index its call had read, and the
offset it took. -/
structure Reservation where
  base : ℕ
  offset : ℕ
  offset_lt : offset < NUMBER_OF_NONCE_KEYS_TO_CHECK
  deriving DecidableEq

namespace Reservation

def nonce (r : Reservation) : ℕ := r.base + r.offset

def key (r : Reservation) : String := getNonceKey (indexPlus r.base r.offset)

theorem key_inj_iff {r r' : Reservation} : r.key = r'.key ↔
    Nat.toDigits 10 r.base ++ Nat.toDigits 10 r.offset =
      Nat.toDigits 10 r'.base ++ Nat.toDigits 10 r'.offset := by
  unfold key getNonceKey indexPlus
  rw [← String.toList_inj]
  simp

/-- The key of nonce zero stands for no other. -/
theorem key_eq_zero_iff {r s : Reservation} (hs : s.nonce = 0) : r.key = s.key ↔ r.nonce = 0 := by
  have hsbase : s.base = 0 := by unfold nonce at hs; omega
  have hsoffset : s.offset = 0 := by unfold nonce at hs; omega
  rw [key_inj_iff, hsbase, hsoffset]
  constructor
  · intro h
    have hlength := congrArg List.length h
    have hbase := Nat.length_toDigits_pos (b := 10) (n := r.base)
    have hoffset := Nat.length_toDigits_pos (b := 10) (n := r.offset)
    have hzero : (Nat.toDigits 10 0).length = 1 := rfl
    rw [List.length_append, List.length_append, hzero] at hlength
    -- both numerals have one digit, so they are compared one by one
    obtain ⟨h₁, h₂⟩ := List.append_inj h (by omega)
    have hbase' := congrArg (Nat.ofDigitChars 10 · 0) h₁
    have hoffset' := congrArg (Nat.ofDigitChars 10 · 0) h₂
    simp only [Nat.ofDigitChars_ten_toDigits] at hbase' hoffset'
    unfold nonce
    omega
  · intro h
    unfold nonce at h
    rw [show r.base = 0 by omega, show r.offset = 0 by omega]

/-- Any other nonce has two keys: as an index, and as the nonce after one. -/
theorem key_ne_key {r s : Reservation} (hr : r.offset = 0) (hs : s.offset = 1) :
    r.key ≠ s.key := by
  rw [Ne, key_inj_iff, hr, hs]
  intro h
  have hlast := congrArg List.getLast? h
  rw [List.getLast?_append_of_ne_nil _ (by decide), List.getLast?_append_of_ne_nil _ (by decide)]
    at hlast
  exact absurd hlast (by decide)

end Reservation

/-- The nonces that are reserved. -/
def nonces (rs : List Reservation) : List ℕ := rs.map Reservation.nonce

/-- The keys that exist. -/
def keys (rs : List Reservation) : List String := rs.map Reservation.key

/-! ## One call -/

/-- The chain answers with the index `n`, and the script runs on the keys that
exist, which are the state. -/
def nonceMachine (n : ℕ) : Machine Worker Err (List String) where
  act m w := (m.blank, w)
  answer c w :=
    match c with
    | .accountNextIndex => (.done n, w)
    | .incrementNonce candidates _ _ =>
        match incrementNonce (fun key => decide (key ∈ w)) candidates with
        | .ofNat (slot + 1) => (.done (slot + 1), w ++ candidates[slot]?.toList)
        | position => (.done position, w)
    | _ => (.refused (.error "not part of the call"), w)

theorem nonceMachine_script_full {n size expire : ℕ} {candidates w : List String}
    (h : incrementNonce (fun key => decide (key ∈ w)) candidates = -1) :
    (nonceMachine n).answer (.incrementNonce candidates size expire) w = (.done (-1), w) := by
  simp only [nonceMachine, h]

theorem nonceMachine_script {n size expire slot : ℕ} {key : String} {candidates w : List String}
    (hslot : candidates[slot]? = some key)
    (h : incrementNonce (fun key => decide (key ∈ w)) candidates = 1 + (slot : ℤ)) :
    (nonceMachine n).answer (.incrementNonce candidates size expire) w =
      (.done (1 + (slot : ℤ)), w ++ [key]) := by
  have h' : incrementNonce (fun key => decide (key ∈ w)) candidates = Int.ofNat (slot + 1) := by
    rw [h, Int.ofNat_eq_natCast]
    push_cast
    ring
  simp only [nonceMachine, h', hslot, Option.toList_some, add_comm]

/-- A call that reads the index `n` while the keys of `rs` exist: the nonce it
returns and the keys it leaves. -/
def nextNonce (n : ℕ) (rs : List Reservation) : Outcome Err ℕ × List String :=
  getNextNonce.exec (nonceMachine n) (keys rs)

/-- The key of the `i`-th nonce after the index `n`. -/
def candidate (n i : ℕ) : String := getNonceKey (indexPlus n i)

/-- A call takes the first of its keys that does not exist. -/
theorem nextNonce_spec (n : ℕ) (rs : List Reservation) :
    (nextNonce n rs = (.returned (n + NUMBER_OF_NONCE_KEYS_TO_CHECK), keys rs) ∧
      ∀ i < NUMBER_OF_NONCE_KEYS_TO_CHECK, candidate n i ∈ keys rs) ∨
    ∃ slot < NUMBER_OF_NONCE_KEYS_TO_CHECK,
      nextNonce n rs = (.returned (n + slot), keys rs ++ [candidate n slot]) ∧
        candidate n slot ∉ keys rs ∧ ∀ i < slot, candidate n i ∈ keys rs := by
  have hcandidates : ∀ i < NUMBER_OF_NONCE_KEYS_TO_CHECK,
      (getNextPossibleKeys n)[i]? = some (candidate n i) := by
    intro i hi
    rw [getNextPossibleKeys, List.getElem?_map, List.getElem?_range hi]
    rfl
  rcases incrementNonce_spec (fun key => decide (key ∈ keys rs)) (getNextPossibleKeys n) with
    ⟨hnone, hall⟩ | ⟨slot, key, hslot, hindex, hfree, htaken⟩
  · refine .inl ⟨?_, fun i hi => ?_⟩
    · have hindex' : (nonceMachine n).answer .accountNextIndex (keys rs) = (.done n, keys rs) := rfl
      simp [nextNonce, getNextNonce, hindex', nonceMachine_script_full hnone]
    · simpa using hall _ (List.mem_of_getElem? (hcandidates i hi))
  · obtain ⟨hlt, rfl⟩ := getNextPossibleKeys_get hslot
    refine .inr ⟨slot, hlt, ?_, by simpa [candidate] using hfree, fun i hi => ?_⟩
    · have hpositive : 1 + (slot : ℤ) ≠ -1 := by omega
      have hnonce : ((n : ℤ) + (1 + slot)).toNat - 1 = n + slot := by omega
      have hindex' : (nonceMachine n).answer .accountNextIndex (keys rs) = (.done n, keys rs) := rfl
      simp [nextNonce, getNextNonce, hindex', nonceMachine_script hslot hindex, candidate,
        hpositive, hnonce]
    · simpa using htaken i hi _ (hcandidates i (hi.trans hlt))

/-- The least nonce from `n` on that is not reserved. -/
structure IsLeastFree (n : ℕ) (rs : List Reservation) (v : ℕ) : Prop where
  le : n ≤ v
  lt : v < n + NUMBER_OF_NONCE_KEYS_TO_CHECK
  free : v ∉ nonces rs
  least : ∀ m, n ≤ m → m < v → m ∈ nonces rs

/-- The reservation a call makes that reads the index `n` and takes the nonce
`v`. -/
def IsLeastFree.reservation {n : ℕ} {rs : List Reservation} {v : ℕ} (h : IsLeastFree n rs v) :
    Reservation :=
  ⟨n, v - n, by have := h.le; have := h.lt; omega⟩

theorem IsLeastFree.key_reservation {n : ℕ} {rs : List Reservation} {v : ℕ}
    (h : IsLeastFree n rs v) : h.reservation.key = candidate n (v - n) := rfl

theorem IsLeastFree.nonce_reservation {n : ℕ} {rs : List Reservation} {v : ℕ}
    (h : IsLeastFree n rs v) : h.reservation.nonce = v := by
  exact Nat.add_sub_cancel' h.le

/-- The keys of the call tell what is reserved, up to the nonce `v`. -/
def Tells (n : ℕ) (rs : List Reservation) (v : ℕ) : Prop :=
  ∀ i, n + i ≤ v → (candidate n i ∈ keys rs ↔ n + i ∈ nonces rs)

/-- The call returns the least free nonce exactly if its keys tell what is
reserved up to there. -/
theorem nextNonce_eq_iff {n : ℕ} {rs : List Reservation} {v : ℕ} (h : IsLeastFree n rs v) :
    nextNonce n rs = (.returned v, keys (rs ++ [h.reservation])) ↔ Tells n rs v := by
  have hle := h.le
  have hlt := h.lt
  have hkeys : keys (rs ++ [h.reservation]) = keys rs ++ [candidate n (v - n)] := by
    rw [keys, List.map_append]
    rfl
  rcases nextNonce_spec n rs with ⟨hnext, hall⟩ | ⟨slot, hslot, hnext, hfree, htaken⟩
  · -- every key exists, that of the free nonce too
    constructor
    · intro heq
      rw [hnext] at heq
      have hv := congrArg Prod.fst heq
      simp only [Outcome.returned.injEq] at hv
      omega
    · intro htells
      have hreserved := (htells (v - n) (by omega)).mp (hall (v - n) (by omega))
      rw [Nat.add_sub_cancel' hle] at hreserved
      exact absurd hreserved h.free
  · constructor
    · intro heq i hi
      rw [hnext] at heq
      have hv := congrArg Prod.fst heq
      simp only [Outcome.returned.injEq] at hv
      by_cases hi' : n + i = v
      · have hslot' : i = slot := by omega
        rw [hslot']
        constructor
        · exact fun hmem => absurd hmem hfree
        · exact fun hmem => absurd (hv ▸ hmem) h.free
      · constructor
        · exact fun _ => h.least (n + i) (by omega) (by omega)
        · exact fun _ => htaken i (by omega)
    · intro htells
      -- before the free nonce every key exists, and its own does not
      have hslot' : n + slot = v := by
        rcases Nat.lt_trichotomy (n + slot) v with hbelow | hv | habove
        · have hreserved := h.least (n + slot) (by omega) hbelow
          exact absurd ((htells slot (by omega)).mpr hreserved) hfree
        · exact hv
        · have hreserved := (htells (v - n) (by omega)).mp (htaken (v - n) (by omega))
          rw [Nat.add_sub_cancel' hle] at hreserved
          exact absurd hreserved h.free
      rw [hnext, hkeys, ← hslot', Nat.add_sub_cancel_left]

/-- The key of the call stands for its nonce alone, and its nonce has no other
key, exactly if the nonce is zero. -/
theorem identifies_iff {n : ℕ} {rs : List Reservation} {v : ℕ} (h : IsLeastFree n rs v) :
    (∀ r : Reservation, r.key = h.reservation.key ↔ r.nonce = v) ↔ v = 0 := by
  constructor
  · intro hidentifies
    by_contra hv
    have hzero := (hidentifies ⟨v, 0, by decide⟩).mpr rfl
    have hone := (hidentifies ⟨v - 1, 1, by decide⟩).mpr (Nat.sub_add_cancel (by omega))
    exact Reservation.key_ne_key rfl rfl (hzero.trans hone.symm)
  · intro hv r
    rw [Reservation.key_eq_zero_iff (h.nonce_reservation.trans hv), hv]

/-! ## Least free nonces -/

/-- The call returns the least free nonce `v` and reserves it and nothing else,
under a key that identifies it. -/
structure ReservesLeast (n : ℕ) (rs : List Reservation) (v : ℕ) (h : IsLeastFree n rs v) :
    Prop where
  returned : nextNonce n rs = (.returned v, keys (rs ++ [h.reservation]))
  identified : ∀ r : Reservation, r.key = h.reservation.key ↔ r.nonce = v

/-- The keys of a call tell whether the nonce zero is reserved. -/
theorem tells_zero {n : ℕ} {rs : List Reservation} (h : IsLeastFree n rs 0) : Tells n rs 0 := by
  have hle := h.le
  intro i hi
  have hkey : candidate n i = h.reservation.key := by
    rw [h.key_reservation, show i = 0 - n by omega]
  rw [hkey, keys, nonces, List.mem_map, List.mem_map, show n + i = 0 by omega]
  simp only [Reservation.key_eq_zero_iff h.nonce_reservation]

/-- **Least free nonce.**  A call reserves the least free nonce under a key that
identifies it exactly if that nonce is zero.  It returns the least free nonce,
and reserves it and nothing else, exactly if its keys tell what is reserved up
to there. -/
theorem reservesLeast_iff (n : ℕ) (rs : List Reservation) :
    ((∀ v (h : IsLeastFree n rs v), ReservesLeast n rs v h) ↔ ∀ v, IsLeastFree n rs v → v = 0) ∧
      ∀ v (h : IsLeastFree n rs v),
        nextNonce n rs = (.returned v, keys (rs ++ [h.reservation])) ↔ Tells n rs v := by
  refine ⟨⟨fun hreserves v h => ?_, fun hzero v h => ?_⟩, fun v h => nextNonce_eq_iff h⟩
  · exact (identifies_iff h).mp (hreserves v h).identified
  · obtain rfl := hzero v h
    exact ⟨(nextNonce_eq_iff h).mpr (tells_zero h), (identifies_iff h).mpr rfl⟩

/-- Two calls that had read the index ten, and have the nonces ten and eleven. -/
def twoAfterTen : List Reservation := [⟨10, 0, by decide⟩, ⟨10, 1, by decide⟩]

/-- A call that reads the index eleven next is given the nonce eleven again:
its key is that of `11 + 0`, and the nonce was reserved as `10 + 1`. -/
theorem not_reservesLeast : ∃ h : IsLeastFree 11 twoAfterTen 12,
    (nextNonce 11 twoAfterTen).1 = .returned 11 ∧ ¬ ReservesLeast 11 twoAfterTen 12 h := by
  have hleast : IsLeastFree 11 twoAfterTen 12 := by
    refine ⟨by decide, by decide, by decide, fun m hle hlt => ?_⟩
    obtain rfl : m = 11 := by omega
    decide
  have hnext : (nextNonce 11 twoAfterTen).1 = .returned 11 := by decide +kernel
  refine ⟨hleast, hnext, fun h => ?_⟩
  rw [h.returned] at hnext
  exact absurd (Outcome.returned.inj hnext) (by decide)

end AccountService
