import AccountService.Types
import Mathlib.Data.List.Nodup

/-!
# The chain and the watch list

What the notifier reads: the canonical chain, block by block, and the hash
`txnWatchList` in Redis.

A `Chain` carries the facts about block hashes that the scanner rests on: no
block has the empty hash, which the node gives for a height it does not have,
and no two blocks have the same hash, so that the block read by hash is the
block at the height asked for.
-/

namespace AccountService

/-! ## The chain -/

/-- A block: its hash, the epoch it lies in, its extrinsics in order and the
events it deposited. -/
structure Block where
  hash : BlockHash
  epoch : ℕ
  extrinsics : List Hash
  events : List EventRecord
  deriving DecidableEq

/-- The canonical chain from block `0` on. -/
structure Chain where
  blocks : List Block
  nonempty : ∀ b ∈ blocks, b.hash ≠ 0
  distinct : (blocks.map Block.hash).Nodup

namespace Chain

variable (chain : Chain)

/-- The hash of the block at a height. -/
def hashAt (n : ℕ) : BlockHash := (chain.blocks[n]?.map Block.hash).getD 0

/-- The block with a hash. -/
def find (h : BlockHash) : Option Block := chain.blocks.find? fun b => b.hash = h

/-- The chain with one more block. -/
def push (b : Block) (hb : b.hash ≠ 0) (hnew : b.hash ∉ chain.blocks.map Block.hash) : Chain where
  blocks := chain.blocks ++ [b]
  nonempty := by
    intro c hc
    rcases List.mem_append.mp hc with hc | hc
    · exact chain.nonempty c hc
    · rwa [List.mem_singleton.mp hc]
  distinct := by
    rw [List.map_append, List.map_singleton]
    exact List.nodup_append'.mpr ⟨chain.distinct, List.nodup_singleton _, by simpa using hnew⟩

theorem hashAt_of_get {n : ℕ} {b : Block} (h : chain.blocks[n]? = some b) :
    chain.hashAt n = b.hash := by
  simp [hashAt, h]

theorem hashAt_ne_zero {n : ℕ} {b : Block} (h : chain.blocks[n]? = some b) :
    chain.hashAt n ≠ 0 := by
  rw [chain.hashAt_of_get h]
  exact chain.nonempty b (List.mem_of_getElem? h)

/-- Every block is found by its own hash. -/
theorem find_hash {n : ℕ} {b : Block} (h : chain.blocks[n]? = some b) :
    chain.find b.hash = some b := by
  have hmem := List.mem_of_getElem? h
  obtain ⟨c, hc⟩ : ∃ c, chain.find b.hash = some c :=
    Option.isSome_iff_exists.mp (List.find?_isSome.mpr ⟨b, hmem, by simp⟩)
  have hhash : c.hash = b.hash := by simpa using List.find?_some hc
  have hcb := List.inj_on_of_nodup_map chain.distinct (List.mem_of_find?_eq_some hc) hmem hhash
  rw [hc, hcb]

end Chain

/-! ## The watch list -/

/-- The entries of the watch list.  The publisher stores an entry under the
hash the entry holds, so the field is read off the entry. -/
abbrev WatchList := List ITxStatus

namespace WatchList

/-- `HSET` of one entry. -/
def hset (status : ITxStatus) (w : WatchList) : WatchList :=
  w.filter (fun t => t.txHash ≠ status.txHash) ++ [status]

/-- `HGET` -/
def hget (txHash : Hash) (w : WatchList) : Option ITxStatus := w.find? fun t => t.txHash = txHash

/-- A pipeline of `HDEL`s. -/
def hdel (hdels : List Hash) (w : WatchList) : WatchList := w.filter fun t => t.txHash ∉ hdels

variable {w : WatchList} {status t : ITxStatus} {hdels : List Hash} {txHash : Hash}

@[simp] theorem mem_hset :
    t ∈ w.hset status ↔ (t ∈ w ∧ t.txHash ≠ status.txHash) ∨ t = status := by
  simp [hset]

@[simp] theorem mem_hdel : t ∈ w.hdel hdels ↔ t ∈ w ∧ t.txHash ∉ hdels := by
  simp [hdel]

theorem hget_isSome (h : ∃ t ∈ w, t.txHash = txHash) : ∃ t, w.hget txHash = some t := by
  obtain ⟨t, ht, heq⟩ := h
  exact Option.isSome_iff_exists.mp (List.find?_isSome.mpr ⟨t, ht, by simpa using heq⟩)

theorem mem_of_hget (h : w.hget txHash = some t) : t ∈ w ∧ t.txHash = txHash :=
  ⟨List.mem_of_find?_eq_some h, by simpa using List.find?_some h⟩

theorem hget_of_mem (hkeyed : (w.map ITxStatus.txHash).Nodup) (ht : t ∈ w) :
    w.hget t.txHash = some t := by
  obtain ⟨s, hs⟩ := hget_isSome ⟨t, ht, rfl⟩
  obtain ⟨hmem, hhash⟩ := mem_of_hget hs
  rw [hs, List.inj_on_of_nodup_map hkeyed hmem ht hhash]

end WatchList

end AccountService
