import AccountService.Chain
import AccountService.Json
import AccountService.Notifier
import AccountService.WebhookCallback

/-!
# The texts of the watch list

Redis keeps the watch list as a hash of texts: an entry is written as JSON under
the hexadecimal text of its hash, and is read, removed and compared by texts.
Which entries the scanner finds, removes and starts from is read off the texts,
in whatever order Redis gives them.

So the texts refine the list of entries that the rest of the model works with:
what is written and removed leaves the texts of the same entries, and what is
worked out from the texts is what is worked out from the entries.
-/

namespace AccountService

open Async JavaScript Json

/-! ## A hash -/

/-- `toHex()` of a hash: at least 64 digits after the prefix. -/
def toHex (txHash : Hash) : String :=
  String.ofList ('0' :: 'x' :: (Nat.toDigits 16 txHash).leftpad 64 '0')

/-- The hash that a text stands for. -/
def ofHex (s : String) : Option Hash :=
  match s.toList with
  | '0' :: 'x' :: cs => readDigits 16 0 cs
  | _ => none

private theorem readDigits_zeros (n : ℕ) (cs : List Char) :
    readDigits 16 0 (List.replicate n '0' ++ cs) = readDigits 16 0 cs := by
  induction n with
  | zero => rfl
  | succ n ih => exact ih

/-- A hash is read from its text. -/
theorem ofHex_toHex (txHash : Hash) : ofHex (toHex txHash) = some txHash := by
  rw [ofHex, toHex, String.toList_ofList]
  show readDigits 16 0 ((Nat.toDigits 16 txHash).leftpad 64 '0') = _
  rw [List.leftpad, readDigits_zeros]
  exact readDigits_toDigits_of_le (by decide) (by decide) txHash

theorem toHex_injective : Function.Injective toHex := by
  intro txHash txHash' h
  have hread := ofHex_toHex txHash
  rw [h, ofHex_toHex] at hread
  exact (Option.some.inj hread).symm

/-! ## An entry -/

/-- The type that a name on the wire stands for. -/
def TransactionType.ofWireName (name : String) : Option TransactionType :=
  [changeHandle, createHandle, siwfSignup, siwfSignin, addKey].find? fun type =>
    type.wireName = name

theorem TransactionType.ofWireName_wireName (type : TransactionType) :
    ofWireName type.wireName = some type := by
  cases type <;> decide

/-- The members of a success event. -/
def EventName.object (event : EventName) : Object where
  members := [("section", string event.sectionName), ("method", string event.method)]
  wellFormed := ⟨show (["section", "method"] : List String).Nodup by decide, trivial, trivial, trivial⟩

def EventName.ofObject (event : Object) : Option EventName := do
  return { sectionName := ← event.getString "section", method := ← event.getString "method" }

/-- The entry `process` writes. -/
def ITxStatus.object (status : ITxStatus) : Object where
  members :=
    [("type", string status.type.wireName), ("referenceId", string status.referenceId),
      ("providerId", string status.providerId), ("txHash", string (toHex status.txHash)),
      ("successEvent", Json.object status.successEvent.object.members),
      ("birth", number status.birth), ("death", number status.death)]
  wellFormed :=
    ⟨show (["type", "referenceId", "providerId", "txHash", "successEvent", "birth", "death"] :
        List String).Nodup by decide,
      trivial, trivial, trivial, trivial, status.successEvent.object.wellFormed, trivial, trivial,
      trivial⟩

/-- `JSON.stringify(status)` -/
def ITxStatus.text (status : ITxStatus) : String := status.object.text

def ITxStatus.ofObject (status : Object) : Option ITxStatus := do
  let successEvent ← status.getObject "successEvent"
  return {
    type := ← (← status.getString "type") |> TransactionType.ofWireName
    referenceId := ← status.getString "referenceId"
    providerId := ← status.getString "providerId"
    txHash := ← (← status.getString "txHash") |> ofHex
    successEvent := ← EventName.ofObject successEvent
    birth := ← status.getNatural "birth"
    death := ← status.getNatural "death" }

/-- `JSON.parse(text) as ITxStatus`, as far as its members are used. -/
def ITxStatus.ofText (text : String) : Option ITxStatus :=
  (Object.ofText text).bind ITxStatus.ofObject

theorem EventName.ofObject_object (event : EventName) : ofObject event.object = some event := rfl

/-- **An entry is read from its text.** -/
theorem ITxStatus.ofText_text (status : ITxStatus) : ofText status.text = some status := by
  have htype : status.object.getString "type" = some status.type.wireName := rfl
  have htxHash : status.object.getString "txHash" = some (toHex status.txHash) := rfl
  have hevent : status.object.getObject "successEvent" = some status.successEvent.object :=
    Object.getObject_eq_some.mpr rfl
  have hreferenceId : status.object.getString "referenceId" = some status.referenceId := rfl
  have hproviderId : status.object.getString "providerId" = some status.providerId := rfl
  have hbirth : status.object.getNatural "birth" = some status.birth := rfl
  have hdeath : status.object.getNatural "death" = some status.death := rfl
  rw [ofText, text, Object.ofText_text, Option.bind_some, ofObject, htype, hreferenceId,
    hproviderId, htxHash, hevent, hbirth, hdeath]
  simp [TransactionType.ofWireName_wireName, ofHex_toHex, EventName.ofObject_object]

/-! ## The hash of texts -/

/-- A hash of Redis: texts under their fields. -/
structure RedisHash where
  entries : List (String × String)
  keyed : (entries.map Prod.fst).Nodup

namespace RedisHash

def empty : RedisHash := ⟨[], List.nodup_nil⟩

/-- `HSET` of one field. -/
def hset (h : RedisHash) (field value : String) : RedisHash :=
  ⟨Json.set h.entries field value, nodup_set h.keyed⟩

/-- `HDEL` of some fields. -/
def hdel (h : RedisHash) (fields : List String) : RedisHash where
  entries := h.entries.filter fun m => m.1 ∉ fields
  keyed := (List.filter_sublist.map Prod.fst).nodup h.keyed

def hget (h : RedisHash) (field : String) : Option String := Json.get h.entries field

def hvals (h : RedisHash) : List String := h.entries.map Prod.snd

def hkeys (h : RedisHash) : List String := h.entries.map Prod.fst

def hlen (h : RedisHash) : ℕ := h.entries.length

/-- The hash holds the texts of the entries of a watch list, in any order. -/
def Holds (h : RedisHash) (w : WatchList) : Prop :=
  h.entries.Perm (w.map fun t => (toHex t.txHash, t.text))

variable {h : RedisHash} {w : WatchList} {txHash : Hash}

/-- No hash is on the list twice. -/
theorem Holds.keyed (hholds : h.Holds w) : (w.map ITxStatus.txHash).Nodup := by
  have hnodup := (hholds.map Prod.fst).nodup_iff.mp h.keyed
  rw [List.map_map] at hnodup
  refine List.Nodup.of_map toHex ?_
  rwa [List.map_map]

/-- **A write leaves the texts of the list with its entry.** -/
theorem Holds.hset (hholds : h.Holds w) (status : ITxStatus) :
    (h.hset (toHex status.txHash) status.text).Holds (w.hset status) := by
  refine (set_perm h.keyed).trans ?_
  rw [WatchList.hset, List.map_append, List.map_singleton]
  refine List.Perm.append_right _ ((List.Perm.filter _ hholds).trans ?_)
  rw [List.filter_map]
  refine (List.Perm.of_eq (congrArg _ (List.filter_congr fun t _ => ?_)))
  simp [toHex_injective.eq_iff]

/-- **A removal leaves the texts of what is left.** -/
theorem Holds.hdel (hholds : h.Holds w) (hdels : List Hash) :
    (h.hdel (hdels.map toHex)).Holds (w.hdel hdels) := by
  refine (List.Perm.filter _ hholds).trans ?_
  rw [List.filter_map]
  refine (List.Perm.of_eq (congrArg _ (List.filter_congr fun t _ => ?_)))
  show decide (toHex t.txHash ∉ hdels.map toHex) = decide (t.txHash ∉ hdels)
  rw [decide_eq_decide, List.mem_map_of_injective toHex_injective]

/-- The text under a hash is that of its entry. -/
theorem Holds.hget (hholds : h.Holds w) (txHash : Hash) :
    h.hget (toHex txHash) = (w.hget txHash).map ITxStatus.text := by
  refine Option.ext fun value => ?_
  rw [RedisHash.hget, get_eq_some_iff h.keyed, hholds.mem_iff, List.mem_map, Option.map_eq_some_iff]
  refine exists_congr fun t => ?_
  rw [Prod.mk.injEq, toHex_injective.eq_iff, ← and_assoc]
  refine and_congr_left fun _ => ?_
  constructor
  · rintro ⟨ht, rfl⟩
    exact WatchList.hget_of_mem hholds.keyed ht
  · exact WatchList.mem_of_hget

/-- The texts are those of the entries. -/
theorem Holds.hvals (hholds : h.Holds w) :
    h.hvals.Perm (w.map ITxStatus.text) := by
  have hperm := hholds.map Prod.snd
  rwa [List.map_map] at hperm

/-- The entries that are read from the texts of a list are its entries. -/
theorem Holds.pending (hholds : h.Holds w) : ∃ pending : List ITxStatus,
    h.hvals.map ITxStatus.ofText = pending.map some ∧ pending.Perm w := by
  have hparsed : ∀ texts : List String, (∀ s ∈ texts, ∃ t, ITxStatus.ofText s = some t) →
      texts.map ITxStatus.ofText = (texts.filterMap ITxStatus.ofText).map some := by
    intro texts hall
    induction texts with
    | nil => rfl
    | cons s texts ih =>
        rw [List.forall_mem_cons] at hall
        obtain ⟨⟨t, ht⟩, hrest⟩ := hall
        rw [List.map_cons, List.filterMap_cons_some ht, List.map_cons, ht, ih hrest]
  have hread : (w.map ITxStatus.text).filterMap ITxStatus.ofText = w := by
    rw [List.filterMap_map]
    have hsome : ITxStatus.ofText ∘ ITxStatus.text = some := by
      funext t
      rw [Function.comp_apply, ITxStatus.ofText_text]
    rw [hsome, List.filterMap_some]
  refine ⟨h.hvals.filterMap ITxStatus.ofText, hparsed _ fun s hs => ?_, ?_⟩
  · obtain ⟨t, -, rfl⟩ := List.mem_map.mp (hholds.hvals.mem_iff.mp hs)
    exact ⟨t, t.ofText_text⟩
  · have hperm := hholds.hvals.filterMap ITxStatus.ofText
    rwa [hread] at hperm

end RedisHash

/-! ## What is read off the texts -/

/-- A command that changes the watch list. -/
inductive WatchCommand where
  | hset (status : ITxStatus)
  | hdel (hdels : List Hash)

/-- What a command does to the texts. -/
def RedisHash.carryOut (h : RedisHash) : WatchCommand → RedisHash
  | .hset status => h.hset (toHex status.txHash) status.text
  | .hdel hdels => h.hdel (hdels.map toHex)

/-- What a command does to the entries. -/
def WatchList.carryOut (w : WatchList) : WatchCommand → WatchList
  | .hset status => w.hset status
  | .hdel hdels => w.hdel hdels

/-- Whatever is written and removed, the texts are those of the entries. -/
theorem RedisHash.Holds.carryOut {h : RedisHash} {w : WatchList} (hholds : h.Holds w)
    (commands : List WatchCommand) :
    (commands.foldl RedisHash.carryOut h).Holds (commands.foldl WatchList.carryOut w) := by
  induction commands generalizing h w with
  | nil => exact hholds
  | cons command commands ih =>
      cases command with
      | hset status => exact ih (hholds.hset status)
      | hdel hdels => exact ih (hholds.hdel hdels)

/-- The scanner reads off the texts what it would read off the entries: the same
entry under every hash, as many of them, and in some order all of them, of which
it finds the same in every block, and the same have expired by every height, and
from which it starts at the same block. -/
structure RedisHash.ReadsAs (h : RedisHash) (w : WatchList) : Prop where
  hget : ∀ txHash, (h.hget (toHex txHash)).map ITxStatus.ofText = (w.hget txHash).map some
  hkeys : h.hkeys.Perm (w.map fun t => toHex t.txHash)
  hlen : h.hlen = w.length
  hvals : ∃ pending : List ITxStatus, h.hvals.map ITxStatus.ofText = pending.map some ∧
    (∀ extrinsics, extrinsicIndices pending extrinsics = extrinsicIndices w extrinsics) ∧
      (∀ n, (expiredTxns pending n).Perm (expiredTxns w n)) ∧
        ∀ b, TxnNotifierService.startingBlock b pending = TxnNotifierService.startingBlock b w

section Order

variable {pending w : List ITxStatus}

/-- What is found in a block does not depend on the order of the list. -/
private theorem extrinsicIndices_perm (h : pending.Perm w) (extrinsics : List Hash) :
    extrinsicIndices pending extrinsics = extrinsicIndices w extrinsics :=
  List.filter_congr fun _ _ => h.any_eq

/-- Nor does the block to start from. -/
private theorem startingBlock_perm (h : pending.Perm w) (b : ℕ) :
    TxnNotifierService.startingBlock b pending = TxnNotifierService.startingBlock b w := by
  have hmin : (pending.map ITxStatus.birth).min? = (w.map ITxStatus.birth).min? := by
    refine Option.ext fun oldest => ?_
    simp only [List.min?_eq_some_iff, (h.map ITxStatus.birth).mem_iff]
  rw [TxnNotifierService.startingBlock, hmin, TxnNotifierService.startingBlock]

end Order

/-- **The texts refine the entries.**  After any writes and removals, from an
empty hash on, the scanner reads off the texts what the list of entries has. -/
theorem watchTexts_refine (commands : List WatchCommand) :
    (commands.foldl RedisHash.carryOut .empty).ReadsAs (commands.foldl WatchList.carryOut []) := by
  have hempty : RedisHash.empty.Holds [] := List.Perm.nil
  have hholds := hempty.carryOut commands
  obtain ⟨pending, hpending, hperm⟩ := hholds.pending
  constructor
  · intro txHash
    rw [hholds.hget, Option.map_map]
    refine congrArg (fun f => Option.map f _) (funext fun t => ?_)
    rw [Function.comp_apply, ITxStatus.ofText_text]
  · have hkeys := hholds.map Prod.fst
    rwa [List.map_map] at hkeys
  · rw [RedisHash.hlen, hholds.length_eq, List.length_map]
  · exact ⟨pending, hpending, extrinsicIndices_perm hperm,
      fun n => (hperm.filter _).map ITxStatus.txHash, startingBlock_perm hperm⟩

end AccountService
