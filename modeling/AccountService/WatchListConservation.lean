import AccountService.Notifier
import Mathlib.Data.List.Nodup

/-!
# What a pass removes from the watch list

A pass over a block while others write to the watch list and any of its calls
may fail.  The removals are collected in a pipeline from two loops over the
list as it was read, and executed at once at the end; so what has been added
since stays, and where the pass ends before, everything does.
-/

namespace AccountService

open Async

/-! ## The watch list -/

/-- The hash `txnWatchList`: entries under their transaction hashes. -/
structure TxnWatchList where
  entries : List ITxStatus
  keyed : (entries.map ITxStatus.txHash).Nodup

namespace TxnWatchList

/-- The entry under a hash. -/
def get (t : TxnWatchList) (txHash : Hash) : Option ITxStatus :=
  t.entries.find? fun status => status.txHash = txHash

/-- Add an entry under a hash that has none. -/
def add (t : TxnWatchList) (status : ITxStatus)
    (h : status.txHash ∉ t.entries.map ITxStatus.txHash) : TxnWatchList where
  entries := t.entries ++ [status]
  keyed := by
    rw [List.map_append, List.map_singleton, List.nodup_append]
    refine ⟨t.keyed, by simp, fun a ha b hb => ?_⟩
    rw [List.mem_singleton.mp hb]
    exact fun heq => h (heq ▸ ha)

/-- `HDEL` of some hashes. -/
def remove (t : TxnWatchList) (hdels : List Hash) : TxnWatchList where
  entries := t.entries.filter fun status => status.txHash ∉ hdels
  keyed := (List.filter_sublist.map ITxStatus.txHash).nodup t.keyed

end TxnWatchList

/-! ## A pass among others -/

/-- What surrounds a pass: the extrinsics of its block, what other calls are
answered, how each call settles, and the entries that are written before it. -/
structure PassSurroundings where
  extrinsics : List Hash
  reply : ℕ → (c : Call) → c.Reply
  settle : ℕ → Settle Err
  arrivals : ℕ → List ITxStatus

/-- The watch list, with a record of the number of calls made, of the entries
the pass has read, of those added since, and of whether the pipeline has been
executed. -/
structure PassWorld where
  list : TxnWatchList
  calls : ℕ := 0
  read : Option (List ITxStatus) := none
  added : List ITxStatus := []
  executed : Bool := false

namespace PassWorld

/-- Another party writes an entry.  Arrivals are under new hashes: a write for an
extrinsic that has an entry is left out, for it adds none. -/
def arrive (w : PassWorld) (status : ITxStatus) : PassWorld :=
  if h : status.txHash ∈ w.list.entries.map ITxStatus.txHash then w
  else { w with list := w.list.add status h, added := w.added ++ [status] }

/-- What Redis and the node answer. -/
def answers (around : PassSurroundings) (w : PassWorld) : (c : Call) → c.Reply
  | .hvals _ => w.list.entries
  | .hget txHash => w.list.get txHash
  | .getBlock _ => around.extrinsics
  | c => around.reply w.calls c

/-- What a call of the pass does to the watch list. -/
def carryOut (w : PassWorld) : Call → PassWorld
  | .hvals _ => { w with read := some w.list.entries, added := [] }
  | .exec hdels => { w with list := w.list.remove hdels, executed := true }
  | _ => w

end PassWorld

/-- Before each call entries may arrive; then it settles one way or another. -/
def passMachine (around : PassSurroundings) : Machine Worker Err PassWorld where
  act m w := (m.blank, w)
  answer c w :=
    let w₁ := { (around.arrivals w.calls).foldl PassWorld.arrive w with calls := w.calls + 1 }
    let f := (around.settle w.calls).fate (w₁.answers around c)
    (f, if f.effect.isSome then w₁.carryOut c else w₁)

/-! ## Entries that arrive -/

/-- Between `w` and `w'` entries have arrived, and nothing else has happened to
the watch list. -/
structure Grown (w w' : PassWorld) : Prop where
  entries : ∃ more, w'.list.entries = w.list.entries ++ more ∧ w'.added = w.added ++ more
  read : w'.read = w.read
  executed : w'.executed = w.executed

namespace Grown

variable {w w' w'' : PassWorld}

theorem refl (w : PassWorld) : Grown w w := ⟨⟨[], by simp, by simp⟩, rfl, rfl⟩

theorem trans (h : Grown w w') (h' : Grown w' w'') : Grown w w'' := by
  obtain ⟨more, hentries, hadded⟩ := h.entries
  obtain ⟨more', hentries', hadded'⟩ := h'.entries
  refine ⟨⟨more ++ more', ?_, ?_⟩, h'.read.trans h.read, h'.executed.trans h.executed⟩
  · rw [hentries', hentries, List.append_assoc]
  · rw [hadded', hadded, List.append_assoc]

theorem arrive (w : PassWorld) (status : ITxStatus) : Grown w (w.arrive status) := by
  unfold PassWorld.arrive
  split
  · exact refl w
  · exact ⟨⟨[status], rfl, rfl⟩, rfl, rfl⟩

theorem arrivals (arrivals : List ITxStatus) :
    ∀ w : PassWorld, Grown w (arrivals.foldl PassWorld.arrive w) := by
  induction arrivals with
  | nil => exact refl
  | cons status arrivals ih => exact fun w => (arrive w status).trans (ih (w.arrive status))

theorem prefix_entries (h : Grown w w') : w.list.entries <+: w'.list.entries := by
  obtain ⟨more, hentries, -⟩ := h.entries
  exact ⟨more, hentries.symm⟩

end Grown

section Conservation

variable {configService : ConfigService} {registry : Registry} (around : PassSurroundings)

/-- Before a call takes effect the list has only grown. -/
theorem passMachine_answer (c : Call) (w : PassWorld) : ∃ w₁, Grown w w₁ ∧
    ∃ f : Fate Err c.Reply, (∀ reply, f.effect = some reply → reply = w₁.answers around c) ∧
      (passMachine around).answer c w = (f, if f.effect.isSome then w₁.carryOut c else w₁) := by
  have hgrown := Grown.arrivals (around.arrivals w.calls) w
  refine ⟨{ (around.arrivals w.calls).foldl PassWorld.arrive w with calls := w.calls + 1 },
    ⟨hgrown.entries, hgrown.read, hgrown.executed⟩, _, fun reply => Settle.fate_effect, rfl⟩

/-- Reading and posting leaves the list to others. -/
private theorem passMachine_tracks (w₀ : PassWorld) :
    (passMachine around).Tracks (Protocol.only ofNotification) fun w _ => Grown w₀ w where
  act l w s _ h := h
  issue c w s hallow _ := by cases hallow
  answer c w s hallow h := by
    obtain ⟨w₁, hgrown, f, -, hanswer⟩ := passMachine_answer around c w
    have hspared : w₁.carryOut c = w₁ := by
      cases c <;> first | rfl | cases hallow
    rw [hanswer, hspared, ite_self]
    exact h.trans hgrown

/-- Of the entries that were read, the pipeline removes those of extrinsics of
the block and those that have expired. -/
theorem mem_pipeline_iff {W : List ITxStatus} (hkeyed : (W.map ITxStatus.txHash).Nodup)
    (extrinsics : List Hash) (n : ℕ) {t : ITxStatus} (ht : t ∈ W) :
    t.txHash ∈ (extrinsicIndices W extrinsics).map Prod.fst ++ expiredTxns W n ↔
      t.txHash ∈ extrinsics ∨ t.death ≤ n := by
  rw [List.mem_append]
  refine or_congr ?_ ?_
  · rw [List.mem_map]
    constructor
    · rintro ⟨e, he, heq⟩
      have hmem := (mem_extrinsicIndices.mp he).1
      rw [← heq]
      exact List.fst_mem_of_mem_zipIdx hmem
    · intro hmem
      obtain ⟨i, hi⟩ := List.mem_iff_getElem?.mp hmem
      exact ⟨(t.txHash, i), mem_extrinsicIndices.mpr
        ⟨List.mem_zipIdx_iff_getElem?.mpr hi, t, ht, rfl⟩, rfl⟩
  · simp only [expiredTxns, List.mem_map, List.mem_filter, decide_eq_true_eq]
    constructor
    · rintro ⟨s, ⟨hs, hdeath⟩, heq⟩
      -- an entry under the same hash is the same entry
      rw [← List.inj_on_of_nodup_map hkeyed hs ht heq]
      exact hdeath
    · exact fun hdeath => ⟨t, ⟨ht, hdeath⟩, rfl⟩

/-- The pipeline removes nothing that was not read. -/
private theorem mem_of_mem_pipeline {W : List ITxStatus} {extrinsics : List Hash} {n : ℕ}
    {txHash : Hash}
    (h : txHash ∈ (extrinsicIndices W extrinsics).map Prod.fst ++ expiredTxns W n) :
    txHash ∈ W.map ITxStatus.txHash := by
  rcases List.mem_append.mp h with hfound | hexpired
  · obtain ⟨e, he, rfl⟩ := List.mem_map.mp hfound
    obtain ⟨t, ht, heq⟩ := (mem_extrinsicIndices.mp he).2
    rw [← heq]
    exact List.mem_map_of_mem ht
  · obtain ⟨t, ht, rfl⟩ := List.mem_map.mp hexpired
    exact List.mem_map_of_mem (List.mem_of_mem_filter ht)

/-- What the pipeline leaves of a list that was read and has grown. -/
theorem remove_grown {W : List ITxStatus} {w : PassWorld} (hentries : w.list.entries = W ++ w.added)
    (extrinsics : List Hash) (n : ℕ) :
    (w.list.remove ((extrinsicIndices W extrinsics).map Prod.fst ++ expiredTxns W n)).entries =
      W.filter (fun t => t.txHash ∉ extrinsics ∧ n < t.death) ++ w.added := by
  have hkeyed := w.list.keyed
  rw [hentries, List.map_append, List.nodup_append] at hkeyed
  obtain ⟨hkeyedW, -, hapart⟩ := hkeyed
  show w.list.entries.filter _ = _
  rw [hentries, List.filter_append]
  congr 1
  · refine List.filter_congr fun t ht => ?_
    have hiff := mem_pipeline_iff hkeyedW extrinsics n ht
    rw [decide_eq_decide, hiff, not_or, Nat.not_le]
  · rw [List.filter_eq_self]
    intro t ht
    rw [decide_eq_true_iff]
    intro hmem
    exact hapart _ (mem_of_mem_pipeline hmem) _ (List.mem_map_of_mem ht) rfl

end Conservation

/-! ## Conservation -/

/-- A pass over block `n`, from a watch list on. -/
def passOver (configService : ConfigService) (registry : Registry) (around : PassSurroundings)
    (h : BlockHash) (n : ℕ) (list : TxnWatchList) : Outcome Err Unit × PassWorld :=
  (TxnNotifierService.processCurrentBlock configService registry h n).exec (passMachine around)
    { list := list }

/-- What a pass leaves of the watch list: where it completes, of the entries it
has read those that are not in the block and have not expired, and all that were
added since; where it ends before its pipeline, everything. -/
structure Conserved (around : PassSurroundings) (n : ℕ) (list : TxnWatchList)
    (r : Outcome Err Unit × PassWorld) : Prop where
  completed : r.1 = .returned () → ∃ W, r.2.read = some W ∧ list.entries <+: W ∧
    r.2.list.entries =
      W.filter (fun t => t.txHash ∉ around.extrinsics ∧ n < t.death) ++ r.2.added
  interrupted : ∀ e, r.1 = .threw e → r.2.executed = false →
    list.entries <+: r.2.read.getD list.entries ∧
      r.2.list.entries = r.2.read.getD list.entries ++ r.2.added

section Pass

variable {configService : ConfigService} {registry : Registry} {around : PassSurroundings}

/-- Where a pass ends before its pipeline, from a list that has only grown. -/
private theorem Conserved.of_grown {n : ℕ} {list : TxnWatchList} {w₀ w : PassWorld} {e : Err}
    (hread : list.entries <+: w₀.read.getD list.entries)
    (hentries : w₀.list.entries = w₀.read.getD list.entries ++ w₀.added) (h : Grown w₀ w) :
    Conserved around n list (.threw e, w) where
  completed h := by cases h
  interrupted e _ _ := by
    obtain ⟨more, hmore, hadded⟩ := h.entries
    show list.entries <+: w.read.getD list.entries ∧
      w.list.entries = w.read.getD list.entries ++ w.added
    rw [h.read, hmore, hadded, hentries, List.append_assoc]
    exact ⟨hread, rfl⟩

/-- The pipeline. -/
private theorem conserved_exec {n : ℕ} {list : TxnWatchList} {W : List ITxStatus}
    (hW : list.entries <+: W) {w : PassWorld} (hread : w.read = some W)
    (hentries : w.list.entries = W ++ w.added) :
    Conserved around n list ((call (.exec
      ((extrinsicIndices W around.extrinsics).map Prod.fst ++ expiredTxns W n))).exec
        (passMachine around) w) := by
  obtain ⟨w₁, hgrown, f, -, hanswer⟩ := passMachine_answer around (.exec
    ((extrinsicIndices W around.extrinsics).map Prod.fst ++ expiredTxns W n)) w
  obtain ⟨more, hmore, hadded⟩ := hgrown.entries
  have hentries₁ : w₁.list.entries = W ++ w₁.added := by
    rw [hmore, hadded, hentries, List.append_assoc]
  rw [exec_call, hanswer]
  cases f with
  | refused e =>
      have hentries' : w.list.entries = w.read.getD list.entries ++ w.added := by
        rw [hread]
        exact hentries
      -- nothing was removed, and entries have only been added
      exact .of_grown (by rw [hread]; exact hW) hentries' hgrown
  | done b =>
      constructor
      · intro _
        exact ⟨W, hgrown.read.trans hread, hW, remove_grown hentries₁ around.extrinsics n⟩
      · intro e he
        cases he
  | lost b e =>
      constructor
      · intro he
        cases he
      · intro _ _ hnot
        cases hnot

/-- A pass reads the list and the block, collects what to remove, and removes
it. -/
private theorem processCurrentBlock_eq (h : BlockHash) (n : ℕ) :
    TxnNotifierService.processCurrentBlock configService registry h n =
      (call (.hvals (.processCurrentBlock n))).bind fun pendingTxns =>
        (call (.getBlock h)).bind fun extrinsics =>
          (if extrinsicIndices pendingTxns extrinsics = [] then Prog.done []
            else TxnNotifierService.processFound configService registry h
              (extrinsicIndices pendingTxns extrinsics)).bind fun pipeline =>
            call (.exec (pipeline ++ expiredTxns pendingTxns n)) := by
  unfold TxnNotifierService.processCurrentBlock
  simp only [Prog.bind_eq, Prog.pure_eq]
  congr 1
  funext pendingTxns
  congr 1
  funext extrinsics
  split <;> rfl

/-- The pass from the moment it has read the list. -/
private theorem conserved_after_read (h : BlockHash) (n : ℕ) (list : TxnWatchList)
    {W : List ITxStatus} (hW : list.entries <+: W) {w : PassWorld} (hread : w.read = some W)
    (hentries : w.list.entries = W ++ w.added) :
    Conserved around n list
      (((call (.getBlock h)).bind fun extrinsics =>
          (if extrinsicIndices W extrinsics = [] then Prog.done []
            else TxnNotifierService.processFound configService registry h
              (extrinsicIndices W extrinsics)).bind fun pipeline =>
            call (.exec (pipeline ++ expiredTxns W n))).exec (passMachine around) w) := by
  have hentries' : w.list.entries = w.read.getD list.entries ++ w.added := by
    rw [hread]
    exact hentries
  have hprefix : list.entries <+: w.read.getD list.entries := by
    rw [hread]
    exact hW
  -- the block
  obtain ⟨w₁, hgrown₁, f, hf, hanswer⟩ := passMachine_answer around (.getBlock h) w
  have hstate : (if f.effect.isSome then w₁.carryOut (.getBlock h) else w₁) = w₁ := ite_self w₁
  rw [hstate] at hanswer
  rw [Prog.exec_bind, exec_call, hanswer]
  cases hseen : f.seen with
  | error e => exact .of_grown hprefix hentries' hgrown₁
  | ok extrinsics =>
      obtain rfl := hf extrinsics (Fate.effect_of_seen hseen)
      -- the watched extrinsics
      have hmiddle : (if extrinsicIndices W around.extrinsics = [] then Prog.done []
          else TxnNotifierService.processFound configService registry h
            (extrinsicIndices W around.extrinsics)).Follows (Protocol.only ofNotification)
          (fun pipeline _ => pipeline = (extrinsicIndices W around.extrinsics).map Prod.fst)
          (fun _ _ => True) () := by
        split
        · next hnone => rw [Prog.follows_done, hnone, List.map_nil]
        · exact processFound_notification configService registry h _
      show Conserved around n list
        (((if extrinsicIndices W around.extrinsics = [] then Prog.done []
          else TxnNotifierService.processFound configService registry h
            (extrinsicIndices W around.extrinsics)).bind fun pipeline =>
          call (.exec (pipeline ++ expiredTxns W n))).exec (passMachine around) w₁)
      generalize (if extrinsicIndices W around.extrinsics = [] then Prog.done []
          else TxnNotifierService.processFound configService registry h
            (extrinsicIndices W around.extrinsics)) = middle at hmiddle
      obtain ⟨_, hgrown₂, hmeets⟩ := Prog.exec_follows (passMachine_tracks around w₁) hmiddle
        (Grown.refl w₁)
      have hgrown := hgrown₁.trans hgrown₂
      rw [Prog.exec_bind]
      generalize middle.exec (passMachine around) w₁ = r at hgrown hmeets
      obtain ⟨outcome, w₂⟩ := r
      cases outcome with
      | returned pipeline =>
          obtain rfl := hmeets
          obtain ⟨more, hmore, hadded⟩ := hgrown.entries
          refine conserved_exec hW (hgrown.read.trans hread) ?_
          rw [hmore, hadded, hentries, List.append_assoc]
      | threw e => exact .of_grown hprefix hentries' hgrown
      | stopped => exact ⟨fun he => (by cases he), fun e he => (by cases he)⟩

end Pass

/-- **Conservation.**  From any watch list, over any block and whatever arrives
and fails in between, a pass that completes removes exactly the entries it has
read that are in the block or have expired, and one that ends before its
pipeline removes none. -/
theorem watchList_conserved (configService : ConfigService) (registry : Registry)
    (around : PassSurroundings) (h : BlockHash) (n : ℕ) (list : TxnWatchList) :
    Conserved around n list (passOver configService registry around h n list) := by
  rw [passOver, processCurrentBlock_eq]
  obtain ⟨w₁, hgrown, f, hf, hanswer⟩ :=
    passMachine_answer around (.hvals (.processCurrentBlock n)) { list := list }
  obtain ⟨more, hmore, hadded⟩ := hgrown.entries
  rw [Prog.exec_bind, exec_call, hanswer]
  cases f with
  | refused e => exact .of_grown List.prefix_rfl (List.append_nil _).symm hgrown
  | done pendingTxns =>
      obtain rfl := hf pendingTxns rfl
      exact conserved_after_read (w := { w₁ with read := some w₁.list.entries, added := [] }) h n
        list hgrown.prefix_entries rfl (List.append_nil _).symm
  | lost pendingTxns e =>
      have hread : list.entries <+:
          { w₁ with read := some w₁.list.entries, added := [] }.read.getD list.entries :=
        hgrown.prefix_entries
      exact .of_grown hread (List.append_nil _).symm (Grown.refl _)

end AccountService
