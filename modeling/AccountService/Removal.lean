import AccountService.Provenance

/-!
# Removed for good

An entry is written once, by the job whose extrinsic the node has accepted, and
its write may still be on its way when a scan reads the list.  So a pass removes
an entry only after its one write has landed, and no later write, retry or
restart brings back what a pass has removed.  And since a notification rests on
an entry that is listed, none is attempted about it any more.
-/

namespace AccountService

open Async

/-! ## Entries that are there or to come -/

/-- The hashes of the entries that are on the list, on their way to it, or owed
by a job. -/
def ServiceWorld.live (w : ServiceWorld) : List Hash :=
  w.watchList.map ITxStatus.txHash ++ w.outbox.map ITxStatus.txHash ++
    w.publisher.unwritten.toList

/-- What the passes have removed is that of accepted extrinsics, is neither on
the list nor to come, and was not read by a later pass. -/
structure Gone (w : ServiceWorld) : Prop where
  accepted : ∀ p ∈ w.removed, p.hdels ⊆ w.accepted.map Accepted.txHash
  untracked : ∀ p ∈ w.removed, ∀ txHash ∈ p.hdels, txHash ∉ w.live
  unread : w.removed.Pairwise fun later earlier => ∀ t ∈ later.pending, t.txHash ∉ earlier.hdels

namespace Gone

variable {configService : ConfigService} {w w' : ServiceWorld} {p : Pass} {txHash : Hash}

/-- A pass removes what it has read. -/
theorem mem_pending (h : ∃ b, p.Done b) (hmem : txHash ∈ p.hdels) :
    ∃ t ∈ p.pending, t.txHash = txHash := by
  obtain ⟨b, hdone⟩ := h
  rcases List.mem_append.mp hmem with hfound | hexpired
  · obtain ⟨e, he, rfl⟩ := List.mem_map.mp hfound
    rw [hdone.found, mem_extrinsicIndices] at he
    exact he.2
  · obtain ⟨t, ht, rfl⟩ := List.mem_map.mp hexpired
    exact ⟨t, List.mem_of_mem_filter ht, rfl⟩

/-- And what has expired or is in its block. -/
theorem mem_hdels {b : Block} (hdone : p.Done b) {t : ITxStatus} (ht : t ∈ p.pending)
    (hdue : t.death ≤ p.height ∨ t.txHash ∈ b.extrinsics) : t.txHash ∈ p.hdels := by
  rcases hdue with hexpired | hincluded
  · refine List.mem_append_right _ (List.mem_map_of_mem ?_)
    rw [List.mem_filter]
    exact ⟨ht, decide_eq_true hexpired⟩
  · obtain ⟨i, hi⟩ := List.mem_iff_getElem?.mp hincluded
    refine List.mem_append_left _ (List.mem_map.mpr ⟨(t.txHash, i), ?_, rfl⟩)
    rw [hdone.found, mem_extrinsicIndices]
    exact ⟨List.mem_zipIdx_iff_getElem?.mpr hi, t, ht, rfl⟩

/-- What is there or to come may become less. -/
private theorem narrow (h : Gone w) (hremoved : w'.removed = w.removed)
    (haccepted : w'.accepted = w.accepted) (hlive : w'.live ⊆ w.live) : Gone w' where
  accepted p hp := by
    rw [hremoved] at hp
    rw [haccepted]
    exact h.accepted p hp
  untracked p hp txHash hmem hin := by
    rw [hremoved] at hp
    exact h.untracked p hp txHash hmem (hlive hin)
  unread := by
    rw [hremoved]
    exact h.unread

/-- What a job owes may be forgotten. -/
private theorem live_subset (hwatchList : w'.watchList = w.watchList)
    (houtbox : w'.outbox = w.outbox)
    (hunwritten : w'.publisher.unwritten = none ∨
      w'.publisher.unwritten = w.publisher.unwritten) : w'.live ⊆ w.live := by
  unfold ServiceWorld.live
  rw [hwatchList, houtbox]
  rcases hunwritten with heq | heq <;> rw [heq]
  · rw [Option.toList_none, List.append_nil]
    exact List.subset_append_left _ _
  · exact List.Subset.refl _

/-- A write lands. -/
private theorem landed {status : ITxStatus} (hstatus : status ∈ w.outbox) :
    { w with
      watchList := w.watchList.hset status
      outbox := w.outbox.erase status }.live ⊆ w.live := by
  intro txHash hin
  unfold ServiceWorld.live at hin ⊢
  simp only [List.mem_append, List.mem_map] at hin ⊢
  rcases hin with (⟨t, ht, rfl⟩ | ⟨t, ht, rfl⟩) | howed
  · rcases WatchList.mem_hset.mp ht with ⟨hold, -⟩ | rfl
    · exact .inl (.inl ⟨t, hold, rfl⟩)
    · exact .inl (.inr ⟨t, hstatus, rfl⟩)
  · exact .inl (.inr ⟨t, List.mem_of_mem_erase ht, rfl⟩)
  · exact .inr howed

/-- A write is lost. -/
private theorem lost (status : ITxStatus) :
    { w with outbox := w.outbox.erase status }.live ⊆ w.live := by
  intro txHash hin
  unfold ServiceWorld.live at hin ⊢
  simp only [List.mem_append, List.mem_map] at hin ⊢
  rcases hin with (hlisted | ⟨t, ht, rfl⟩) | howed
  · exact .inl (.inl hlisted)
  · exact .inl (.inr ⟨t, List.mem_of_mem_erase ht, rfl⟩)
  · exact .inr howed

/-- A job writes the entry it owes. -/
private theorem written {hash : Hash} {status : ITxStatus}
    (hallow : w.publisher.allow (.fire (.hset hash status))) :
    ((w.issue (.hset hash status)).observe configService .publisher
      (.fire (.hset hash status))).live ⊆ w.live := by
  intro txHash hin
  cases hs : w.publisher with
  | passed gate publishing =>
      rw [hs] at hallow
      obtain ⟨hsent, hhash, -⟩ := hallow
      have howed : w.publisher.unwritten.toList = [status.txHash] := by
        rw [hs, hhash]
        exact congrArg Option.toList hsent
      unfold ServiceWorld.live at hin ⊢
      rw [howed]
      simp only [ServiceWorld.observe_toOutside, ServiceWorld.observe_publisher_publisher,
        ServiceWorld.issue_publisher, hs] at hin
      -- it owes nothing any more
      have hin' : txHash ∈ w.watchList.map ITxStatus.txHash ++
          (w.outbox ++ [status]).map ITxStatus.txHash ++ [] := hin
      simpa [List.map_append, or_assoc] using hin'
  | _ => rw [hs] at hallow; exact hallow.elim

/-- The node accepts an extrinsic under a new hash. -/
private theorem sent (h : Gone w) {extrinsic : SubmittableExtrinsic} {nonce cost : ℕ}
    (hallow : w.publisher.allow (.await (.signAndSend extrinsic nonce)))
    (f : Fate Err (Call.signAndSend extrinsic nonce).Reply)
    (hreplies : ∀ reply, f.effect = some reply → w.Replies (.signAndSend extrinsic nonce) reply) :
    Gone ((w.carryOut cost (.signAndSend extrinsic nonce) f.effect).observe configService
      .publisher (.await (.signAndSend extrinsic nonce) f)) := by
  cases hs : w.publisher with
  | passed gate publishing =>
      cases hf : f.effect with
      | none =>
          rw [ServiceWorld.carryOut_none]
          refine h.narrow (by simp) (by simp) (live_subset (by simp) (by simp) (.inl ?_))
          rw [ServiceWorld.observe_publisher_publisher, hs]
          cases f with
          | refused e => rfl
          | done _ | lost _ _ => cases hf
      | some reply =>
          have hnew := (hreplies reply hf).2.2.1
          refine ⟨fun p hp => ?_, fun p hp txHash hmem hin => ?_, h.unread⟩
          · exact List.Subset.trans (h.accepted p hp) (List.subset_cons_self _ _)
          · -- a removed hash was accepted before
            have hne : txHash ≠ reply.1 := fun heq => hnew (heq ▸ h.accepted p hp hmem)
            refine h.untracked p hp txHash hmem ?_
            unfold ServiceWorld.live at hin ⊢
            rw [ServiceWorld.observe_publisher_publisher, ServiceWorld.carryOut_publisher, hs]
              at hin
            rcases List.mem_append.mp hin with hold | howed
            · exact List.mem_append_left _ hold
            · cases f with
              | refused e => cases hf
              | done reply' =>
                  obtain rfl := Option.some.inj hf
                  exact absurd (List.mem_singleton.mp howed) hne
              | lost reply' e => cases howed
  | _ => rw [hs] at hallow; exact hallow.elim

/-- **A pass removes what was on the list**, and nothing of it is to come. -/
private theorem removed (h : Gone w) (hcoherent : Coherent w) {hdels : List Hash} {cost : ℕ}
    (hcall : NotifierCall configService w.notifier (.exec hdels))
    (f : Fate Err (Call.exec hdels).Reply) :
    Gone ((w.carryOut cost (.exec hdels) f.effect).observe configService .notifier
      (.await (.exec hdels) f)) := by
  cases hf : f.effect with
  | none =>
      rw [ServiceWorld.carryOut_none]
      exact h.narrow (by simp) (by simp) (live_subset (by simp) (by simp) (.inr (by simp)))
  | some _ =>
      obtain ⟨p, booked, hs, rfl⟩ := hcall.closing
      have hp : w.notifier.pass = some p := by rw [hs]; rfl
      obtain ⟨b, hb, -⟩ := hcoherent.bearings.phase.pass hp
      have hdone : p.Done b := by
        have hreads := hcoherent.reading.reads p hp b hb
        rwa [hs] at hreads
      have hpending := hcoherent.reading.pending p hp
      have hnodup := hcoherent.traced.nodup hcoherent.inclusions
      unfold ServiceWorld.traces at hnodup
      rw [List.append_assoc, List.append_assoc] at hnodup
      have hapart := (List.nodup_append'.mp hnodup).2.2
      have hlisted : ∀ txHash ∈ p.hdels, txHash ∈ w.watchList.map ITxStatus.txHash := by
        intro txHash hmem
        obtain ⟨t, ht, rfl⟩ := mem_pending ⟨b, hdone⟩ hmem
        exact List.mem_map_of_mem (hpending t ht)
      -- what was removed is on the list no more, and was not to come
      have hgone : ∀ txHash ∈ p.hdels, txHash ∉ (w.watchList.hdel p.hdels).map ITxStatus.txHash ++
          w.outbox.map ITxStatus.txHash ++ w.publisher.unwritten.toList := by
        intro txHash hmem hin
        rw [List.append_assoc] at hin
        rcases List.mem_append.mp hin with hleft | hcoming
        · obtain ⟨t, ht, rfl⟩ := List.mem_map.mp hleft
          exact (WatchList.mem_hdel.mp ht).2 hmem
        · refine hapart (hlisted txHash hmem) ?_
          rw [← List.append_assoc]
          exact List.mem_append_left _ hcoming
      have hsubset : (w.watchList.hdel p.hdels).map ITxStatus.txHash ++
          w.outbox.map ITxStatus.txHash ++ w.publisher.unwritten.toList ⊆ w.live :=
        (((List.filter_sublist.map _).append_right _).append_right _).subset
      have hremoved : ((w.carryOut cost (.exec p.hdels) (some ())).observe configService .notifier
          (.await (.exec p.hdels) f)).removed = p :: w.removed := by
        show w.notifier.pass.toList ++ w.removed = _
        rw [hp, Option.toList_some, List.singleton_append]
      refine ⟨?_, ?_, ?_⟩
      · rw [hremoved]
        refine List.forall_mem_cons.mpr ⟨fun txHash hmem => ?_, h.accepted⟩
        obtain ⟨t, ht, rfl⟩ := mem_pending ⟨b, hdone⟩ hmem
        obtain ⟨a, ha, hhash, -⟩ := hcoherent.timeliness.listed t (hpending t ht)
        exact hhash ▸ List.mem_map_of_mem ha
      · rw [hremoved]
        exact List.forall_mem_cons.mpr
          ⟨hgone, fun p' hp' txHash hmem hin => h.untracked p' hp' txHash hmem (hsubset hin)⟩
      · rw [hremoved]
        refine List.pairwise_cons.mpr ⟨fun p' hp' t ht hmem => ?_, h.unread⟩
        -- what it has read was on the list
        refine h.untracked p' hp' t.txHash hmem ?_
        exact List.mem_append_left _ (List.mem_append_left _ (List.mem_map_of_mem (hpending t ht)))

end Gone

variable {configService : ConfigService} {registry : Registry}

/-- **What a pass has removed stays removed.** -/
theorem service_gone : (service configService registry).Preserves (course configService)
    (fun r w => w.phase r) (fun _ _ => True) Coherent Gone where
  env x P w' _ _ h hw := by
    rcases ServiceWorld.env_cases hw with ⟨b, hb, hnew, -, rfl⟩ | ⟨n, -, -, rfl⟩ |
      ⟨status, hstatus, -, rfl⟩ | ⟨status, -, rfl⟩ | ⟨epoch, rfl⟩
    · exact h.narrow rfl rfl (List.Subset.refl _)
    · exact h.narrow rfl rfl (List.Subset.refl _)
    · exact h.narrow rfl rfl (Gone.landed hstatus)
    · exact h.narrow rfl rfl (Gone.lost status)
    · exact h.narrow rfl rfl (List.Subset.refl _)
  launch reason r P p w' _ _ h hw := by
    rcases service_launch hw with ⟨-, -, -, rfl⟩ | ⟨-, -, rfl⟩ | ⟨-, -, rfl⟩
    · exact h.narrow rfl rfl (List.Subset.refl _)
    · exact h.narrow rfl rfl (List.Subset.refl _)
    · exact h.narrow rfl rfl (Gone.live_subset rfl rfl (.inl rfl))
  act r m w _ _ h := by
    refine h.narrow (by simp [service]) (by simp [service])
      (Gone.live_subset (by simp [service]) (by simp [service]) ?_)
    cases r with
    | notifier => exact .inr (by simp [service])
    | publisher => simpa [service] using PublisherPhase.unwritten_next (by simp)
  issue r c w hallow _ h := by
    refine h.narrow (by simp [service]) (by simp [service]) ?_
    cases r with
    | notifier => exact (NotifierPhase.not_fire hallow).elim
    | publisher =>
        by_cases hc : ∃ txHash status, c = .hset txHash status
        · obtain ⟨txHash, status, rfl⟩ := hc
          exact Gone.written hallow
        · refine Gone.live_subset (by simp [service]) ?_ ?_
          · cases c with
            | hset txHash status => exact absurd ⟨txHash, status, rfl⟩ hc
            | _ => rfl
          · simpa [service] using PublisherPhase.unwritten_next (by simp)
  answer r x c k P f w' _ _ hallow hcoherent h hw := by
    obtain ⟨cost, rfl, hreplies⟩ := service_answer hw
    cases r with
    | notifier =>
        by_cases hc : ∃ hdels, c = .exec hdels
        · obtain ⟨hdels, rfl⟩ := hc
          exact h.removed hcoherent hallow f
        · have hne : ∀ hdels, c ≠ .exec hdels := fun hdels heq => hc ⟨hdels, heq⟩
          refine h.narrow ?_ ?_ (Gone.live_subset ?_ (by simp) (.inr (by simp)))
          · simpa using ServiceWorld.carryOut_removed hne
          · simpa using ServiceWorld.carryOut_notifier_call hallow
          · simpa using ServiceWorld.carryOut_watchList hne
    | publisher =>
        by_cases hc : ∃ extrinsic nonce, c = .signAndSend extrinsic nonce
        · obtain ⟨extrinsic, nonce, rfl⟩ := hc
          exact h.sent hallow f hreplies
        · have hne : ∀ extrinsic nonce, c ≠ .signAndSend extrinsic nonce :=
            fun extrinsic nonce heq => hc ⟨extrinsic, nonce, heq⟩
          rw [ServiceWorld.carryOut_publisher_call hallow, ServiceWorld.carryOut_accepted hne]
          refine h.narrow (by simp) (by simp) (Gone.live_subset (by simp) (by simp) ?_)
          rw [ServiceWorld.observe_publisher_publisher]
          refine PublisherPhase.unwritten_next fun extrinsic nonce f' heq => hne extrinsic nonce ?_
          exact (Obs.await.inj heq).1
  crash P _ _ h := h.narrow rfl rfl (Gone.live_subset rfl rfl (.inl rfl))

/-- What a pass whose removals were carried out had read and was to remove: the
entries of the extrinsics of its block and those that have expired by its
height. -/
def ServiceWorld.Removed (w : ServiceWorld) (p : Pass) (t : ITxStatus) : Prop :=
  p ∈ w.removed ∧ t ∈ p.pending ∧ (t.death ≤ p.height ∨ w.chain.IncludesAt t.txHash p.height)

/-- It is among the removals of the pass. -/
theorem ServiceWorld.Removed.mem_hdels {w : ServiceWorld} {p : Pass} {t : ITxStatus}
    (h : w.Removed p t) (hcoherent : Coherent w) : t.txHash ∈ p.hdels := by
  obtain ⟨hp, ht, hdue⟩ := h
  obtain ⟨b, hb, hdone⟩ := hcoherent.reading.removed p hp
  refine Gone.mem_hdels hdone ht (hdue.imp_right ?_)
  rintro ⟨b', hb', hmem⟩
  obtain rfl : b = b' := Option.some.inj (hb.symm.trans hb')
  exact hmem

/-- **Removed for good.**  In every run, through any crashes, failed calls and
writes that land late: the entry of an extrinsic that a pass has removed is
neither on the list nor on its way, and of two passes that have removed
something the later one had not read what the earlier one has removed. -/
theorem service_removed_gone (ls : List (Label Role Happening Reason)) (P : ServicePool)
    (hrun : (service configService registry).run ls ServicePool.init = some P) :
    (∀ p t, P.world.Removed p t →
      ∀ t' ∈ P.world.watchList ++ P.world.outbox, t'.txHash ≠ t.txHash) ∧
    P.world.removed.Pairwise fun later earlier => ∀ t, P.world.Removed earlier t →
      ∀ t' ∈ later.pending, t'.txHash ≠ t.txHash := by
  have hinit : Gone .init := ⟨fun p hp => (by cases hp), fun p hp => (by cases hp), .nil⟩
  obtain ⟨hcoherent, hgone⟩ := service_run_keeps service_gone hinit hrun (World.along_true _ _ _)
  constructor
  · intro p t hremoved t' ht' heq
    refine hgone.untracked p hremoved.1 t.txHash (hremoved.mem_hdels hcoherent) ?_
    refine List.mem_append_left _ ?_
    rw [← heq, ← List.map_append]
    exact List.mem_map_of_mem ht'
  · refine hgone.unread.imp fun hunread t hremoved t' ht' heq => ?_
    exact hunread t' ht' (heq ▸ hremoved.mem_hdels hcoherent)

/-- The entry of a sign-up that is scanned in its block is removed for good. -/
theorem service_removed_gone_signup : ∃ P : ServicePool, ∃ p,
    (service (.attempts 1 zero_le_one) ⟨fun _ => none⟩).run
        (signupScanned ++ [.reply .notifier (granted 0 0)]) ServicePool.init = some P ∧
      P.world.Removed p (signupStatus 7) ∧
      ∀ t' ∈ P.world.watchList ++ P.world.outbox, t'.txHash ≠ 7 := by
  have hstate : ((service (.attempts 1 zero_le_one) ⟨fun _ => none⟩).run
      (signupScanned ++ [.reply .notifier (granted 0 0)]) ServicePool.init).map
        (fun P => (P.world.removed.map fun p => (p.height, p.pending), P.world.chain.blocks)) =
          some ([(1, [signupStatus 7])], [genesis, ⟨2, 0, [7], [batchCompleted]⟩]) := by
    decide +kernel
  obtain ⟨P, hrun, hP⟩ := Option.map_eq_some_iff.mp hstate
  obtain ⟨hremoved, hblocks⟩ := Prod.mk.inj hP
  obtain ⟨p, hpasses, hpass⟩ := List.map_eq_singleton_iff.mp hremoved
  obtain ⟨hheight, hpending⟩ := Prod.mk.inj hpass
  have hsignup : P.world.Removed p (signupStatus 7) := by
    refine ⟨by simp [hpasses], by simp [hpending], .inr ⟨⟨2, 0, [7], [batchCompleted]⟩, ?_, ?_⟩⟩
    · rw [hblocks, hheight]
      rfl
    · exact List.mem_singleton_self 7
  exact ⟨P, p, hrun, hsignup, (service_removed_gone _ P hrun).1 p _ hsignup⟩

/-! ## Silence -/

/-- The service beside its journal, and what has been removed from its list. -/
private theorem journaled_gone : (journaled configService registry).Preserves
    (course configService) (fun r w => w.1.phase r) (fun _ _ => True) (fun _ => True)
    fun w => Coherent w.1 ∧ Gone w.1 :=
  (service_coherent.and (service_gone.assuming fun _ h => h.2)).recording journal

/-- From the time when the notifications were `posts`, none has been attempted
about the extrinsics of `gone`, which were removed before. -/
structure Silent (gone : Hash → Prop) (posts : List Post) (w : ServiceWorld) (t : Journal) :
    Prop where
  removed : ∀ txHash, gone txHash → ∃ p ∈ w.removed, txHash ∈ p.hdels
  posts : ∃ later, t.posts = later ++ posts ∧ ∀ post ∈ later, ¬gone post.txHash

namespace Silent

variable {gone : Hash → Prop} {posts : List Post} {w w' : ServiceWorld} {t t' : Journal}

/-- Where nothing is posted, silence goes on. -/
private theorem congr (h : Silent gone posts w t) (hremoved : w.removed ⊆ w'.removed)
    (hposts : t'.posts = t.posts) : Silent gone posts w' t' where
  removed txHash hgone := by
    obtain ⟨p, hp, hmem⟩ := h.removed txHash hgone
    exact ⟨p, hremoved hp, hmem⟩
  posts := by
    rw [hposts]
    exact h.posts

/-- A pass posts about what is on the list. -/
private theorem mem_live (hcoherent : Coherent w) {txHash : Hash} {url : String}
    {body : TxWebhookRsp} (hcall : NotifierCall configService w.notifier (.post txHash url body)) :
    txHash ∈ w.live := by
  have hreading := hcoherent.reading
  have hpass := hcoherent.bearings.phase
  cases hs : w.notifier with
  | notifying p todo =>
      rw [hs] at hcall hpass
      have hp : w.notifier.pass = some p := by rw [hs]; rfl
      obtain ⟨b, hb, -⟩ := hpass
      have hreads := hreading.reads p hp b hb
      rw [hs] at hreads
      cases hcall with
      | post p todo txHash url body hmay =>
          obtain ⟨n, notices, hnotices, rfl, -⟩ := hmay
          obtain ⟨t, ht, heq, -⟩ := hreads.1.entries n (hnotices ▸ List.mem_cons_self)
          rw [← heq]
          exact List.mem_append_left _ (List.mem_append_left _
            (List.mem_map_of_mem (hreading.pending p hp t ht)))
  | _ => rw [hs] at hcall; cases hcall

/-- A pass that is recorded stays so. -/
private theorem removed_subset_carryOut {c : Call} {reply : Option c.Reply} {cost : ℕ} :
    w.removed ⊆ (w.carryOut cost c reply).removed := by
  by_cases hc : ∃ hdels, c = .exec hdels
  · obtain ⟨hdels, rfl⟩ := hc
    cases reply with
    | none => exact List.Subset.refl _
    | some _ => exact List.subset_append_right _ _
  · rw [ServiceWorld.carryOut_removed fun hdels heq => hc ⟨hdels, heq⟩]
    exact List.Subset.refl _

/-- A notification is about an extrinsic that was not removed. -/
private theorem posted (h : Silent gone posts w t) (hcoherent : Coherent w) (hgone : Gone w)
    {txHash : Hash} {url : String} {body : TxWebhookRsp}
    (hcall : NotifierCall configService w.notifier (.post txHash url body)) (ok : Bool)
    (hposts : t'.posts = ⟨txHash, url, body, ok⟩ :: t.posts) : Silent gone posts w t' where
  removed := h.removed
  posts := by
    obtain ⟨later, heq, hlater⟩ := h.posts
    refine ⟨⟨txHash, url, body, ok⟩ :: later, by rw [hposts, heq, List.cons_append], ?_⟩
    refine List.forall_mem_cons.mpr ⟨fun hmem => ?_, hlater⟩
    obtain ⟨p, hp, hhdels⟩ := h.removed txHash hmem
    exact hgone.untracked p hp txHash hhdels (mem_live hcoherent hcall)

end Silent

/-- **Silence about what was removed is kept.** -/
private theorem journaled_silent (gone : Hash → Prop) (posts : List Post) :
    (journaled configService registry).Preserves (course configService)
      (fun r w => w.1.phase r) (fun _ _ => True) (fun w => Coherent w.1 ∧ Gone w.1)
      fun w => Silent gone posts w.1 w.2 where
  env x P w' _ _ h hw := by
    obtain ⟨w₁, hw₁, rfl⟩ := Option.map_eq_some_iff.mp hw
    rcases ServiceWorld.env_cases hw₁ with ⟨b, hb, hnew, -, rfl⟩ | ⟨n, -, -, rfl⟩ |
      ⟨status, hstatus, -, rfl⟩ | ⟨status, -, rfl⟩ | ⟨epoch, rfl⟩ <;>
        exact h.congr (List.Subset.refl _) rfl
  launch reason r P p w' _ _ h hw := by
    obtain ⟨pw, hpw, heq⟩ := Option.map_eq_some_iff.mp hw
    obtain ⟨rfl, rfl⟩ := Prod.mk.inj heq
    have hposts : (P.world.2.started reason r).posts = P.world.2.posts := by
      cases reason <;> cases r <;> rfl
    rcases service_launch hpw with ⟨-, -, -, hw'⟩ | ⟨-, -, hw'⟩ | ⟨-, -, hw'⟩ <;> rw [hw'] <;>
      exact h.congr (List.Subset.refl _) hposts
  act r m w _ _ h := by
    refine h.congr ?_ (by cases r <;> rfl)
    show w.1.removed ⊆ ((service configService registry).act r m w.1).2.removed
    simp [service]
  issue r c w _ _ h := by
    refine h.congr ?_ (by cases r <;> rfl)
    show w.1.removed ⊆ ((service configService registry).issue r c w.1).removed
    simp [service]
  answer r x c k P f w' _ _ hallow hknown h hw := by
    obtain ⟨fw, hfw, heq⟩ := Option.map_eq_some_iff.mp hw
    obtain ⟨rfl, rfl⟩ := Prod.mk.inj heq
    obtain ⟨cost, hw₁, -⟩ := service_answer hfw
    have hremoved : P.world.1.removed ⊆ fw.2.removed := by
      rw [hw₁, ServiceWorld.observe_toRecord]
      exact Silent.removed_subset_carryOut
    by_cases hc : ∃ txHash url body, c = .post txHash url body
    · obtain ⟨txHash, url, body, rfl⟩ := hc
      cases r with
      | notifier =>
          have hposted : Silent gone posts P.world.1
              ((P.world.2.enter (.await _ fw.1)).move .notifier (.await _ fw.1)) :=
            h.posted hknown.1 hknown.2 hallow fw.1.seen.toBool rfl
          exact hposted.congr hremoved rfl
      | publisher =>
          -- a job notifies nobody
          have hnot : ∀ s : PublisherPhase, ¬s.allow (.await (.post txHash url body)) := by
            intro s hpost
            cases s <;> exact hpost
          exact absurd hallow (hnot _)
    · refine h.congr hremoved ?_
      cases c with
      | post txHash url body => exact absurd ⟨txHash, url, body, rfl⟩ hc
      | _ => cases r <;> rfl
  crash P _ _ h := h.congr (List.Subset.refl _) rfl

/-- **Silence after removal.**  However a run goes on, through any crashes and
failed calls: no notification is attempted any more about an extrinsic whose
entry a pass has removed before. -/
theorem service_silent_after_removal (ls ls' : List (Label Role Happening Reason))
    (P P' : JournaledPool)
    (hrun : (journaled configService registry).run ls JournaledPool.init = some P)
    (hrun' : (journaled configService registry).run ls' P = some P') :
    ∃ later, P'.world.2.posts = later ++ P.world.2.posts ∧
      ∀ post ∈ later, ∀ p t, P.world.1.Removed p t → post.txHash ≠ t.txHash := by
  have hinit : Coherent .init ∧ Gone .init :=
    ⟨coherent_init, ⟨fun p hp => (by cases hp), fun p hp => (by cases hp), .nil⟩⟩
  have htracks := (service_tracks configService registry).recording journal
  -- what holds where the extrinsics were removed
  obtain ⟨hfollowing, hcoherent, hgone⟩ := htracks.run_keeps journaled_gone.keeps
    (World.along_true _ _ _) (Pool.following_empty _) hinit hrun
  -- and from there on
  have hkeeps : (journaled configService registry).Preserves (course configService)
      (fun r w => w.1.phase r) (fun _ _ => True) (fun _ => True) fun w =>
        (Coherent w.1 ∧ Gone w.1) ∧ Silent (fun txHash => ∃ p ∈ P.world.1.removed,
          txHash ∈ p.hdels) P.world.2.posts w.1 w.2 :=
    journaled_gone.and ((journaled_silent _ _).assuming fun _ h => h.2)
  obtain ⟨-, -, hsilent⟩ := htracks.run_keeps hkeeps.keeps (World.along_true _ _ _) hfollowing
    ⟨⟨hcoherent, hgone⟩, ⟨fun _ h => h, [], rfl, fun _ hpost => (by cases hpost)⟩⟩ hrun'
  obtain ⟨later, hposts, hlater⟩ := hsilent.posts
  refine ⟨later, hposts, fun post hpost p t hremoved heq => hlater post hpost ?_⟩
  exact ⟨p, hremoved.1, heq ▸ hremoved.mem_hdels hcoherent⟩

/-- After the entry of a sign-up is removed the process dies, and the next
sign-up is posted about, but the first no more. -/
theorem service_silent_after_removal_signup : ∃ P P' : JournaledPool,
    P'.world.2.posts.map Post.txHash = [8, 7] ∧
      (∃ p, P.world.1.Removed p (signupStatus 7)) ∧
        ∃ later, P'.world.2.posts = later ++ P.world.2.posts ∧ ∀ post ∈ later, post.txHash ≠ 7 := by
  let W := journaled (.attempts 1 zero_le_one) ⟨fun _ => none⟩
  let ls := signupScanned ++ [.reply .notifier (granted 0 0)]
  let ls' := signupSteps 8 0 ++ [.env (.land (signupStatus 8)),
    .env (.produce ⟨3, 0, [8], [batchCompleted]⟩), .reply .notifier (granted 0 0), .crash] ++
      firstScan 11
  have hstate : (W.run ls JournaledPool.init).map (fun P =>
      (P.world.1.removed.map fun p => (p.height, p.pending), P.world.1.chain.blocks)) =
        some ([(1, [signupStatus 7])], [genesis, ⟨2, 0, [7], [batchCompleted]⟩]) := by
    decide +kernel
  have hstate' : ((W.run ls JournaledPool.init).bind (W.run ls')).map
      (fun P' => P'.world.2.posts.map Post.txHash) = some [8, 7] := by decide +kernel
  obtain ⟨P, hrun, hP⟩ := Option.map_eq_some_iff.mp hstate
  obtain ⟨hremoved, hblocks⟩ := Prod.mk.inj hP
  rw [hrun, Option.bind_some] at hstate'
  obtain ⟨P', hrun', hP'⟩ := Option.map_eq_some_iff.mp hstate'
  obtain ⟨p, hpasses, hpass⟩ := List.map_eq_singleton_iff.mp hremoved
  obtain ⟨hheight, hpending⟩ := Prod.mk.inj hpass
  have hsignup : P.world.1.Removed p (signupStatus 7) := by
    refine ⟨by simp [hpasses], by simp [hpending], .inr ⟨⟨2, 0, [7], [batchCompleted]⟩, ?_, ?_⟩⟩
    · rw [hblocks, hheight]
      rfl
    · exact List.mem_singleton_self 7
  obtain ⟨later, hposts, hlater⟩ := service_silent_after_removal ls ls' P P' hrun hrun'
  exact ⟨P, P', hP', ⟨p, hsignup⟩, later, hposts, fun post hpost => hlater post hpost p _ hsignup⟩

end AccountService
