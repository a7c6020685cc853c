import AccountService.Overtaking

/-!
# Notifications before removals

A pass posts about the watched extrinsics of its block one after the other, and
only then removes their entries.  A pass that is cut short by a crash leaves the
entries on the list and its block ahead of the scanner.

The loop over the attempts runs while fewer have failed than the settings allow,
so it makes none where the settings allow none.
-/

namespace AccountService

open Async

/-! ## The posts of a pass -/

/-- The outcomes of the posts about an extrinsic, in order. -/
def Pass.postsFor (p : Pass) (txHash : Hash) : List Bool :=
  p.notices.reverse.flatMap fun n => if n.txHash = txHash then n.posts else []

/-- The notices of a pass are about what it has found, in order but for what is
still to do, and nothing was posted after a success. -/
structure Pass.Orderly (todo : List (Hash × ℕ)) (p : Pass) : Prop where
  notices : (p.notices.map fun n => (n.txHash, n.txIndex)).reverse ++ todo = p.found
  last : ∀ n ∈ p.notices, ∀ before after, n.posts = before ++ true :: after → after = []

namespace Pass.Orderly

variable {p : Pass} {todo : List (Hash × ℕ)}

/-- One notice for each extrinsic. -/
theorem nodup (h : p.Orderly todo) (hfound : (p.found.map Prod.fst).Nodup) :
    (p.notices.reverse.map Notice.txHash).Nodup := by
  rw [← h.notices, List.map_append, List.map_reverse, List.map_map] at hfound
  rw [List.map_reverse]
  exact (List.nodup_append'.mp hfound).1

/-- The posts about an extrinsic are those of its notice. -/
private theorem flatMap_posts {notices : List Notice} (hnodup : (notices.map Notice.txHash).Nodup)
    {n : Notice} (hn : n ∈ notices) :
    (notices.flatMap fun n' => if n'.txHash = n.txHash then n'.posts else []) = n.posts := by
  induction notices with
  | nil => cases hn
  | cons n' notices ih =>
      rw [List.map_cons, List.nodup_cons] at hnodup
      rw [List.flatMap_cons]
      rcases List.mem_cons.mp hn with rfl | hn
      · have hnone : (notices.flatMap fun n' => if n'.txHash = n.txHash then n'.posts else []) =
            [] := by
          rw [List.flatMap_eq_nil_iff]
          intro n' hn'
          rw [if_neg]
          exact fun heq => hnodup.1 (heq ▸ List.mem_map_of_mem hn')
        rw [if_pos rfl, hnone, List.append_nil]
      · have hne : n'.txHash ≠ n.txHash := fun heq =>
          hnodup.1 (heq ▸ List.mem_map_of_mem hn)
        rw [if_neg hne, List.nil_append]
        exact ih hnodup.2 hn

theorem postsFor_eq (h : p.Orderly todo) (hfound : (p.found.map Prod.fst).Nodup) {n : Notice}
    (hn : n ∈ p.notices) : p.postsFor n.txHash = n.posts :=
  flatMap_posts (h.nodup hfound) (List.mem_reverse.mpr hn)

/-- **Nothing is posted about an extrinsic after a success.** -/
theorem silent (h : p.Orderly todo) (hfound : (p.found.map Prod.fst).Nodup) (txHash : Hash)
    (before after : List Bool) (hposts : p.postsFor txHash = before ++ true :: after) :
    after = [] := by
  by_cases hnotice : ∃ n ∈ p.notices, n.txHash = txHash
  · obtain ⟨n, hn, rfl⟩ := hnotice
    rw [h.postsFor_eq hfound hn] at hposts
    exact h.last n hn before after hposts
  · have hnone : p.postsFor txHash = [] := by
      unfold Pass.postsFor
      rw [List.flatMap_eq_nil_iff]
      intro n hn
      rw [if_neg]
      exact fun heq => hnotice ⟨n, List.mem_reverse.mp hn, heq⟩
    rw [hnone] at hposts
    simp at hposts

/-- Another post about the extrinsic in hand. -/
theorem posted (h : p.Orderly todo) {configService : ConfigService} {txHash : Hash}
    (hmay : p.MayPost configService txHash) (ok : Bool) : (p.posted ok).Orderly todo := by
  obtain ⟨n, notices, hnotices, -, hfailed, -⟩ := hmay
  have hkeys := h.notices
  have hlast := h.last
  rw [hnotices] at hkeys hlast
  have hposted : (p.posted ok).notices = { n with posts := n.posts ++ [ok] } :: notices := by
    simp only [Pass.posted, hnotices]
  refine ⟨?_, ?_⟩
  · rw [hposted]
    exact hkeys
  · rw [hposted]
    refine List.forall_mem_cons.mpr ⟨fun before after hposts => ?_, (List.forall_mem_cons.mp hlast).2⟩
    -- a success is the last of the posts, since those before it have failed
    rcases List.eq_nil_or_concat after with rfl | ⟨after, b, rfl⟩
    · rfl
    · have hconcat : n.posts ++ [ok] = (before ++ true :: after) ++ [b] := by simpa using hposts
      have hinit : n.posts = before ++ true :: after := (List.append_inj' hconcat rfl).1
      exact absurd (hinit ▸ by simp) hfailed

end Pass.Orderly

namespace NotifierPhase

/-- The notices of the pass in progress are in order. -/
def Orderly : NotifierPhase → Prop
  | opened p => p.found = [] ∧ p.notices = []
  | located p | dated p => p.notices = []
  | notifying p todo => p.Orderly todo
  | booking p _ | closing p _ => p.Orderly []
  | _ => True

variable {s : NotifierPhase} {configService : ConfigService} {c : Call}

/-- **A call keeps the notices in order.** -/
theorem Orderly.step {s' : NotifierPhase} {f : Fate Err c.Reply} (h : s.Orderly)
    (hstep : NotifierStep configService s c f s') : s'.Orderly := by
  cases hstep with
  | pending n hash pending => exact ⟨rfl, rfl⟩
  | noneFound p extrinsics hnone =>
      obtain ⟨hfound, hnotices⟩ := h
      exact ⟨by simp [hfound, hnotices], fun n hn => by simp [hnotices] at hn⟩
  | someFound p extrinsics hsome => exact h.2
  | events p records =>
      have hnone : p.notices = [] := h
      exact ⟨by simp [hnone], fun n hn => by simp [hnone] at hn⟩
  | entry p e todo hsettled status =>
      refine ⟨?_, List.forall_mem_cons.mpr ⟨by simp, h.last⟩⟩
      rw [← h.notices]
      simp
  | post p todo txHash url body hmay f => exact Pass.Orderly.posted h hmay _
  | _ => first | exact h | trivial

end NotifierPhase

/-! ## What a removal rests on -/

/-- The events of an extrinsic contain a success event and no failure. -/
def Block.Succeeded (b : Block) (txIndex : ℕ) (successEvent : EventName) : Prop :=
  (∀ r ∈ b.events, r.isOf txIndex → r.event.failure = none) ∧
    ∃ r ∈ b.events, r.isOf txIndex ∧ r.event.name = successEvent

/-- For every entry a pass removes because its extrinsic is in the block and has
succeeded, a post has succeeded, or as many have failed as the settings allow
and at least one. -/
def Pass.Attempted (configService : ConfigService) (chain : Chain) (p : Pass) : Prop :=
  ∀ b, chain.blocks[p.height]? = some b → ∀ t ∈ p.pending, ∀ i,
    b.extrinsics[i]? = some t.txHash → b.Succeeded i t.successEvent →
      true ∈ p.postsFor t.txHash ∨
        max 1 configService.healthCheckMaxRetries ≤ (p.postsFor t.txHash).count false

/-- As many failures as the settings allow. -/
private theorem failures_of_length {configService : ConfigService}
    (hretries : 0 < configService.healthCheckMaxRetries) {posts : List Bool} (hfailed : true ∉ posts)
    (hlength : ⌈configService.healthCheckMaxRetries⌉₊ ≤ posts.length) :
    max 1 configService.healthCheckMaxRetries ≤ (posts.count false : ℚ) := by
  have hall : posts.count false = posts.length := by
    rw [List.count_eq_length]
    intro ok hok
    cases ok with
    | true => exact absurd hok hfailed
    | false => rfl
  rw [hall]
  have hone : 1 ≤ posts.length := (Nat.one_le_ceil_iff.mpr hretries).trans hlength
  exact max_le (by exact_mod_cast hone) (Nat.ceil_le.mp hlength)

/-- **A pass whose removals are due** has dealt with what it removes. -/
theorem Pass.attempted {configService : ConfigService}
    (hretries : 0 < configService.healthCheckMaxRetries) {w : ServiceWorld}
    (hcoherent : Coherent w) {p : Pass} {b : Block} (hb : w.chain.blocks[p.height]? = some b)
    (hpending : ∀ t ∈ p.pending, t ∈ w.watchList) (hdone : p.Done b)
    (hsettled : p.Settled configService) (hcomplete : p.Complete) (horderly : p.Orderly [])
    (hfoundOnce : (p.found.map Prod.fst).Nodup) : p.Attempted configService w.chain := by
  intro b' hb' t ht i hi ⟨hnone, r, hr, hof, hname⟩
  obtain rfl : b = b' := Option.some.inj (hb.symm.trans hb')
  have hfound : (t.txHash, i) ∈ p.found := by
    rw [hdone.found, mem_extrinsicIndices]
    exact ⟨List.mem_zipIdx_iff_getElem?.mpr hi, t, ht, rfl⟩
  have hread : p.Read b := hdone.read.resolve_left fun hnil => by
    rw [hnil] at hfound
    cases hfound
  obtain ⟨n, hn, hhash, hindex⟩ : ∃ n ∈ p.notices, n.txHash = t.txHash ∧ n.txIndex = i :=
    hcomplete _ hfound
  -- the entry read for the notice is the one that was pending
  obtain ⟨t', ht', hhash', hstatus⟩ := hread.entries n hn
  have hsame : t' = t := by
    have hlisted := hcoherent.traced.hget_eq hcoherent.inclusions (hpending t ht)
    have hlisted' := hcoherent.traced.hget_eq hcoherent.inclusions (hpending t' ht')
    rw [hhash', hhash, hlisted] at hlisted'
    exact (Option.some.inj hlisted').symm
  have howed : n.Owed p.events := by
    refine ⟨fun r' hr' hof' => ?_, t, hsame ▸ hstatus, r, ?_, hindex ▸ hof, hname⟩
    · have hmem : r' ∈ b.events := hread.records ▸ List.mem_of_mem_filter hr'
      exact hnone r' hmem (hindex ▸ hof')
    · refine List.mem_filter.mpr ⟨hread.records ▸ hr, List.any_eq_true.mpr ⟨_, hfound, hof⟩⟩
  have hposts : p.postsFor t.txHash = n.posts := hhash ▸ horderly.postsFor_eq hfoundOnce hn
  rw [hposts]
  by_cases hsuccess : true ∈ n.posts
  · exact .inl hsuccess
  · refine .inr (failures_of_length hretries hsuccess ?_)
    exact ((hsettled n hn).attempted howed).resolve_left hsuccess

/-! ## What a scan has not come to -/

namespace NotifierPhase

/-- The scan in progress works beyond the last seen block. -/
def Beyond (lastSeen : ℕ) : NotifierPhase → Prop
  | next n | reached n _ | confirming n _ | halted n _ | checked n _ | passed n => lastSeen < n
  | opened p | located p | dated p | notifying p _ | booking p _ | closing p _ =>
      lastSeen < p.height
  | _ => True

theorem Beyond.pass {s : NotifierPhase} {lastSeen : ℕ} (h : s.Beyond lastSeen) {p : Pass}
    (hp : s.pass = some p) : lastSeen < p.height := by
  cases s with
  | opened _ | located _ | dated _ | notifying _ _ | booking _ _ | closing _ _ =>
      rw [← Option.some.inj hp]
      exact h
  | _ => cases hp

/-- **A call of a scan** keeps it beyond the last seen block. -/
theorem Beyond.step {w : ServiceWorld} {configService : ConfigService} {c : Call}
    {f : Fate Err c.Reply} {s' : NotifierPhase} (h : w.notifier.Beyond (w.lastSeen.getD 0))
    (hcoherent : Coherent w) (hstep : NotifierStep configService w.notifier c f s') {cost : ℕ} :
    s'.Beyond ((w.carryOut cost c f.effect).lastSeen.getD 0) := by
  have hphase := hcoherent.bearings.phase
  generalize w.notifier = s at h hstep hphase
  cases hstep with
  | births b pending =>
      obtain rfl : b = w.lastSeen.getD 0 := hphase
      exact Nat.lt_succ_of_le (TxnNotifierService.le_startingBlock _ pending)
  | post p todo txHash url body hmay f =>
      rw [ServiceWorld.carryOut_lastSeen (by simp)]
      exact h
  | unread p hsettled hcomplete f e hseen =>
      rw [ServiceWorld.carryOut_lastSeen (by simp)]
      exact h
  | unbooked p savedCapacity f e hseen =>
      rw [ServiceWorld.carryOut_lastSeen (by simp)]
      exact h
  | book p savedCapacity seconds f =>
      rw [ServiceWorld.carryOut_lastSeen (by simp)]
      exact h
  | store n reply => exact Nat.lt_succ_self n
  | _ => first | exact h | trivial

/-- The start-up finds an empty list only where it is empty. -/
theorem step_ne_empty {w : ServiceWorld} {configService : ConfigService} {c : Call}
    {f : Fate Err c.Reply} {s' : NotifierPhase}
    (hstep : NotifierStep configService w.notifier c f s') (hlisted : w.watchList ≠ [])
    (hreplies : ∀ reply, f.effect = some reply → w.Replies c reply) : s' ≠ .empty := by
  generalize w.notifier = s at hstep
  cases hstep with
  | noneAtStart =>
      obtain ⟨⟨pick, hreply⟩, -⟩ := hreplies [] rfl
      have hnone : w.watchList.map ITxStatus.txHash = [] := hreply
      exact absurd (List.map_eq_nil_iff.mp hnone) hlisted
  | _ => simp

end NotifierPhase

/-! ## The invariant -/

/-- What holds of the notices of the service. -/
structure Notifying (configService : ConfigService) (w : ServiceWorld) : Prop where
  orderly : w.notifier.Orderly
  beyond : w.notifier.Beyond (w.lastSeen.getD 0)
  removed : ∀ p ∈ w.removed, p.Orderly [] ∧
    (0 < configService.healthCheckMaxRetries → p.Attempted configService w.chain)
  cut : ∀ e ∈ w.cut, ∃ t ∈ w.watchList, t.txHash = e.2 ∧ w.chain.IncludesAt t.txHash e.1 ∧
    w.Ahead t.txHash e.1 ∧ w.notifier ≠ .empty

namespace Notifying

variable {configService : ConfigService} {w : ServiceWorld} {c : Call} {cost : ℕ}
  {f : Fate Err c.Reply}

/-- A step that leaves the list and the passes alone. -/
private theorem of_eq {w' : ServiceWorld} (h : Notifying configService w)
    (hchain : w'.chain = w.chain) (hwatchList : w'.watchList = w.watchList)
    (hlastSeen : w'.lastSeen = w.lastSeen) (hremoved : w'.removed = w.removed)
    (hcut : w'.cut = w.cut) (hnotifier : w'.notifier = w.notifier) :
    Notifying configService w' := by
  constructor
  · rw [hnotifier]
    exact h.orderly
  · rw [hnotifier, hlastSeen]
    exact h.beyond
  · rw [hremoved, hchain]
    exact h.removed
  · rw [hcut, hwatchList, hchain, hnotifier]
    intro e he
    obtain ⟨t, ht, hhash, hincluded, hahead, hempty⟩ := h.cut e he
    refine ⟨t, ht, hhash, hincluded, ⟨?_, ?_⟩, hempty⟩
    · rw [hlastSeen]
      exact hahead.lastSeen
    · rw [hnotifier]
      exact hahead.meets

/-- A method of the notifier starts. -/
private theorem start (h : Notifying configService w) {s : NotifierPhase}
    (hs : s = .booting ∨ s = .starting) : Notifying configService { w with notifier := s } := by
  have hquiet : s.Orderly ∧ s.Beyond (w.lastSeen.getD 0) ∧ s ≠ .empty ∧
      ∀ txHash n, s.Meets txHash n := by
    rcases hs with rfl | rfl <;> exact ⟨trivial, trivial, by simp, fun _ _ => trivial⟩
  obtain ⟨horderly, hbeyond, hempty, hmeets⟩ := hquiet
  refine ⟨horderly, hbeyond, h.removed, fun e he => ?_⟩
  obtain ⟨t, ht, hhash, hincluded, hahead, -⟩ := h.cut e he
  exact ⟨t, ht, hhash, hincluded, ⟨hahead.lastSeen, hmeets _ _⟩, hempty⟩

/-- The environment moves. -/
private theorem env (h : Notifying configService w) (hcoherent : Coherent w) {x : Happening}
    {w' : ServiceWorld} (hw : w.env x = some w') : Notifying configService w' := by
  have hkept : ∀ txHash n, w.Ahead txHash n → w'.Ahead txHash n := fun _ _ hahead =>
    hahead.env hw
  rcases ServiceWorld.env_cases hw with ⟨b, hb, hnew, -, rfl⟩ | ⟨n, -, -, rfl⟩ |
    ⟨status, hstatus, -, rfl⟩ | ⟨status, -, rfl⟩ | ⟨epoch, rfl⟩
  · refine ⟨h.orderly, h.beyond, fun p hp => ⟨(h.removed p hp).1, fun hretries b' hb' => ?_⟩,
      fun e he => ?_⟩
    · -- the block of the pass was there before
      obtain ⟨b'', hb'', -⟩ := hcoherent.reading.removed p hp
      have hpush : (w.chain.push b hb hnew).blocks[p.height]? = some b'' := Chain.push_get hb''
      obtain rfl : b'' = b' := Option.some.inj (hpush.symm.trans hb')
      exact (h.removed p hp).2 hretries b'' hb''
    · obtain ⟨t, ht, hhash, ⟨b', hb', hmem⟩, hahead, hempty⟩ := h.cut e he
      have hpush : (w.chain.push b hb hnew).blocks[e.1]? = some b' := Chain.push_get hb'
      exact ⟨t, ht, hhash, ⟨b', hpush, hmem⟩, hkept _ _ hahead, hempty⟩
  · exact h.of_eq rfl rfl rfl rfl rfl rfl
  · refine ⟨h.orderly, h.beyond, h.removed, fun e he => ?_⟩
    obtain ⟨t, ht, hhash, hincluded, hahead, hempty⟩ := h.cut e he
    have hne := hcoherent.traced.not_listed hcoherent.inclusions hstatus ht
    exact ⟨t, WatchList.mem_hset.mpr (.inl ⟨ht, hne⟩), hhash, hincluded, hkept _ _ hahead, hempty⟩
  · exact h.of_eq rfl rfl rfl rfl rfl rfl
  · exact h.of_eq rfl rfl rfl rfl rfl rfl

/-- An entry that was cut off stays ahead until it is removed. -/
private theorem cut_answer (h : Notifying configService w) (hcoherent : Coherent w)
    (hcall : NotifierCall configService w.notifier c)
    (hreplies : ∀ reply, f.effect = some reply → w.Replies c reply) {e : ℕ × Hash}
    (he : e ∈ (w.carryOut cost c f.effect).cut) :
    ∃ t ∈ (w.carryOut cost c f.effect).watchList, t.txHash = e.2 ∧
      w.chain.IncludesAt t.txHash e.1 ∧
        ((w.carryOut cost c f.effect).observe configService .notifier (.await c f)).Ahead
          t.txHash e.1 ∧ w.notifier.move configService (.await c f) ≠ .empty := by
  -- the removals take an entry off the list exactly if they take it off the record
  have hboth : e ∈ w.cut ∧ ∀ t ∈ w.watchList, t.txHash = e.2 →
      t ∈ (w.carryOut cost c f.effect).watchList := by
    by_cases hc : ∃ hdels, c = .exec hdels
    · obtain ⟨hdels, rfl⟩ := hc
      cases hf : f.effect with
      | none =>
          rw [hf, ServiceWorld.carryOut_none] at he
          rw [ServiceWorld.carryOut_none]
          exact ⟨he, fun t ht _ => ht⟩
      | some _ =>
          rw [hf] at he
          obtain ⟨hmem, hspared⟩ := List.mem_filter.mp he
          refine ⟨hmem, fun t ht hhash => WatchList.mem_hdel.mpr ⟨ht, ?_⟩⟩
          rw [hhash]
          exact of_decide_eq_true hspared
    · have hne : ∀ hdels, c ≠ .exec hdels := fun hdels heq => hc ⟨hdels, heq⟩
      rw [ServiceWorld.carryOut_cut hne] at he
      rw [ServiceWorld.carryOut_watchList hne]
      exact ⟨he, fun t ht _ => ht⟩
  obtain ⟨t, ht, hhash, hincluded, hahead, hempty⟩ := h.cut e hboth.1
  have ht' := hboth.2 t ht hhash
  refine ⟨t, ht', hhash, hincluded, ?_, ?_⟩
  · exact hahead.answer hcoherent hcall ht' hincluded (fun _ heq => absurd heq hempty) hreplies
  · exact NotifierPhase.step_ne_empty (hcall.step f) (List.ne_nil_of_mem ht) hreplies

/-- **A pass removes** only what it has dealt with. -/
private theorem removed_answer (h : Notifying configService w) (hcoherent : Coherent w)
    (hcall : NotifierCall configService w.notifier c) {p : Pass}
    (hp : p ∈ (w.carryOut cost c f.effect).removed) : p.Orderly [] ∧
      (0 < configService.healthCheckMaxRetries → p.Attempted configService w.chain) := by
  rcases ServiceWorld.mem_carryOut_removed hp with hold | ⟨hdels, rfl, hpass⟩
  · exact h.removed p hold
  · have horderly := h.orderly
    have hpending := hcoherent.reading.pending p hpass
    have hreads := hcoherent.reading.reads p hpass
    obtain ⟨b, hb, -⟩ := hcoherent.bearings.phase.pass hpass
    generalize w.notifier = s at hcall hpass horderly hreads
    cases hcall with
    | remove p' booked hsettled hcomplete =>
        obtain rfl := Option.some.inj hpass
        -- the pass that is closing has read its block and settled every notice
        have hdone : p'.Done b := hreads b hb
        refine ⟨horderly, fun hretries => Pass.attempted hretries hcoherent hb hpending hdone
          hsettled hcomplete horderly ?_⟩
        exact Traced.found_nodup hcoherent.inclusions hcoherent.timeliness hb hdone.found hpending

/-- What a crash cuts off is on the list, with its block ahead. -/
private theorem crash (h : Notifying configService w) (hcoherent : Coherent w) :
    Notifying configService w.crash := by
  refine ⟨trivial, trivial, h.removed, fun e he => ?_⟩
  rcases List.mem_append.mp he with hnow | hold
  · obtain ⟨p, hpass, hmem⟩ := List.mem_flatMap.mp hnow
    obtain ⟨found, hfound, rfl⟩ := List.mem_map.mp hmem
    have hp := Option.mem_toList.mp hpass
    have hpending := hcoherent.reading.pending p hp
    obtain ⟨b, hb, -⟩ := hcoherent.bearings.phase.pass hp
    -- what the pass in progress has found so far
    have hreads : p.found = [] ∨ p.found = extrinsicIndices p.pending b.extrinsics := by
      have hreads := hcoherent.reading.reads p hp b hb
      generalize w.notifier = s at hp hreads
      cases s with
      | opened _ =>
          obtain rfl := Option.some.inj hp
          exact .inl hreads.1
      | located _ | dated _ | closing _ _ =>
          obtain rfl := Option.some.inj hp
          exact .inr hreads.1
      | notifying _ _ =>
          obtain rfl := Option.some.inj hp
          exact .inr hreads.1.found
      | booking _ _ =>
          obtain rfl := Option.some.inj hp
          exact .inr hreads.found
      | _ => cases hp
    have hindices : p.found = extrinsicIndices p.pending b.extrinsics :=
      hreads.resolve_left fun hnil => by
        rw [hnil] at hfound
        cases hfound
    rw [hindices, mem_extrinsicIndices] at hfound
    obtain ⟨hmem, t, ht, hhash⟩ := hfound
    refine ⟨t, hpending t ht, hhash, ⟨b, hb, ?_⟩, ⟨h.beyond.pass hp, trivial⟩, ?_⟩
    · rw [hhash]
      exact List.fst_mem_of_mem_zipIdx hmem
    · simp [ServiceWorld.crash]
  · obtain ⟨t, ht, hhash, hincluded, hahead, -⟩ := h.cut e hold
    exact ⟨t, ht, hhash, hincluded, ⟨hahead.lastSeen, trivial⟩, by simp [ServiceWorld.crash]⟩

end Notifying

variable {configService : ConfigService} {registry : Registry}

private theorem service_notifying : NotifierPreserves configService registry (fun _ _ => True)
    Coherent (Notifying configService) where
  besides w w₀ h := h.of_eq rfl rfl rfl rfl rfl rfl
  env x P w' _ hcoherent h hw := h.env hcoherent hw
  start reason P s _ _ h hs := h.start hs
  answer x c P f w' cost _ hcall hcoherent h _ hreplies := by
    constructor
    · rw [ServiceWorld.observe_notifier_notifier, ServiceWorld.carryOut_notifier]
      exact h.orderly.step (hcall.step f)
    · rw [ServiceWorld.observe_notifier_notifier, ServiceWorld.carryOut_notifier,
        ServiceWorld.observe_toOutside]
      exact h.beyond.step hcoherent (hcall.step f)
    · rw [ServiceWorld.observe_toRecord, ServiceWorld.observe_toOutside,
        ServiceWorld.carryOut_chain]
      exact fun p hp => h.removed_answer hcoherent hcall hp
    · rw [ServiceWorld.observe_toRecord, ServiceWorld.observe_notifier_notifier,
        ServiceWorld.carryOut_notifier]
      intro e he
      obtain ⟨t, ht, hrest⟩ := h.cut_answer hcoherent hcall hreplies he
      refine ⟨t, ?_, ?_⟩
      · rw [ServiceWorld.observe_toOutside]
        exact ht
      · simpa using hrest
  crash P _ hcoherent h := h.crash hcoherent

/-! ## The theorem -/

/-- No notification is dropped: a pass removes the entry of an extrinsic that
has succeeded only after it has been attempted as often as the settings ask, it
posts nothing after a success, and what a crash has cut off is still on the
list, with its block ahead of the scanner. -/
structure Notified (configService : ConfigService) (w : ServiceWorld) : Prop where
  attempted : ∀ p ∈ w.removed, p.Attempted configService w.chain
  silent : ∀ p ∈ w.notifier.pass.toList ++ w.removed, ∀ txHash before after,
    p.postsFor txHash = before ++ true :: after → after = []
  again : ∀ e ∈ w.cut, ∃ t ∈ w.watchList, t.txHash = e.2 ∧ w.Ahead t.txHash e.1

namespace Notifying

variable {w : ServiceWorld}

/-- Nothing is posted after a success in the pass in progress. -/
private theorem silent_pass (h : Notifying configService w) (hcoherent : Coherent w) {p : Pass}
    (hp : w.notifier.pass = some p) (txHash : Hash) (before after : List Bool)
    (hposts : p.postsFor txHash = before ++ true :: after) : after = [] := by
  have hpending := hcoherent.reading.pending p hp
  have horderly := h.orderly
  obtain ⟨b, hb, -⟩ := hcoherent.bearings.phase.pass hp
  have hreads := hcoherent.reading.reads p hp b hb
  -- before the extrinsics are gone through there are no posts
  have hnothing : p.notices = [] → after = [] := fun hnone => by
    simp [Pass.postsFor, hnone] at hposts
  have hnodup : p.found = extrinsicIndices p.pending b.extrinsics →
      (p.found.map Prod.fst).Nodup := fun hfound =>
    Traced.found_nodup hcoherent.inclusions hcoherent.timeliness hb hfound hpending
  generalize w.notifier = s at hp horderly hreads
  cases s with
  | opened _ =>
      obtain rfl := Option.some.inj hp
      exact hnothing horderly.2
  | located _ | dated _ =>
      obtain rfl := Option.some.inj hp
      exact hnothing horderly
  | notifying _ todo =>
      obtain rfl := Option.some.inj hp
      exact horderly.silent (hnodup hreads.1.found) txHash before after hposts
  | booking _ _ | closing _ _ =>
      obtain rfl := Option.some.inj hp
      exact horderly.silent (hnodup hreads.found) txHash before after hposts
  | _ => cases hp

/-- And in those whose removals were carried out. -/
private theorem silent_removed (h : Notifying configService w) (hcoherent : Coherent w) {p : Pass}
    (hp : p ∈ w.removed) (txHash : Hash) (before after : List Bool)
    (hposts : p.postsFor txHash = before ++ true :: after) : after = [] := by
  have hnodup := (List.nodup_append'.mp (hcoherent.traced.nodup hcoherent.inclusions)).2.1
  have hfound := (List.nodup_flatMap.mp hnodup).1 p hp
  exact (h.removed p hp).1.silent hfound txHash before after hposts

/-- Where an attempt is allowed, no notification is dropped. -/
private theorem notified (h : Notifying configService w) (hcoherent : Coherent w)
    (hretries : 0 < configService.healthCheckMaxRetries) : Notified configService w where
  attempted p hp := (h.removed p hp).2 hretries
  silent p hp := by
    rcases List.mem_append.mp hp with hnow | hold
    · exact h.silent_pass hcoherent (Option.mem_toList.mp hnow)
    · exact h.silent_removed hcoherent hold
  again e he := by
    obtain ⟨t, ht, hhash, -, hahead, -⟩ := h.cut e he
    exact ⟨t, ht, hhash, hahead⟩

end Notifying

/-- Settings with a number of attempts. -/
def ConfigService.attempts (retries : ℚ) (hretries : 0 ≤ retries) : ConfigService :=
  { ConfigService.amountLimit 50 with
    healthCheckMaxRetries := retries
    retries_nonneg := hretries }

/-- The success event of a sign-up. -/
def batchCompleted : EventRecord :=
  ⟨.applyExtrinsic 0, .other ⟨⟨"utility", "BatchCompleted"⟩, by decide⟩⟩

/-- A sign-up succeeds in block 1, which is scanned. -/
def signupScanned : List (Label Role Happening Reason) :=
  signupSteps 7 0 ++
    [.env (.land (signupStatus 7)), .env (.produce ⟨2, 0, [7], [batchCompleted]⟩)] ++
    notifierSteps .bootstrap 2 ++ notifierSteps (.scan 1) 1 ++ [.resume .notifier] ++
    List.replicate 14 (.reply .notifier (granted 0 0))

/-- With no attempt allowed the entry is removed without one. -/
private theorem attempts_zero : ∃ P : ServicePool,
    (service (.attempts 0 le_rfl) ⟨fun _ => none⟩).run signupScanned ServicePool.init = some P ∧
      ¬Notified (.attempts 0 le_rfl) P.world := by
  have hstate : ((service (.attempts 0 le_rfl) ⟨fun _ => none⟩).run signupScanned
      ServicePool.init).map (fun P => (P.world.removed, P.world.chain.blocks)) =
        some ([{ height := 1, hash := 2, pending := [signupStatus 7], found := [(7, 0)],
                 records := [batchCompleted], notices := [⟨7, 0, some (signupStatus 7), []⟩] }],
          [genesis, ⟨2, 0, [7], [batchCompleted]⟩]) := by decide +kernel
  obtain ⟨P, hrun, hP⟩ := Option.map_eq_some_iff.mp hstate
  obtain ⟨hremoved, hblocks⟩ := Prod.mk.inj hP
  refine ⟨P, hrun, fun h => ?_⟩
  have hattempted := h.attempted _ (by rw [hremoved]; exact List.mem_singleton_self _)
    ⟨2, 0, [7], [batchCompleted]⟩ (by rw [hblocks]; rfl) (signupStatus 7) (by simp) 0 rfl
    ⟨by simp [batchCompleted, Event.failure], batchCompleted, by simp, rfl, rfl⟩
  -- nothing was posted
  rcases hattempted with hsuccess | hfailures
  · simp [Pass.postsFor] at hsuccess
  · simp [Pass.postsFor] at hfailures
    norm_num [ConfigService.attempts] at hfailures

/-- **Notifications.**  With a number of attempts that the settings admit, no
notification is dropped in any run exactly if the number is not zero. -/
theorem service_notified_iff (retries : ℚ) (hretries : 0 ≤ retries) :
    (∀ (configService : ConfigService) (registry : Registry)
        (ls : List (Label Role Happening Reason)) (P : ServicePool),
      configService.healthCheckMaxRetries = retries →
        (service configService registry).run ls ServicePool.init = some P →
          Notified configService P.world) ↔ 0 < retries := by
  constructor
  · intro h
    refine hretries.lt_of_ne ?_
    rintro rfl
    obtain ⟨P, hrun, hnot⟩ := attempts_zero
    exact hnot (h _ _ _ P rfl hrun)
  · rintro hpos configService registry ls P rfl hrun
    have hinit : Notifying configService .init :=
      ⟨trivial, trivial, fun p hp => (by cases hp), fun e he => (by cases he)⟩
    obtain ⟨hcoherent, hnotifying⟩ := service_run_keeps service_notifying.preserves hinit hrun
      (World.along_true _ _ _)
    exact hnotifying.notified hcoherent hpos

/-- With one attempt the sign-up is notified before its entry is removed. -/
theorem service_notified_signup : ∃ P : ServicePool,
    (service (.attempts 1 zero_le_one) ⟨fun _ => none⟩).run
        (signupScanned ++ [.reply .notifier (granted 0 0)]) ServicePool.init = some P ∧
      P.world.watchList = [] ∧ Notified (.attempts 1 zero_le_one) P.world := by
  have hstate : ((service (.attempts 1 zero_le_one) ⟨fun _ => none⟩).run
      (signupScanned ++ [.reply .notifier (granted 0 0)]) ServicePool.init).map
        (fun P => P.world.watchList) = some [] := by decide +kernel
  obtain ⟨P, hrun, hP⟩ := Option.map_eq_some_iff.mp hstate
  have hnotified := (service_notified_iff 1 zero_le_one).mpr one_pos
  exact ⟨P, hrun, hP, hnotified _ _ _ P rfl hrun⟩

theorem service_not_notified :
    ¬∀ (configService : ConfigService) (registry : Registry)
        (ls : List (Label Role Happening Reason)) (P : ServicePool),
      (service configService registry).run ls ServicePool.init = some P →
        Notified configService P.world := by
  intro h
  obtain ⟨P, hrun, hnot⟩ := attempts_zero
  exact hnot (h _ _ _ P hrun)

end AccountService
