import AccountService.RetryWorld
import Mathlib.Data.List.Nodup
import Mathlib.Data.List.Perm.Basic

/-!
# Jobs that nobody could pay for

Nothing is missed: what has failed for the fee before a check lists the failed
jobs is moved back once the retries are carried out.  It is retried once, and
nothing else is, as long as no check lists a job whose retry another one still
has to invoke or has just invoked; and where a check does, the job is retried
twice.
-/

namespace AccountService

open Async

/-! ## Failures that somebody has in hand -/

/-- The failures that methods have listed and not retried yet. -/
def Retries.pending (w : Retries) : List Failure := w.marks.flatMap RetryPhase.left

/-- Every failure that was listed for a retry, with its attempt or without. -/
def Retries.taken (w : Retries) : List Failure := w.attempts.map Attempt.failure ++ w.pending

/-- A retry for the failure is still to be invoked or to be carried out. -/
def Retries.InHand (w : Retries) (f : Failure) : Prop :=
  f ∈ w.inFlight.map Attempt.failure ∨ f ∈ w.pending

open scoped List in
/-- What one element of a list of lists is replaced by replaces it altogether. -/
theorem flatMap_set_perm {β γ : Type} {g : β → List γ} {xs : List β} {i : ℕ} {x : β}
    (h : xs[i]? = some x) (y : β) :
    g x ++ (xs.set i y).flatMap g ~ g y ++ xs.flatMap g := by
  induction xs generalizing i with
  | nil => cases h
  | cons z zs ih =>
      cases i with
      | zero =>
          obtain rfl := Option.some.inj h
          exact List.perm_append_comm_assoc _ _ _
      | succ i =>
          calc g x ++ (g z ++ (zs.set i y).flatMap g)
              ~ g z ++ (g x ++ (zs.set i y).flatMap g) := List.perm_append_comm_assoc _ _ _
            _ ~ g z ++ (g y ++ zs.flatMap g) := (ih h).append_left _
            _ ~ g y ++ (g z ++ zs.flatMap g) := List.perm_append_comm_assoc _ _ _

section Pending

variable {w : Retries} {i : ℕ} {f : Failure} {left : List Failure}

theorem pending_retry (h : w.mark i = .listed (f :: left)) :
    (f :: (w.marks.set i (.listed left)).flatMap RetryPhase.left).Perm w.pending := by
  have hperm := flatMap_set_perm (g := RetryPhase.left)
    (Retries.getElem?_of_mark h (by simp)) (.listed left)
  have hcons : (left ++ (f :: (w.marks.set i (.listed left)).flatMap RetryPhase.left)).Perm
      (left ++ w.pending) := List.perm_middle.trans hperm
  exact (List.perm_append_left_iff left).mp hcons

theorem pending_listed (h : w.mark i = .before) (listed : List Failure) :
    ((w.marks.set i (.listed listed)).flatMap RetryPhase.left).Perm (listed ++ w.pending) :=
  flatMap_set_perm (g := RetryPhase.left) (Retries.getElem?_of_mark h (by simp)) (.listed listed)

theorem pending_starts : w.starts.pending = w.pending := by
  simp [Retries.pending, Retries.starts, RetryPhase.left]

/-- Invoking a retry changes neither what was listed nor what is in hand. -/
theorem taken_issued (jobId : String) (h : w.mark i = .listed (f :: left)) :
    (w.issued i (.retry jobId)).taken.Perm w.taken := by
  rw [issued_retry h]
  show ((w.attempts ++ [_]).map Attempt.failure ++ (w.marks.set i _).flatMap RetryPhase.left).Perm _
  rw [List.map_append, List.map_singleton, List.append_assoc, List.singleton_append]
  exact (pending_retry h).append_left _

theorem inHand_issued (jobId : String) (h : w.mark i = .listed (f :: left)) (g : Failure) :
    (w.issued i (.retry jobId)).InHand g ↔ w.InHand g := by
  have hpending := (pending_retry h).mem_iff (a := g)
  rw [issued_retry h]
  show g ∈ (w.inFlight ++ [_]).map Attempt.failure ∨
    g ∈ (w.marks.set i _).flatMap RetryPhase.left ↔ _
  unfold Retries.InHand
  rw [← hpending, List.map_append, List.map_singleton, List.mem_append, List.mem_singleton,
    List.mem_cons, or_assoc]

/-- A listing takes the failed jobs it finds in hand. -/
theorem taken_answered (h : w.mark i = .before) (listed : List Failure) :
    (Retries.taken { w with marks := w.marks.set i (.listed listed) }).Perm (listed ++ w.taken) :=
  ((pending_listed h listed).append_left _).trans (List.perm_append_comm_assoc _ _ _)

theorem inHand_answered (h : w.mark i = .before) (listed : List Failure) (g : Failure) :
    Retries.InHand { w with marks := w.marks.set i (.listed listed) } g ↔
      g ∈ listed ∨ w.InHand g := by
  unfold Retries.InHand
  rw [Retries.pending, (pending_listed h listed).mem_iff, List.mem_append]
  exact or_left_comm

theorem inFlight_lands {k : ℕ} {a : Attempt} (h : w.inFlight[k]? = some a) :
    (a :: w.inFlight.eraseIdx k).Perm w.inFlight := by
  obtain ⟨hlt, rfl⟩ := List.getElem?_eq_some_iff.mp h
  exact List.getElem_cons_eraseIdx_perm hlt

/-- Once an attempt has been carried out, what it was for is in hand no more,
and all else as before. -/
theorem inHand_lands {k : ℕ} {a : Attempt} {jobId : String} (h : w.inFlight[k]? = some a)
    (hne : f ≠ a.failure) : (w.lands k jobId).InHand f ↔ w.InHand f := by
  have hmem : f ∈ w.inFlight.map Attempt.failure ↔
      f = a.failure ∨ f ∈ (w.inFlight.eraseIdx k).map Attempt.failure := by
    rw [← ((inFlight_lands h).map Attempt.failure).mem_iff, List.map_cons, List.mem_cons]
  unfold Retries.InHand
  rw [hmem, or_iff_right hne]
  rfl

end Pending

/-! ## A failure is moved once it is in hand -/

/-- A retry names the job of the failure it was invoked for. -/
def Named (w : Retries) : Prop := ∀ a ∈ w.inFlight, a.jobId = a.failure.job.id

private theorem named_kept : Retries.Kept (fun _ _ => True) (fun _ => True) Named where
  fails _ hJ _ := hJ
  lands _ hJ _ := fun b hb => hJ b (List.mem_of_mem_eraseIdx hb)
  starts _ hJ := hJ
  retries _ hJ hmark := by
    rw [issued_retry hmark]
    intro a ha
    rcases List.mem_append.mp ha with ha | ha
    · exact hJ a ha
    · rw [List.mem_singleton.mp ha]
  lists _ _ _ _ hJ _ := hJ
  dies _ _ _ := fun a ha => absurd ha List.not_mem_nil

/-- No method has listed the failed jobs. -/
def Unlisted (w : Retries) : Prop := ∀ m ∈ w.marks, ∀ left, m ≠ RetryPhase.listed left

/-- A failure for the fee has been moved out, or still stands and is in hand as
soon as a method has listed the failed jobs. -/
def Pursued (f : Failure) (w : Retries) : Prop :=
  f ∈ w.moved ∨ f ∈ w.failed ∧ (Unlisted w ∨ w.InHand f)

section Pursued

variable {f : Failure} {w : Retries}

theorem Pursued.fails (h : Pursued f w) (job : FailedJob) : Pursued f (w.fails job) :=
  h.imp_right fun hf => ⟨List.mem_append_left _ hf.1, hf.2⟩

theorem Pursued.starts (h : Pursued f w) : Pursued f w.starts := by
  refine h.imp_right fun hf => ⟨hf.1, hf.2.imp (fun hunlisted m hm left => ?_) fun hhand => ?_⟩
  · rcases List.mem_append.mp hm with hm | hm
    · exact hunlisted m hm left
    · rw [List.mem_singleton.mp hm]
      simp
  · exact hhand.imp_right fun hpending => by rwa [pending_starts]

theorem Pursued.dies (h : Pursued f w) : Pursued f w.dies :=
  h.imp_right fun hf => ⟨hf.1, .inl fun _ hm => absurd hm List.not_mem_nil⟩

/-- A retry that is carried out moves out the failures of its job. -/
theorem Pursued.lands (hnamed : Named w) (h : Pursued f w) {k : ℕ} {a : Attempt}
    (ha : w.inFlight[k]? = some a) : Pursued f (w.lands k a.jobId) := by
  rcases h with hmoved | ⟨hfailed, hhand⟩
  · exact .inl (List.mem_append_left _ hmoved)
  · by_cases hid : f.job.id = a.jobId
    · exact .inl (List.mem_append_right _ (List.mem_filter.mpr ⟨hfailed, by simpa using hid⟩))
    · refine .inr ⟨List.mem_filter.mpr ⟨hfailed, by simpa using hid⟩, ?_⟩
      -- the attempt that is carried out is for another failure
      have hne : f ≠ a.failure := by
        rintro rfl
        exact hid (hnamed a (List.mem_of_getElem? ha)).symm
      exact hhand.imp_right (inHand_lands ha hne).mpr

/-- A failure is in hand before and after its retry is invoked. -/
theorem Pursued.retries {i : ℕ} {g : Failure} {left : List Failure}
    (hmark : w.mark i = .listed (g :: left)) (h : Pursued f w) :
    Pursued f (w.issued i (.retry g.job.id)) := by
  have hhand := inHand_issued g.job.id hmark f
  rw [issued_retry hmark] at hhand ⊢
  refine h.imp_right fun hf => ⟨hf.1, .inr (hhand.mpr (hf.2.resolve_left fun hunlisted => ?_))⟩
  exact hunlisted _ (List.mem_of_getElem? (Retries.getElem?_of_mark hmark (by simp))) _ rfl

/-- A listing takes in hand what stands. -/
theorem Pursued.lists {i : ℕ} (hmark : w.mark i = .before) (hfee : f.forFee = true)
    (h : Pursued f w) :
    Pursued f { w with marks := w.marks.set i (.listed (w.failed.filter Failure.forFee)) } := by
  refine h.imp_right fun hf => ⟨hf.1, .inr ?_⟩
  exact (inHand_answered hmark _ f).mpr (.inl (List.mem_filter.mpr ⟨hf.1, hfee⟩))

end Pursued

/-- A failure for the fee is pursued in every run. -/
private theorem pursued_kept {f : Failure} (hfee : f.forFee = true) :
    Retries.Kept (fun _ _ => True) (fun w => True ∧ Named w) (Pursued f) where
  fails _ hJ _ := hJ.fails _
  lands hnamed hJ ha := hJ.lands hnamed.2 ha
  starts _ hJ := hJ.starts
  retries _ hJ hmark := hJ.retries hmark
  lists _ _ _ _ hJ hmark := hJ.lists hmark hfee
  dies _ _ hJ := hJ.dies

/-! ## A failure is retried once -/

/-- No failure has more than one attempt, each attempt was made while its failure
stood, and what a retry has moved out had failed for the fee. -/
structure RetriedOnce (w : Retries) : Prop where
  once : (w.attempts.map Attempt.failure).Nodup
  standing : ∀ a ∈ w.attempts, a.standing = true
  forFee : ∀ f ∈ w.moved, f.forFee = true

/-- Every failure that was listed is in one hand until it is moved out. -/
structure Single (w : Retries) : Prop where
  ids : (w.failed.map fun f => f.job.id).Nodup
  counted : ∀ f, f ∈ w.failed ∨ f ∈ w.taken → f.number < w.failures
  once : w.taken.Nodup
  flying : (w.inFlight.map Attempt.failure).Sublist (w.attempts.map Attempt.failure)
  inHand : ∀ f, w.InHand f → f ∈ w.failed ∧ f.forFee = true
  attempted : ∀ a ∈ w.attempts, a.failure ∈ w.inFlight.map Attempt.failure ∨ a.failure ∉ w.failed
  standing : ∀ a ∈ w.attempts, a.standing = true
  forFee : ∀ f ∈ w.moved, f.forFee = true

section Single

variable {w : Retries}

theorem Single.retriedOnce (h : Single w) : RetriedOnce w :=
  ⟨(List.nodup_append.mp h.once).1, h.standing, h.forFee⟩

/-- Two failures that stand are of different jobs. -/
theorem Single.eq_of_id (h : Single w) {f g : Failure} (hf : f ∈ w.failed) (hg : g ∈ w.failed)
    (hid : f.job.id = g.job.id) : f = g :=
  List.inj_on_of_nodup_map h.ids hf hg hid

/-- A job fails. -/
theorem Single.fails (h : Single w) {job : FailedJob} (hjob : job.id ∉ w.failed.map (·.job.id)) :
    Single (w.fails job) where
  ids := by
    show ((w.failed ++ [_]).map fun f : Failure => f.job.id).Nodup
    rw [List.map_append, List.map_singleton]
    exact List.nodup_append_comm.mp (List.nodup_cons.mpr ⟨hjob, h.ids⟩)
  counted f hf := by
    show f.number < w.failures + 1
    rcases hf with hf | hf
    · rcases List.mem_append.mp hf with hf | hf
      · exact (h.counted f (.inl hf)).trans (Nat.lt_succ_self _)
      · rw [List.mem_singleton.mp hf]
        exact Nat.lt_succ_self _
    · exact (h.counted f (.inr hf)).trans (Nat.lt_succ_self _)
  once := h.once
  flying := h.flying
  inHand f hf := ⟨List.mem_append_left _ (h.inHand f hf).1, (h.inHand f hf).2⟩
  attempted a ha := by
    refine (h.attempted a ha).imp_right fun hgone hfailed => ?_
    rcases List.mem_append.mp hfailed with hfailed | hnew
    · exact hgone hfailed
    · -- the new failure has a number of its own
      have hlt := h.counted a.failure (.inr (List.mem_append_left _ (List.mem_map_of_mem ha)))
      rw [List.mem_singleton.mp hnew] at hlt
      exact absurd hlt (Nat.lt_irrefl _)
  standing := h.standing
  forFee := h.forFee

theorem Single.starts (h : Single w) : Single w.starts where
  ids := h.ids
  counted f hf := h.counted f (hf.imp_right fun hf => by
    rwa [Retries.taken, pending_starts] at hf)
  once := by
    rw [Retries.taken, pending_starts]
    exact h.once
  flying := h.flying
  inHand f hf := h.inHand f (hf.imp_right fun hf => by rwa [pending_starts] at hf)
  attempted := h.attempted
  standing := h.standing
  forFee := h.forFee

theorem Single.dies (h : Single w) : Single w.dies where
  ids := h.ids
  counted f hf := h.counted f (.inl (hf.resolve_right List.not_mem_nil))
  once := List.nodup_nil
  flying := List.Sublist.refl _
  inHand f hf := absurd hf (by rintro (hf | hf) <;> cases hf)
  attempted a ha := absurd ha List.not_mem_nil
  standing a ha := absurd ha List.not_mem_nil
  forFee := h.forFee

/-- A retry is carried out: it moves out the failure it was invoked for, and
nothing else. -/
theorem Single.lands (hnamed : Named w) (h : Single w) {k : ℕ} {a : Attempt}
    (ha : w.inFlight[k]? = some a) : Single (w.lands k a.jobId) := by
  have hmem : a ∈ w.inFlight := List.mem_of_getElem? ha
  obtain ⟨hfailed, hfee⟩ := h.inHand a.failure (.inl (List.mem_map_of_mem hmem))
  have hid : a.jobId = a.failure.job.id := hnamed a hmem
  have hperm := (inFlight_lands ha).map Attempt.failure
  have hnodup : (w.inFlight.map Attempt.failure).Nodup :=
    h.flying.nodup (List.nodup_append.mp h.once).1
  -- what is in hand now is not what was carried out
  have hne : ∀ f, (w.lands k a.jobId).InHand f → f ≠ a.failure := by
    rintro f (hf | hf) rfl
    · have hcons : (a.failure :: (w.inFlight.eraseIdx k).map Attempt.failure).Nodup :=
        hperm.nodup_iff.mpr hnodup
      exact (List.nodup_cons.mp hcons).1 hf
    · have hattempt := h.flying.subset (List.mem_map_of_mem hmem)
      exact (List.nodup_append.mp h.once).2.2 _ hattempt _ hf rfl
  refine ⟨?_, ?_, h.once, ?_, ?_, ?_, h.standing, ?_⟩
  · exact ((List.filter_sublist (l := w.failed)).map _).nodup h.ids
  · intro f hf
    exact h.counted f (hf.imp_left fun hf => (List.mem_filter.mp hf).1)
  · exact ((List.eraseIdx_sublist w.inFlight k).map _).trans h.flying
  · intro f hf
    obtain ⟨hstands, hforFee⟩ := h.inHand f ((inHand_lands ha (hne f hf)).mp hf)
    refine ⟨List.mem_filter.mpr ⟨hstands, ?_⟩, hforFee⟩
    have hother : f.job.id ≠ a.jobId := fun heq =>
      hne f hf (h.eq_of_id hstands hfailed (heq.trans hid))
    simpa using hother
  · intro b hb
    by_cases hcause : b.failure = a.failure
    · refine .inr fun hstill => ?_
      have hother := (List.mem_filter.mp hstill).2
      rw [hcause, hid] at hother
      simp at hother
    · refine (h.attempted b hb).imp (fun hflight => ?_) fun hgone hstill =>
        hgone (List.mem_filter.mp hstill).1
      exact (List.mem_cons.mp (hperm.mem_iff.mpr hflight)).resolve_left hcause
  · intro f hf
    rcases List.mem_append.mp hf with hf | hf
    · exact h.forFee f hf
    · obtain ⟨hstands, hjob⟩ := List.mem_filter.mp hf
      rw [h.eq_of_id hstands hfailed ((of_decide_eq_true hjob).trans hid)]
      exact hfee

/-- A method retries the next of the failures it has listed. -/
theorem Single.retries (h : Single w) {i : ℕ} {g : Failure} {left : List Failure}
    (hmark : w.mark i = .listed (g :: left)) : Single (w.issued i (.retry g.job.id)) := by
  have htaken := taken_issued g.job.id hmark
  have hhand := inHand_issued g.job.id hmark
  have hnext : w.InHand g := .inr ((pending_retry hmark).mem_iff.mp List.mem_cons_self)
  have hstands := (h.inHand g hnext).1
  rw [issued_retry hmark] at htaken hhand ⊢
  refine ⟨h.ids, fun f hf => ?_, htaken.nodup_iff.mpr h.once, ?_, fun f hf => ?_,
    fun a ha => ?_, fun a ha => ?_, h.forFee⟩
  · exact h.counted f (hf.imp_right htaken.mem_iff.mp)
  · simp only [List.map_append]
    exact h.flying.append (List.Sublist.refl _)
  · exact h.inHand f ((hhand f).mp hf)
  · simp only [List.map_append, List.mem_append]
    rcases List.mem_append.mp ha with ha | ha
    · exact (h.attempted a ha).imp_left .inl
    · exact .inl (.inr (List.mem_map_of_mem ha))
  · rcases List.mem_append.mp ha with ha | ha
    · exact h.standing a ha
    · rw [List.mem_singleton.mp ha]
      exact decide_eq_true hstands

/-- A method lists the failed jobs, where no failure for the fee is in hand. -/
theorem Single.lists (h : Single w) {i : ℕ} (hmark : w.mark i = .before)
    (hfresh : ∀ f ∈ w.failed, f.forFee = true → ¬ w.InHand f) :
    Single { w with marks := w.marks.set i (.listed (w.failed.filter Failure.forFee)) } := by
  have htaken := taken_answered hmark (w.failed.filter Failure.forFee)
  have hhand := inHand_answered hmark (w.failed.filter Failure.forFee)
  refine ⟨h.ids, fun f hf => ?_, ?_, h.flying, fun f hf => ?_, h.attempted, h.standing, h.forFee⟩
  · rcases hf with hf | hf
    · exact h.counted f (.inl hf)
    · rcases List.mem_append.mp (htaken.mem_iff.mp hf) with hlisted | hf
      · exact h.counted f (.inl (List.mem_filter.mp hlisted).1)
      · exact h.counted f (.inr hf)
  · refine htaken.nodup_iff.mpr (List.nodup_append.mpr ⟨?_, h.once, ?_⟩)
    · exact (List.Nodup.of_map _ h.ids).filter _
    · -- what was listed before is in hand or gone
      rintro f hlisted g hg rfl
      obtain ⟨hstands, hfee⟩ := List.mem_filter.mp hlisted
      have hfree := hfresh f hstands hfee
      rcases List.mem_append.mp hg with hattempt | hpending
      · obtain ⟨a, ha, rfl⟩ := List.mem_map.mp hattempt
        rcases h.attempted a ha with hflight | hgone
        · exact hfree (.inl hflight)
        · exact hgone hstands
      · exact hfree (.inr hpending)
  · rcases (hhand f).mp hf with hlisted | hf
    · exact ⟨(List.mem_filter.mp hlisted).1, (List.mem_filter.mp hlisted).2⟩
    · exact h.inHand f hf

end Single

/-! ## Runs -/

/-- The call that lists the failed jobs. -/
def Call.lists : Call → Bool
  | getFailed => true
  | _ => false

theorem Call.lists_getFailed {c : Call} (h : c.lists = true) : c = .getFailed := by
  cases c <;> first | rfl | cases h

/-- A listing finds no failure for the fee that an earlier one has found and
whose retry is still to be invoked or to be carried out. -/
def ListsFresh : Label ℕ RetryChoice Entry → RetryPool → Prop
  | .reply i (.settle fate), P =>
      ∀ c ∈ (P.task i).bind Prog.awaited, c.lists = true → (fate .getFailed).seen.isOk = true →
        ∀ f ∈ P.world.retries.failed, f.forFee = true → ¬ P.world.retries.InHand f
  | _, _ => True

instance {w : Retries} {f : Failure} : Decidable (w.InHand f) :=
  inferInstanceAs (Decidable (_ ∨ _))

instance : ∀ l P, Decidable (ListsFresh l P)
  | .reply i (.settle fate), P =>
      inferInstanceAs (Decidable (∀ c ∈ (P.task i).bind Prog.awaited, c.lists = true →
        (fate .getFailed).seen.isOk = true →
          ∀ f ∈ P.world.retries.failed, f.forFee = true → ¬ P.world.retries.InHand f))
  | .reply _ (.fail _), _ => .isTrue trivial
  | .reply _ (.land _), _ => .isTrue trivial
  | .env _, _ => .isTrue trivial
  | .start _ _, _ => .isTrue trivial
  | .resume _, _ => .isTrue trivial
  | .crash, _ => .isTrue trivial

private theorem single_kept :
    Retries.Kept ListsFresh (fun w => True ∧ Named w) Single where
  fails _ hJ hjob := hJ.fails hjob
  lands hnamed hJ ha := hJ.lands hnamed.2 ha
  starts _ hJ := hJ.starts
  retries _ hJ hmark := hJ.retries hmark
  lists hfresh hawaited hok _ hJ hmark := hJ.lists hmark (hfresh _ hawaited rfl hok)
  dies _ _ hJ := hJ.dies

theorem single_init (failedSet : FailedSet) : Single (RetryPool.init failedSet).world.retries where
  ids := by
    have hids : failedSet.failures.map (fun f => f.job.id) = failedSet.jobs.map FailedJob.id := by
      rw [FailedSet.failures, List.map_map, ← List.zipIdx_map_fst 0 failedSet.jobs, List.map_map,
        List.zipIdx_map_fst]
      rfl
    exact hids ▸ failedSet.nodup
  counted f hf := by
    have hmem : f ∈ failedSet.failures := hf.resolve_right List.not_mem_nil
    obtain ⟨⟨job, n⟩, hjob, rfl⟩ := List.mem_map.mp hmem
    exact List.snd_lt_of_mem_zipIdx hjob
  once := List.nodup_nil
  flying := List.Sublist.refl _
  inHand f hf := absurd hf (by rintro (hf | hf) <;> cases hf)
  attempted a ha := absurd ha List.not_mem_nil
  standing a ha := absurd ha List.not_mem_nil
  forFee f hf := absurd hf List.not_mem_nil

/-- A method has listed the failed jobs, and every retry that follows from the
listings of the worker has been invoked and carried out. -/
def CarriedOut (w : Retries) : Prop := ¬ Unlisted w ∧ ∀ f, ¬ w.InHand f

section Runs

variable {configService : ConfigService} {failedSet : FailedSet}
  {ls ls₁ ls₂ : List (Label ℕ RetryChoice Entry)} {P P₁ P₂ : RetryPool}

/-- In a run whose listings are fresh, no failure is in two hands. -/
theorem single_of_run (hrun : (retriers configService).run ls (RetryPool.init failedSet) = some P)
    (hfresh : (retriers configService).Along ListsFresh ls (RetryPool.init failedSet)) :
    Single P.world.retries := by
  have hkeeps :=
    ((named_kept.preserves configService).under.and (single_kept.preserves configService)).keeps
  exact ((retriers_tracks configService).run_keeps hkeeps hfresh (Pool.following_empty _)
    ⟨fun _ ha => absurd ha List.not_mem_nil, single_init failedSet⟩ hrun).2.2

/-- What has failed for the fee before the first listing is pursued from then
on. -/
theorem pursued_of_run
    (hrun₁ : (retriers configService).run ls₁ (RetryPool.init failedSet) = some P₁)
    (hrun₂ : (retriers configService).run ls₂ P₁ = some P₂) (hunlisted : Unlisted P₁.world.retries)
    {f : Failure} (hfailed : f ∈ P₁.world.retries.failed) (hfee : f.forFee = true) :
    Pursued f P₂.world.retries := by
  obtain ⟨hfollowing, hnamed⟩ := (retriers_tracks configService).run_keeps
    (named_kept.preserves configService).keeps (World.along_true _ _ _) (Pool.following_empty _)
    (fun _ ha => absurd ha List.not_mem_nil) hrun₁
  have hkeeps :=
    ((named_kept.preserves configService).and ((pursued_kept hfee).preserves configService)).keeps
  exact ((retriers_tracks configService).run_keeps hkeeps (World.along_true _ _ _) hfollowing
    ⟨hnamed, .inr ⟨hfailed, .inl hunlisted⟩⟩ hrun₂).2.2

end Runs

/-! ## The condition is needed -/

/-- What is to be carried out has been invoked. -/
def Invoked (w : Retries) : Prop :=
  ∀ f ∈ w.inFlight.map Attempt.failure, f ∈ w.attempts.map Attempt.failure

private theorem invoked_kept : Retries.Kept (fun _ _ => True) (fun _ => True) Invoked where
  fails _ hJ _ := hJ
  lands _ hJ _ := fun f hf => hJ f (((List.eraseIdx_sublist _ _).map _).subset hf)
  starts _ hJ := hJ
  retries _ hJ hmark := by
    rw [issued_retry hmark]
    intro g hg
    simp only [List.map_append, List.mem_append] at hg ⊢
    exact hg.imp_left (hJ g)
  lists _ _ _ _ hJ _ := hJ
  dies _ _ _ := fun f hf => absurd hf List.not_mem_nil

theorem Invoked.mem_taken {w : Retries} (h : Invoked w) {f : Failure} (hf : w.InHand f) :
    f ∈ w.taken :=
  List.mem_append.mpr (hf.imp_left (h f))

/-- A failure that was listed twice stays so, unless the process dies. -/
private theorem repeated_kept :
    Retries.Kept (fun l _ => l ≠ .crash) (fun _ => True) fun w => ¬ w.taken.Nodup where
  fails _ hJ _ := hJ
  lands _ hJ _ := hJ
  starts _ hJ := by
    rw [Retries.taken, pending_starts]
    exact hJ
  retries _ hJ hmark := fun hnodup => hJ ((taken_issued _ hmark).nodup_iff.mp hnodup)
  lists _ _ _ _ hJ hmark := fun hnodup =>
    hJ (List.nodup_append.mp ((taken_answered hmark _).nodup_iff.mp hnodup)).2.1
  dies hcrash _ _ := absurd rfl hcrash

/-- Whoever may list the failed jobs has not listed them. -/
theorem before_of_allow {w : Retries} {i : ℕ} (h : (w.phase i).allow (.await .getFailed)) :
    w.mark i = .before := by
  unfold Retries.phase at h
  cases hmark : w.mark i with
  | before => rfl
  | absent =>
      rw [hmark] at h
      exact h.elim
  | listed failures =>
      rw [hmark] at h
      cases failures <;> exact h.elim

/-- A listing that is not fresh lists a failure for the second time. -/
theorem repeated_of_not_fresh {configService : ConfigService} {l : Label ℕ RetryChoice Entry}
    {P P' : RetryPool}
    (hfollowing : P.Following (fun _ => retryCourse) (fun _ _ s => s.Idle) (fun _ _ s => s.Idle)
      fun i W => W.retries.phase i)
    (hinvoked : Invoked P.world.retries) (hstep : (retriers configService).step l P = some P')
    (hl : ¬ ListsFresh l P) : ¬ P'.world.retries.taken.Nodup := by
  cases l with
  | reply i x =>
      cases x with
      | settle fate =>
          simp only [ListsFresh, not_forall, not_not] at hl
          obtain ⟨c, hawaited, hlists, hok, f, hfailed, hfee, hhand⟩ := hl
          obtain rfl := Call.lists_getFailed hlists
          obtain ⟨p, htask, hp⟩ := Option.bind_eq_some_iff.mp hawaited
          have hfollows := hfollowing.follows i p htask
          cases p with
          | await c k =>
              obtain rfl := Option.some.inj hp
              have hmark := before_of_allow hfollows.1
              obtain ⟨jobs, hseen⟩ := Retries.listing_isOk P.world.retries hok
              simp only [World.step, htask, Option.map_eq_some_iff] at hstep
              obtain ⟨⟨g, W'⟩, hanswer, rfl⟩ := hstep
              obtain ⟨fate', hfate, rfl, hretries⟩ := retriers_answer hanswer
              obtain rfl := RetryChoice.settle.inj hfate
              have hperm := taken_answered hmark (P.world.retries.failed.filter Failure.forFee)
              show ¬ W'.retries.taken.Nodup
              rw [hretries]
              show ¬ (P.world.retries.answered i .getFailed
                (P.world.retries.listing (fate .getFailed))).taken.Nodup
              rw [answered_getFailed hmark hseen]
              intro hnodup
              -- it is in hand already, and among those that are listed
              have hdisjoint := (List.nodup_append.mp (hperm.nodup_iff.mp hnodup)).2.2
              exact hdisjoint f (List.mem_filter.mpr ⟨hfailed, hfee⟩) f (hinvoked.mem_taken hhand) rfl
          | _ => cases hp
      | fail job => exact absurd trivial hl
      | land k => exact absurd trivial hl
  | env _ | start _ _ | resume _ | crash => exact absurd trivial hl

/-- **The condition is needed**: where the worker has not died and its methods
have retried everything they have listed, failures were retried as they should
exactly if every listing was fresh. -/
theorem retriedOnce_iff_fresh {configService : ConfigService} {failedSet : FailedSet}
    {ls : List (Label ℕ RetryChoice Entry)} {P : RetryPool}
    (hrun : (retriers configService).run ls (RetryPool.init failedSet) = some P)
    (hlives : ∀ l ∈ ls, l ≠ .crash) (hpending : P.world.retries.pending = []) :
    RetriedOnce P.world.retries ↔
      (retriers configService).Along ListsFresh ls (RetryPool.init failedSet) := by
  constructor
  · intro honce
    by_contra hstale
    obtain ⟨ls₁, l, ls₂, P₁, P₂, rfl, hrun₁, hstep, hrun₂, hl⟩ :=
      World.exists_of_not_along _ hrun hstale
    have htracks := retriers_tracks configService
    obtain ⟨hfollowing, hinvoked⟩ := htracks.run_keeps (invoked_kept.preserves configService).keeps
      (World.along_true _ _ _) (Pool.following_empty _)
      (fun _ hf => absurd hf List.not_mem_nil) hrun₁
    have hrepeated := repeated_of_not_fresh hfollowing hinvoked hstep hl
    obtain ⟨hfollowing₂, -⟩ := htracks.step_keeps (invoked_kept.preserves configService).keeps trivial
      hfollowing hinvoked hstep
    have hend := (htracks.run_keeps (repeated_kept.preserves configService).keeps
      (World.along_of_forall _ fun l' hl' _ => hlives l' (by simp [hl'])) hfollowing₂ hrepeated
      hrun₂).2
    rw [Retries.taken, hpending, List.append_nil] at hend
    exact hend honce.once
  · exact fun hfresh => (single_of_run hrun hfresh).retriedOnce

/-- **Each capacity failure is retried once.**  Take any run of the publisher's
methods, and a state of it in which none of them has listed the failed jobs yet.
Whatever the interleaving, each job that has failed for the fee by then has been
moved back to the waiting ones when the retries of the methods are carried out.
If moreover no listing of the run finds a failure for the fee that an earlier
one has in hand, no failure has led to a second attempt, each attempt found the
job failed as it was listed, and no job was moved back that had failed for
another reason. -/
theorem capacity_failures_retried (configService : ConfigService) (failedSet : FailedSet)
    {ls₁ ls₂ : List (Label ℕ RetryChoice Entry)} {P₁ P₂ : RetryPool}
    (hrun₁ : (retriers configService).run ls₁ (RetryPool.init failedSet) = some P₁)
    (hrun₂ : (retriers configService).run ls₂ P₁ = some P₂) :
    ((retriers configService).Along ListsFresh (ls₁ ++ ls₂) (RetryPool.init failedSet) →
        RetriedOnce P₂.world.retries) ∧
      (Unlisted P₁.world.retries → CarriedOut P₂.world.retries →
        ∀ f ∈ P₁.world.retries.failed, f.forFee = true → f ∈ P₂.world.retries.moved) := by
  constructor
  · intro hfresh
    have hrun : (retriers configService).run (ls₁ ++ ls₂) (RetryPool.init failedSet) = some P₂ := by
      rw [World.run_append, hrun₁]
      exact hrun₂
    exact (single_of_run hrun hfresh).retriedOnce
  · intro hunlisted hcarried f hfailed hfee
    have hpursued := pursued_of_run hrun₁ hrun₂ hunlisted hfailed hfee
    exact hpursued.resolve_right fun h => h.2.elim hcarried.1 (hcarried.2 f)

/-- A job that failed for the fee. -/
def unpaidJob : FailedJob :=
  ⟨"1", some "1010: Invalid Transaction: Inability to pay some fees (e.g. account balance too low)"⟩

/-- A queue with that job. -/
def oneUnpaid : FailedSet := ⟨[unpaidJob], by decide⟩

/-- Every call is answered, and there is capacity left. -/
def capacityLeft : RetryChoice :=
  .settle fun
    | .capacityLedger _ => .done (some ⟨50, 100⟩)
    | _ => .done default

/-- The check at start-up, up to the listing. -/
def bootstrapReads : List (Label ℕ RetryChoice Entry) :=
  [.start .bootstrap 0] ++ List.replicate 6 (.reply 0 capacityLeft)

/-- It lists the job and retries it, and resumes the queue. -/
def bootstrapRetries : List (Label ℕ RetryChoice Entry) :=
  [.reply 0 capacityLeft, .resume 0, .env (.land 0), .reply 0 capacityLeft]

/-- The check at start-up has listed nothing stale, and so retries as it
should. -/
theorem retriedOnce_iff_fresh_bootstrap : ∃ P : RetryPool,
    (retriers (.amountLimit 100)).run (bootstrapReads ++ bootstrapRetries)
        (RetryPool.init oneUnpaid) = some P ∧ RetriedOnce P.world.retries := by
  have hstate : ((retriers (.amountLimit 100)).run (bootstrapReads ++ bootstrapRetries)
      (RetryPool.init oneUnpaid)).map (fun P => P.world.retries.marks) =
        some [.listed []] := by decide +kernel
  obtain ⟨P, hrun, hlisted⟩ := Option.map_eq_some_iff.mp hstate
  refine ⟨P, hrun, (retriedOnce_iff_fresh hrun ?_ ?_).mpr (by decide +kernel)⟩
  · simp [bootstrapReads, bootstrapRetries]
  · simp [Retries.pending, hlisted, RetryPhase.left]

theorem capacity_failures_retried_bootstrap : ∃ P : RetryPool,
    (retriers (.amountLimit 100)).run (bootstrapReads ++ bootstrapRetries)
        (RetryPool.init oneUnpaid) = some P ∧
      RetriedOnce P.world.retries ∧ ⟨0, unpaidJob⟩ ∈ P.world.retries.moved := by
  have hreads : ((retriers (.amountLimit 100)).run bootstrapReads (RetryPool.init oneUnpaid)).map
      (fun P => (P.world.retries.marks, P.world.retries.failed)) =
        some ([.before], [⟨0, unpaidJob⟩]) := by decide +kernel
  obtain ⟨P₁, hrun₁, hP₁⟩ := Option.map_eq_some_iff.mp hreads
  obtain ⟨hmarks, hfailed⟩ := Prod.mk.inj hP₁
  have hretries : (((retriers (.amountLimit 100)).run bootstrapReads
      (RetryPool.init oneUnpaid)).bind ((retriers (.amountLimit 100)).run bootstrapRetries)).map
        (fun P => (P.world.retries.marks, P.world.retries.inFlight)) =
        some ([.listed []], []) := by decide +kernel
  rw [hrun₁, Option.bind_some] at hretries
  obtain ⟨P₂, hrun₂, hP₂⟩ := Option.map_eq_some_iff.mp hretries
  obtain ⟨hlisted, hflight⟩ := Prod.mk.inj hP₂
  obtain ⟨honce, hmoved⟩ := capacity_failures_retried (.amountLimit 100) oneUnpaid hrun₁ hrun₂
  refine ⟨P₂, ?_, honce (by decide +kernel), hmoved ?_ ⟨?_, ?_⟩ _ ?_ (by decide)⟩
  · rw [World.run_append, hrun₁]
    exact hrun₂
  · simp [Unlisted, hmarks]
  · simp [Unlisted, hlisted]
  · simp [Retries.InHand, Retries.pending, hlisted, hflight, RetryPhase.left]
  · simp [hfailed]

/-- A job starts while the check at start-up reads, and both list the job.  Once
it is retried it runs and fails for another reason, and then the second retry is
invoked and carried out. -/
def overlappingChecks : List (Label ℕ RetryChoice Entry) :=
  bootstrapReads ++ [.start (.job ⟨"2", ⟨.siwfSignin, "1", "ref"⟩⟩) 1] ++
    List.replicate 6 (.reply 1 capacityLeft) ++
      [.reply 0 capacityLeft, .reply 1 capacityLeft, .resume 0, .env (.land 0),
        .env (.fail ⟨"1", some "bad origin"⟩), .resume 1, .env (.land 0)]

/-- One failure has two attempts, the second on a job that has been moved out,
and it moves out a job that failed for another reason. -/
theorem capacity_failures_retried_twice : ∃ P : RetryPool,
    (retriers (.amountLimit 100)).run overlappingChecks (RetryPool.init oneUnpaid) = some P ∧
      P.world.retries.attempts =
        [⟨"1", ⟨0, unpaidJob⟩, true⟩, ⟨"1", ⟨0, unpaidJob⟩, false⟩] ∧
      ⟨1, ⟨"1", some "bad origin"⟩⟩ ∈ P.world.retries.moved ∧
      ¬ RetriedOnce P.world.retries := by
  have hstate : ((retriers (.amountLimit 100)).run overlappingChecks
      (RetryPool.init oneUnpaid)).map
        (fun P => (P.world.retries.attempts, P.world.retries.moved)) =
      some ([⟨"1", ⟨0, unpaidJob⟩, true⟩, ⟨"1", ⟨0, unpaidJob⟩, false⟩],
        [⟨0, unpaidJob⟩, ⟨1, ⟨"1", some "bad origin"⟩⟩]) := by decide +kernel
  obtain ⟨P, hrun, hP⟩ := Option.map_eq_some_iff.mp hstate
  obtain ⟨hattempts, hmoved⟩ := Prod.mk.inj hP
  refine ⟨P, hrun, hattempts, by rw [hmoved]; simp, fun honce => ?_⟩
  have hnodup := honce.once
  rw [hattempts] at hnodup
  simp at hnodup

end AccountService
