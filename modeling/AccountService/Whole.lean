import AccountService.Deliveries
import AccountService.WebhookServer

/-!
# From a request to a notification

The API with the publish queue, and the process of the worker, side by side.
Two things pass between them: the worker takes a job that waits, with the data
that it reads off the text, and the queue records what has become of the job
when the execution has ended.  The process may die in between, and the queue may
have the job run again.

What a notification reports was asked for: it bears the reference id, the type
and the provider of a request that was posted, for which its extrinsic was
accepted.  As long as no two texts have had one digest, all notifications that
bear a reference id are about extrinsics of one job.  And the sign-up that the
webhook server serves was asked for in a request.
-/

namespace AccountService

open Async

/-! ## The system -/

/-- The API with its queue, and the process of the worker. -/
structure Whole where
  deliveries : Deliveries
  pool : JournaledPool

def Whole.init : Whole := ⟨{}, JournaledPool.init⟩

inductive WholeLabel where
  /-- A request is posted, or the queue moves a job. -/
  | queue (l : DeliveryLabel)
  /-- The worker takes a job that waits. -/
  | take (jobId : String)
  /-- The queue records the end of the job in hand; where the call that delays a
  job is lost, a job that is postponed stays active. -/
  | finish (delays : Bool)
  /-- The process of the worker goes on. -/
  | worker (l : Label Role Happening Reason)

/-- What the queue does by itself, an execution being the worker's. -/
def DeliveryLabel.ofQueue : DeliveryLabel → Bool
  | run _ _ _ _ _ => false
  | _ => true

/-- A job is started, which only taking one does. -/
def startsJob : Label Role Happening Reason → Bool
  | .start (.job _) _ => true
  | _ => false

/-- What a method that has ended has come to. -/
def ending : Prog Worker Err Unit → Option (Outcome Err Unit)
  | .done u => some (.returned u)
  | .throw e => some (.threw e)
  | _ => none

/-- The job that the publisher has in hand, with what its execution has come
to. -/
def JournaledPool.finished (P : JournaledPool) : Option (Job × Outcome Err Unit) :=
  P.world.2.publisher.job.bind fun job =>
    ((P.task .publisher).bind ending).map fun outcome => (job, outcome)

/-- The API, the queue and the worker. -/
def whole (configService : ConfigService) (registry : Registry) (service : EnqueueService) :
    System WholeLabel Whole where
  step l w :=
    match l with
    | .queue l =>
        if l.ofQueue then
          ((deliveries configService service).step l w.deliveries).map fun deliveries =>
            { w with deliveries := deliveries }
        else none
    | .take jobId =>
        if w.deliveries.queue.stateOf jobId = some .waiting then
          (w.deliveries.queue.dataOf jobId).bind fun data =>
            ((journaled configService registry).step (.start (.job ⟨jobId, data⟩) .publisher)
              w.pool).map fun pool =>
                { deliveries :=
                    { w.deliveries with queue := w.deliveries.queue.set jobId .active }
                  pool := pool }
        else none
    | .finish delays =>
        w.pool.finished.bind fun jr =>
          if w.deliveries.queue.stateOf jr.1.id = some .active then
            some { w with deliveries := w.deliveries.ended jr.1.id delays jr.2 }
          else none
    | .worker l =>
        if startsJob l then none
        else ((journaled configService registry).step l w.pool).map fun pool =>
          { w with pool := pool }

variable {configService : ConfigService} {registry : Registry} {service : EnqueueService}

/-- What the worker does in a run is a run of the worker. -/
theorem whole_pool {ls : List WholeLabel} {w w' : Whole}
    (hrun : (whole configService registry service).run ls w = some w') :
    ∃ ls', (journaled configService registry).run ls' w.pool = some w'.pool := by
  induction ls generalizing w with
  | nil => exact ⟨[], congrArg (Option.map Whole.pool) hrun⟩
  | cons l ls ih =>
      obtain ⟨w₁, hstep, hrun⟩ := Option.bind_eq_some_iff.mp hrun
      obtain ⟨ls', hrun'⟩ := ih hrun
      -- a step of the queue is none of the worker
      have hworker : ∀ l', (journaled configService registry).step l' w.pool = some w₁.pool →
          ∃ ls', (journaled configService registry).run ls' w.pool = some w'.pool :=
        fun l' hl' => ⟨l' :: ls', (World.run_cons _).mpr ⟨w₁.pool, hl', hrun'⟩⟩
      cases l with
      | queue l =>
          obtain ⟨-, hstep⟩ := Option.ite_none_right_eq_some.mp hstep
          obtain ⟨d, -, rfl⟩ := Option.map_eq_some_iff.mp hstep
          exact ⟨ls', hrun'⟩
      | take jobId =>
          obtain ⟨-, hstep⟩ := Option.ite_none_right_eq_some.mp hstep
          obtain ⟨data, -, hstep⟩ := Option.bind_eq_some_iff.mp hstep
          obtain ⟨P, hP, rfl⟩ := Option.map_eq_some_iff.mp hstep
          exact hworker _ hP
      | finish delays =>
          obtain ⟨jr, -, hstep⟩ := Option.bind_eq_some_iff.mp hstep
          obtain ⟨-, hstep⟩ := Option.ite_none_right_eq_some.mp hstep
          obtain rfl := Option.some.inj hstep
          exact ⟨ls', hrun'⟩
      | worker l =>
          obtain ⟨-, hstep⟩ := Option.ite_none_left_eq_some.mp hstep
          obtain ⟨P, hP, rfl⟩ := Option.map_eq_some_iff.mp hstep
          exact hworker _ hP

/-! ## The jobs are those of requests -/

/-- The jobs of the queue are vouched for, and each that was started is that of
a request. -/
structure Whole.Known (service : EnqueueService) (w : Whole) : Prop where
  vouched : Vouched service w.deliveries
  jobs : ∀ job ∈ w.pool.world.2.jobs, ∃ post ∈ w.deliveries.posted, job.IsOf service post

/-- The journal enters a job where one is started, and nowhere else. -/
theorem journaled_jobs {l : Label Role Happening Reason} {P P' : JournaledPool}
    (hstep : (journaled configService registry).step l P = some P') {K : Job → Prop}
    (hstarted : ∀ job, l = .start (.job job) .publisher → K job)
    (h : ∀ job ∈ P.world.2.jobs, K job) : ∀ job ∈ P'.world.2.jobs, K job := by
  refine World.step_keeps_record (K := fun t => ∀ job ∈ t.jobs, K job) ?_ ?_ ?_ hstep h
  · intro r o t ht
    have hjobs : ((t.enter o).move r o).jobs = t.jobs := by
      cases r <;> cases o with
      | await c f => cases c <;> rfl
      | _ => rfl
    show ∀ job ∈ ((t.enter o).move r o).jobs, K job
    rwa [hjobs]
  · exact fun t ht => ht
  · intro reason r hl t ht
    cases reason with
    | job job =>
        cases r with
        | publisher => exact List.forall_mem_cons.mpr ⟨hstarted job hl, ht⟩
        | notifier => exact ht
    | _ => cases r <;> exact ht

/-- **Every step knows its jobs.** -/
theorem Whole.Known.step {l : WholeLabel} {w w' : Whole} (h : w.Known service)
    (hstep : (whole configService registry service).step l w = some w') : w'.Known service := by
  cases l with
  | queue l =>
      obtain ⟨-, hstep⟩ := Option.ite_none_right_eq_some.mp hstep
      obtain ⟨d, hd, rfl⟩ := Option.map_eq_some_iff.mp hstep
      refine ⟨vouched_step h.vouched hd, fun job hjob => ?_⟩
      obtain ⟨post, hpost, hof⟩ := h.jobs job hjob
      exact ⟨post, posted_subset hd hpost, hof⟩
  | take jobId =>
      obtain ⟨-, hstep⟩ := Option.ite_none_right_eq_some.mp hstep
      obtain ⟨data, hdata, hstep⟩ := Option.bind_eq_some_iff.mp hstep
      obtain ⟨P, hP, rfl⟩ := Option.map_eq_some_iff.mp hstep
      refine ⟨h.vouched.moved rfl rfl rfl, journaled_jobs hP ?_ h.jobs⟩
      rintro job heq
      obtain ⟨heq, -⟩ := Label.start.inj heq
      obtain rfl := Reason.job.inj heq
      exact h.vouched.isOf hdata
  | finish delays =>
      obtain ⟨jr, -, hstep⟩ := Option.bind_eq_some_iff.mp hstep
      obtain ⟨-, hstep⟩ := Option.ite_none_right_eq_some.mp hstep
      obtain rfl := Option.some.inj hstep
      refine ⟨h.vouched.ended jr.1.id delays jr.2, ?_⟩
      show ∀ job ∈ w.pool.world.2.jobs, ∃ post ∈ (w.deliveries.ended _ _ _).posted, _
      rw [ended_posted]
      exact h.jobs
  | worker l =>
      obtain ⟨hstarts, hstep⟩ := Option.ite_none_left_eq_some.mp hstep
      obtain ⟨P, hP, rfl⟩ := Option.map_eq_some_iff.mp hstep
      refine ⟨h.vouched, journaled_jobs hP ?_ h.jobs⟩
      rintro job rfl
      exact absurd rfl hstarts

/-- Wherever a run leads, the jobs are known, and the journal agrees with the
service. -/
theorem whole_run {ls : List WholeLabel} {w : Whole}
    (hrun : (whole configService registry service).run ls Whole.init = some w) :
    w.Known service ∧ Agrees configService w.pool.world.1 w.pool.world.2 := by
  obtain ⟨ls', hrun'⟩ := whole_pool hrun
  refine ⟨?_, journaled_run hrun'⟩
  have hinit : Whole.init.Known service := ⟨vouched_init, fun job hjob => (by cases hjob)⟩
  exact (System.Each.throughout (fun l s s' _ hs hstep => hs.step hstep)
    (System.each_true ls _) hinit).run hrun

/-! ## A run -/

/-- The worker takes the job of a sign-up and submits its extrinsic. -/
def signupTaken (txHash : Hash) : List WholeLabel :=
  .take "1" :: (signupSteps txHash 0).tail.map .worker

/-- The events of a sign-up at a place of a block. -/
def signupEvents (index : ℕ) : List EventRecord :=
  [⟨.applyExtrinsic index, .msaCreated 7 "5A"⟩,
    ⟨.applyExtrinsic index, .handleClaimed 7 [0x61]⟩,
    { batchCompleted with phase := .applyExtrinsic index }]

/-- A sign-up is posted and submitted, the process dies before the end of the
job is recorded, and it is submitted again.  A block includes both. -/
def signupTwice : List WholeLabel :=
  [.queue (.post signUpPost .answer)] ++ signupTaken 7 ++
    [.worker (.env (.land (signupStatus 7))), .worker .crash, .queue (.stall "1")] ++
    signupTaken 8 ++
    [.finish true, .worker (.env (.land (signupStatus 8))),
      .worker (.env (.produce ⟨2, 0, [7, 8], signupEvents 0 ++ signupEvents 1⟩))] ++
    (firstScan 13).map .worker

/-- Where every digest is the same. -/
abbrev signupWhole : System WholeLabel Whole :=
  whole (.attempts 1 zero_le_one) ⟨fun _ => none⟩ ⟨"1", fun _ => "1"⟩

/-- There is one request and two notifications, decoded as the sign-up. -/
theorem signupTwice_run : ∃ (w : Whole) (notice notice' : Post),
    signupWhole.run signupTwice Whole.init = some w ∧ w.deliveries.posted.length = 1 ∧
      w.pool.world.2.posts = [notice, notice'] ∧ (notice.txHash = 8 ∧ notice'.txHash = 7) ∧
        notice.body.referenceId = notice'.body.referenceId ∧
          WebhookCallback.ofMembers notice'.body.jsonMembers =
            some (.siwfSignup ⟨"1", "5A", "7", "a", "1"⟩) := by
  have hstate : (signupWhole.run signupTwice Whole.init).map (fun w =>
      (w.deliveries.posted.length, w.pool.world.2.posts.map fun notice =>
        (notice.txHash, notice.body.referenceId,
          WebhookCallback.deserialize (stringify notice.body.members)))) =
        some (1, [(8, some "1", some (.siwfSignup ⟨"1", "5A", "7", "a", "1"⟩)),
          (7, some "1", some (.siwfSignup ⟨"1", "5A", "7", "a", "1"⟩))]) := by decide +kernel
  obtain ⟨w, hrun, hw⟩ := Option.map_eq_some_iff.mp hstate
  obtain ⟨hposted, hposts⟩ := Prod.mk.inj hw
  obtain ⟨notice, notices, hposts, hnotice, hrest⟩ := List.map_eq_cons_iff.mp hposts
  obtain ⟨notice', rfl, hnotice'⟩ := List.map_eq_singleton_iff.mp hrest
  obtain ⟨htxHash, hnotice⟩ := Prod.mk.inj hnotice
  obtain ⟨htxHash', hnotice'⟩ := Prod.mk.inj hnotice'
  obtain ⟨hreference, -⟩ := Prod.mk.inj hnotice
  obtain ⟨hreference', hcallback⟩ := Prod.mk.inj hnotice'
  refine ⟨w, notice, notice', hrun, hposted, hposts, ⟨htxHash, htxHash'⟩,
    hreference.trans hreference'.symm, ?_⟩
  rw [WebhookCallback.ofMembers_jsonMembers, hcallback]

/-! ## What is reported was asked for -/

/-- What a request asks for is something to be published. -/
theorem ApiPost.asked_type {post : ApiPost} {providerId : String} {request : Request}
    (h : post.asked providerId = some request) : request.type ≠ .siwfSignin := by
  cases post <;>
    (obtain ⟨r, -, rfl⟩ := Option.map_eq_some_iff.mp h; exact fun heq => nomatch heq)

/-- The body bears what is in the entry. -/
theorem webhookResponse_bears {status : ITxStatus} (htype : status.type ≠ .siwfSignin)
    (events : List EventRecord) (successEvent : Event) :
    let body := webhookResponse status events successEvent
    body.transactionType = some status.type ∧ body.referenceId = some status.referenceId ∧
      body.providerId = some status.providerId := by
  unfold webhookResponse
  cases hstatus : status.type with
  | siwfSignin => exact absurd hstatus htype
  | _ => simp [createWebhookRsp, hstatus]

/-- A notification reports on a request: it bears its type, its reference id and
the provider, and its extrinsic was accepted for the job of the request. -/
def Post.ReportsOn (service : EnqueueService) (t : Journal) (post : ApiPost) (notice : Post) :
    Prop :=
  ∃ job : Job, job.IsOf service post ∧ (notice.txHash, job) ∈ t.submitted ∧
    notice.body.transactionType = some job.data.request.type ∧
      notice.body.referenceId = some job.id ∧ notice.body.providerId = some service.providerId

/-- What is attested about a job that is known is a report on its request. -/
theorem Whole.Known.reportsOn {w : Whole} (h : w.Known service) {chain : Chain} {notice : Post}
    (hattested : Attested configService chain w.pool.world.2 notice) :
    ∃ post ∈ w.deliveries.posted, notice.ReportsOn service w.pool.world.2 post := by
  obtain ⟨-, job, hjob, hsent, status, hfor, b, -, index, -, hbody⟩ := hattested
  obtain ⟨post, hpost, hof⟩ := h.jobs job hjob
  refine ⟨post, hpost, job, hof, hsent, ?_⟩
  obtain ⟨r, request, -, -, hasked, hdata⟩ := hof
  obtain ⟨record, -, -, heq⟩ := notification_eq_some hbody
  have htype : status.type ≠ .siwfSignin := by
    rw [hfor.type, hdata]
    exact ApiPost.asked_type hasked
  have hbears := webhookResponse_bears htype (b.events.filter fun r => r.isOf index) record.event
  rw [hfor.type, hfor.referenceId, hfor.providerId, ← heq, hdata] at hbears
  rw [hdata]
  exact hbears

/-- **What is reported was asked for.**  In every run of the API, the queue and
the worker, through failed calls, crashes, stalls and retries, every
notification reports on a request that was posted. -/
theorem notification_requested (ls : List WholeLabel) (w : Whole)
    (hrun : (whole configService registry service).run ls Whole.init = some w) :
    ∀ notice ∈ w.pool.world.2.posts, ∃ post ∈ w.deliveries.posted,
      notice.ReportsOn service w.pool.world.2 post := by
  obtain ⟨hknown, hagrees⟩ := whole_run hrun
  exact fun notice hnotice => hknown.reportsOn (hagrees.posts notice hnotice)

/-- Both notifications of the sign-up report on its one request. -/
theorem notification_requested_twice : ∃ w, signupWhole.run signupTwice Whole.init = some w ∧
    w.pool.world.2.posts.map Post.txHash = [8, 7] ∧
      ∀ notice ∈ w.pool.world.2.posts, ∃ post ∈ w.deliveries.posted,
        notice.ReportsOn ⟨"1", fun _ => "1"⟩ w.pool.world.2 post := by
  obtain ⟨w, notice, notice', hrun, -, hposts, ⟨htxHash, htxHash'⟩, -⟩ := signupTwice_run
  refine ⟨w, hrun, ?_, notification_requested signupTwice w hrun⟩
  rw [hposts, List.map_cons, List.map_cons, List.map_nil, htxHash, htxHash']

/-- The jobs of one id are one, unless two texts have had one digest. -/
theorem Job.IsOf.eq {w : Deliveries} (hdistinct : w.Distinct service) {post post' : ApiPost}
    (hpost : post ∈ w.posted) (hpost' : post' ∈ w.posted) {job job' : Job}
    (h : job.IsOf service post) (h' : job'.IsOf service post') (hid : job.id = job'.id) :
    job = job' := by
  obtain ⟨r, request, hr, hjobId, hasked, hdata⟩ := h
  obtain ⟨r', request', hr', hjobId', hasked', hdata'⟩ := h'
  have htext := hdistinct post hpost post' hpost' r hr r' hr'
    (hjobId.symm.trans (hid.trans hjobId'))
  rw [ApiPost.asked_eq hr hr' htext, hasked'] at hasked
  obtain rfl := Option.some.inj hasked
  obtain ⟨id, data⟩ := job
  obtain ⟨id', data'⟩ := job'
  obtain rfl : id = id' := hid
  exact congrArg (Job.mk id) (hdata.trans hdata'.symm)

/-- **A reference id stands for one job.**  In every run in which no two texts
of posted requests have one digest, all notifications that bear a reference id
are about extrinsics that were accepted for one and the same job. -/
theorem reference_one_job (ls : List WholeLabel) (w : Whole)
    (hrun : (whole configService registry service).run ls Whole.init = some w)
    (hdistinct : w.deliveries.Distinct service) :
    ∀ notice ∈ w.pool.world.2.posts, ∀ notice' ∈ w.pool.world.2.posts,
      notice.body.referenceId = notice'.body.referenceId →
        ∃ job, (notice.txHash, job) ∈ w.pool.world.2.submitted ∧
          (notice'.txHash, job) ∈ w.pool.world.2.submitted := by
  obtain ⟨hknown, hagrees⟩ := whole_run hrun
  intro notice hnotice notice' hnotice' heq
  obtain ⟨post, hpost, job, hof, hsent, -, hreference, -⟩ :=
    hknown.reportsOn (hagrees.posts notice hnotice)
  obtain ⟨post', hpost', job', hof', hsent', -, hreference', -⟩ :=
    hknown.reportsOn (hagrees.posts notice' hnotice')
  have hid : job.id = job'.id := Option.some.inj (by rw [← hreference, ← hreference', heq])
  obtain rfl := hof.eq hdistinct hpost hpost' hof' hid
  exact ⟨job, hsent, hsent'⟩

/-- Both extrinsics of the sign-up were accepted for its one job. -/
theorem reference_one_job_twice : ∃ w, signupWhole.run signupTwice Whole.init = some w ∧
    ∃ job, (8, job) ∈ w.pool.world.2.submitted ∧ (7, job) ∈ w.pool.world.2.submitted := by
  obtain ⟨w, notice, notice', hrun, hposted, hposts, ⟨htxHash, htxHash'⟩, hreference, -⟩ :=
    signupTwice_run
  have hdistinct : w.deliveries.Distinct ⟨"1", fun _ => "1"⟩ := by
    obtain ⟨post, hsingle⟩ := List.length_eq_one_iff.mp hposted
    intro post₁ hpost₁ post₂ hpost₂ job hjob job' hjob' _
    rw [hsingle, List.mem_singleton] at hpost₁ hpost₂
    subst hpost₁ hpost₂
    rw [Option.some.inj (hjob.symm.trans hjob')]
  have hone := reference_one_job signupTwice w hrun hdistinct notice (by rw [hposts]; simp)
    notice' (by rw [hposts]; simp) hreference
  rw [htxHash, htxHash'] at hone
  exact ⟨w, hrun, hone⟩

/-- **What is served was asked for and has happened.**  Whatever of the
notifications of a run the webhook server is posted, in any order, lost or
repeated: the sign-up it serves is the one it started with, or that of a request
that was posted, whose extrinsic the chain includes, with values from the events
of that extrinsic. -/
theorem served_signup_requested (ls : List WholeLabel) (w : Whole)
    (hrun : (whole configService registry service).run ls Whole.init = some w)
    (requests : List WebhookRequest) (hdelivered : Delivered w.pool.world.2.posts requests) :
    (AppState.init.run requests).last_payload = AppState.init.last_payload ∨
      ∃ post ∈ w.deliveries.posted, ∃ job : Job, job.IsOf service post ∧
        (AppState.init.run requests).last_payload.IsOf w.pool.world.1.chain w.pool.world.2 job := by
  obtain ⟨hknown, hagrees⟩ := whole_run hrun
  refine (AppState.run_happened hagrees hdelivered).imp_right ?_
  rintro ⟨job, hjob, hhappened⟩
  obtain ⟨post, hpost, hof⟩ := hknown.jobs job hjob
  exact ⟨post, hpost, job, hof, hjob, hhappened⟩

/-- The webhook server is posted both notifications of the sign-up, and serves
it. -/
theorem served_signup_requested_twice :
    ∃ (w : Whole) (requests : List WebhookRequest),
      signupWhole.run signupTwice Whole.init = some w ∧
        Delivered w.pool.world.2.posts requests ∧
          ∃ post ∈ w.deliveries.posted, ∃ job : Job, job.IsOf ⟨"1", fun _ => "1"⟩ post ∧
            SIWFSignup.IsOf w.pool.world.1.chain w.pool.world.2 job
              ⟨"1", "5A", "7", "a", "1"⟩ := by
  obtain ⟨w, notice, notice', hrun, -, hposts, -, -, hcallback⟩ := signupTwice_run
  have hdelivered : Delivered w.pool.world.2.posts
      [.echoPayload notice.body.jsonMembers, .echoPayload notice'.body.jsonMembers] := by
    intro body hbody
    have hread := fun notice : Post => Json.parseMembers_stringify notice.body.wellFormed
    rw [hposts]
    rcases List.mem_pair.mp hbody with heq | heq
    · cases heq
      exact ⟨notice, by simp, hread notice⟩
    · cases heq
      exact ⟨notice', by simp, hread notice'⟩
  refine ⟨w, _, hrun, hdelivered, ?_⟩
  have hserved := served_signup_requested signupTwice w hrun _ hdelivered
  -- the last of them leaves the sign-up
  rw [AppState.run, List.foldl_cons, List.foldl_cons, List.foldl_nil, AppState.serve_last_payload,
    WebhookRequest.signup, hcallback, Option.getD_some] at hserved
  exact hserved.resolve_left (by decide)

end AccountService
