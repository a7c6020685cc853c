import AccountService.Json
import AccountService.Provenance
import AccountService.WebhookCallback

/-!
# The webhook server

The server at the other end takes a notification, sends it back as it has
decoded it, and keeps the last sign-up, which it serves.

What it decodes is what the notifier has made its text of.  So whatever it is
posted of the notifications of a run, in any order, any of them lost or
repeated, the sign-up it serves is the one it started with or one that has
happened: of a job that was started, whose extrinsic the chain includes with the
events that the served values are from.
-/

namespace AccountService

open Async Json

/-! ## Texts -/

/-- The members of the body of a notification. -/
def TxWebhookRsp.jsonMembers (r : TxWebhookRsp) : List (String × Json) :=
  (AccountService.stringify r.members).map fun m => (m.1, string m.2)

theorem TxWebhookRsp.wellFormed (r : TxWebhookRsp) : (object r.jsonMembers).WellFormed := by
  constructor
  · have hnames : (r.jsonMembers.map Prod.fst).Sublist (r.members.map Prod.fst) := by
      rw [jsonMembers, List.map_map]
      show ((r.members.filterMap fun m => m.2.map fun value => (m.1, value)).map
        fun m => m.1).Sublist (r.members.map Prod.fst)
      induction r.members with
      | nil => exact .slnil
      | cons m members ih =>
          cases hvalue : m.2 with
          | none => simpa [List.filterMap_cons, hvalue] using ih.cons m.1
          | some value => simpa [List.filterMap_cons, hvalue] using ih
    refine hnames.nodup ?_
    show (["transactionType", "providerId", "referenceId", "msaId", "accountId", "handle",
      "newPublicKey"] : List String).Nodup
    decide
  · refine membersWellFormed_iff.mpr fun m hm => ?_
    obtain ⟨m', -, rfl⟩ := List.mem_map.mp hm
    exact wellFormed_string m'.2

/-- The text that `axios.post` sends. -/
def TxWebhookRsp.text (r : TxWebhookRsp) : String := Json.stringify (object r.jsonMembers)

namespace WebhookCallback

/-- A field that must be there, once, and be a string. -/
def stringField (members : List (String × Json)) (name : String) : Option String :=
  match members.filter fun m => m.1 = name with
  | [(_, .string s)] => some s
  | _ => none

/-- The tag chooses the variant, whose fields are read by their names. -/
def decode (field : String → Option String) : Option WebhookCallback := do
  let transactionType ← field "transactionType"
  if transactionType = "SIWF_SIGNUP" then
    pure (siwfSignup
      { reference_id := ← field "referenceId"
        account_id := ← field "accountId"
        msa_id := ← field "msaId"
        handle := ← field "handle"
        provider_id := ← field "providerId" })
  else if transactionType = "CHANGE_HANDLE" then
    pure (handleChange
      { reference_id := ← field "referenceId"
        msa_id := ← field "msaId"
        handle := ← field "handle"
        provider_id := ← field "providerId" })
  else if transactionType = "CREATE_HANDLE" then
    pure (handleCreated
      { reference_id := ← field "referenceId"
        msa_id := ← field "msaId"
        handle := ← field "handle"
        provider_id := ← field "providerId" })
  else if transactionType = "ADD_KEY" then
    pure (keyAdded
      { reference_id := ← field "referenceId"
        msa_id := ← field "msaId"
        new_public_key := ← field "newPublicKey" })
  else none

theorem deserialize_eq (body : JsonObject) : deserialize body = decode (field body) := rfl

/-- The derived decoder of the body of a request that is a JSON object. -/
def ofMembers (members : List (String × Json)) : Option WebhookCallback :=
  decode (stringField members)

/-- The derived encoder: the tag, and the fields in their order. -/
def members : WebhookCallback → List (String × Json)
  | siwfSignup payload =>
      [("transactionType", string "SIWF_SIGNUP"), ("referenceId", string payload.reference_id),
        ("accountId", string payload.account_id), ("msaId", string payload.msa_id),
        ("handle", string payload.handle), ("providerId", string payload.provider_id)]
  | handleChange payload =>
      [("transactionType", string "CHANGE_HANDLE"), ("referenceId", string payload.reference_id),
        ("msaId", string payload.msa_id), ("handle", string payload.handle),
        ("providerId", string payload.provider_id)]
  | handleCreated payload =>
      [("transactionType", string "CREATE_HANDLE"), ("referenceId", string payload.reference_id),
        ("msaId", string payload.msa_id), ("handle", string payload.handle),
        ("providerId", string payload.provider_id)]
  | keyAdded payload =>
      [("transactionType", string "ADD_KEY"), ("referenceId", string payload.reference_id),
        ("msaId", string payload.msa_id), ("newPublicKey", string payload.new_public_key)]

/-- The text of an answer. -/
def text (callback : WebhookCallback) : String := Json.stringify (object callback.members)

theorem wellFormed (callback : WebhookCallback) : (object callback.members).WellFormed := by
  cases callback <;> exact ⟨by simp [members], by simp [members, MembersWellFormed, WellFormed]⟩

/-- A callback is decoded from its members. -/
theorem ofMembers_members (callback : WebhookCallback) :
    ofMembers callback.members = some callback := by
  cases callback <;> rfl

/-- The fields of a body are the members that have a value. -/
theorem ofMembers_jsonMembers (r : TxWebhookRsp) :
    ofMembers r.jsonMembers = deserialize (AccountService.stringify r.members) := by
  rw [ofMembers, deserialize_eq]
  congr 1
  funext name
  rw [stringField, field, TxWebhookRsp.jsonMembers, List.filter_map]
  have hname : ((fun m : String × Json => decide (m.1 = name)) ∘ fun m : String × String =>
      (m.1, string m.2)) = fun m => decide (m.1 = name) := rfl
  rw [hname]
  cases (AccountService.stringify r.members).filter fun m => decide (m.1 = name) with
  | nil => rfl
  | cons m rest => cases rest <;> rfl

end WebhookCallback

/-! ## The server -/

/-- What the server keeps. -/
structure AppState where
  last_payload : SIWFSignup

/-- A request, a post with the members of its body. -/
inductive WebhookRequest where
  | echoPayload (body : List (String × Json))
  | getPayload
  | healthCheck

/-- An answer, with the text of its body, or a refusal. -/
inductive WebhookResponse where
  | created (text : String)
  | payload (payload : SIWFSignup)
  | healthy
  | badRequest

namespace AppState

/-- What it starts with. -/
def init : AppState where
  last_payload :=
    { reference_id := "123"
      account_id := "456"
      msa_id := "789"
      handle := "initialHandle"
      provider_id := "initialProvider" }

/-- Serve a request. -/
def serve (state : AppState) : WebhookRequest → WebhookResponse × AppState
  | .echoPayload body =>
      match WebhookCallback.ofMembers body with
      | none => (.badRequest, state)
      | some (.siwfSignup payload) =>
          (.created (WebhookCallback.siwfSignup payload).text, ⟨payload⟩)
      | some callback => (.created callback.text, state)
  | .getPayload => (.payload state.last_payload, state)
  | .healthCheck => (.healthy, state)

/-- Serve requests one after the other. -/
def run (state : AppState) (requests : List WebhookRequest) : AppState :=
  requests.foldl (fun state request => (state.serve request).2) state

end AppState

/-- The sign-up that a request brings. -/
def WebhookRequest.signup : WebhookRequest → Option SIWFSignup
  | echoPayload body =>
      match WebhookCallback.ofMembers body with
      | some (.siwfSignup payload) => some payload
      | _ => none
  | _ => none

namespace AppState

variable {state : AppState}

/-- A request leaves the sign-up it brings, or the one that was there. -/
theorem serve_last_payload (request : WebhookRequest) :
    (state.serve request).2.last_payload = request.signup.getD state.last_payload := by
  cases request with
  | echoPayload body =>
      rw [serve, WebhookRequest.signup]
      cases WebhookCallback.ofMembers body with
      | none => rfl
      | some callback => cases callback <;> rfl
  | _ => rfl

/-- What is kept is what a request has brought, or what was there at first. -/
theorem run_last_payload (requests : List WebhookRequest) :
    (state.run requests).last_payload = state.last_payload ∨
      ∃ request ∈ requests, request.signup = some (state.run requests).last_payload := by
  induction requests using List.reverseRecOn with
  | nil => exact .inl rfl
  | append_singleton requests request ih =>
      rw [run, List.foldl_append, List.foldl_cons, List.foldl_nil, serve_last_payload]
      cases hsignup : request.signup with
      | some payload => exact .inr ⟨request, by simp, hsignup⟩
      | none => exact ih.imp_right fun ⟨r, hr, heq⟩ => ⟨r, List.mem_append_left _ hr, heq⟩

/-- **The answer to a post is read as what the post was read as.** -/
theorem serve_created {body : List (String × Json)} {text : String}
    (h : (state.serve (.echoPayload body)).1 = .created text) :
    (parseMembers text).bind WebhookCallback.ofMembers = WebhookCallback.ofMembers body := by
  have hread : ∀ callback : WebhookCallback,
      (parseMembers callback.text).bind WebhookCallback.ofMembers = some callback := by
    intro callback
    rw [WebhookCallback.text, parseMembers_stringify callback.wellFormed, Option.bind_some,
      callback.ofMembers_members]
  rw [serve] at h
  cases hbody : WebhookCallback.ofMembers body with
  | none => rw [hbody] at h; cases h
  | some callback =>
      rw [hbody] at h
      have htext : callback.text = text := by
        cases callback <;> exact WebhookResponse.created.inj h
      rw [← htext, hread]

end AppState

/-! ## What is served has happened -/

/-- The sign-up is that of a job: its extrinsic was accepted and a block
includes it, an event of which has created the account, and another claimed the
handle. -/
def SIWFSignup.IsOf (chain : Chain) (t : Journal) (job : Job) (payload : SIWFSignup) : Prop :=
  job ∈ t.jobs ∧ ∃ txHash, (txHash, job) ∈ t.submitted ∧
    job.data.request.type = .siwfSignup ∧ payload.reference_id = job.data.referenceId ∧
      payload.provider_id = job.data.providerId ∧
        ∃ b ∈ chain.blocks, ∃ index, b.extrinsics[index]? = some txHash ∧
          MsaCreatedIn (b.events.filter fun r => r.isOf index) payload.msa_id payload.account_id ∧
            ∃ msaId, HandleClaimedIn (b.events.filter fun r => r.isOf index) msaId payload.handle

/-- What is posted to the server are notifications, each by its text. -/
def Delivered (posts : List Post) (requests : List WebhookRequest) : Prop :=
  ∀ body, .echoPayload body ∈ requests →
    ∃ post ∈ posts, parseMembers post.body.text = some body

/-- A body that is decoded as a sign-up carries the values of its entry and of
its events. -/
theorem WebhookCallback.carries_of_siwfSignup {status : ITxStatus} {events : List EventRecord}
    {body : TxWebhookRsp} {payload : SIWFSignup}
    (hevent : status.successEvent = targetEvent status.type)
    (h : notification status events = some body)
    (hcallback : deserialize (AccountService.stringify body.members) = some (siwfSignup payload)) :
    (siwfSignup payload).Carries status events := by
  have hdecoded : Decoded status events body → (siwfSignup payload).Carries status events := by
    rintro ⟨callback, hcallback', hcarries⟩
    rw [hcallback] at hcallback'
    rwa [← Option.some.inj hcallback'] at hcarries
  cases htype : status.type with
  | changeHandle => exact hdecoded (decoded_handle ⟨by simp [htype], hevent⟩ (.inl htype) h)
  | createHandle => exact hdecoded (decoded_handle ⟨by simp [htype], hevent⟩ (.inr htype) h)
  | addKey => exact hdecoded (decoded_addKey ⟨by simp [htype], hevent⟩ htype h)
  | siwfSignin =>
      obtain ⟨r, -, -, rfl⟩ := notification_eq_some h
      simp [deserialize, webhookResponse, htype] at hcallback
  | siwfSignup =>
      refine hdecoded ((decoded_siwfSignup_iff htype h).mpr ?_)
      obtain ⟨r, -, -, rfl⟩ := notification_eq_some h
      obtain ⟨-, haccount⟩ := handleSIWFTxnResult_account events
      obtain ⟨-, hhandle⟩ := handleSIWFTxnResult_handle events
      rw [← haccount, ← hhandle]
      -- all its fields were there
      simp only [deserialize, webhookResponse, htype, createWebhookRsp, field_transactionType,
        field_referenceId, field_accountId, field_msaId, field_handle, field_providerId]
        at hcallback
      unfold TxnValues.account
      clear haccount hhandle hdecoded hevent
      generalize handleSIWFTxnResult events = values at hcallback ⊢
      obtain ⟨msaId, address, handle, newPublicKey⟩ := values
      cases msaId <;> cases address <;> cases handle <;> simp_all [TransactionType.wireName]

/-- **The server serves what has happened.**  Whatever of the notifications of
the journal it is posted, in any order, lost or repeated: the sign-up it serves
is the one it started with or that of a job. -/
theorem AppState.run_happened {configService : ConfigService} {w : ServiceWorld} {t : Journal}
    (hagrees : Agrees configService w t) {requests : List WebhookRequest}
    (hdelivered : Delivered t.posts requests) :
    (AppState.init.run requests).last_payload = AppState.init.last_payload ∨
      ∃ job, (AppState.init.run requests).last_payload.IsOf w.chain t job := by
  refine (AppState.run_last_payload requests).imp_right ?_
  rintro ⟨request, hrequest, hsignup⟩
  generalize (AppState.init.run requests).last_payload = payload at hsignup
  cases request with
  | echoPayload members =>
      obtain ⟨post, hpost, htext⟩ := hdelivered members hrequest
      rw [TxWebhookRsp.text, parseMembers_stringify post.body.wellFormed] at htext
      obtain rfl := Option.some.inj htext
      have hcallback : WebhookCallback.deserialize (AccountService.stringify post.body.members) =
          some (.siwfSignup payload) := by
        rw [WebhookRequest.signup, WebhookCallback.ofMembers_jsonMembers] at hsignup
        split at hsignup
        · next payload' heq =>
          rw [heq, Option.some.inj hsignup]
        · cases hsignup
      obtain ⟨-, job, hjob, hsent, status, hfor, b, hb, index, hindex, hbody⟩ :=
        hagrees.posts post hpost
      obtain ⟨htype, hreferenceId, hproviderId, haccount, hhandle⟩ :=
        WebhookCallback.carries_of_siwfSignup (hfor.successEvent.trans (by rw [hfor.type])) hbody
          hcallback
      exact ⟨job, hjob, post.txHash, hsent, hfor.type.symm.trans htype,
        hreferenceId.trans hfor.referenceId, hproviderId.trans hfor.providerId, b, hb, index,
        hindex, haccount, hhandle⟩
  | _ => cases hsignup

end AccountService
