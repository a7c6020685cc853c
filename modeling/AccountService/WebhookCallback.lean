import AccountService.EventAttribution
import AccountService.Submission

/-!
# The body of a notification and its decoder

The notifier posts an object from which the fields it has no value for are
missing; the webhook server decodes it as a variant of an enumeration that is
tagged with the type of the transaction, each with fields of its own that must
be there.

The two agree except for sign-ups.  The values of a sign-up come from two
events, and a sign-up by an account that exists, or without a handle, has only
one of them.
-/

namespace AccountService

open Async JavaScript

/-! ## The encoder -/

/-- The value of the enumeration on the wire. -/
def TransactionType.wireName : TransactionType → String
  | changeHandle => "CHANGE_HANDLE"
  | createHandle => "CREATE_HANDLE"
  | siwfSignup => "SIWF_SIGNUP"
  | siwfSignin => "SIWF_SIGNIN"
  | addKey => "ADD_KEY"

/-- The members of a JSON object whose values are strings. -/
abbrev JsonObject := List (String × String)

/-- The members of the body, with those that are undefined. -/
def TxWebhookRsp.members (r : TxWebhookRsp) : List (String × Option String) :=
  [("transactionType", r.transactionType.map TransactionType.wireName),
    ("providerId", r.providerId), ("referenceId", r.referenceId), ("msaId", r.msaId),
    ("accountId", r.accountId), ("handle", r.handle), ("newPublicKey", r.newPublicKey)]

/-- `JSON.stringify`: members that are undefined are left out. -/
def stringify (members : List (String × Option String)) : JsonObject :=
  members.filterMap fun m => m.2.map fun value => (m.1, value)

/-! ## The decoder -/

structure SIWFSignup where
  reference_id : String
  account_id : String
  msa_id : String
  handle : String
  provider_id : String
  deriving DecidableEq

structure HandleChanged where
  reference_id : String
  msa_id : String
  handle : String
  provider_id : String
  deriving DecidableEq

structure HandleCreated where
  reference_id : String
  msa_id : String
  handle : String
  provider_id : String
  deriving DecidableEq

structure KeyAdded where
  reference_id : String
  msa_id : String
  new_public_key : String
  deriving DecidableEq

inductive WebhookCallback where
  | siwfSignup (payload : SIWFSignup)
  | handleChange (payload : HandleChanged)
  | handleCreated (payload : HandleCreated)
  | keyAdded (payload : KeyAdded)
  deriving DecidableEq

namespace WebhookCallback

/-- A field that must be there, and once. -/
def field (body : JsonObject) (name : String) : Option String :=
  match body.filter fun m => m.1 = name with
  | [m] => some m.2
  | _ => none

/-- The derived decoder: the tag chooses the variant, whose fields are read by
their names; others are passed over. -/
def deserialize (body : JsonObject) : Option WebhookCallback := do
  let transactionType ← field body "transactionType"
  if transactionType = "SIWF_SIGNUP" then
    pure (siwfSignup
      { reference_id := ← field body "referenceId"
        account_id := ← field body "accountId"
        msa_id := ← field body "msaId"
        handle := ← field body "handle"
        provider_id := ← field body "providerId" })
  else if transactionType = "CHANGE_HANDLE" then
    pure (handleChange
      { reference_id := ← field body "referenceId"
        msa_id := ← field body "msaId"
        handle := ← field body "handle"
        provider_id := ← field body "providerId" })
  else if transactionType = "CREATE_HANDLE" then
    pure (handleCreated
      { reference_id := ← field body "referenceId"
        msa_id := ← field body "msaId"
        handle := ← field body "handle"
        provider_id := ← field body "providerId" })
  else if transactionType = "ADD_KEY" then
    pure (keyAdded
      { reference_id := ← field body "referenceId"
        msa_id := ← field body "msaId"
        new_public_key := ← field body "newPublicKey" })
  else none

end WebhookCallback

/-- A member of the body is read back, and one that is left out is missing. -/
theorem field_stringify {members : List (String × Option String)}
    (hnodup : (members.map Prod.fst).Nodup) {name : String} {value : Option String}
    (hmember : (name, value) ∈ members) :
    WebhookCallback.field (stringify members) name = value := by
  have hfilter : (stringify members).filter (fun m => m.1 = name) =
      (value.map fun value => (name, value)).toList := by
    induction members with
    | nil => exact absurd hmember List.not_mem_nil
    | cons m members ih =>
        rw [List.map_cons, List.nodup_cons] at hnodup
        rw [stringify, List.filterMap_cons]
        rcases List.mem_cons.mp hmember with rfl | htail
        · -- the names that follow are other names
          have hrest : (stringify members).filter (fun m => m.1 = name) = [] := by
            rw [List.filter_eq_nil_iff]
            intro m hm hname
            obtain ⟨m', hm', heq⟩ := List.mem_filterMap.mp hm
            obtain ⟨value', -, rfl⟩ := Option.map_eq_some_iff.mp heq
            rw [decide_eq_true_iff] at hname
            have hmem : m'.1 ∈ members.map Prod.fst := List.mem_map_of_mem hm'
            exact hnodup.1 (hname ▸ hmem)
          cases value with
          | none => exact hrest
          | some value => simpa [stringify] using hrest
        · have hne : m.1 ≠ name := fun heq =>
            hnodup.1 (heq ▸ List.mem_map_of_mem (f := Prod.fst) htail)
          have hrest := ih hnodup.2 htail
          cases hvalue : m.2 with
          | none => exact hrest
          | some value' => simpa [stringify, List.filter_cons, hne] using hrest
  rw [WebhookCallback.field, hfilter]
  cases value <;> rfl

section Stringify

open WebhookCallback

variable (r : TxWebhookRsp)

private theorem field_members {name : String} {value : Option String}
    (hmember : (name, value) ∈ r.members) : field (stringify r.members) name = value := by
  refine field_stringify ?_ hmember
  show (["transactionType", "providerId", "referenceId", "msaId", "accountId", "handle",
    "newPublicKey"] : List String).Nodup
  decide

@[simp] theorem field_transactionType : field (stringify r.members) "transactionType" =
    r.transactionType.map TransactionType.wireName := field_members r (by simp [TxWebhookRsp.members])

@[simp] theorem field_providerId : field (stringify r.members) "providerId" = r.providerId :=
  field_members r (by simp [TxWebhookRsp.members])

@[simp] theorem field_referenceId : field (stringify r.members) "referenceId" = r.referenceId :=
  field_members r (by simp [TxWebhookRsp.members])

@[simp] theorem field_msaId : field (stringify r.members) "msaId" = r.msaId :=
  field_members r (by simp [TxWebhookRsp.members])

@[simp] theorem field_accountId : field (stringify r.members) "accountId" = r.accountId :=
  field_members r (by simp [TxWebhookRsp.members])

@[simp] theorem field_handle : field (stringify r.members) "handle" = r.handle :=
  field_members r (by simp [TxWebhookRsp.members])

@[simp] theorem field_newPublicKey : field (stringify r.members) "newPublicKey" = r.newPublicKey :=
  field_members r (by simp [TxWebhookRsp.members])

end Stringify

/-! ## Where the values come from -/

/-- The handle that is posted is the text of the handle in the event. -/
theorem decodeHandle_eq (handle : List UInt8) : decodeHandle handle = utf8ToString handle := by
  have hbytes : ∀ bs : List UInt8, bufferFromHex (bs.flatMap hexOfByte) = bs := by
    intro bs
    induction bs with
    | nil => rfl
    | cons b bs ih =>
        have hlt : b.toNat < 256 := b.toNat_lt
        have hhigh := digitValue_digitChar (b.toNat / 16) (by omega)
        have hlow := digitValue_digitChar (b.toNat % 16) (by omega)
        have hbyte : b.toNat / 16 * 16 + b.toNat % 16 = b.toNat := by omega
        simp only [List.flatMap_cons, hexOfByte, List.cons_append, List.nil_append, bufferFromHex,
          hhigh, hlow, hbyte, UInt8.ofNat_toNat, ih]
  unfold decodeHandle bytesToHex
  rw [List.drop_succ_cons, List.drop_succ_cons, List.drop_zero, hbytes]

/-- The events of a sign-up that give an account and its identifier. -/
def MsaCreatedIn (events : List EventRecord) (msaId accountId : String) : Prop :=
  ∃ r ∈ events, ∃ id key, r.event = .msaCreated id key ∧ msaId = toString id ∧ accountId = key

/-- The events that give a handle, and the identifier of the account that has
claimed it. -/
def HandleClaimedIn (events : List EventRecord) (msaId handle : String) : Prop :=
  ∃ r ∈ events, ∃ id bytes, r.event = .handleClaimed id bytes ∧ msaId = toString id ∧
    handle = utf8ToString bytes

def PublicKeyAddedIn (events : List EventRecord) (msaId newPublicKey : String) : Prop :=
  ∃ r ∈ events, ∃ id key, r.event = .publicKeyAdded id key ∧ msaId = toString id ∧
    newPublicKey = key

/-- A value of a sign-up that events of one kind set, and others leave as it is,
is the one set last. -/
theorem handleSIWFTxnResult_get {α : Type} (get : TxnValues → Option α)
    (set : Event → Option α) (hinit : get {} = none)
    (hrecord : ∀ values r, get (siwfRecord values r) = (set r.event).or (get values))
    (events : List EventRecord) :
    get (handleSIWFTxnResult events) = events.reverse.findSome? fun r => set r.event := by
  induction events using List.reverseRecOn with
  | nil => exact hinit
  | append_singleton events r ih =>
      have happend : handleSIWFTxnResult (events ++ [r]) =
          siwfRecord (handleSIWFTxnResult events) r := by
        simp [handleSIWFTxnResult]
      rw [happend, hrecord, ih, List.reverse_append, List.reverse_singleton,
        List.singleton_append, List.findSome?_cons]
      cases set r.event <;> rfl

/-- It comes from an event, and is there as soon as one event sets it. -/
theorem handleSIWFTxnResult_from {α : Type} (get : TxnValues → Option α)
    (set : Event → Option α) (hinit : get {} = none)
    (hrecord : ∀ values r, get (siwfRecord values r) = (set r.event).or (get values))
    (events : List EventRecord) :
    (∀ a, get (handleSIWFTxnResult events) = some a → ∃ r ∈ events, set r.event = some a) ∧
      ((get (handleSIWFTxnResult events)).isSome ↔ ∃ r ∈ events, ∃ a, set r.event = some a) := by
  rw [handleSIWFTxnResult_get get set hinit hrecord]
  constructor
  · intro a h
    obtain ⟨r, hr, hvalue⟩ := List.exists_of_findSome?_eq_some h
    exact ⟨r, List.mem_reverse.mp hr, hvalue⟩
  · rw [List.findSome?_isSome_iff]
    simp only [List.mem_reverse, Option.isSome_iff_exists]

/-- The account of a sign-up with its identifier, where it has both. -/
def TxnValues.account (values : TxnValues) : Option (String × String) :=
  values.msaId.bind fun msaId => values.address.map fun address => (msaId, address)

/-- The account an event creates, with its identifier. -/
def Event.account : Event → Option (String × String)
  | .msaCreated msaId key => some (toString msaId, key)
  | _ => none

/-- The handle an event claims. -/
def Event.handle : Event → Option String
  | .handleClaimed _ bytes => some (utf8ToString bytes)
  | _ => none

theorem Event.account_eq_some {event : Event} {msaId accountId : String} :
    event.account = some (msaId, accountId) ↔
      ∃ id key, event = .msaCreated id key ∧ msaId = toString id ∧ accountId = key := by
  constructor
  · intro h
    cases event with
    | msaCreated id key =>
        obtain ⟨hid, hkey⟩ := Prod.mk.inj (Option.some.inj h)
        exact ⟨id, key, rfl, hid.symm, hkey.symm⟩
    | _ => cases h
  · rintro ⟨id, key, rfl, rfl, rfl⟩
    rfl

theorem Event.handle_eq_some {event : Event} {handle : String} :
    event.handle = some handle ↔
      ∃ id bytes, event = .handleClaimed id bytes ∧ handle = utf8ToString bytes := by
  constructor
  · intro h
    cases event with
    | handleClaimed id bytes => exact ⟨id, bytes, rfl, (Option.some.inj h).symm⟩
    | _ => cases h
  · rintro ⟨id, bytes, rfl, rfl⟩
    rfl

theorem handleSIWFTxnResult_account (events : List EventRecord) :
    (∀ msaId accountId, (handleSIWFTxnResult events).account = some (msaId, accountId) →
        MsaCreatedIn events msaId accountId) ∧
      ((handleSIWFTxnResult events).account.isSome ↔
        ∃ msaId accountId, MsaCreatedIn events msaId accountId) := by
  obtain ⟨hfrom, hsome⟩ := handleSIWFTxnResult_from TxnValues.account
    Event.account rfl (fun values r => by
      cases hevent : r.event <;> simp [siwfRecord, hevent, TxnValues.account, Event.account]) events
  constructor
  · intro msaId accountId h
    obtain ⟨r, hr, hvalue⟩ := hfrom _ h
    exact ⟨r, hr, Event.account_eq_some.mp hvalue⟩
  · rw [hsome]
    constructor
    · rintro ⟨r, hr, ⟨msaId, accountId⟩, hvalue⟩
      exact ⟨msaId, accountId, r, hr, Event.account_eq_some.mp hvalue⟩
    · rintro ⟨msaId, accountId, r, hr, hevent⟩
      exact ⟨r, hr, (msaId, accountId), Event.account_eq_some.mpr hevent⟩

theorem siwfRecord_handle (values : TxnValues) (r : EventRecord) :
    (siwfRecord values r).handle = r.event.handle.or values.handle := by
  cases hevent : r.event <;> simp [siwfRecord, hevent, decodeHandle_eq, Event.handle]

theorem handleSIWFTxnResult_handle (events : List EventRecord) :
    (∀ handle, (handleSIWFTxnResult events).handle = some handle →
        ∃ msaId, HandleClaimedIn events msaId handle) ∧
      ((handleSIWFTxnResult events).handle.isSome ↔
        ∃ msaId handle, HandleClaimedIn events msaId handle) := by
  obtain ⟨hfrom, hsome⟩ := handleSIWFTxnResult_from TxnValues.handle
    Event.handle rfl siwfRecord_handle events
  have hclaimed : ∀ r ∈ events, ∀ handle, r.event.handle = some handle →
      ∃ msaId, HandleClaimedIn events msaId handle := by
    intro r hr handle hvalue
    obtain ⟨id, bytes, hevent, heq⟩ := Event.handle_eq_some.mp hvalue
    exact ⟨toString id, r, hr, id, bytes, hevent, rfl, heq⟩
  constructor
  · intro handle h
    obtain ⟨r, hr, hvalue⟩ := hfrom _ h
    exact hclaimed r hr handle hvalue
  · rw [hsome]
    constructor
    · rintro ⟨r, hr, handle, hvalue⟩
      obtain ⟨msaId, hin⟩ := hclaimed r hr handle hvalue
      exact ⟨msaId, handle, hin⟩
    · rintro ⟨msaId, handle, r, hr, id, bytes, hevent, -, heq⟩
      exact ⟨r, hr, handle, Event.handle_eq_some.mpr ⟨id, bytes, hevent, heq⟩⟩

/-! ## Agreement -/

/-- The entries the publisher writes: one waits for the event that goes with
its type. -/
structure Published (status : ITxStatus) : Prop where
  type : status.type ≠ .siwfSignin
  successEvent : status.successEvent = targetEvent status.type

/-- What is written to the watch list is an entry the publisher writes. -/
def writesPublished : Act Worker → Prop
  | .fire (.hset _ status) => Published status
  | .await (.hset _ status) => Published status
  | _ => True

/-- The event a job waits for goes with its type. -/
private theorem submit_targetEvent (data : TransactionData) :
    (submit data).Follows (Protocol.only writesPublished)
      (fun sent _ => data.request.type ≠ .siwfSignin ∧
        sent.2.2 = targetEvent data.request.type) (fun _ _ => True) () := by
  have hnonce : Prog.Only writesPublished getNextNonce := by
    refine Prog.Only.bind (by simp [writesPublished]) fun nonce => ?_
    refine Prog.Only.bind (by simp [writesPublished]) fun nextNonceIndex => ?_
    exact Prog.Only.ite trivial trivial
  have hsingle : ∀ tx, Prog.Only writesPublished (processSingleTxn tx) := by
    intro tx
    refine Prog.Only.bind (by simp [writesPublished]) fun ext => Prog.Only.bind hnonce fun nonce => ?_
    exact Prog.Only.bind (by simp [writesPublished]) fun sent => trivial
  unfold submit
  cases hrequest : data.request with
  | createHandle request =>
      simp only [publishHandle, Prog.bind_eq, Prog.follows_bind, follows_call]
      refine ⟨trivial, fun tx => (hsingle tx).mono ?_ fun _ _ _ => trivial, by simp, by simp⟩
      exact fun txHash s _ => ⟨by simp [Request.type], rfl⟩
  | changeHandle request =>
      simp only [publishHandle, Prog.bind_eq, Prog.follows_bind, follows_call]
      refine ⟨trivial, fun tx => (hsingle tx).mono ?_ fun _ _ _ => trivial, by simp, by simp⟩
      exact fun txHash s _ => ⟨by simp [Request.type], rfl⟩
  | addKey request =>
      simp only [addPublicKeyToMsa, Prog.bind_eq, Prog.follows_bind, follows_call]
      refine ⟨trivial, fun tx => (hsingle tx).mono ?_ fun _ _ _ => trivial, by simp, by simp⟩
      exact fun txHash s _ => ⟨by simp [Request.type], rfl⟩
  | siwfSignup calls =>
      -- building the calls and sending the batch writes nothing
      have hbatch : ∀ txns, Prog.Only writesPublished (processBatchTxn txns) := by
        intro txns
        refine Prog.Only.bind (by simp [writesPublished]) fun ext => ?_
        refine Prog.Only.bind hnonce fun nonce => ?_
        exact Prog.Only.bind (by simp [writesPublished]) fun sent => trivial
      simp only [Prog.bind_eq, Prog.follows_bind]
      refine (Prog.follows_mapM (E := fun _ _ => True) (J := fun _ => True) ?_ (calls.getD []) _
        trivial).mono ?_ fun _ _ _ => trivial
      · intro x s _
        rw [follows_call]
        exact ⟨trivial, fun _ => trivial, fun _ => trivial, fun _ _ => trivial⟩
      · intro txns s _
        refine (hbatch txns).mono ?_ fun _ _ _ => trivial
        exact fun sent s _ => ⟨by simp [Request.type], rfl⟩
  | siwfSignin => trivial

/-- **Every entry the publisher writes waits for the event of its type.** -/
theorem publish_published (data : TransactionData) :
    Prog.Only writesPublished (publish data) := by
  rw [Prog.Only, publish]
  simp only [Prog.bind_eq, Prog.follows_bind, follows_call]
  refine ⟨trivial, fun lastFinalizedBlockNumber => ?_, fun _ => trivial, fun _ _ => trivial⟩
  refine (submit_targetEvent data).mono ?_ fun _ _ _ => trivial
  rintro ⟨tx, txHash, event⟩ s ⟨htype, rfl⟩
  simp only
  cases tx.era.asMortalEra with
  | none => trivial
  | some era => exact ⟨⟨htype, rfl⟩, trivial⟩

/-- The callback carries the values of the entry and of the events, as the
variant the entry's type names. -/
def WebhookCallback.Carries (status : ITxStatus) (events : List EventRecord) :
    WebhookCallback → Prop
  | siwfSignup payload => status.type = .siwfSignup ∧
      payload.reference_id = status.referenceId ∧ payload.provider_id = status.providerId ∧
        MsaCreatedIn events payload.msa_id payload.account_id ∧
          ∃ msaId, HandleClaimedIn events msaId payload.handle
  | handleChange payload => status.type = .changeHandle ∧
      payload.reference_id = status.referenceId ∧ payload.provider_id = status.providerId ∧
        HandleClaimedIn events payload.msa_id payload.handle
  | handleCreated payload => status.type = .createHandle ∧
      payload.reference_id = status.referenceId ∧ payload.provider_id = status.providerId ∧
        HandleClaimedIn events payload.msa_id payload.handle
  | keyAdded payload => status.type = .addKey ∧
      payload.reference_id = status.referenceId ∧
        PublicKeyAddedIn events payload.msa_id payload.new_public_key

/-- What is posted is decoded, and nothing of it is lost. -/
def Decoded (status : ITxStatus) (events : List EventRecord) (body : TxWebhookRsp) : Prop :=
  ∃ callback, WebhookCallback.deserialize (stringify body.members) = some callback ∧
    callback.Carries status events

/-- An event with the name of a handle claim is one. -/
theorem Event.handleClaimed_of_name {event : Event}
    (h : event.name = ⟨"handles", "HandleClaimed"⟩) :
    ∃ msaId handle, event = .handleClaimed msaId handle := by
  cases event with
  | handleClaimed msaId handle => exact ⟨msaId, handle, rfl⟩
  | other event =>
      have hname : event.name = _ := h
      exact absurd event.notDecoded (by rw [hname]; decide)
  | _ => simp [Event.name] at h

theorem Event.publicKeyAdded_of_name {event : Event}
    (h : event.name = ⟨"msa", "PublicKeyAdded"⟩) :
    ∃ msaId key, event = .publicKeyAdded msaId key := by
  cases event with
  | publicKeyAdded msaId key => exact ⟨msaId, key, rfl⟩
  | other event =>
      have hname : event.name = _ := h
      exact absurd event.notDecoded (by rw [hname]; decide)
  | _ => simp [Event.name] at h

/-- What is posted is made of the entry, the events and a success event. -/
theorem notification_eq_some {status : ITxStatus} {events : List EventRecord} {body : TxWebhookRsp}
    (h : notification status events = some body) :
    ∃ r ∈ events, r.event.name = status.successEvent ∧
      body = webhookResponse status events r.event := by
  unfold notification at h
  split at h
  · cases h
  · obtain ⟨r, hr, rfl⟩ := Option.map_eq_some_iff.mp h
    have hname := List.find?_some hr
    exact ⟨r, List.mem_of_find?_eq_some hr, by simpa using hname, rfl⟩

section Decode

variable {status : ITxStatus} {events : List EventRecord} {body : TxWebhookRsp}

open WebhookCallback

theorem decoded_handle (hpublished : Published status)
    (htype : status.type = .changeHandle ∨ status.type = .createHandle)
    (h : notification status events = some body) : Decoded status events body := by
  obtain ⟨r, hr, hname, rfl⟩ := notification_eq_some h
  rw [hpublished.successEvent] at hname
  have hclaimed : ∃ id bytes, r.event = .handleClaimed id bytes := by
    rcases htype with htype | htype
    · rw [htype] at hname
      exact Event.handleClaimed_of_name hname
    · rw [htype] at hname
      exact Event.handleClaimed_of_name hname
  obtain ⟨id, bytes, hevent⟩ := hclaimed
  have hin : HandleClaimedIn events (toString id) (utf8ToString bytes) :=
    ⟨r, hr, id, bytes, hevent, rfl, rfl⟩
  rcases htype with htype | htype
  · refine ⟨.handleChange ⟨status.referenceId, toString id, utf8ToString bytes, status.providerId⟩,
      ?_, htype, rfl, rfl, hin⟩
    simp [deserialize, webhookResponse, htype, hevent, createWebhookRsp,
      handlePublishHandleTxResult, decodeHandle_eq, TransactionType.wireName]
  · refine ⟨.handleCreated ⟨status.referenceId, toString id, utf8ToString bytes, status.providerId⟩,
      ?_, htype, rfl, rfl, hin⟩
    simp [deserialize, webhookResponse, htype, hevent, createWebhookRsp,
      handlePublishHandleTxResult, decodeHandle_eq, TransactionType.wireName]

theorem decoded_addKey (hpublished : Published status) (htype : status.type = .addKey)
    (h : notification status events = some body) : Decoded status events body := by
  obtain ⟨r, hr, hname, rfl⟩ := notification_eq_some h
  rw [hpublished.successEvent, htype] at hname
  obtain ⟨id, key, hevent⟩ := Event.publicKeyAdded_of_name hname
  refine ⟨.keyAdded ⟨status.referenceId, toString id, key⟩, ?_, htype, rfl, r, hr, id, key, hevent,
    rfl, rfl⟩
  simp [deserialize, webhookResponse, htype, hevent, createWebhookRsp, handlePublishKeyTxResult,
    TransactionType.wireName]

/-- A sign-up needs both of its events. -/
theorem decoded_siwfSignup_iff (htype : status.type = .siwfSignup)
    (h : notification status events = some body) : Decoded status events body ↔
      (∃ msaId accountId, MsaCreatedIn events msaId accountId) ∧
        ∃ msaId handle, HandleClaimedIn events msaId handle := by
  obtain ⟨r, hr, -, rfl⟩ := notification_eq_some h
  obtain ⟨haccount, haccount'⟩ := handleSIWFTxnResult_account events
  obtain ⟨hhandle, hhandle'⟩ := handleSIWFTxnResult_handle events
  rw [← haccount', ← hhandle']
  -- the decoder takes the values as they were set, and needs all of them
  have hdecode : deserialize (stringify (webhookResponse status events r.event).members) =
      (handleSIWFTxnResult events).account.bind fun account =>
        (handleSIWFTxnResult events).handle.map fun handle =>
          .siwfSignup ⟨status.referenceId, account.2, account.1, handle, status.providerId⟩ := by
    simp only [deserialize, webhookResponse, htype, createWebhookRsp, field_transactionType,
      field_referenceId, field_accountId, field_msaId, field_handle, field_providerId,
      TxnValues.account]
    cases (handleSIWFTxnResult events).msaId <;> cases (handleSIWFTxnResult events).address <;>
      cases (handleSIWFTxnResult events).handle <;> simp [TransactionType.wireName]
  constructor
  · rintro ⟨callback, hcallback, -⟩
    rw [hdecode] at hcallback
    obtain ⟨account, hsome, hmap⟩ := Option.bind_eq_some_iff.mp hcallback
    obtain ⟨handle, hsome', -⟩ := Option.map_eq_some_iff.mp hmap
    simp [hsome, hsome']
  · rintro ⟨hsome, hsome'⟩
    obtain ⟨account, hsome⟩ := Option.isSome_iff_exists.mp hsome
    obtain ⟨handle, hsome'⟩ := Option.isSome_iff_exists.mp hsome'
    refine ⟨.siwfSignup ⟨status.referenceId, account.2, account.1, handle, status.providerId⟩, ?_,
      htype, rfl, rfl, haccount account.1 account.2 hsome, hhandle handle hsome'⟩
    rw [hdecode, hsome, hsome']
    rfl

end Decode

/-- **Encoder and decoder.**  What is posted for an entry of the publisher is
decoded as the variant that its type names, with the values of the entry and of
the events, exactly if a sign-up has both an account and a handle among its
events. -/
theorem notification_decoded_iff (status : ITxStatus) (events : List EventRecord)
    (body : TxWebhookRsp) (hpublished : Published status)
    (h : notification status events = some body) :
    Decoded status events body ↔
      (status.type = .siwfSignup → (∃ msaId accountId, MsaCreatedIn events msaId accountId) ∧
        ∃ msaId handle, HandleClaimedIn events msaId handle) := by
  cases htype : status.type with
  | siwfSignup => simpa using decoded_siwfSignup_iff htype h
  | siwfSignin => exact absurd htype hpublished.type
  | addKey => simpa using decoded_addKey hpublished htype h
  | changeHandle => simpa using decoded_handle hpublished (.inl htype) h
  | createHandle => simpa using decoded_handle hpublished (.inr htype) h

/-- An entry of a sign-up, and one of a new handle. -/
def signupEntry : ITxStatus :=
  ⟨.siwfSignup, "reference", "1", 10, ⟨"utility", "BatchCompleted"⟩, 1, 65⟩

def createHandleEntry : ITxStatus :=
  ⟨.createHandle, "reference", "1", 10, ⟨"handles", "HandleClaimed"⟩, 1, 65⟩

/-- The handle `a` is claimed for account 7. -/
def handleClaim : EventRecord := ⟨.applyExtrinsic 2, .handleClaimed 7 [0x61]⟩

theorem notification_decoded_createHandle : ∃ body,
    notification createHandleEntry [handleClaim] = some body ∧
      Decoded createHandleEntry [handleClaim] body := by
  refine ⟨_, rfl, (notification_decoded_iff createHandleEntry [handleClaim] _ ⟨?_, rfl⟩ rfl).mpr ?_⟩
  · decide
  · exact fun h => absurd h (by decide)

private theorem batchCompleted_notDecoded :
    (⟨"utility", "BatchCompleted"⟩ : EventName) ∉ decodedEvents := by decide

/-- What happens when an account that exists signs up: the provider is granted
a delegation, the handle is claimed, and no account is created. -/
def existingAccountSignup : List EventRecord :=
  [⟨.applyExtrinsic 2, .delegationGranted 1 7⟩, handleClaim,
    ⟨.applyExtrinsic 2, .other ⟨⟨"utility", "BatchCompleted"⟩, batchCompleted_notDecoded⟩⟩]

/-- The sign-up of an account that exists is posted, and not decoded. -/
theorem notification_not_decoded : Published signupEntry ∧ ∃ body,
    notification signupEntry existingAccountSignup = some body ∧
      body.msaId = none ∧ body.accountId = none ∧
        ¬ Decoded signupEntry existingAccountSignup body := by
  refine ⟨⟨by decide, rfl⟩, _, rfl, rfl, rfl, ?_⟩
  rintro ⟨callback, hcallback, -⟩
  have hnone : WebhookCallback.deserialize (stringify (webhookResponse signupEntry
      existingAccountSignup (.other ⟨⟨"utility", "BatchCompleted"⟩,
        batchCompleted_notDecoded⟩)).members) = none := by
    decide +kernel
  rw [hnone] at hcallback
  cases hcallback

end AccountService
