import AccountService.Api
import AccountService.Json
import AccountService.RequestQueue
import AccountService.WebhookCallback

/-!
# Posted requests

An endpoint takes an object, checks that some of its members are not empty, and
has it enqueued with a type added to it and all else in it as it was.  The queue
keeps the data of a job as text.  A worker parses the text and takes from the
object what its type calls for.

What the worker takes is what the object held that was posted: neither the
members that are added on the way, nor those that the object has besides, nor
the writing and reading of the text change it.

The members the worker uses have the types they are declared with; of other data
nothing is taken here.  Numbers are integers, and exact.
-/

namespace AccountService

open Async Json

/-! ## Validation -/

/-- `@IsNotEmpty()` -/
def isNotEmpty : Option Json → Bool
  | none | some .null => false
  | some (.string s) => s ≠ ""
  | some _ => true

/-- The messages of `ValidationPipe`.  The members of `payload` are not
validated. -/
def validationErrors (fields : List String) (body : Object) : List String :=
  (fields.filter fun field => !isNotEmpty (body.get field)).map fun field =>
    s!"{field} should not be empty"

def HandleRequest.fields : List String := ["accountId", "payload", "proof"]

def KeysRequest.fields : List String :=
  ["msaOwnerAddress", "msaOwnerSignature", "newKeyOwnerSignature", "payload"]

/-! ## The endpoints -/

/-- `{ ...body, type }` -/
def withType (body : Object) (type : TransactionType) : Object :=
  body.setString "type" type.wireName

/-- Return the reference id, or throw `e` whatever was thrown. -/
def orThrow (e : ApiError) (p : Prog Enqueue Err String) :
    Prog Enqueue Err (Except ApiError String) :=
  Prog.tryCatch (p.bind fun referenceId => Prog.done (.ok referenceId))
    fun _ => Prog.done (.error e)

section Controllers

variable (service : EnqueueService)

def HandlesControllerV1.createHandle (createHandleRequest : Object) :
    Prog Enqueue Err (Except ApiError String) :=
  orThrow (.error "Failed to create handle")
    (service.enqueueRequest (withType createHandleRequest .createHandle).text)

def HandlesControllerV1.changeHandle (changeHandleRequest : Object) :
    Prog Enqueue Err (Except ApiError String) :=
  orThrow (.error "Failed to change handle")
    (service.enqueueRequest (withType changeHandleRequest .changeHandle).text)

def KeysControllerV1.addKey (addKeysRequest : Object) :
    Prog Enqueue Err (Except ApiError String) :=
  orThrow (.httpException "Failed to find public keys for the given msaId" HttpStatus.BAD_REQUEST)
    (service.enqueueRequest (withType addKeysRequest .addKey).text)

/-- What the validation of a sign-up and of a sign-in come to; `none` stands for
an exception. -/
structure Siwf where
  validateSignup : (signUp : Option Json) → (providerId : String) → Option Object
  validateSignin : (signIn : Option Json) → (domain : String) → Option (String × String)

structure WalletLoginResponse where
  referenceId : String
  msaId : Option String := none
  publicKey : Option String := none

/-- A value counts as true. -/
def truthy : Option Json → Bool
  | none | some .null | some (.bool false) => false
  | some (.number n) => n ≠ 0
  | some (.string s) => s ≠ ""
  | some _ => true

def AccountsService.signInWithFrequency (siwf : Siwf) (request : Object) :
    Prog Enqueue Err (Except ApiError WalletLoginResponse) :=
  if truthy (request.get "signUp") then
    match siwf.validateSignup (request.get "signUp") service.providerId with
    | some siwfPayload => do
        let referenceId ← orThrow (.error "Failed to sign up")
          (service.enqueueRequest (withType siwfPayload .siwfSignup).text)
        return referenceId.map fun referenceId => { referenceId := referenceId }
    | none => return .error (.error "Failed to sign up")
  else if truthy (request.get "signIn") then
    match siwf.validateSignin (request.get "signIn") "localhost" with
    | some (msaId, publicKey) =>
        return .ok { referenceId := "0", msaId := some msaId, publicKey := some publicKey }
    | none => return .error (.error "Failed to Sign-In With Frequency")
  else return .error (.error "Invalid Sign-In With Frequency Request")

def AccountsControllerV1.postSignInWithFrequency (siwf : Siwf) (walletLoginRequest : Object) :
    Prog Enqueue Err (Except ApiError WalletLoginResponse) := do
  let response ← AccountsService.signInWithFrequency service siwf walletLoginRequest
  return response.mapError fun _ =>
    .httpException "Failed to Sign In With Frequency" HttpStatus.BAD_REQUEST

end Controllers

/-- A request to one of the endpoints, with the object that was posted. -/
inductive ApiPost where
  | createHandle (body : Object)
  | changeHandle (body : Object)
  | addKey (body : Object)
  | siwf (validators : Siwf) (body : Object)

/-- `HttpStatus.CREATED` -/
def HttpStatus.CREATED : ℕ := 201

/-- The status of an answer, with that of a success. -/
def statusOf {α : Type} (success : ℕ) : Except ApiError α → ℕ
  | .ok _ => success
  | .error (.httpException _ status) => status
  | .error (.error _) => HttpStatus.INTERNAL_SERVER_ERROR

/-- Serve a request whose members must not be empty. -/
def validated {α : Type} (fields : List String) (body : Object) (success : ℕ)
    (handler : Prog Enqueue Err (Except ApiError α)) : Prog Enqueue Err ℕ :=
  if validationErrors fields body = [] then
    handler.bind fun response => Prog.done (statusOf success response)
  else Prog.done HttpStatus.BAD_REQUEST

/-- Serve a request; the result is the status of the answer. -/
def ApiPost.serve (service : EnqueueService) : ApiPost → Prog Enqueue Err ℕ
  | createHandle body =>
      validated HandleRequest.fields body HttpStatus.OK
        (HandlesControllerV1.createHandle service body)
  | changeHandle body =>
      validated HandleRequest.fields body HttpStatus.OK
        (HandlesControllerV1.changeHandle service body)
  | addKey body =>
      validated KeysRequest.fields body HttpStatus.OK (KeysControllerV1.addKey service body)
  | siwf validators body =>
      validated [] body HttpStatus.CREATED
        (AccountsControllerV1.postSignInWithFrequency service validators body)

/-- A body that is valid makes a job of a type. -/
def validJob (fields : List String) (type : TransactionType) (body : Object) : Option Object :=
  if validationErrors fields body = [] then some (withType body type) else none

/-- The object of which a request makes a job. -/
def ApiPost.job (providerId : String) : ApiPost → Option Object
  | createHandle body => validJob HandleRequest.fields .createHandle body
  | changeHandle body => validJob HandleRequest.fields .changeHandle body
  | addKey body => validJob KeysRequest.fields .addKey body
  | siwf validators body =>
      if truthy (body.get "signUp") then
        (validators.validateSignup (body.get "signUp") providerId).map fun siwfPayload =>
          withType siwfPayload .siwfSignup
      else none

section Serving

variable {service : EnqueueService} {how : Settle Err} {q : PublishQueue}

/-- A controller does to the queue what enqueueing does. -/
private theorem orThrow_exec (e : ApiError) (request : String) :
    ((orThrow e (service.enqueueRequest request)).exec (queueMachine how) q).2 =
      ((service.enqueueRequest request).exec (queueMachine how) q).2 := by
  cases how <;> rfl

private theorem validated_exec {α : Type} (fields : List String) (body : Object) (success : ℕ)
    (handler : Prog Enqueue Err (Except ApiError α)) :
    ((validated fields body success handler).exec (queueMachine how) q).2 =
      if validationErrors fields body = [] then (handler.exec (queueMachine how) q).2 else q := by
  unfold validated
  split
  · rw [Prog.exec_bind]
    cases handler.exec (queueMachine how) q with
    | mk outcome q' => cases outcome <;> rfl
  · rfl

/-- **A request is enqueued, or leaves the queue as it is.** -/
theorem ApiPost.serve_exec (post : ApiPost) :
    ((post.serve service).exec (queueMachine how) q).2 =
      match post.job service.providerId with
      | none => q
      | some job => ((service.enqueueRequest job.text).exec (queueMachine how) q).2 := by
  cases post with
  | siwf validators body =>
      rw [serve, validated_exec, if_pos (show validationErrors [] body = [] from rfl),
        AccountsControllerV1.postSignInWithFrequency, job,
        AccountsService.signInWithFrequency]
      split
      · cases validators.validateSignup (body.get "signUp") service.providerId with
        | none => rfl
        | some siwfPayload => cases how <;> rfl
      · split
        · cases validators.validateSignin (body.get "signIn") "localhost" <;> rfl
        · rfl
  | _ body =>
      rw [serve, validated_exec, job, validJob]
      split
      · exact orThrow_exec _ _
      · rfl

end Serving

/-! ## The data of a job -/

/-- `{ ...request, providerId, referenceId }` -/
def RequestData.object (data : RequestData) : Option Object :=
  (Object.ofText data.request).map fun request =>
    (request.setString "providerId" data.providerId).setString "referenceId" data.referenceId

/-- The text the queue keeps. -/
def RequestData.text (data : RequestData) : Option String := data.object.map Object.text

def HandleRequest.ofObject (data : Object) : Option HandleRequest := do
  let payload ← data.getObject "payload"
  return {
    accountId := ← data.getString "accountId"
    baseHandle := ← payload.getString "baseHandle"
    expiration := ← payload.getNatural "expiration"
    proof := ← data.getString "proof" }

def AddKeyPayload.ofObject (payload : Object) : Option AddKeyPayload := do
  return {
    msaId := ← payload.getString "msaId"
    expiration := ← payload.getNatural "expiration"
    newPublicKey := ← payload.getString "newPublicKey" }

def KeysRequest.ofObject (data : Object) : Option KeysRequest := do
  let payload ← data.getObject "payload"
  return {
    msaOwnerAddress := ← data.getString "msaOwnerAddress"
    msaOwnerSignature := ← data.getString "msaOwnerSignature"
    newKeyOwnerSignature := ← data.getString "newKeyOwnerSignature"
    payload := ← AddKeyPayload.ofObject payload }

/-- `x.encodedExtrinsic` -/
def encodedExtrinsic : Json → Option String
  | .object members =>
      match Json.get members "encodedExtrinsic" with
      | some (.string s) => some s
      | _ => none
  | _ => none

/-- The encoded calls of a sign-up, which may have none. -/
def encodedCalls (data : Object) : Option (Option (List String)) :=
  match data.get "calls" with
  | none | some .null => some none
  | some (.array calls) => (calls.mapM encodedExtrinsic).map some
  | some _ => none

/-- What `process` takes from the data; `none` where a member that is used has
not the type it is declared with. -/
def Request.ofObject (type : String) (data : Object) : Option Request :=
  if type = "CREATE_HANDLE" then (HandleRequest.ofObject data).map .createHandle
  else if type = "CHANGE_HANDLE" then (HandleRequest.ofObject data).map .changeHandle
  else if type = "SIWF_SIGNUP" then (encodedCalls data).map .siwfSignup
  else if type = "ADD_KEY" then (KeysRequest.ofObject data).map .addKey
  else some .siwfSignin

def TransactionData.ofText (text : String) : Option TransactionData := do
  let data ← Object.ofText text
  let type ← data.getString "type"
  let request ← Request.ofObject type data
  return ⟨request, ← data.getString "providerId", ← data.getString "referenceId"⟩

/-- The data as the worker reads them. -/
def RequestData.read (data : RequestData) : Option TransactionData :=
  data.text.bind TransactionData.ofText

/-- What was asked for, by the object that was posted. -/
def ApiPost.asked (providerId : String) : ApiPost → Option Request
  | createHandle body => (HandleRequest.ofObject body).map .createHandle
  | changeHandle body => (HandleRequest.ofObject body).map .changeHandle
  | addKey body => (KeysRequest.ofObject body).map .addKey
  | siwf validators body =>
      ((validators.validateSignup (body.get "signUp") providerId).bind encodedCalls).map .siwfSignup

/-! ## What is read is what was posted -/

section Reading

variable {data data' : Object}

private theorem HandleRequest.ofObject_congr
    (h : ∀ name ∈ HandleRequest.fields, data.get name = data'.get name) :
    HandleRequest.ofObject data = HandleRequest.ofObject data' := by
  simp only [fields, List.forall_mem_cons, List.not_mem_nil, false_implies, implies_true,
    and_true] at h
  obtain ⟨haccountId, hpayload, hproof⟩ := h
  unfold ofObject
  rw [Object.getObject_congr hpayload, Object.getString_congr haccountId,
    Object.getString_congr hproof]

private theorem KeysRequest.ofObject_congr
    (h : ∀ name ∈ KeysRequest.fields, data.get name = data'.get name) :
    KeysRequest.ofObject data = KeysRequest.ofObject data' := by
  simp only [fields, List.forall_mem_cons, List.not_mem_nil, false_implies, implies_true,
    and_true] at h
  obtain ⟨haddress, hsignature, hnewSignature, hpayload⟩ := h
  unfold ofObject
  rw [Object.getObject_congr hpayload, Object.getString_congr haddress,
    Object.getString_congr hsignature, Object.getString_congr hnewSignature]

private theorem encodedCalls_congr (h : data.get "calls" = data'.get "calls") :
    encodedCalls data = encodedCalls data' := by
  rw [encodedCalls, encodedCalls, h]

/-- The members that are added on the way. -/
def addedNames : List String := ["type", "providerId", "referenceId"]

/-- The data of a job are the object with three members set. -/
private theorem get_added (body : Object) (type : TransactionType) (providerId referenceId : String)
    {name : String} (hname : name ∉ addedNames) :
    (((withType body type).setString "providerId" providerId).setString "referenceId"
      referenceId).get name = body.get name := by
  simp only [addedNames, List.mem_cons, List.not_mem_nil, or_false, not_or] at hname
  obtain ⟨htype, hproviderId, hreferenceId⟩ := hname
  rw [Object.setString, Object.get_set_of_ne hreferenceId, Object.setString,
    Object.get_set_of_ne hproviderId, withType, Object.setString, Object.get_set_of_ne htype]

/-- The text of the data is read as a request of the type that was added. -/
private theorem read_withType (body : Object) (type : TransactionType)
    (providerId referenceId : String) :
    RequestData.read ⟨(withType body type).text, providerId, referenceId⟩ =
      (Request.ofObject type.wireName
        (((withType body type).setString "providerId" providerId).setString "referenceId"
          referenceId)).map fun request => ⟨request, providerId, referenceId⟩ := by
  have htype : (((withType body type).setString "providerId" providerId).setString "referenceId"
      referenceId).getString "type" = some type.wireName := by
    rw [Object.getString, Object.setString, Object.get_set_of_ne (by decide), Object.setString,
      Object.get_set_of_ne (by decide), withType, Object.setString, Object.get_set_self]
  have hproviderId : (((withType body type).setString "providerId" providerId).setString
      "referenceId" referenceId).getString "providerId" = some providerId := by
    rw [Object.getString, Object.setString, Object.get_set_of_ne (by decide), Object.setString,
      Object.get_set_self]
  simp only [RequestData.read, RequestData.text, RequestData.object, Object.ofText_text,
    Option.map_some, Option.bind_some, TransactionData.ofText, Option.bind_eq_bind, htype,
    hproviderId, Object.getString_setString_self]
  cases Request.ofObject type.wireName _ <;> rfl

/-- It is read as that of the object that was posted, where the object is read
by its members alone. -/
private theorem read_validJob {fields : List String} {type : TransactionType} {body job : Object}
    {α : Type} {ofObject : Object → Option α} {make : α → Request} (providerId referenceId : String)
    (hjob : validJob fields type body = some job)
    (hadded : ∀ name ∈ fields, name ∉ addedNames)
    (htype : ∀ data, Request.ofObject type.wireName data = (ofObject data).map make)
    (hcongr : ∀ data, (∀ name ∈ fields, data.get name = body.get name) →
      ofObject data = ofObject body) :
    RequestData.read ⟨job.text, providerId, referenceId⟩ =
      ((ofObject body).map make).map fun request => ⟨request, providerId, referenceId⟩ := by
  obtain ⟨-, heq⟩ := Option.ite_none_right_eq_some.mp hjob
  obtain rfl := Option.some.inj heq
  rw [read_withType, htype, hcongr _ fun name hname =>
    get_added body type providerId referenceId (hadded name hname)]

/-- **The worker reads what was posted.** -/
theorem ApiPost.read_job {post : ApiPost} {providerId : String} {job : Object}
    (h : post.job providerId = some job) (referenceId : String) :
    RequestData.read ⟨job.text, providerId, referenceId⟩ =
      (post.asked providerId).map fun request => ⟨request, providerId, referenceId⟩ := by
  cases post with
  | createHandle body =>
      exact read_validJob providerId referenceId h (by decide) (fun _ => rfl)
        fun _ => HandleRequest.ofObject_congr
  | changeHandle body =>
      exact read_validJob providerId referenceId h (by decide) (fun _ => rfl)
        fun _ => HandleRequest.ofObject_congr
  | addKey body =>
      exact read_validJob providerId referenceId h (by decide) (fun _ => rfl)
        fun _ => KeysRequest.ofObject_congr
  | siwf validators body =>
      obtain ⟨-, heq⟩ := Option.ite_none_right_eq_some.mp h
      obtain ⟨siwfPayload, hpayload, rfl⟩ := Option.map_eq_some_iff.mp heq
      have hcalls : encodedCalls (((withType siwfPayload .siwfSignup).setString "providerId"
          providerId).setString "referenceId" referenceId) = encodedCalls siwfPayload :=
        encodedCalls_congr (get_added siwfPayload .siwfSignup providerId referenceId (by decide))
      have htype : ∀ data, Request.ofObject TransactionType.siwfSignup.wireName data =
          (encodedCalls data).map .siwfSignup := fun _ => rfl
      rw [read_withType, asked, hpayload, Option.bind_some, htype, hcalls]

end Reading

end AccountService
