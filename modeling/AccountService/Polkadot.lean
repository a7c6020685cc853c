import AccountService.JavaScript

/-!
# The chain as polkadot-js presents it

Hashes, eras, calls, events and dispatch errors: the data the worker receives
from the node and the accessors it applies to them.  An accessor that throws
off its variant (`asMortalEra`, `asModule`) returns `none` there.

A hash is kept as the number its bytes spell.  The node answers a request for
the hash of a block it does not have with the all-zero hash, which is the
number `0` and the only hash that is empty.
-/

namespace AccountService

/-- The hash of an extrinsic. -/
abbrev Hash := ℕ

/-- The hash of a block. -/
abbrev BlockHash := ℕ

/-- `hash.isEmpty`, and the negation of `hash.some((byte) => byte !== 0)`. -/
def BlockHash.isEmpty (h : BlockHash) : Bool := h == 0

/-! ## Eras -/

/-- The era of an extrinsic.  One that was never signed carries the immortal
era; signing against block `c` with period `p` gives phase `c % p`. -/
inductive ExtrinsicEra where
  | immortal
  | mortal (period phase : ℕ)
  deriving DecidableEq, Inhabited

/-- A mortal era. -/
structure MortalEra where
  period : ℕ
  phase : ℕ
  deriving DecidableEq

/-- `era.asMortalEra`. -/
def ExtrinsicEra.asMortalEra : ExtrinsicEra → Option MortalEra
  | immortal => none
  | mortal period phase => some ⟨period, phase⟩

/-- The first block of the validity window around `current`. -/
def MortalEra.birth (era : MortalEra) (current : ℕ) : ℕ :=
  (max current era.phase - era.phase) / era.period * era.period + era.phase

/-- The first block after the validity window around `current`. -/
def MortalEra.death (era : MortalEra) (current : ℕ) : ℕ :=
  era.birth current + era.period

/-- A window never starts after both the block it is computed from and the
phase. -/
theorem MortalEra.birth_le (era : MortalEra) (current : ℕ) :
    era.birth current ≤ max current era.phase := by
  have hdiv := Nat.div_mul_le_self (max current era.phase - era.phase) era.period
  have hphase : era.phase ≤ max current era.phase := le_max_right _ _
  unfold MortalEra.birth
  omega

/-! ## Calls and extrinsics -/

/-- The payload of a handle claim. -/
structure ClaimHandlePayload where
  baseHandle : List UInt8
  expiration : ℕ

/-- The payload of an added key. -/
structure AddKeyPayload where
  msaId : String
  expiration : ℕ
  newPublicKey : String

/-- A runtime call the service builds. -/
inductive RuntimeCall where
  | claimHandle (accountId proof : String) (payload : ClaimHandlePayload)
  | changeHandle (accountId proof : String) (payload : ClaimHandlePayload)
  | addPublicKeyToMsa (owner ownerProof newKeyProof : String) (payload : AddKeyPayload)
  | encoded (encodedExtrinsic : String)
  | payWithCapacity (call : RuntimeCall)
  | payWithCapacityBatchAll (calls : List RuntimeCall)
  deriving Inhabited

/-- An extrinsic as polkadot-js holds it. -/
structure SubmittableExtrinsic where
  call : RuntimeCall
  era : ExtrinsicEra
  deriving Inhabited

/-- `new Bytes(registry, text)`: text that reads `0x` and an even number of
hexadecimal digits is taken for hexadecimal, any other text for UTF-8. -/
def bytesOfString (text : String) : List UInt8 :=
  match text.toList with
  | '0' :: 'x' :: cs =>
      if cs.length % 2 = 0 ∧ cs.all fun c => (JavaScript.digitValue c).isSome then
        JavaScript.bufferFromHex cs
      else text.toUTF8.toList
  | _ => text.toUTF8.toList

/-- `bytes.toString()`: `0x` and two digits for each byte. -/
def bytesToHex (bs : List UInt8) : List Char :=
  '0' :: 'x' :: bs.flatMap JavaScript.hexOfByte

/-! ## Events -/

/-- The error an `ExtrinsicFailed` event carries. -/
inductive DispatchError where
  | other
  | cannotLookup
  | badOrigin
  | module (index error : ℕ)
  | consumerRemaining
  | noProviders
  | tooManyConsumers
  | token (error : ℕ)
  | arithmetic (error : ℕ)
  | transactional (error : ℕ)
  | exhausted
  | corruption
  | unavailable
  | rootNotAllowed
  deriving DecidableEq

/-- `dispatchError.asModule`. -/
def DispatchError.asModule : DispatchError → Option (ℕ × ℕ)
  | module index error => some (index, error)
  | _ => none

/-- The two names by which an event is matched. -/
structure EventName where
  sectionName : String
  method : String
  deriving DecidableEq

/-- The events whose data the service decodes. -/
def decodedEvents : List EventName :=
  [⟨"capacity", "CapacityWithdrawn"⟩, ⟨"system", "ExtrinsicFailed"⟩,
    ⟨"handles", "HandleClaimed"⟩, ⟨"msa", "MsaCreated"⟩,
    ⟨"msa", "DelegationGranted"⟩, ⟨"msa", "PublicKeyAdded"⟩]

/-- The name of an event the service does not look into. -/
structure OtherEvent where
  name : EventName
  notDecoded : name ∉ decodedEvents
  deriving DecidableEq

/-- An event of a block. -/
inductive Event where
  | capacityWithdrawn (msaId amount : ℕ)
  | extrinsicFailed (dispatchError : DispatchError)
  | handleClaimed (msaId : ℕ) (handle : List UInt8)
  | msaCreated (msaId : ℕ) (key : String)
  | delegationGranted (providerId delegatorId : ℕ)
  | publicKeyAdded (msaId : ℕ) (key : String)
  | other (event : OtherEvent)
  deriving DecidableEq

/-- `event.section` and `event.method`. -/
def Event.name : Event → EventName
  | capacityWithdrawn _ _ => ⟨"capacity", "CapacityWithdrawn"⟩
  | extrinsicFailed _ => ⟨"system", "ExtrinsicFailed"⟩
  | handleClaimed _ _ => ⟨"handles", "HandleClaimed"⟩
  | msaCreated _ _ => ⟨"msa", "MsaCreated"⟩
  | delegationGranted _ _ => ⟨"msa", "DelegationGranted"⟩
  | publicKeyAdded _ _ => ⟨"msa", "PublicKeyAdded"⟩
  | other event => event.name

/-- The dispatch error of an `ExtrinsicFailed` event. -/
def Event.failure : Event → Option DispatchError
  | extrinsicFailed dispatchError => some dispatchError
  | _ => none

/-- The amount of a `CapacityWithdrawn` event. -/
def Event.withdrawnAmount : Event → Option ℕ
  | capacityWithdrawn _ amount => some amount
  | _ => none

/-- When during a block an event was deposited. -/
inductive Phase where
  | applyExtrinsic (index : ℕ)
  | finalization
  | initialization
  deriving DecidableEq

/-- An event with its phase. -/
structure EventRecord where
  phase : Phase
  event : Event
  deriving DecidableEq

/-- `phase.isApplyExtrinsic && phase.asApplyExtrinsic.eq(index)`. -/
def EventRecord.isOf (r : EventRecord) (index : ℕ) : Bool :=
  r.phase == .applyExtrinsic index

/-- The capacity an event withdraws. -/
def EventRecord.withdrawn (r : EventRecord) : ℕ := r.event.withdrawnAmount.getD 0

end AccountService
