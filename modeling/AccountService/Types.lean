import AccountService.Polkadot

/-!
# Requests, watch-list entries and configuration
-/

namespace AccountService

open JavaScript

/-- The exceptions of the worker, as far as its code tells them apart. -/
inductive Err where
  /-- `EndOfChainError` -/
  | endOfChain (message : String)
  /-- `NullScanError` -/
  | nullScan (message : String)
  /-- BullMQ's `DelayedError` -/
  | delayed
  | error (message : String)
  deriving DecidableEq

/-! ## Jobs -/

inductive TransactionType where
  | changeHandle
  | createHandle
  | siwfSignup
  | siwfSignin
  | addKey
  deriving DecidableEq

/-- A request for a handle. -/
structure HandleRequest where
  accountId : String
  baseHandle : String
  expiration : ℕ
  proof : String

/-- A request for a key. -/
structure KeysRequest where
  msaOwnerAddress : String
  msaOwnerSignature : String
  newKeyOwnerSignature : String
  payload : AddKeyPayload

/-- What a job asks for.  A sign-up holds the encoded calls of its batch. -/
inductive Request where
  | createHandle (request : HandleRequest)
  | changeHandle (request : HandleRequest)
  | siwfSignup (calls : Option (List String))
  | siwfSignin
  | addKey (request : KeysRequest)

/-- `data.type` -/
def Request.type : Request → TransactionType
  | createHandle _ => .createHandle
  | changeHandle _ => .changeHandle
  | siwfSignup _ => .siwfSignup
  | siwfSignin => .siwfSignin
  | addKey _ => .addKey

structure TransactionData where
  request : Request
  providerId : String
  referenceId : String

/-- A job of the publish queue. -/
structure Job where
  id : String
  data : TransactionData

/-- A job of the failed set. -/
structure FailedJob where
  id : String
  failedReason : Option String

/-! ## The watch list -/

/-- A watch-list entry: a submitted extrinsic and the window in which the
scanner waits for it. -/
structure ITxStatus where
  type : TransactionType
  referenceId : String
  providerId : String
  txHash : Hash
  successEvent : EventName
  birth : ℕ
  death : ℕ
  deriving DecidableEq

/-- The body of a webhook notification; an absent field is one the code leaves
undefined. -/
structure TxWebhookRsp where
  transactionType : Option TransactionType := none
  providerId : Option String := none
  referenceId : Option String := none
  msaId : Option String := none
  handle : Option String := none
  accountId : Option String := none
  newPublicKey : Option String := none
  deriving DecidableEq

/-! ## Configuration -/

inductive LimitType where
  | percentage
  | amount
  deriving DecidableEq

/-- `CAPACITY_LIMIT`, parsed as JSON. -/
structure ICapacityLimit where
  type : LimitType
  value : Numeric

/-- The settings the worker reads, within the bounds of the schema. -/
structure ConfigService where
  trustUnfinalizedBlocks : Bool
  healthCheckMaxRetries : ℚ
  retries_nonneg : 0 ≤ healthCheckMaxRetries
  providerBaseUrl : String
  providerId : String
  capacityLimit : ICapacityLimit

/-- Settings with an amount for a limit and one attempt per notification. -/
def ConfigService.amountLimit (limit : ℚ) : ConfigService where
  trustUnfinalizedBlocks := false
  healthCheckMaxRetries := 1
  retries_nonneg := by norm_num
  providerBaseUrl := "http://localhost"
  providerId := "1"
  capacityLimit := ⟨.amount, .number limit⟩

end AccountService
