import AccountService.Async.Exec
import AccountService.JavaScript

/-!
# The lookups of the API

The account, the handle, the keys and the delegation of an MSA id: what the
node is asked for, the methods of `BlockchainService` around it, and a service
and a controller for each lookup.  The path parameter reaches the services as
the text it is.

A controller turns what its service throws into an HTTP exception, each in its
own way; `respond` is what the framework makes of the result.
-/

namespace AccountService

open Async JavaScript

/-! ## What the node is asked for -/

/-- `HandleResponse` of the node. -/
structure HandleResponse where
  base_handle : String
  canonical_base : String
  suffix : ℕ
  deriving DecidableEq

/-- `CommonPrimitivesMsaDelegation` of the node. -/
structure MsaDelegation where
  revokedAt : ℕ
  schemaPermissions : List (ℕ × ℕ)
  deriving DecidableEq

inductive Query where
  | currentMsaIdentifierMaximum
  | getHandleForMsa (msaId : String)
  | getKeysByMsaId (msaId : String)
  | delegatorAndProviderToDelegation (msaId providerId : String)
  deriving DecidableEq

@[reducible] def Query.Reply : Query → Type
  | currentMsaIdentifierMaximum => ℕ
  | getHandleForMsa _ => Option HandleResponse
  | getKeysByMsaId _ => Option (List String)
  | delegatorAndProviderToDelegation _ _ => Option MsaDelegation

/-- The MSA id a query is about. -/
def Query.msaId : Query → Option String
  | currentMsaIdentifierMaximum => none
  | getHandleForMsa msaId | getKeysByMsaId msaId => some msaId
  | delegatorAndProviderToDelegation msaId _ => some msaId

@[reducible] def Lookups : Interface where
  Call := Query
  Reply := Query.Reply
  Local := Empty
  Result := Empty.elim

/-- What is thrown: an `HttpException`, or an error of any other class. -/
inductive ApiError where
  | error (message : String)
  | httpException (message : String) (status : ℕ)
  deriving DecidableEq

namespace HttpStatus

def OK : ℕ := 200

def BAD_REQUEST : ℕ := 400

def NOT_FOUND : ℕ := 404

def INTERNAL_SERVER_ERROR : ℕ := 500

end HttpStatus

/-- A method of the API. -/
abbrev Api := Prog Lookups ApiError

/-- Await a query. -/
def query (q : Query) : Api q.Reply := Prog.request (I := Lookups) q

/-! ## BlockchainService -/

/-- `BigInt(s)`, with the message of the error it throws. -/
def bigInt (s : String) : Except ApiError ℤ :=
  match stringToBigInt s with
  | some n => .ok n
  | none => .error (.error s!"Cannot convert {s} to a BigInt")

def getMsaIdMax : Api ℤ := do
  let count ← query .currentMsaIdentifierMaximum
  return count

def isValidMsaId (msaId : String) : Api Bool := do
  let msaIdMax ← getMsaIdMax
  let id ← Prog.ofExcept (bigInt msaId)
  return decide (0 < id) && decide (id ≤ msaIdMax)

def getKeysByMsa (msaId : String) : Api (List String) := do
  match ← query (.getKeysByMsaId msaId) with
  | some keys => return keys
  | none => Prog.throw (.error s!"No keys found for msaId: {msaId}")

def getHandleForMsa (msaId : String) : Api (Option HandleResponse) :=
  query (.getHandleForMsa msaId)

def getCommonPrimitivesMsaDelegation (msaId providerId : String) : Api (Option MsaDelegation) :=
  query (.delegatorAndProviderToDelegation msaId providerId)

/-! ## Accounts -/

structure AccountResponse where
  msaId : String
  handle : Option HandleResponse := none
  deriving DecidableEq

def AccountsService.getAccount (msaId : String) : Api AccountResponse :=
  Prog.tryCatch
    (do
      if ← isValidMsaId msaId then
        match ← getHandleForMsa msaId with
        | some handleResponse => return { msaId := msaId, handle := some handleResponse }
        | none => return { msaId := msaId }
      else Prog.throw (.error s!"Invalid msaId: {msaId}"))
    fun _ => Prog.throw (.error "Failed to get account")

def AccountsControllerV1.getAccount (msaId : String) : Api AccountResponse :=
  Prog.tryCatch (AccountsService.getAccount msaId)
    fun _ => Prog.throw (.httpException "Failed to find the account" HttpStatus.BAD_REQUEST)

/-! ## Handles -/

def HandlesService.getHandle (msaId : String) : Api (Option HandleResponse) := do
  if ← isValidMsaId msaId then getHandleForMsa msaId
  else Prog.throw (.error "Invalid msaId.")

/-- `/invalid msa.*/i.test(message)`: the flag `i` folds ASCII letters only. -/
def saysInvalidMsa (message : String) : Bool :=
  decide ("invalid msa".toList <:+: message.toList.map Char.toLower)

def HandlesControllerV1.getHandle (msaId : String) : Api HandleResponse :=
  Prog.tryCatch
    (do
      match ← HandlesService.getHandle msaId with
      | some handle => return handle
      | none => Prog.throw (.httpException "No handle found for MSA" HttpStatus.NOT_FOUND))
    fun
    | .httpException message status => Prog.throw (.httpException message status)
    | .error message =>
        if saysInvalidMsa message then
          Prog.throw (.httpException message HttpStatus.BAD_REQUEST)
        else Prog.throw (.httpException "Internal error" HttpStatus.INTERNAL_SERVER_ERROR)

/-! ## Keys -/

structure KeysResponse where
  msaKeys : List String
  deriving DecidableEq

def KeysService.getKeysByMsa (msaId : String) : Api KeysResponse := do
  if ← isValidMsaId msaId then
    let keyInfoResponse ← AccountService.getKeysByMsa msaId
    return { msaKeys := keyInfoResponse }
  else Prog.throw (.error "Invalid msaId.")

def KeysControllerV1.getKeys (msaId : String) : Api KeysResponse :=
  Prog.tryCatch (KeysService.getKeysByMsa msaId)
    fun _ => Prog.throw
      (.httpException "Failed to find public keys for the given msaId" HttpStatus.BAD_REQUEST)

/-! ## Delegations -/

structure DelegationResponse where
  providerId : String
  schemaPermissions : List (ℕ × ℕ)
  revokedAt : ℕ
  deriving DecidableEq

/-- `providerId` is the provider of the configuration. -/
def DelegationService.getDelegation (providerId msaId : String) : Api DelegationResponse := do
  if ← isValidMsaId msaId then
    match ← getCommonPrimitivesMsaDelegation msaId providerId with
    | some delegation =>
        return {
          providerId := providerId
          schemaPermissions := delegation.schemaPermissions
          revokedAt := delegation.revokedAt }
    | none => Prog.throw (.error "Failed to find the delegation.")
  else Prog.throw (.error "Invalid msaId.")

def DelegationControllerV1.getDelegation (providerId msaId : String) : Api DelegationResponse :=
  Prog.tryCatch (DelegationService.getDelegation providerId msaId)
    fun _ => Prog.throw (.httpException "Failed to find the delegation" HttpStatus.BAD_REQUEST)

/-! ## The answer to a request -/

/-- The status of the answer: an exception that carries none is an internal
error. -/
def respond {α : Type} (handler : Api α) : Api ℕ :=
  Prog.tryCatch (handler.bind fun _ => Prog.done HttpStatus.OK)
    fun
    | .httpException _ status => Prog.done status
    | .error _ => Prog.done HttpStatus.INTERNAL_SERVER_ERROR

/-- The lookups that take an MSA id from the path. -/
inductive Lookup where
  | account
  | handle
  | keys
  | delegation
  deriving DecidableEq

/-- Serve a lookup. -/
def Lookup.get (providerId msaId : String) : Lookup → Api ℕ
  | account => respond (AccountsControllerV1.getAccount msaId)
  | handle => respond (HandlesControllerV1.getHandle msaId)
  | keys => respond (KeysControllerV1.getKeys msaId)
  | delegation => respond (DelegationControllerV1.getDelegation providerId msaId)

end AccountService
