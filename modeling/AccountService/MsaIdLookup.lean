import AccountService.Api

/-!
# Which path parameters the lookups accept

A lookup queries the chain for the text of the path exactly if `BigInt` reads
it as an id the chain has given out.  That covers the decimal notation of such
an id and every other notation of it.

For the rest nothing but the maximum is asked for.  The answer is a client
error, except that the handle lookup sees the message of `BigInt` where the
text is no integer at all, and looks for the words `invalid msa` in it.
-/

namespace AccountService

open Async JavaScript

/-! ## The chain -/

/-- The current maximum, and how each query about an id settles. -/
structure ChainNode where
  msaIdMax : ℕ
  handle : String → Fate ApiError (Option HandleResponse)
  keys : String → Fate ApiError (Option (List String))
  delegation : String → String → Fate ApiError (Option MsaDelegation)

/-- How a query settles. -/
def ChainNode.answer (node : ChainNode) : (q : Query) → Fate ApiError q.Reply
  | .currentMsaIdentifierMaximum => .done node.msaIdMax
  | .getHandleForMsa msaId => node.handle msaId
  | .getKeysByMsaId msaId => node.keys msaId
  | .delegatorAndProviderToDelegation msaId providerId => node.delegation msaId providerId

/-- The node, with the queries it has been sent. -/
def ChainNode.machine (node : ChainNode) : Machine Lookups ApiError (List Query) where
  act l := l.elim
  answer q sent := (node.answer q, sent ++ [q])

/-- A lookup on a node: the status of the answer, and the queries. -/
def Lookup.on (lookup : Lookup) (node : ChainNode) (providerId s : String) :
    Outcome ApiError ℕ × List Query :=
  (lookup.get providerId s).exec node.machine []

/-- The chain is queried for the text of the path. -/
def Lookup.Accepts (lookup : Lookup) (node : ChainNode) (providerId s : String) : Prop :=
  ∃ q ∈ (lookup.on node providerId s).2, q.msaId = some s

/-- The answer has this status, and the chain is queried for no id. -/
def Lookup.Rejects (lookup : Lookup) (node : ChainNode) (providerId s : String) (status : ℕ) :
    Prop :=
  (lookup.on node providerId s).1 = .returned status ∧
    ∀ q ∈ (lookup.on node providerId s).2, q.msaId = none

/-- `BigInt` reads the text as an id the chain has given out. -/
def ReadsAsMsaId (msaIdMax : ℕ) (s : String) : Prop :=
  ∃ n : ℕ, 1 ≤ n ∧ n ≤ msaIdMax ∧ stringToBigInt s = some (n : ℤ)

/-- The text is the decimal notation of an id the chain has given out. -/
def IsMsaIdText (msaIdMax : ℕ) (s : String) : Prop :=
  ∃ n : ℕ, 1 ≤ n ∧ n ≤ msaIdMax ∧ s = toString n

theorem IsMsaIdText.reads {msaIdMax : ℕ} {s : String} (h : IsMsaIdText msaIdMax s) :
    ReadsAsMsaId msaIdMax s := by
  obtain ⟨n, hpos, hmax, rfl⟩ := h
  exact ⟨n, hpos, hmax, stringToBigInt_toString n⟩

/-! ## The check of the id -/

section Check

variable {node : ChainNode} {providerId s : String} {sent : List Query} {α : Type}

@[simp] theorem exec_query (q : Query) :
    Prog.exec (α := no_index q.Reply) node.machine (query q) sent =
      match (node.answer q).seen with
      | .ok reply => (.returned reply, sent ++ [q])
      | .error e => (.threw e, sent ++ [q]) := by
  rw [query, Prog.request, Prog.exec]
  change (Prog.ofExcept (node.answer q).seen).exec node.machine (sent ++ [q]) = _
  cases (node.answer q).seen <;> rfl

theorem exec_query_snd (q : Query) :
    (Prog.exec (α := no_index q.Reply) node.machine (query q) sent).2 = sent ++ [q] := by
  rw [exec_query]
  cases (node.answer q).seen <;> rfl

/-- The check asks for the maximum, whatever the text. -/
theorem isValidMsaId_exec :
    (isValidMsaId s).exec node.machine sent =
      (match stringToBigInt s with
        | some n => .returned (decide (0 < n) && decide (n ≤ node.msaIdMax))
        | none => .threw (.error s!"Cannot convert {s} to a BigInt"),
        sent ++ [.currentMsaIdentifierMaximum]) := by
  unfold isValidMsaId getMsaIdMax bigInt
  simp only [Prog.bind_eq, Prog.exec_bind, exec_query, ChainNode.answer, Fate.seen_done,
    Prog.pure_eq, Prog.exec_done, Prog.exec_ofExcept]
  cases stringToBigInt s <;> rfl

/-- What a service does behind the check is reached with an id. -/
theorem exec_check_of_reads (h : ReadsAsMsaId node.msaIdMax s) (behind : Api α)
    (invalid : String) :
    (do if ← isValidMsaId s then behind else Prog.throw (.error invalid) : Api α).exec
        node.machine sent =
      behind.exec node.machine (sent ++ [.currentMsaIdentifierMaximum]) := by
  obtain ⟨n, hpos, hmax, hread⟩ := h
  have hvalid : (decide ((0 : ℤ) < n) && decide ((n : ℤ) ≤ node.msaIdMax)) = true := by
    simp only [Bool.and_eq_true, decide_eq_true_eq]
    omega
  rw [Prog.bind_eq, Prog.exec_bind, isValidMsaId_exec, hread]
  simp only [hvalid, if_true]

/-- The message a service throws for a text that is no id: its own, unless
`BigInt` has thrown before. -/
def refusal (invalid s : String) : String :=
  match stringToBigInt s with
  | some _ => invalid
  | none => s!"Cannot convert {s} to a BigInt"

/-- Without an id it is not. -/
theorem exec_check_of_not_reads (h : ¬ ReadsAsMsaId node.msaIdMax s) (behind : Api α)
    (invalid : String) :
    (do if ← isValidMsaId s then behind else Prog.throw (.error invalid) : Api α).exec
        node.machine sent =
      (.threw (.error (refusal invalid s)), sent ++ [.currentMsaIdentifierMaximum]) := by
  rw [Prog.bind_eq, Prog.exec_bind, isValidMsaId_exec, refusal]
  cases hread : stringToBigInt s with
  | none => rfl
  | some n =>
      have hvalid : (decide (0 < n) && decide (n ≤ node.msaIdMax)) = false := by
        rw [← Bool.not_eq_true, Bool.and_eq_true, decide_eq_true_eq, decide_eq_true_eq]
        rintro ⟨hpos, hmax⟩
        refine h ⟨n.toNat, by omega, by omega, ?_⟩
        rw [hread, Int.toNat_of_nonneg hpos.le]
      simp [hvalid]

end Check

/-! ## What the controllers make of an error -/

section Errors

variable {node : ChainNode} {s : String} {sent : List Query}

/-- A controller that answers every error of its service alike. -/
theorem exec_respond_badRequest {α : Type} {service : Api α} {text : String} {e : ApiError}
    (h : service.exec node.machine [] = (.threw e, sent)) :
    (respond (service.tryCatch fun _ =>
        Prog.throw (.httpException text HttpStatus.BAD_REQUEST))).exec node.machine [] =
      (.returned HttpStatus.BAD_REQUEST, sent) := by
  simp [respond, h]

theorem respond_exec_snd {α : Type} {handler : Api α} :
    ((respond handler).exec node.machine sent).2 = (handler.exec node.machine sent).2 := by
  unfold respond
  rw [Prog.exec_tryCatch_snd, Prog.exec_bind_snd]
  · exact fun _ _ => rfl
  · rintro (_ | _) _ <;> rfl

/-- The status the handle lookup makes of the message of an error. -/
def statusOfMessage (message : String) : ℕ :=
  if saysInvalidMsa message then HttpStatus.BAD_REQUEST else HttpStatus.INTERNAL_SERVER_ERROR

theorem HandlesControllerV1.exec_respond {message : String}
    (h : (HandlesService.getHandle s).exec node.machine [] = (.threw (.error message), sent)) :
    (respond (HandlesControllerV1.getHandle s)).exec node.machine [] =
      (.returned (statusOfMessage message), sent) := by
  unfold HandlesControllerV1.getHandle respond statusOfMessage
  by_cases hwords : saysInvalidMsa message
  · simp [h, hwords]
  · simp [h, hwords]

end Errors

/-! ## The four lookups -/

section Lookups

variable {node : ChainNode} {providerId s : String}

/-- What a lookup asks for an id. -/
def Lookup.query (providerId msaId : String) : Lookup → Query
  | account | handle => .getHandleForMsa msaId
  | keys => .getKeysByMsaId msaId
  | delegation => .delegatorAndProviderToDelegation msaId providerId

theorem Lookup.query_msaId (lookup : Lookup) :
    (lookup.query providerId s).msaId = some s := by
  cases lookup <;> rfl

/-- An id the chain has given out is passed on as the text it is. -/
theorem Lookup.on_of_reads (h : ReadsAsMsaId node.msaIdMax s) (lookup : Lookup) :
    (lookup.on node providerId s).2 =
      [.currentMsaIdentifierMaximum, lookup.query providerId s] := by
  unfold Lookup.on Lookup.get
  -- what runs around the one query of a service asks for nothing
  cases lookup with
  | account =>
      rw [respond_exec_snd, AccountsControllerV1.getAccount,
        Prog.exec_tryCatch_snd fun _ _ => rfl, AccountsService.getAccount,
        Prog.exec_tryCatch_snd fun _ _ => rfl, exec_check_of_reads h, Prog.bind_eq,
        Prog.exec_bind_snd]
      · exact exec_query_snd _
      · rintro (_ | _) _ <;> rfl
  | handle =>
      rw [respond_exec_snd, HandlesControllerV1.getHandle, Prog.exec_tryCatch_snd, Prog.bind_eq,
        Prog.exec_bind_snd, HandlesService.getHandle, exec_check_of_reads h]
      · exact exec_query_snd _
      · rintro (_ | _) _ <;> rfl
      · rintro (message | _) _
        · rw [Prog.exec_ite]
          split <;> rfl
        · rfl
  | keys =>
      rw [respond_exec_snd, KeysControllerV1.getKeys, Prog.exec_tryCatch_snd fun _ _ => rfl,
        KeysService.getKeysByMsa, exec_check_of_reads h, Prog.bind_eq, Prog.exec_bind_snd,
        getKeysByMsa, Prog.bind_eq, Prog.exec_bind_snd]
      · exact exec_query_snd _
      · rintro (_ | _) _ <;> rfl
      · exact fun _ _ => rfl
  | delegation =>
      rw [respond_exec_snd, DelegationControllerV1.getDelegation,
        Prog.exec_tryCatch_snd fun _ _ => rfl, DelegationService.getDelegation,
        exec_check_of_reads h, Prog.bind_eq, Prog.exec_bind_snd]
      · exact exec_query_snd _
      · rintro (_ | _) _ <;> rfl

/-- The status a lookup answers a text with that is no id. -/
def Lookup.refusalStatus (s : String) : Lookup → ℕ
  | handle => statusOfMessage (refusal "Invalid msaId." s)
  | _ => HttpStatus.BAD_REQUEST

/-- For any other text the chain is asked for the maximum only. -/
theorem Lookup.on_of_not_reads (h : ¬ ReadsAsMsaId node.msaIdMax s) (lookup : Lookup) :
    lookup.on node providerId s =
      (.returned (lookup.refusalStatus s), [.currentMsaIdentifierMaximum]) := by
  cases lookup with
  | account =>
      apply exec_respond_badRequest (e := .error "Failed to get account")
      rw [AccountsService.getAccount, Prog.exec_tryCatch, exec_check_of_not_reads h]
      rfl
  | handle =>
      apply HandlesControllerV1.exec_respond
      exact exec_check_of_not_reads h _ _
  | keys =>
      apply exec_respond_badRequest
      exact exec_check_of_not_reads h _ _
  | delegation =>
      apply exec_respond_badRequest
      exact exec_check_of_not_reads h _ _

/-- The service's own message is one the controller of the handles looks for. -/
theorem Lookup.refusalStatus_of_isSome (hread : (stringToBigInt s).isSome) (lookup : Lookup) :
    lookup.refusalStatus s = HttpStatus.BAD_REQUEST := by
  obtain ⟨n, hn⟩ := Option.isSome_iff_exists.mp hread
  cases lookup with
  | handle =>
      have hwords : saysInvalidMsa "Invalid msaId." = true := by decide
      simp [Lookup.refusalStatus, refusal, hn, statusOfMessage, hwords]
  | account | keys | delegation => rfl

theorem Lookup.rejects_iff_of_not_reads (h : ¬ ReadsAsMsaId node.msaIdMax s) {lookup : Lookup}
    {status : ℕ} :
    lookup.Rejects node providerId s status ↔ lookup.refusalStatus s = status := by
  unfold Lookup.Rejects
  rw [Lookup.on_of_not_reads h]
  simp [Query.msaId]

theorem Lookup.accepts_iff {lookup : Lookup} :
    lookup.Accepts node providerId s ↔ ReadsAsMsaId node.msaIdMax s := by
  unfold Lookup.Accepts
  by_cases h : ReadsAsMsaId node.msaIdMax s
  · rw [Lookup.on_of_reads h]
    simp [h, Lookup.query_msaId]
  · rw [Lookup.on_of_not_reads h]
    simp [h, Query.msaId]

/-- **Which texts the four lookups accept, and how they answer the rest.**  The
answer of the handle lookup to a text that is no integer is not described. -/
theorem lookups_agree (node : ChainNode) (providerId s : String) :
    (∀ lookup : Lookup, lookup.Accepts node providerId s ↔ ReadsAsMsaId node.msaIdMax s) ∧
      (IsMsaIdText node.msaIdMax s → ReadsAsMsaId node.msaIdMax s) ∧
      (¬ ReadsAsMsaId node.msaIdMax s →
        ∀ lookup : Lookup, lookup ≠ .handle ∨ (stringToBigInt s).isSome →
          lookup.Rejects node providerId s HttpStatus.BAD_REQUEST) := by
  refine ⟨fun _ => Lookup.accepts_iff, IsMsaIdText.reads, fun h lookup hlookup => ?_⟩
  apply (Lookup.rejects_iff_of_not_reads h).mpr
  rcases hlookup with hne | hread
  · cases lookup with
    | handle => exact absurd rfl hne
    | account | keys | delegation => rfl
  · exact Lookup.refusalStatus_of_isSome hread lookup

/-- A node that knows no handle, no key and no delegation. -/
def bareNode : ChainNode where
  msaIdMax := 10
  handle _ := .done none
  keys _ := .done none
  delegation _ _ := .done none

/-- `0x1` is accepted, and `abc` is an internal error of the handle lookup. -/
theorem lookups_disagree :
    (∀ lookup : Lookup, lookup.Accepts bareNode "1" "0x1") ∧
      ¬ IsMsaIdText bareNode.msaIdMax "0x1" ∧
      ¬ IsMsaIdText bareNode.msaIdMax "abc" ∧
      Lookup.handle.Rejects bareNode "1" "abc" HttpStatus.INTERNAL_SERVER_ERROR := by
  have hhex : ReadsAsMsaId bareNode.msaIdMax "0x1" := ⟨1, by decide, by decide, by decide⟩
  have habc : ¬ ReadsAsMsaId bareNode.msaIdMax "abc" := by
    rintro ⟨n, -, -, hn⟩
    exact absurd hn (by simp [show stringToBigInt "abc" = none by decide])
  refine ⟨fun _ => Lookup.accepts_iff.mpr hhex, ?_, fun h => habc h.reads,
    (Lookup.rejects_iff_of_not_reads habc).mpr (by decide)⟩
  rintro ⟨n, -, -, htext⟩
  have hn := congrArg stringToBigInt htext
  rw [stringToBigInt_toString, show stringToBigInt "0x1" = some 1 by decide] at hn
  obtain rfl : n = 1 := by exact_mod_cast (Option.some.inj hn).symm
  exact absurd htext (by decide)

end Lookups

/-! ## The message of `BigInt` -/

end AccountService
