import AccountService.Utf8
import AccountService.WebhookCallback

/-!
# The text of a handle, to the chain and back

`publishHandle` hands the base handle to a constructor that guesses what it is
given, and the two result handlers read the handle of the event as UTF-8.  The
chain appends a suffix of its own in between.

The base handle comes back in front of the suffix unless it is itself spelled
like hexadecimal bytes: then these bytes are what is claimed.
-/

namespace AccountService

open Async JavaScript

/-! ## The bytes that are claimed -/

/-- Text that `new Bytes` takes for hexadecimal. -/
def readsAsHex (text : String) : Bool :=
  match text.toList with
  | '0' :: 'x' :: cs => decide (cs.length % 2 = 0) && cs.all fun c => (digitValue c).isSome
  | _ => false

/-- What the constructor makes of a text, its guess set apart. -/
theorem bytesOfString_eq (text : String) :
    bytesOfString text =
      if readsAsHex text then bufferFromHex (text.toList.drop 2) else text.toUTF8.toList := by
  by_cases hprefix : ∃ cs, text.toList = '0' :: 'x' :: cs
  · obtain ⟨cs, htext⟩ := hprefix
    simp only [bytesOfString, readsAsHex, htext, List.drop_succ_cons, List.drop_zero,
      Bool.and_eq_true, decide_eq_true_eq]
  · have hbytes : bytesOfString text = text.toUTF8.toList := by
      unfold bytesOfString
      split
      · rename_i cs htext
        exact absurd ⟨cs, htext⟩ hprefix
      · rfl
    have hreads : readsAsHex text = false := by
      unfold readsAsHex
      split
      · rename_i cs htext
        exact absurd ⟨cs, htext⟩ hprefix
      · rfl
    rw [hbytes, hreads, if_neg Bool.false_ne_true]

theorem readsAsHex_length {text : String} (h : readsAsHex text = true) :
    2 ≤ text.toList.length := by
  unfold readsAsHex at h
  split at h
  · rename_i cs htext
    rw [htext]
    simp
  · cases h

/-- Two digits make a byte. -/
theorem length_bufferFromHex (cs : List Char) : (bufferFromHex cs).length ≤ cs.length / 2 := by
  fun_induction bufferFromHex cs with
  | case1 c d cs a b hc hd ih =>
      simp only [List.length_cons]
      omega
  | case2 => simp
  | case3 => simp

/-- The bytes a text spells are fewer than its characters. -/
theorem length_bytesOfString_lt {text : String} (h : readsAsHex text = true) :
    (bytesOfString text).length < text.toList.length := by
  have hprefix := readsAsHex_length h
  have hhalf := length_bufferFromHex (text.toList.drop 2)
  rw [List.length_drop] at hhalf
  rw [bytesOfString_eq, if_pos h]
  omega

/-- The base handle a runtime call claims. -/
def RuntimeCall.claimedHandle : RuntimeCall → Option (List UInt8)
  | claimHandle _ _ payload | changeHandle _ _ payload => some payload.baseHandle
  | _ => none

/-- `publishHandle` builds a call that claims these bytes. -/
def ClaimsBytes (type : TransactionType) (request : HandleRequest) (bytes : List UInt8) : Prop :=
  ∃ c : RuntimeCall, publishHandle type request = call (.tx c) ∧ c.claimedHandle = some bytes

theorem claimsBytes_iff {type : TransactionType} {request : HandleRequest} {bytes : List UInt8} :
    ClaimsBytes type request bytes ↔
      (type = .createHandle ∨ type = .changeHandle) ∧ bytes = bytesOfString request.baseHandle := by
  constructor
  · rintro ⟨c, hcall, hbytes⟩
    cases type with
    | createHandle | changeHandle =>
        cases hcall
        exact ⟨by simp, (Option.some.inj hbytes).symm⟩
    | siwfSignup | siwfSignin | addKey => cases hcall
  · rintro ⟨rfl | rfl, rfl⟩
    · exact ⟨_, rfl, rfl⟩
    · exact ⟨_, rfl, rfl⟩

/-! ## What the event is decoded to -/

/-- The suffix the chain appends to a base handle. -/
structure HandleSuffix where
  text : String
  ascii : ∀ c ∈ text.toList, c.toNat < 0x80

/-- The event of a claim: the bytes that were claimed and the suffix. -/
def claimedEvent (msaId : ℕ) (baseHandle : List UInt8) (suffix : HandleSuffix) : Event :=
  .handleClaimed msaId (baseHandle ++ suffix.text.toUTF8.toList)

/-- Both result handlers read this handle off an event: the one that is given
the event, and the one that is given the events of an extrinsic of which it is
the last to claim a handle. -/
def DecodedTo (event : Event) (handle : String) : Prop :=
  (handlePublishHandleTxResult event).handle = some handle ∧
    ∀ before phase after, (∀ r : EventRecord, r ∈ after → r.event.handle = none) →
      (handleSIWFTxnResult (before ++ ⟨phase, event⟩ :: after)).handle = some handle

/-- **The two decoders return the same handle on the same event**: the text of
its bytes. -/
theorem decodedTo_iff {msaId : ℕ} {bytes : List UInt8} {handle : String} :
    DecodedTo (.handleClaimed msaId bytes) handle ↔ handle = utf8ToString bytes := by
  have hsiwf : ∀ before phase after, (∀ r : EventRecord, r ∈ after → r.event.handle = none) →
      (handleSIWFTxnResult (before ++ ⟨phase, .handleClaimed msaId bytes⟩ :: after)).handle =
        some (utf8ToString bytes) := by
    intro before phase after hafter
    rw [handleSIWFTxnResult_get TxnValues.handle Event.handle rfl siwfRecord_handle,
      List.reverse_append, List.reverse_cons, List.append_assoc, List.findSome?_append]
    have hnone : (after.reverse.findSome? fun r => r.event.handle) = none :=
      List.findSome?_eq_none_iff.mpr fun r hr => hafter r (List.mem_reverse.mp hr)
    rw [hnone]
    rfl
  have hpublish : (handlePublishHandleTxResult (.handleClaimed msaId bytes)).handle =
      some (utf8ToString bytes) := by
    rw [← decodeHandle_eq]
    rfl
  constructor
  · intro h
    exact Option.some.inj (h.1.symm.trans hpublish)
  · rintro rfl
    exact ⟨hpublish, hsiwf⟩

/-! ## The round trip -/

/-- The handle of a request comes back: whatever bytes `publishHandle` claims
for it, the event that echoes them in front of the suffix is decoded to the base
handle in front of the suffix. -/
def HandleRoundTrip (request : HandleRequest) (suffix : HandleSuffix) : Prop :=
  ∀ type bytes msaId, ClaimsBytes type request bytes →
    DecodedTo (claimedEvent msaId bytes suffix) (request.baseHandle ++ suffix.text)

/-- **The handle comes back if and only if it is not spelled like bytes.**  A
text of `0x` and digits is longer than the bytes it spells, and so than
anything they are decoded to. -/
theorem handleRoundTrip_iff (request : HandleRequest) (suffix : HandleSuffix) :
    HandleRoundTrip request suffix ↔ readsAsHex request.baseHandle = false := by
  constructor
  · intro h
    by_contra hhex
    have hclaims : ClaimsBytes .createHandle request (bytesOfString request.baseHandle) :=
      claimsBytes_iff.mpr ⟨.inl rfl, rfl⟩
    have htext := decodedTo_iff.mp (h _ _ 0 hclaims)
    have hlong := length_utf8ToString_le
      (bytesOfString request.baseHandle ++ suffix.text.toUTF8.toList)
    have hbytes := length_bytesOfString_lt (eq_true_of_ne_false hhex)
    rw [← htext, String.toList_append, List.length_append, List.length_append,
      length_toUTF8_of_ascii suffix.ascii] at hlong
    omega
  · intro htext type bytes msaId hclaims
    obtain ⟨-, rfl⟩ := claimsBytes_iff.mp hclaims
    rw [bytesOfString_eq, htext, if_neg Bool.false_ne_true]
    exact decodedTo_iff.mpr (utf8ToString_toUTF8_append request.baseHandle suffix.text).symm

/-- A request for the handle `0x616263`, and a suffix. -/
def hexRequest : HandleRequest := ⟨"5GrwvaEF", "0x616263", 100, "0x00"⟩

def digitSuffix : HandleSuffix := ⟨".12", by simp⟩

/-- The handle `0x616263` is claimed as `abc`, and comes back as `abc.12`. -/
theorem handleRoundTrip_spelled :
    ClaimsBytes .createHandle hexRequest [0x61, 0x62, 0x63] ∧
      DecodedTo (claimedEvent 7 [0x61, 0x62, 0x63] digitSuffix) "abc.12" ∧
      ¬ HandleRoundTrip hexRequest digitSuffix := by
  have hclaims : ClaimsBytes .createHandle hexRequest [0x61, 0x62, 0x63] :=
    claimsBytes_iff.mpr ⟨.inl rfl, by decide⟩
  have htext : utf8ToString ([0x61, 0x62, 0x63] ++ digitSuffix.text.toUTF8.toList) = "abc.12" := by
    rw [toUTF8_toList]
    decide
  refine ⟨hclaims, decodedTo_iff.mpr htext.symm, fun h => ?_⟩
  have hback := (decodedTo_iff.mp (h _ _ 7 hclaims)).trans htext
  exact absurd hback (by decide)

end AccountService
