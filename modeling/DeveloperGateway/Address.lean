/-
# Service addresses

Three entry points take the address of a service as a string. `EthClient.ExecuteService`
rejects only the empty string and hands every other one to the loop, which allocates a
nonce, estimates gas and signs and sends a transaction to it.
`EthClient.GetPublicKeyService` passes it unread to the RPC `oasis_getPublicKey`. The
ekiden `Client.GetPublicKey` decodes it with `hex.DecodeString` and asks for 20 bytes, so
it accepts exactly the strings of 40 hexadecimal digits, and rejects every address
written with the `0x` prefix.
-/

import DeveloperGateway.Eth.Events

namespace DeveloperGateway

/-! ## `hex.DecodeString` -/

namespace Hex

/-- `fromHexChar` of `encoding/hex`: the value of a hexadecimal digit of either case. -/
def fromHexChar (c : Char) : Option Nat :=
  if '0' ≤ c ∧ c ≤ '9' then some (c.toNat - '0'.toNat)
  else if 'a' ≤ c ∧ c ≤ 'f' then some (c.toNat - 'a'.toNat + 10)
  else if 'A' ≤ c ∧ c ≤ 'F' then some (c.toNat - 'A'.toNat + 10)
  else none

/-- Whether a character is a hexadecimal digit. -/
def isHexDigit (c : Char) : Bool := (fromHexChar c).isSome

/-- The errors of `encoding/hex`. -/
inductive HexError
  /-- `InvalidByteError`: the first character that is not a digit. -/
  | invalidByteError (c : Char)
  /-- `ErrLength`: an odd number of digits. -/
  | errLength
  deriving DecidableEq, Repr

/-- `hex.DecodeString`, over the characters of the string: two digits to a byte, the
first invalid character before an odd length. A character outside ASCII, which Go reads
as several bytes none of them a digit, is an invalid byte here as there. -/
def decodeString : List Char → Except HexError (List Nat)
  | [] => .ok []
  | [c] => if isHexDigit c then .error .errLength else .error (.invalidByteError c)
  | a :: b :: rest =>
    match fromHexChar a, fromHexChar b with
    | none, _ => .error (.invalidByteError a)
    | some _, none => .error (.invalidByteError b)
    | some high, some low => (decodeString rest).map ((16 * high + low) :: ·)

/-- Two digits decode to the byte they spell. -/
theorem decodeString_cons_cons {a b : Char} {rest : List Char} {high low : Nat}
    (digitA : fromHexChar a = some high) (digitB : fromHexChar b = some low) :
    decodeString (a :: b :: rest) = (decodeString rest).map ((16 * high + low) :: ·) := by
  simp only [decodeString, digitA, digitB]

/-- What decodes is an even number of digits, two to a byte. -/
theorem decodeString_ok : ∀ {cs : List Char} {bytes : List Nat},
    decodeString cs = .ok bytes → 2 * bytes.length = cs.length ∧ ∀ c ∈ cs, isHexDigit c = true
  | [], _, h => by simp_all [decodeString]
  | [c], _, h => by by_cases digit : isHexDigit c <;> simp [decodeString, digit] at h
  | a :: b :: rest, bytes, h => by
    cases digitA : fromHexChar a with
    | none => simp [decodeString, digitA] at h
    | some high =>
      cases digitB : fromHexChar b with
      | none => simp [decodeString, digitA, digitB] at h
      | some low =>
        rw [decodeString_cons_cons digitA digitB] at h
        cases decoded : decodeString rest with
        | error e => simp [decoded, Except.map] at h
        | ok tail =>
          simp only [decoded, Except.map, Except.ok.injEq] at h
          subst h
          have tailOk := decodeString_ok decoded
          simp only [List.length_cons, List.mem_cons, forall_eq_or_imp, isHexDigit, digitA,
            digitB, Option.isSome_some, true_and]
          exact ⟨by omega, tailOk.2⟩

/-- An even number of digits decodes. -/
theorem decodeString_of_digits : ∀ {cs : List Char}, cs.length % 2 = 0 →
    (∀ c ∈ cs, isHexDigit c = true) → ∃ bytes, decodeString cs = .ok bytes
  | [], _, _ => ⟨[], rfl⟩
  | [_], even, _ => by simp at even
  | a :: b :: rest, even, digits => by
    obtain ⟨high, digitA⟩ := Option.isSome_iff_exists.1 (digits a (by simp))
    obtain ⟨low, digitB⟩ := Option.isSome_iff_exists.1 (digits b (by simp))
    have restEven : rest.length % 2 = 0 := by simp only [List.length_cons] at even; omega
    obtain ⟨tail, decoded⟩ :=
      decodeString_of_digits restEven fun c mem => digits c (by simp [mem])
    exact ⟨_, by rw [decodeString_cons_cons digitA digitB, decoded]; rfl⟩

end Hex

/-! ## The ekiden client -/

namespace Ekiden

open Eth Hex

/-- `Client.GetPublicKey`: the address is decoded with `hex.DecodeString` and must give
20 bytes; the key manager is then asked for the key of those bytes. -/
def GetPublicKey (address : String) (keyManager : List Nat → Except String Unit) :
    Except ErrorCode Unit :=
  match decodeString address.toList with
  | .error _ => .error .errInvalidAddress
  | .ok decoded =>
    if decoded.length ≠ 20 then .error .errInvalidAddress
    else
      match keyManager decoded with
      | .error _ => .error .errEkidenGetPublicKey
      | .ok () => .ok ()

/-- The ekiden client rejects an address as invalid exactly when it is not 40
hexadecimal digits: the prefix `0x` of an Ethereum address is not a digit. -/
theorem GetPublicKey_invalid_iff (address : String) (keyManager : List Nat → Except String Unit) :
    GetPublicKey address keyManager = .error .errInvalidAddress ↔
      ¬ (address.length = 40 ∧ ∀ c ∈ address.toList, isHexDigit c = true) := by
  have length : address.toList.length = address.length := rfl
  cases decoded : decodeString address.toList with
  | error e =>
    simp only [GetPublicKey, decoded, true_iff]
    rintro ⟨forty, digits⟩
    obtain ⟨bytes, ok⟩ := decodeString_of_digits (by omega) digits
    exact nomatch decoded.symm.trans ok
  | ok bytes =>
    obtain ⟨half, digits⟩ := decodeString_ok decoded
    by_cases twenty : bytes.length = 20
    · simp only [GetPublicKey, decoded, twenty, ne_eq, not_true_eq_false, if_false]
      cases keyManager bytes <;> simp <;> exact ⟨by omega, digits⟩
    · simp only [GetPublicKey, decoded, twenty, ne_eq, not_false_eq_true, if_true, true_iff]
      omega

end Ekiden

/-! ## The Ethereum client -/

namespace Eth

open Hex

/-- The address form of the spec: `0x` followed by exactly 40 hexadecimal digits. -/
def isHexAddress (address : String) : Bool :=
  match address.toList with
  | '0' :: 'x' :: digits => digits.length == 40 && digits.all isHexDigit
  | _ => false

/-- The ekiden client rejects every address of the spec's form, for the `x` of its
prefix. -/
theorem GetPublicKey_rejects_hexAddress {address : String} (wellFormed : isHexAddress address)
    (keyManager : List Nat → Except String Unit) :
    Ekiden.GetPublicKey address keyManager = .error .errInvalidAddress := by
  refine (Ekiden.GetPublicKey_invalid_iff address keyManager).2 fun ⟨_, digits⟩ => ?_
  have prefixed : ∃ digits, address.toList = '0' :: 'x' :: digits := by
    unfold isHexAddress at wellFormed
    split at wellFormed
    · exact ⟨_, ‹_›⟩
    · cases wellFormed
  obtain ⟨rest, spelled⟩ := prefixed
  exact absurd (digits 'x' (spelled ▸ List.mem_cons_of_mem _ (List.mem_cons_self _ _)))
    (by decide)

/-- The payload `oasis_getPublicKey` answers with. -/
structure OasisPublicKeyPayload where
  timestamp : UInt64
  publicKey : String
  signature : String
  deriving DecidableEq, Repr

/-- `backend.GetPublicKeyServiceResponse`. -/
structure GetPublicKeyServiceResponse where
  timestamp : UInt64
  address : String
  publicKey : String
  signature : String
  deriving DecidableEq, Repr

/-- `EthClient.GetPublicKeyService`: the RPC `oasis_getPublicKey` is called with the
address as given; an error of the call is an internal error. -/
def GetPublicKeyService (address : String)
    (callContext : String → String → Except String OasisPublicKeyPayload) :
    Except (ErrorCode × String) GetPublicKeyServiceResponse :=
  match callContext "oasis_getPublicKey" address with
  | .error err => .error (.errInternalError, "failed to get public key " ++ err)
  | .ok payload => .ok ⟨payload.timestamp, address, payload.publicKey, payload.signature⟩

/-- `GetPublicKeyService` never finds an address invalid: what it answers is the RPC's
answer for the address as given. -/
theorem GetPublicKeyService_of_call (address : String)
    (callContext : String → String → Except String OasisPublicKeyPayload) :
    GetPublicKeyService address callContext =
      ((callContext "oasis_getPublicKey" address).map fun payload =>
          (⟨payload.timestamp, address, payload.publicKey, payload.signature⟩ :
            GetPublicKeyServiceResponse)).mapError
        fun err => (.errInternalError, "failed to get public key " ++ err) := by
  unfold GetPublicKeyService
  cases callContext "oasis_getPublicKey" address <;> rfl

/-- Once the gas is estimated and the transaction signed, `executeTransaction` has built
and submitted its transaction, whatever the submission and the receipt give. -/
theorem executeTransaction_built {nonce id : UInt64} {address data : String}
    {answers : TxAnswers} {gas : UInt64} (estimated : answers.estimateGas = .ok gas)
    (signed : answers.signTx = .ok ()) :
    (executeTransaction nonce id address data answers).1 =
      some (newTransaction nonce address gas data) := by
  unfold executeTransaction
  rw [estimated, signed]
  rcases answers.sendTransaction with _ | ⟨⟩ <;>
    rcases answers.transactionReceipt with _ | receipt <;>
    simp only [apply_ite Prod.fst, ite_self]

namespace EthClient

/-- `ExecuteService` checks only that the address is not empty: from every running client
whose loop waits on an empty `inCh`, a call naming any other string is queued, received,
handed a nonce, and its transaction to that string is built, signed and sent. -/
theorem ExecuteService_submits {c : EthClient} {id : UInt64} {req : ExecuteServiceRequest}
    {answers : TxAnswers} {gas : UInt64} (running : c.panicked = false)
    (notClosed : c.closed = false) (selecting : c.loop = .selecting) (empty : c.inCh = [])
    (named : req.address.isEmpty = false) (estimated : answers.estimateGas = .ok gas)
    (signed : answers.signTx = .ok ()) :
    (c.run [.executeService id req, .receive, .request fun _ => none,
        .complete ⟨⟨0, c.calls.length, id, .execute req⟩, c.nonce⟩ answers]).map
      (fun c' => (c'.allocated, c'.sent)) =
      some (c.allocated ++ [(c.calls.length, c.nonce)],
        c.sent ++ [newTransaction c.nonce req.address gas req.data]) := by
  simp [run, step, running, ExecuteService, named, notClosed, enqueue, empty, receive, selecting,
    request, runTransaction, complete, EthRequest.fn, executeService,
    executeTransaction_built estimated signed]
  split <;> simp

/-- The address of the tests that is not hexadecimal. -/
def noHexAddress : String := "addressaddressaddressaddressaddressad"

/-- The gateway's checks do not follow the spec's address form: a call naming a string
that is no address is handed a nonce and its transaction is sent, the ekiden client
rejects an address of the spec's form, and `GetPublicKeyService` asks the RPC about
`0x`. -/
theorem address_checks_diverge :
    (dial.run [.executeService 1 ⟨"0x0000000000000000000000000000000000000000", noHexAddress⟩,
        .receive, .request fun _ => none,
        .complete ⟨⟨0, 0, 1, .execute
          ⟨"0x0000000000000000000000000000000000000000", noHexAddress⟩⟩, 0⟩
          (mined "0x0000000000000000000000000000000000000000")]).map
      (fun c => (c.allocated, c.sent.map (·.toAddress))) =
      some ([(0, 0)], [some noHexAddress]) ∧
    isHexAddress noHexAddress = false ∧ isHexAddress executeCall.address = true ∧
    Ekiden.GetPublicKey executeCall.address (fun _ => .ok ()) = .error .errInvalidAddress ∧
    GetPublicKeyService "0x" (fun _ _ => .ok ⟨0, "", ""⟩) = .ok ⟨0, "0x", "", ""⟩ := by
  have hexAddress : isHexAddress executeCall.address = true := by decide
  have built := @ExecuteService_submits dial 1
    ⟨"0x0000000000000000000000000000000000000000", noHexAddress⟩
    (mined "0x0000000000000000000000000000000000000000") 21000 rfl rfl rfl rfl (by decide) rfl rfl
  refine ⟨?_, by decide, hexAddress, GetPublicKey_rejects_hexAddress hexAddress _, ?_⟩
  · have addressed := congrArg (Option.map fun p => (p.1, p.2.map (·.toAddress))) built
    rwa [Option.map_map] at addressed
  · rw [GetPublicKeyService_of_call]
    rfl

end EthClient

end Eth

end DeveloperGateway
