import OnboardingBridge.Foundations.Distinct
import OnboardingBridge.Relayer.Hexadecimal
import OnboardingBridge.Relayer.Service

/-!
# Collecting signatures

For an event the relayer asks all its nodes for a signature: a node has a key in the
relayer's process, or a signer service that is asked over HTTP. What is no valid
signature of the payload hash is dropped, and of each public key one signature is kept.
The module has both programs, the relayer that asks and the service that answers.

The network is what every request of a node is answered with; a request may fail.
-/

set_option autoImplicit false

namespace OnboardingBridge.Relayer

open Foundations Contract

/-! ## Signatures -/

/-- The signature scheme of the relayers. A signature verifies under the public key of the seed
that made it. -/
structure Ed25519 where
  publicKey : BytesN 32 → BytesN 32
  sign : BytesN 32 → BytesN 32 → BytesN 64
  verify : BytesN 32 → BytesN 32 → BytesN 64 → Bool
  verify_sign : ∀ seed message, verify (publicKey seed) message (sign seed message) = true
  /-- What the constructor of a key pair throws for a seed of another length. -/
  seedError : String

/-- A public key and a signature in hexadecimal. -/
structure SignResponseBody where
  pubkey : Text
  signature : Text
deriving DecidableEq

section Scheme

variable (ed : Ed25519)

def signPayload (privateKeyHex : Text) (payloadHash : BytesN 32) :
    Except String SignResponseBody :=
  match toBytesN 32 (hexBytes privateKeyHex) with
  | some seed =>
      .ok {
        pubkey := hexText (ed.publicKey seed).toList
        signature := hexText (ed.sign seed payloadHash).toList }
  | none => .error ed.seedError

def verifyRelayerSignature (sig : SignResponseBody) (payloadHash : BytesN 32) : Bool :=
  if isHex 64 sig.pubkey = false ∨ isHex 128 sig.signature = false then false
  else match toBytesN 32 (hexBytes sig.pubkey), toBytesN 64 (hexBytes sig.signature) with
    | some publicKey, some signature => ed.verify publicKey payloadHash signature
    | _, _ => false

end Scheme

/-! ## Requests and answers -/

/-- A `POST` or another request, with its headers and the `payloadHash` of its body. -/
structure HttpRequest where
  method : Text
  url : Text
  headers : List (Text × Text)
  payloadHash : Text

/-- A body that is no JSON, that is an error or a signature, or that is anything else. -/
inductive HttpBody where
  | text (content : String)
  | error (message : String)
  | signed (response : SignResponseBody)
  | other

structure HttpResponse where
  status : Nat
  body : HttpBody

/-- A header of a request; names are compared without regard to case. -/
def HttpRequest.header (req : HttpRequest) (name : Text) : Option Text :=
  (req.headers.find? fun entry => toLowerCase entry.1 = name).map Prod.snd

/-- `res.ok`. -/
def HttpResponse.ok (res : HttpResponse) : Bool := 200 ≤ res.status && res.status < 300

/-- What the requests of a node are answered with, or that they fail. -/
abbrev Endpoint := HttpRequest → Except String HttpResponse

/-! ## The signer service -/

section Service

variable (ed : Ed25519)

def signHex (privateKeyHex payloadHashHex : Text) : Except String SignResponseBody :=
  if isHex 64 payloadHashHex = false then .error "payloadHash must be a 32-byte hex string"
  else match toBytesN 32 (hexBytes payloadHashHex) with
    | some payloadHash => signPayload ed privateKeyHex payloadHash
    | none => .error "payloadHash must be a 32-byte hex string"

/-- What a signer service answers to a request for a path. -/
def startSignerService (privateKeyHex authToken : Text) (path : Text) (req : HttpRequest) :
    HttpResponse :=
  if req.method ≠ "POST".toList ∨ path ≠ "/sign".toList then ⟨404, .text "Not Found"⟩
  else if req.header "authorization".toList ≠ some ("Bearer ".toList ++ authToken) then
    ⟨401, .text "Unauthorized"⟩
  else match signHex ed privateKeyHex req.payloadHash with
    | .ok result => ⟨200, .signed result⟩
    | .error message => ⟨400, .error message⟩

end Service

/-! ## The relayer -/

/-- A node with a key of this process, or with a signer service. -/
inductive RelayerNodeConfig where
  | privateKey (privateKey : Text)
  | signer (signerUrl expectedPubkey : Text)

/-- A URL without a slash at its end. -/
def withoutSlash (url : Text) : Text := if url.getLast? = some '/' then url.dropLast else url

/-- The request for a signature. -/
def signRequest (signerUrl : Text) (payloadHash : BytesN 32) : HttpRequest where
  method := "POST".toList
  url := withoutSlash signerUrl ++ "/sign".toList
  headers := [("Content-Type".toList, "application/json".toList)]
  payloadHash := hexText payloadHash.toList

def requestRemoteSignature (endpoint : Endpoint) (signerUrl expectedPubkey : Text)
    (payloadHash : BytesN 32) : Except String SignResponseBody := do
  let signer := "signer at " ++ String.ofList signerUrl
  if isHex 64 expectedPubkey = false then
    throw (signer ++ " has an invalid expectedPubkey configuration")
  let res ← endpoint (signRequest signerUrl payloadHash)
  if res.ok = false then throw (signer ++ " responded " ++ toString res.status)
  match res.body with
  | .signed json =>
      if toLowerCase json.pubkey ≠ toLowerCase expectedPubkey then
        throw (signer ++ " returned an unexpected public key")
      return json
  | .text content => throw (content ++ " is not valid JSON")
  | .error _ | .other => throw (signer ++ " returned a malformed response")

section Collecting

variable (ed : Ed25519) (sha256 : List UInt8 → BytesN 32)

def signWithNode (endpoint : Endpoint) (payloadHash : BytesN 32) :
    RelayerNodeConfig → Except String SignResponseBody
  | .signer signerUrl expectedPubkey =>
      requestRemoteSignature endpoint signerUrl expectedPubkey payloadHash
  | .privateKey privateKey => signPayload ed privateKey payloadHash

/-- What a node contributes, or why its response is dropped. -/
def nodeResult (endpoint : Endpoint) (payloadHash : BytesN 32) (node : RelayerNodeConfig) :
    Except String SignResponseBody := do
  let sig ← signWithNode ed endpoint payloadHash node
  if verifyRelayerSignature ed sig payloadHash = false then
    throw "signature failed local Ed25519 verification"
  return sig

/-- The valid signatures of all nodes. -/
def rawSigs (network : Nat → Endpoint) (payloadHash : BytesN 32)
    (nodes : List RelayerNodeConfig) : List SignResponseBody :=
  (nodes.mapIdx fun index node =>
    (nodeResult ed (network index) payloadHash node).toOption).filterMap id

/-- The signatures that are left after deduplication. -/
def collectSignatures (network : Nat → Endpoint) (payloadHash : BytesN 32)
    (nodes : List RelayerNodeConfig) : List SignResponseBody :=
  keepFirst (fun sig => toLowerCase sig.pubkey) [] (rawSigs ed network payloadHash nodes)

structure CrossChainFundOptions extends BridgeEvent where
  sigs : List SignResponseBody

/-- What `processEvent` calls `fundCrosschain` with; nothing when it dead-letters the event
before. -/
def processEvent (network : Nat → Endpoint) (nodes : List RelayerNodeConfig) (threshold : Nat)
    (event : BridgeEvent) : Option CrossChainFundOptions :=
  match computePayloadHash sha256 event with
  | none => none
  | some payloadHash =>
      let sigs := collectSignatures ed network payloadHash nodes
      if sigs.length < threshold then none
      else some { event with sigs := sigs.take threshold }

end Collecting

/-! ## Nodes -/

section Nodes

variable (ed : Ed25519) (payloadHash : BytesN 32)

/-- A node whose key is local. -/
def LocalKey (node : RelayerNodeConfig) (key : Text) : Prop :=
  ∃ privateKey seed, node = .privateKey privateKey ∧
    toBytesN 32 (hexBytes privateKey) = some seed ∧ key = hexText (ed.publicKey seed).toList

/-- A node whose signer service is up, with the key that the node expects, and can be reached. -/
def SignerUp (endpoint : Endpoint) (node : RelayerNodeConfig) (key : Text) : Prop :=
  ∃ signerUrl expectedPubkey privateKeyHex seed authToken,
    node = .signer signerUrl expectedPubkey ∧ authToken ≠ [] ∧
    toBytesN 32 (hexBytes privateKeyHex) = some seed ∧
    toLowerCase expectedPubkey = hexText (ed.publicKey seed).toList ∧
    key = toLowerCase expectedPubkey ∧
    ∀ req path, req.url = withoutSlash signerUrl ++ path →
      endpoint req = .ok (startSignerService ed privateKeyHex authToken path req)

/-- A node whose endpoint answers a request without authorization with a valid signature under
the key that the node expects. -/
def Answers (endpoint : Endpoint) (node : RelayerNodeConfig) (key : Text) : Prop :=
  ∃ signerUrl expectedPubkey res sig, node = .signer signerUrl expectedPubkey ∧
    isHex 64 expectedPubkey = true ∧ endpoint (signRequest signerUrl payloadHash) = .ok res ∧
    res.ok = true ∧ res.body = .signed sig ∧
    toLowerCase sig.pubkey = toLowerCase expectedPubkey ∧
    verifyRelayerSignature ed sig payloadHash = true ∧ key = toLowerCase expectedPubkey

/-- A key that belongs to some node in a certain way. -/
def OfNode (nodes : List RelayerNodeConfig) (has : ℕ → RelayerNodeConfig → Text → Prop)
    (key : Text) : Prop :=
  ∃ index node, nodes[index]? = some node ∧ has index node key

/-- A signature that verifies. -/
def Attests (sig : SignResponseBody) : Prop :=
  ∃ publicKey signature, toBytesN 32 (hexBytes sig.pubkey) = some publicKey ∧
    toBytesN 64 (hexBytes sig.signature) = some signature ∧
    ed.verify publicKey payloadHash signature = true

variable {ed payloadHash} {endpoint : Endpoint} {node : RelayerNodeConfig} {key : Text}
  {sig : SignResponseBody}

theorem attests_of_verify (verified : verifyRelayerSignature ed sig payloadHash = true) :
    Attests ed payloadHash sig := by
  unfold verifyRelayerSignature at verified
  split at verified
  · cases verified
  · split at verified
    · next publicKey signature readKey readSignature =>
      exact ⟨publicKey, signature, readKey, readSignature, verified⟩
    · cases verified

variable (payloadHash) in
/-- What a key pair signs verifies. -/
theorem signPayload_ok {privateKeyHex : Text} {seed : BytesN 32}
    (read : toBytesN 32 (hexBytes privateKeyHex) = some seed) :
    ∃ signature, signPayload ed privateKeyHex payloadHash =
        .ok ⟨hexText (ed.publicKey seed).toList, signature⟩ ∧
      verifyRelayerSignature ed ⟨hexText (ed.publicKey seed).toList, signature⟩ payloadHash =
        true := by
  refine ⟨hexText (ed.sign seed payloadHash).toList, ?_, ?_⟩
  · simp only [signPayload, read]
  · have wellFormed : ¬ (isHex 64 (hexText (ed.publicKey seed).toList) = false ∨
        isHex 128 (hexText (ed.sign seed payloadHash).toList) = false) := by
      have key := isHex_hexText (ed.publicKey seed) (rfl : 64 = 2 * 32)
      have signature := isHex_hexText (ed.sign seed payloadHash) (rfl : 128 = 2 * 64)
      rw [key, signature]
      simp
    have readKey := toBytesN_hexText (ed.publicKey seed)
    have readSignature := toBytesN_hexText (ed.sign seed payloadHash)
    rw [verifyRelayerSignature, if_neg wellFormed]
    simp only [readKey, readSignature]
    exact ed.verify_sign seed payloadHash

theorem requestRemoteSignature_ok {signerUrl expectedPubkey : Text} :
    requestRemoteSignature endpoint signerUrl expectedPubkey payloadHash = .ok sig ↔
      isHex 64 expectedPubkey = true ∧
        ∃ res, endpoint (signRequest signerUrl payloadHash) = .ok res ∧ res.ok = true ∧
          res.body = .signed sig ∧ toLowerCase sig.pubkey = toLowerCase expectedPubkey := by
  simp only [requestRemoteSignature, bind, Except.bind, pure, Except.pure, throw, throwThe,
    MonadExceptOf.throw]
  constructor
  · intro answered
    split at answered
    · cases answered
    next pinned =>
    split at answered
    · cases answered
    next res asked =>
    split at answered
    · cases answered
    next ok =>
    split at answered
    · next json body =>
      split at answered
      · cases answered
      · next same =>
        obtain rfl := Except.ok.inj answered
        exact ⟨Bool.eq_true_of_not_eq_false pinned, res, asked, Bool.eq_true_of_not_eq_false ok,
          body, not_not.mp same⟩
    · cases answered
    · cases answered
    · cases answered
  · rintro ⟨pinned, res, asked, ok, body, same⟩
    simp only [pinned, Bool.true_eq_false, if_false, asked, ok, body, same, ne_eq,
      not_true_eq_false]

theorem nodeResult_ok :
    nodeResult ed endpoint payloadHash node = .ok sig ↔
      signWithNode ed endpoint payloadHash node = .ok sig ∧
        verifyRelayerSignature ed sig payloadHash = true := by
  simp only [nodeResult, bind, Except.bind, pure, Except.pure, throw, throwThe,
    MonadExceptOf.throw]
  constructor
  · intro answered
    split at answered
    · cases answered
    next other signs =>
    split at answered
    · cases answered
    next verified =>
    obtain rfl := Except.ok.inj answered
    exact ⟨signs, Bool.eq_true_of_not_eq_false verified⟩
  · rintro ⟨signs, verified⟩
    simp only [signs, verified, Bool.true_eq_false, if_false]

/-- The keys that a node contributes. -/
theorem contributes_iff :
    (∃ sig, nodeResult ed endpoint payloadHash node = .ok sig ∧ toLowerCase sig.pubkey = key) ↔
      LocalKey ed node key ∨ Answers ed payloadHash endpoint node key := by
  constructor
  · rintro ⟨sig, result, rfl⟩
    obtain ⟨signs, verified⟩ := nodeResult_ok.mp result
    cases node with
    | privateKey privateKey =>
      cases read : toBytesN 32 (hexBytes privateKey) with
      | none => simp only [signWithNode, signPayload, read, reduceCtorEq] at signs
      | some seed =>
        simp only [signWithNode, signPayload, read, Except.ok.injEq] at signs
        subst signs
        exact .inl ⟨privateKey, seed, rfl, read, by simp only [toLowerCase_hexText]⟩
    | signer signerUrl expectedPubkey =>
      obtain ⟨pinned, res, asked, ok, body, same⟩ := requestRemoteSignature_ok.mp signs
      exact .inr ⟨signerUrl, expectedPubkey, res, sig, rfl, pinned, asked, ok, body, same, verified,
        same⟩
  · rintro (⟨privateKey, seed, rfl, read, named⟩ | ⟨signerUrl, expectedPubkey, res, sig, rfl, pinned,
      asked, ok, body, same, verified, rfl⟩)
    · obtain ⟨signature, signs, verified⟩ := signPayload_ok payloadHash read
      exact ⟨_, nodeResult_ok.mpr ⟨signs, verified⟩, by rw [named, toLowerCase_hexText]⟩
    · have signs := requestRemoteSignature_ok.mpr ⟨pinned, res, asked, ok, body, same⟩
      exact ⟨sig, nodeResult_ok.mpr ⟨signs, verified⟩, same⟩

/-- A signer service turns the request of the relayer down. -/
theorem SignerUp.silent (up : SignerUp ed endpoint node key) :
    ¬ Answers ed payloadHash endpoint node key := by
  obtain ⟨signerUrl, expectedPubkey, privateKeyHex, seed, authToken, rfl, -, -, -, -, serves⟩ := up
  rintro ⟨_, _, res, sig, same, -, asked, ok, -⟩
  obtain ⟨rfl, rfl⟩ := RelayerNodeConfig.signer.inj same
  have answer := serves (signRequest signerUrl payloadHash) "/sign".toList rfl
  have unauthorized : startSignerService ed privateKeyHex authToken "/sign".toList
      (signRequest signerUrl payloadHash) = ⟨401, .text "Unauthorized"⟩ := by
    have header : (signRequest signerUrl payloadHash).header "authorization".toList = none := by
      rfl
    rw [startSignerService, if_neg, if_pos]
    · rw [header]
      exact nofun
    · rintro (method | path)
      · exact method rfl
      · exact path rfl
  rw [unauthorized, asked] at answer
  obtain rfl := Except.ok.inj answer
  exact absurd ok (by decide)

end Nodes

/-! ## The signatures of an event -/

section Event

variable {ed : Ed25519} {payloadHash : BytesN 32} {network : ℕ → Endpoint}
  {nodes : List RelayerNodeConfig} {sig : SignResponseBody}

theorem mem_rawSigs : sig ∈ rawSigs ed network payloadHash nodes ↔
    ∃ index node, nodes[index]? = some node ∧
      nodeResult ed (network index) payloadHash node = .ok sig := by
  simp only [rawSigs, List.mem_filterMap, List.mem_mapIdx, id, exists_eq_right]
  constructor
  · rintro ⟨index, inside, result⟩
    refine ⟨index, nodes[index], List.getElem?_eq_getElem inside, ?_⟩
    cases answered : nodeResult ed (network index) payloadHash nodes[index] with
    | ok other =>
      rw [answered] at result
      exact congrArg Except.ok (Option.some.inj result)
    | error message =>
      rw [answered] at result
      cases result
  · rintro ⟨index, node, found, result⟩
    obtain ⟨inside, rfl⟩ := List.getElem?_eq_some_iff.mp found
    exact ⟨index, inside, by rw [result]; rfl⟩

/-- There are as many signatures as distinct keys of nodes that contribute. -/
theorem atLeast_collectSignatures (threshold : ℕ) :
    threshold ≤ (collectSignatures ed network payloadHash nodes).length ↔
      AtLeast threshold (OfNode nodes fun index node key =>
        LocalKey ed node key ∨ Answers ed payloadHash (network index) node key) := by
  rw [collectSignatures, ← atLeast_iff_length]
  have same : ∀ key, key ∈ (rawSigs ed network payloadHash nodes).map
      (fun sig => toLowerCase sig.pubkey) ↔ OfNode nodes (fun index node key =>
        LocalKey ed node key ∨ Answers ed payloadHash (network index) node key) key := by
    intro key
    rw [List.mem_map]
    constructor
    · rintro ⟨sig, member, named⟩
      obtain ⟨index, node, found, result⟩ := mem_rawSigs.mp member
      exact ⟨index, node, found, contributes_iff.mp ⟨sig, result, named⟩⟩
    · rintro ⟨index, node, found, contributes⟩
      obtain ⟨sig, result, named⟩ := contributes_iff.mpr contributes
      exact ⟨sig, mem_rawSigs.mpr ⟨index, node, found, result⟩, named⟩
  exact ⟨fun enough => enough.mono fun key => (same key).mp,
    fun enough => enough.mono fun key => (same key).mpr⟩

theorem collectSignatures_attest (member : sig ∈ collectSignatures ed network payloadHash nodes) :
    Attests ed payloadHash sig := by
  obtain ⟨index, node, -, result⟩ := mem_rawSigs.mp (keepFirst_subset _ _ _ sig member)
  exact attests_of_verify (nodeResult_ok.mp result).2

theorem collectSignatures_distinct :
    (collectSignatures ed network payloadHash nodes).Pairwise fun earlier later =>
      toLowerCase earlier.pubkey ≠ toLowerCase later.pubkey :=
  List.pairwise_map.mp (keepFirst_keys_nodup _ [] (rawSigs ed network payloadHash nodes))

/-- The hash of a valid event can be worked out. -/
theorem computePayloadHash_of_valid {sdk : StellarSdk} {event : BridgeEvent}
    (sha256 : List UInt8 → BytesN 32) (valid : validateBridgeEvent sdk event = .ok ()) :
    ∃ payloadHash, computePayloadHash sha256 event = some payloadHash := by
  obtain ⟨⟨chainId, integer, u32⟩, -, ⟨value, parsed, positive, fits⟩, -, -⟩ :=
    accepted_of_validate valid
  obtain ⟨amount, amountValue⟩ := I128.exists_natural fits
  obtain ⟨high, low, writesHigh, writesLow, -⟩ := amount_halves amountValue fits
  have writesChain : writeUInt32BE event.chainId = some (bigEndian 4 chainId) := by
    rw [integer, writeUInt32BE, if_pos (by omega), Int.toNat_natCast]
  simp only [computePayloadHash, computeNonce, writesChain, parsed, writesHigh, writesLow,
    Option.bind_eq_bind, Option.bind_some, Option.pure_def, Option.some.injEq, exists_eq']

/-- The service goes on to submit exactly when there is something to submit. -/
theorem signed_processEvent {config : Config} {sha256 : List UInt8 → BytesN 32}
    {event : BridgeEvent} (hash : computePayloadHash sha256 event = some payloadHash)
    (process now : ℕ) (s : Service) :
    let available := (collectSignatures ed network payloadHash nodes).length
    s.signed config process event available now =
      match processEvent ed sha256 network nodes config.threshold event with
      | some _ => s.advance process event (.submitting available)
      | none => s.finish process event (enqueue s.memory event available config.threshold
          "insufficient signers after dedup" false now) := by
  intro available
  simp only [Service.signed, processEvent, hash]
  split <;> rfl

/-- What is submitted for an event has exactly so many valid signatures, under distinct keys. And
it is submitted whenever enough distinct keys are local or have a signer service that is up, if
and only if either enough keys are local or belong to an endpoint that is no such service and
answers a request without authorization, or not enough keys are local or have a service that is
up. -/
theorem signature_collection (ed : Ed25519) (sha256 : List UInt8 → BytesN 32) {sdk : StellarSdk}
    {event : BridgeEvent} (valid : validateBridgeEvent sdk event = .ok ())
    (network : ℕ → Endpoint) (nodes : List RelayerNodeConfig) (threshold : ℕ) :
    ∃ payloadHash, computePayloadHash sha256 event = some payloadHash ∧
      (∀ options, processEvent ed sha256 network nodes threshold event = some options →
        options.toBridgeEvent = event ∧ options.sigs.length = threshold ∧
        (∀ sig ∈ options.sigs, Attests ed payloadHash sig) ∧
        options.sigs.Pairwise fun earlier later =>
          toLowerCase earlier.pubkey ≠ toLowerCase later.pubkey) ∧
      ((AtLeast threshold (OfNode nodes fun index node key =>
            LocalKey ed node key ∨ SignerUp ed (network index) node key) →
          (processEvent ed sha256 network nodes threshold event).isSome = true) ↔
        (AtLeast threshold (OfNode nodes fun index node key =>
            LocalKey ed node key ∨ Answers ed payloadHash (network index) node key ∧
              ¬ SignerUp ed (network index) node key) ∨
          ¬ AtLeast threshold (OfNode nodes fun index node key =>
            LocalKey ed node key ∨ SignerUp ed (network index) node key))) := by
  obtain ⟨payloadHash, hash⟩ := computePayloadHash_of_valid sha256 valid
  have submits : (processEvent ed sha256 network nodes threshold event).isSome = true ↔
      threshold ≤ (collectSignatures ed network payloadHash nodes).length := by
    simp only [processEvent, hash]
    split
    · next few => simp [Nat.not_le_of_lt few]
    · next enough => simp [Nat.le_of_not_lt enough]
  refine ⟨payloadHash, hash, fun options submitted => ?_, ?_⟩
  · have enough := submits.mp (by rw [submitted]; rfl)
    simp only [processEvent, hash, if_neg (Nat.not_lt_of_le enough), Option.some.injEq] at submitted
    subst submitted
    refine ⟨rfl, List.length_take_of_le enough, fun sig member => ?_, ?_⟩
    · exact collectSignatures_attest (List.mem_of_mem_take member)
    · exact collectSignatures_distinct.sublist (List.take_sublist ..)
  · have silent : AtLeast threshold (OfNode nodes fun index node key =>
          LocalKey ed node key ∨ Answers ed payloadHash (network index) node key) ↔
        AtLeast threshold (OfNode nodes fun index node key =>
          LocalKey ed node key ∨ Answers ed payloadHash (network index) node key ∧
            ¬ SignerUp ed (network index) node key) := by
      constructor
      · refine fun enough => enough.mono fun key => ?_
        rintro ⟨index, node, found, mine | answers⟩
        · exact ⟨index, node, found, .inl mine⟩
        · exact ⟨index, node, found, .inr ⟨answers, fun up => up.silent answers⟩⟩
      · refine fun enough => enough.mono fun key => ?_
        rintro ⟨index, node, found, mine | ⟨answers, -⟩⟩
        · exact ⟨index, node, found, .inl mine⟩
        · exact ⟨index, node, found, .inr answers⟩
    rw [submits, atLeast_collectSignatures, silent]
    tauto

end Event

namespace Rehearsal

/-- The hashes of the event of the rehearsal and of its parts. -/
def eventSha256 (bytes : List UInt8) : BytesN 32 :=
  if bytes = utf8Bytes (keyOf 0) then
    0xa42afdedb9ca40ac1660f62e9fde6dffc84b0edb3b56501a5256a5df88207cf9
  else if bytes = utf8Bytes (keyOf 1) then
    0xf36ca94889cb4ccf6e7e78cd299d1524e85f2c86efa8e2998babd83afa8faf7a
  else if bytes.length = 36 then
    0x7d66e309b26388e276c9e208a22f945506191411ce698f7b7a7e681ec64f0006
  else 0x7b37de8580a9fb2b2d098ee026cf82e0962f5156beddd77ce3aff55a8cfcecf3

/-- The seed of which every byte is one, its public key, and its signature of the hash of the
event. -/
def operatorSeed : BytesN 32 := 0x0101010101010101010101010101010101010101010101010101010101010101

def operatorKey : BytesN 32 := 0x8a88e3dd7409f195fd52db2d3cba5d72ca6709bf1d94121bf3748801b40f6f5c

def operatorSignature : BytesN 64 := BitVec.ofNat _ <|
  0xe49b549761ef00455423051bd2412787afc900b78d6bdbb63db7e0f1d5a60300 * 2 ^ 256 +
  0xd6e4c44b221ed581d9fcc062353ed130d619184a33c476179242c4dda7d69100

/-- The signature that the scheme of the rehearsal makes under a public key. -/
def signatureUnder (publicKey message : BytesN 32) : BytesN 64 :=
  if publicKey = operatorKey ∧
      message = 0x7b37de8580a9fb2b2d098ee026cf82e0962f5156beddd77ce3aff55a8cfcecf3 then
    operatorSignature
  else BitVec.ofNat _ (publicKey.toNat * 2 ^ 256 + message.toNat)

/-- A scheme that agrees with the real one about this seed and this hash. -/
def ed25519 : Ed25519 where
  publicKey seed := if seed = operatorSeed then operatorKey else seed
  sign seed := signatureUnder (if seed = operatorSeed then operatorKey else seed)
  verify publicKey message signature := signature = signatureUnder publicKey message
  verify_sign _ _ := decide_eq_true rfl
  seedError := "secretKey length is invalid"

def operatorSeedHex : Text := hexText operatorSeed.toList

def signerUrl : Text := "http://signer-a.internal:4000".toList

/-- A network in which the signer service of the operator is up. -/
def signerNetwork (_ : ℕ) : Endpoint := fun req =>
  match after signerUrl req.url with
  | some path => .ok (startSignerService ed25519 operatorSeedHex "secret".toList path req)
  | none => .error "fetch failed"

def signerNode : RelayerNodeConfig := .signer signerUrl (hexText operatorKey.toList)

theorem operatorKey_eq : ed25519.publicKey operatorSeed = operatorKey := by
  change (if operatorSeed = operatorSeed then operatorKey else operatorSeed) = operatorKey
  rw [if_pos rfl]

theorem signerNode_up :
    SignerUp ed25519 (signerNetwork 0) signerNode (hexText operatorKey.toList) := by
  have lower := toLowerCase_hexText operatorKey.toList
  refine ⟨signerUrl, hexText operatorKey.toList, operatorSeedHex, operatorSeed, "secret".toList,
    rfl, by decide, toBytesN_hexText operatorSeed, ?_, lower.symm, fun req path named => ?_⟩
  · rw [lower, operatorKey_eq]
  · have origin : withoutSlash signerUrl = signerUrl := by decide
    have reached : after signerUrl req.url = some path := by
      rw [named, origin, after_append]
    simp only [signerNetwork, reached]

/-- A node with the same key in the relayer's process. -/
def localNode : RelayerNodeConfig := .privateKey operatorSeedHex

theorem event_valid : validateBridgeEvent sdk event = .ok () := by decide +kernel

end Rehearsal

theorem signature_collection_rehearsed : ∃ options,
    processEvent Rehearsal.ed25519 Rehearsal.eventSha256 Rehearsal.signerNetwork
      [Rehearsal.signerNode, Rehearsal.localNode] 1 Rehearsal.event = some options ∧
    options.sigs.length = 1 := by
  obtain ⟨payloadHash, -, sound, submits⟩ := signature_collection Rehearsal.ed25519
    Rehearsal.eventSha256 Rehearsal.event_valid Rehearsal.signerNetwork
    [Rehearsal.signerNode, Rehearsal.localNode] 1
  have mine : LocalKey Rehearsal.ed25519 Rehearsal.localNode
      (hexText Rehearsal.operatorKey.toList) :=
    ⟨Rehearsal.operatorSeedHex, Rehearsal.operatorSeed, rfl,
      toBytesN_hexText Rehearsal.operatorSeed, by rw [Rehearsal.operatorKey_eq]⟩
  have enough := submits.mpr (.inl ⟨{hexText Rehearsal.operatorKey.toList}, by simp,
    fun key member => ⟨1, Rehearsal.localNode, rfl, .inl (Finset.mem_singleton.mp member ▸ mine)⟩⟩)
  have submitted := enough ⟨{hexText Rehearsal.operatorKey.toList}, by simp,
    fun key member => ⟨1, Rehearsal.localNode, rfl, .inl (Finset.mem_singleton.mp member ▸ mine)⟩⟩
  obtain ⟨options, submitted⟩ := Option.isSome_iff_exists.mp submitted
  exact ⟨options, submitted, (sound options submitted).2.1⟩

/-- A signer service that is up does not count, since the relayer asks it without its token. -/
theorem signer_service_unheard :
    ¬ ∀ (network : ℕ → Endpoint) (nodes : List RelayerNodeConfig) (threshold : ℕ)
      (event : BridgeEvent), validateBridgeEvent Rehearsal.sdk event = .ok () →
      AtLeast threshold (OfNode nodes fun index node key =>
        LocalKey Rehearsal.ed25519 node key ∨
          SignerUp Rehearsal.ed25519 (network index) node key) →
      (processEvent Rehearsal.ed25519 Rehearsal.eventSha256 network nodes threshold event).isSome =
        true := by
  intro submits
  have submitted := submits Rehearsal.signerNetwork [Rehearsal.signerNode] 1 Rehearsal.event
    Rehearsal.event_valid ⟨{hexText Rehearsal.operatorKey.toList}, by simp, fun key member =>
      ⟨0, Rehearsal.signerNode, rfl, .inr (Finset.mem_singleton.mp member ▸
        Rehearsal.signerNode_up)⟩⟩
  have unheard : (processEvent Rehearsal.ed25519 Rehearsal.eventSha256 Rehearsal.signerNetwork
      [Rehearsal.signerNode] 1 Rehearsal.event).isSome = false := by decide +kernel
  rw [unheard] at submitted
  cases submitted

end OnboardingBridge.Relayer
