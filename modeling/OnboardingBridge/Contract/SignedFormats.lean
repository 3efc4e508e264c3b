import OnboardingBridge.Contract.System

/-!
# The signed formats

The three byte strings that the contract hashes for a signature or a commitment, as
one set of messages. Only two of the formats start with a tag, and none has lengths in
it. They are told apart by how long they are, and each one is taken apart from the left
by the widths of its fields.
-/

set_option autoImplicit false

namespace OnboardingBridge.Contract

open Foundations

/-! ## Messages -/

/-- What one of the three schemes hashes, with the network and the contract where they are in it. -/
inductive SignedMessage where
  | metaFund (contract : Address) (params : MetaFundParams)
  | commitment (contract : Address) (networkId : BytesN 32) (source target asset : Address)
      (amount : I128) (nonce : UInt64)
  | crosschain (chainId : UInt32) (txHash : BytesN 32) (target asset : Address) (amount : I128)
deriving DecidableEq

/-- A contract on a network. -/
def Host.deployed (host : Host) (networkId : BytesN 32) (contractAddress : Address) : Host :=
  { host with networkId, contractAddress }

namespace SignedMessage

/-- The addresses in a message. -/
def addresses : SignedMessage → List Address
  | metaFund contract params => [contract, params.source, params.target, params.asset]
  | commitment contract _ source target asset _ _ => [contract, source, target, asset]
  | crosschain _ _ target asset _ => [target, asset]

/-- The bytes that are hashed. A meta-transaction is only executed on the network that its
parameters name. -/
def bytes (host : Host) : SignedMessage → List UInt8
  | metaFund contract params => (host.deployed params.networkId contract).metaFundPayload params
  | commitment contract networkId source target asset amount nonce =>
      (host.deployed networkId contract).commitmentPreimage source target asset amount nonce
  | crosschain chainId txHash target asset amount =>
      host.crosschainPayload chainId txHash target asset amount

end SignedMessage

/-- The textual forms of some addresses have 56 characters and differ, and so do their hashes. -/
structure Host.Distinguishes (host : Host) (addresses : Set Address) : Prop where
  widths : ∀ address ∈ addresses, (host.strkey address).length = 56
  strkeys : Set.InjOn host.strkey addresses
  hashes : Set.InjOn host.sha256 (host.strkey '' addresses)

/-! ## Lengths -/

section Lengths

variable {host : Host} {addresses : Set Address}

@[simp] theorem length_asciiBytes (tag : String) : (asciiBytes tag).length = tag.length := by
  rw [asciiBytes, List.length_map, String.length_toList]

theorem Host.Distinguishes.addressHash (distinct : host.Distinguishes addresses) :
    Set.InjOn host.addressHash addresses := by
  intro a inA b inB same
  exact distinct.strkeys inA inB
    (distinct.hashes (Set.mem_image_of_mem _ inA) (Set.mem_image_of_mem _ inB) same)

/-- How long the bytes of a message are. -/
def SignedMessage.width : SignedMessage → ℕ
  | metaFund .. => 201
  | commitment .. => 311
  | crosschain .. => 148

theorem SignedMessage.length_bytes (distinct : host.Distinguishes addresses)
    (message : SignedMessage) (known : ∀ address ∈ message.addresses, address ∈ addresses) :
    (message.bytes host).length = message.width := by
  cases message with
  | metaFund contract params =>
      simp [bytes, width, Host.metaFundPayload]
      decide
  | commitment contract networkId source target asset amount nonce =>
      have widths : ∀ address ∈ addresses,
          ((host.deployed networkId contract).strkey address).length = 56 := distinct.widths
      have own : (host.deployed networkId contract).contractAddress = contract := rfl
      simp only [SignedMessage.addresses, List.forall_mem_cons] at known
      obtain ⟨inContract, inSource, inTarget, inAsset, -⟩ := known
      simp only [bytes, width, Host.commitmentPreimage, List.length_append, length_asciiBytes,
        own, widths _ inContract, widths _ inSource, widths _ inTarget, widths _ inAsset,
        BytesN.length_toList, I128.length_toBeBytes, length_u64ToBeBytes]
      decide
  | crosschain chainId txHash target asset amount => simp [bytes, width, Host.crosschainPayload]

/-! ## Messages of one scheme -/

theorem metaFund_injective (distinct : host.Distinguishes addresses) {contract contract' : Address}
    {params params' : MetaFundParams}
    (known : ∀ address ∈ (SignedMessage.metaFund contract params).addresses, address ∈ addresses)
    (known' : ∀ address ∈ (SignedMessage.metaFund contract' params').addresses,
      address ∈ addresses)
    (same : (SignedMessage.metaFund contract params).bytes host =
      (SignedMessage.metaFund contract' params').bytes host) :
    SignedMessage.metaFund contract params = .metaFund contract' params' := by
  obtain ⟨networks, contracts, sources, targets, assets, amounts, nonces, deadlines⟩ :=
    Host.metaFundPayload_injective same
  simp only [SignedMessage.addresses, List.forall_mem_cons] at known known'
  obtain ⟨inContract, inSource, inTarget, inAsset, -⟩ := known
  obtain ⟨inContract', inSource', inTarget', inAsset', -⟩ := known'
  obtain ⟨networkId, source, target, asset, amount, nonce, deadline⟩ := params
  obtain ⟨networkId', source', target', asset', amount', nonce', deadline'⟩ := params'
  obtain rfl : networkId = networkId' := networks
  obtain rfl : contract = contract' := distinct.addressHash inContract inContract' contracts
  obtain rfl : source = source' := distinct.addressHash inSource inSource' sources
  obtain rfl : target = target' := distinct.addressHash inTarget inTarget' targets
  obtain rfl : asset = asset' := distinct.addressHash inAsset inAsset' assets
  obtain rfl : amount = amount' := amounts
  obtain rfl : nonce = nonce' := nonces
  obtain rfl : deadline = deadline' := deadlines
  rfl

theorem commitment_injective (distinct : host.Distinguishes addresses)
    {contract contract' source source' target target' asset asset' : Address}
    {networkId networkId' : BytesN 32} {amount amount' : I128} {nonce nonce' : UInt64}
    (known : ∀ address ∈ [contract, source, target, asset], address ∈ addresses)
    (known' : ∀ address ∈ [contract', source', target', asset'], address ∈ addresses)
    (same : (host.deployed networkId contract).commitmentPreimage source target asset amount nonce =
      (host.deployed networkId' contract').commitmentPreimage source' target' asset' amount'
        nonce') :
    SignedMessage.commitment contract networkId source target asset amount nonce =
      .commitment contract' networkId' source' target' asset' amount' nonce' := by
  simp only [List.forall_mem_cons] at known known'
  obtain ⟨inContract, inSource, inTarget, inAsset, -⟩ := known
  obtain ⟨inContract', inSource', inTarget', inAsset', -⟩ := known'
  have together : ∀ {a b : Address}, a ∈ addresses → b ∈ addresses →
      (host.strkey a).length = (host.strkey b).length := fun inA inB =>
    (distinct.widths _ inA).trans (distinct.widths _ inB).symm
  simp only [Host.commitmentPreimage, Host.deployed, List.append_assoc] at same
  obtain ⟨-, same⟩ := List.append_inj same rfl
  obtain ⟨contracts, same⟩ := List.append_inj same (together inContract inContract')
  obtain ⟨networks, same⟩ := List.append_inj same (by simp)
  obtain ⟨sources, same⟩ := List.append_inj same (together inSource inSource')
  obtain ⟨targets, same⟩ := List.append_inj same (together inTarget inTarget')
  obtain ⟨assets, same⟩ := List.append_inj same (together inAsset inAsset')
  obtain ⟨amounts, nonces⟩ := List.append_inj same (by simp)
  obtain rfl := distinct.strkeys inContract inContract' contracts
  obtain rfl := BytesN.toList_injective networks
  obtain rfl := distinct.strkeys inSource inSource' sources
  obtain rfl := distinct.strkeys inTarget inTarget' targets
  obtain rfl := distinct.strkeys inAsset inAsset' assets
  obtain rfl := I128.toBeBytes_injective amounts
  obtain rfl := u64ToBeBytes_injective nonces
  rfl

theorem crosschain_injective (distinct : host.Distinguishes addresses) {chainId chainId' : UInt32}
    {txHash txHash' : BytesN 32} {target target' asset asset' : Address} {amount amount' : I128}
    (known : ∀ address ∈ [target, asset], address ∈ addresses)
    (known' : ∀ address ∈ [target', asset'], address ∈ addresses)
    (same : host.crosschainPayload chainId txHash target asset amount =
      host.crosschainPayload chainId' txHash' target' asset' amount') :
    SignedMessage.crosschain chainId txHash target asset amount =
      .crosschain chainId' txHash' target' asset' amount' := by
  obtain ⟨rfl, rfl, targets, assets, rfl⟩ := Host.crosschainPayload_injective same
  simp only [List.forall_mem_cons] at known known'
  obtain rfl := distinct.addressHash known.1 known'.1 targets
  obtain rfl := distinct.addressHash known.2.1 known'.2.1 assets
  rfl

end Lengths

/-! ## All messages -/

/-- Messages with the same bytes are the same message of the same scheme. -/
theorem signed_formats_injective {host : Host} {addresses : Set Address}
    (distinct : host.Distinguishes addresses) :
    Set.InjOn (SignedMessage.bytes host)
      {message | ∀ address ∈ message.addresses, address ∈ addresses} := by
  intro message known message' known' same
  have widths : message.width = message'.width := by
    rw [← message.length_bytes distinct known, ← message'.length_bytes distinct known', same]
  cases message with
  | metaFund contract params =>
      cases message' with
      | metaFund contract' params' => exact metaFund_injective distinct known known' same
      | commitment => simp [SignedMessage.width] at widths
      | crosschain => simp [SignedMessage.width] at widths
  | commitment contract networkId source target asset amount nonce =>
      cases message' with
      | metaFund => simp [SignedMessage.width] at widths
      | commitment => exact commitment_injective distinct known known' same
      | crosschain => simp [SignedMessage.width] at widths
  | crosschain chainId txHash target asset amount =>
      cases message' with
      | metaFund => simp [SignedMessage.width] at widths
      | commitment => simp [SignedMessage.width] at widths
      | crosschain => exact crosschain_injective distinct known known' same

namespace Rehearsal

/-- An account and a contract. -/
def keyedAddresses : Set Address := {.account 0, .contract 0}

/-- A host with the textual forms of these addresses, and with their hashes. -/
def hashingHost : Host :=
  { host with
    strkey := fun address =>
      asciiBytes (if address = .account 0 then
        "GAAAAAAAAAAAAAAAAAAAAAAAAAAAAAAAAAAAAAAAAAAAAAAAAAAAAWHF"
        else "CAAAAAAAAAAAAAAAAAAAAAAAAAAAAAAAAAAAAAAAAAAAAAAAAAAABSC4")
    sha256 := fun bytes =>
      if bytes.head? = some 71 then
        0xf56f6f2c6cf1b9388e3495dfab96f0c55ec5d217f481b2ae45d11b46145c44ef
      else 0xa42afdedb9ca40ac1660f62e9fde6dffc84b0edb3b56501a5256a5df88207cf9 }

theorem hashingHost_distinguishes : hashingHost.Distinguishes keyedAddresses where
  widths address member := by
    rcases member with rfl | rfl
    · decide
    · decide
  strkeys := by
    rintro a (rfl | rfl) b (rfl | rfl) same
    · rfl
    · exact absurd same (by decide)
    · exact absurd same (by decide)
    · rfl
  hashes := by
    rintro _ ⟨a, rfl | rfl, rfl⟩ _ ⟨b, rfl | rfl, rfl⟩ same
    · rfl
    · exact absurd same (by decide)
    · exact absurd same (by decide)
    · rfl

/-- A deposit and a commitment of the same amount. -/
def attested : SignedMessage := .crosschain 1 7 (.account 0) (.contract 0) (amount 5)

def committed : SignedMessage :=
  .commitment (.contract 0) 0 (.account 0) (.account 0) (.contract 0) (amount 5) 7

end Rehearsal

theorem signed_formats_injective_rehearsed :
    Rehearsal.attested.bytes Rehearsal.hashingHost ≠ Rehearsal.committed.bytes Rehearsal.hashingHost := by
  intro same
  have known : ∀ address ∈ Rehearsal.attested.addresses, address ∈ Rehearsal.keyedAddresses := by
    simp [Rehearsal.attested, Rehearsal.keyedAddresses, SignedMessage.addresses]
  have known' : ∀ address ∈ Rehearsal.committed.addresses, address ∈ Rehearsal.keyedAddresses := by
    simp [Rehearsal.committed, Rehearsal.keyedAddresses, SignedMessage.addresses]
  have equal := signed_formats_injective Rehearsal.hashingHost_distinguishes known known' same
  cases equal

end OnboardingBridge.Contract
