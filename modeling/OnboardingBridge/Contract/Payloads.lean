import OnboardingBridge.Contract.Storage

/-!
# The byte strings that are hashed and signed

Three entry points hash a byte string they put together from their arguments:
the replay nonce and the payload of a cross-chain attestation, the preimage of
a funding commitment, and the payload of a meta-transaction.

The commitment and the meta-transaction name the contract and the network. The
cross-chain payload names neither.
-/

set_option autoImplicit false

namespace OnboardingBridge.Contract

open Foundations Foundations.Tx

/-- The ASCII bytes of a domain tag. -/
def asciiBytes (tag : String) : List UInt8 := tag.toList.map fun c => UInt8.ofNat c.toNat

namespace Host

variable (host : Host)

/-- What the replay nonce of a source-chain deposit is the hash of. -/
def crosschainNoncePreimage (chainId : UInt32) (txHash : BytesN 32) : List UInt8 :=
  u32ToBeBytes chainId ++ txHash.toList

/-- The replay nonce of a source-chain deposit. -/
def crosschainNonce (chainId : UInt32) (txHash : BytesN 32) : BytesN 32 :=
  host.sha256 (crosschainNoncePreimage chainId txHash)

/-- The hash of the textual form of an address. -/
def addressHash (address : Address) : BytesN 32 := host.sha256 (host.strkey address)

/-- What the relayers sign the hash of. -/
def crosschainPayload (chainId : UInt32) (txHash : BytesN 32) (target asset : Address)
    (amount : I128) : List UInt8 :=
  u32ToBeBytes chainId ++ txHash.toList ++ (host.addressHash target).toList
    ++ (host.addressHash asset).toList ++ amount.toBeBytes
    ++ (host.crosschainNonce chainId txHash).toList

def crosschainPayloadHash (chainId : UInt32) (txHash : BytesN 32) (target asset : Address)
    (amount : I128) : BytesN 32 :=
  host.sha256 (host.crosschainPayload chainId txHash target asset amount)

/-- What a funding commitment is the hash of. -/
def commitmentPreimage (source target asset : Address) (amount : I128) (nonce : UInt64) :
    List UInt8 :=
  asciiBytes "onboarding_bridge_commitment_v1" ++ host.strkey host.contractAddress
    ++ host.networkId.toList ++ host.strkey source ++ host.strkey target ++ host.strkey asset
    ++ amount.toBeBytes ++ u64ToBeBytes nonce

/-- What the signer of a meta-transaction signs the hash of. -/
def metaFundPayload (params : MetaFundParams) : List UInt8 :=
  asciiBytes "meta_fund" ++ host.networkId.toList
    ++ (host.addressHash host.contractAddress).toList ++ (host.addressHash params.source).toList
    ++ (host.addressHash params.target).toList ++ (host.addressHash params.asset).toList
    ++ params.amount.toBeBytes ++ u64ToBeBytes params.nonce ++ u64ToBeBytes params.deadline

end Host

/-! ## What the payloads determine -/

@[simp] theorem length_u32ToBeBytes (word : UInt32) : (u32ToBeBytes word).length = 4 :=
  length_bigEndian ..

@[simp] theorem length_u64ToBeBytes (word : UInt64) : (u64ToBeBytes word).length = 8 :=
  length_bigEndian ..

@[simp] theorem BytesN.length_toList {n : Nat} (bytes : BytesN n) : bytes.toList.length = n :=
  length_bigEndian ..

@[simp] theorem I128.length_toBeBytes (value : I128) : value.toBeBytes.length = 16 :=
  length_signedBigEndian ..

theorem u32ToBeBytes_injective : Function.Injective u32ToBeBytes := by
  intro a b same
  refine UInt32.toNat_inj.mp (bigEndian_injOn ?_ ?_ same)
  · exact lt_of_lt_of_eq a.toNat_lt (by decide)
  · exact lt_of_lt_of_eq b.toNat_lt (by decide)

theorem u64ToBeBytes_injective : Function.Injective u64ToBeBytes := by
  intro a b same
  refine UInt64.toNat_inj.mp (bigEndian_injOn ?_ ?_ same)
  · exact lt_of_lt_of_eq a.toNat_lt (by decide)
  · exact lt_of_lt_of_eq b.toNat_lt (by decide)

theorem BytesN.toList_injective {n : Nat} : Function.Injective (BytesN.toList (n := n)) := by
  intro a b same
  have width : 2 ^ (8 * n) = 256 ^ n := by rw [Nat.pow_mul]
  refine BitVec.eq_of_toNat_eq (bigEndian_injOn ?_ ?_ same)
  · exact lt_of_lt_of_eq a.isLt width
  · exact lt_of_lt_of_eq b.isLt width

theorem I128.toBeBytes_injective : Function.Injective I128.toBeBytes := by
  intro a b same
  have lowerA := a.lower
  have upperA := a.upper
  have lowerB := b.lower
  have upperB := b.upper
  refine BoundedInt.ext (signedBigEndian_injOn ?_ same)
  rw [abs_lt]
  omega

/-- The payload of an attestation determines what it attests, down to the hashes
of its two addresses. -/
theorem Host.crosschainPayload_injective {host : Host} {chainId chainId' : UInt32}
    {txHash txHash' : BytesN 32} {target target' asset asset' : Address} {amount amount' : I128}
    (same : host.crosschainPayload chainId txHash target asset amount =
      host.crosschainPayload chainId' txHash' target' asset' amount') :
    chainId = chainId' ∧ txHash = txHash' ∧ host.addressHash target = host.addressHash target' ∧
      host.addressHash asset = host.addressHash asset' ∧ amount = amount' := by
  simp only [Host.crosschainPayload, List.append_assoc] at same
  obtain ⟨chains, same⟩ := List.append_inj same (by simp)
  obtain ⟨hashes, same⟩ := List.append_inj same (by simp)
  obtain ⟨targets, same⟩ := List.append_inj same (by simp)
  obtain ⟨assets, same⟩ := List.append_inj same (by simp)
  obtain ⟨amounts, -⟩ := List.append_inj same (by simp)
  exact ⟨u32ToBeBytes_injective chains, BytesN.toList_injective hashes,
    BytesN.toList_injective targets, BytesN.toList_injective assets,
    I128.toBeBytes_injective amounts⟩

/-- The payload of a meta-transaction determines the network, the contract and
the parameters, down to the hashes of their addresses. -/
theorem Host.metaFundPayload_injective {host host' : Host} {params params' : MetaFundParams}
    (same : host.metaFundPayload params = host'.metaFundPayload params') :
    host.networkId = host'.networkId ∧
      host.addressHash host.contractAddress = host'.addressHash host'.contractAddress ∧
      host.addressHash params.source = host'.addressHash params'.source ∧
      host.addressHash params.target = host'.addressHash params'.target ∧
      host.addressHash params.asset = host'.addressHash params'.asset ∧
      params.amount = params'.amount ∧ params.nonce = params'.nonce ∧
      params.deadline = params'.deadline := by
  simp only [Host.metaFundPayload, List.append_assoc] at same
  obtain ⟨-, same⟩ := List.append_inj same rfl
  obtain ⟨networks, same⟩ := List.append_inj same (by simp)
  obtain ⟨contracts, same⟩ := List.append_inj same (by simp)
  obtain ⟨sources, same⟩ := List.append_inj same (by simp)
  obtain ⟨targets, same⟩ := List.append_inj same (by simp)
  obtain ⟨assets, same⟩ := List.append_inj same (by simp)
  obtain ⟨amounts, same⟩ := List.append_inj same (by simp)
  obtain ⟨nonces, deadlines⟩ := List.append_inj same (by simp)
  exact ⟨BytesN.toList_injective networks, BytesN.toList_injective contracts,
    BytesN.toList_injective sources, BytesN.toList_injective targets,
    BytesN.toList_injective assets, I128.toBeBytes_injective amounts,
    u64ToBeBytes_injective nonces, u64ToBeBytes_injective deadlines⟩

/-- When all addresses are written with the same length, the preimage of a commitment
determines what is committed. -/
theorem Host.commitmentPreimage_injective {host : Host} {source source' target target' : Address}
    {asset asset' : Address} {amount amount' : I128} {nonce nonce' : UInt64}
    (widths : ∀ a b, (host.strkey a).length = (host.strkey b).length)
    (strkeys : Function.Injective host.strkey)
    (same : host.commitmentPreimage source target asset amount nonce =
      host.commitmentPreimage source' target' asset' amount' nonce') :
    source = source' ∧ target = target' ∧ asset = asset' ∧ amount = amount' ∧ nonce = nonce' := by
  simp only [Host.commitmentPreimage, List.append_assoc] at same
  obtain ⟨-, same⟩ := List.append_inj same rfl
  obtain ⟨-, same⟩ := List.append_inj same rfl
  obtain ⟨-, same⟩ := List.append_inj same rfl
  obtain ⟨sources, same⟩ := List.append_inj same (widths ..)
  obtain ⟨targets, same⟩ := List.append_inj same (widths ..)
  obtain ⟨assets, same⟩ := List.append_inj same (widths ..)
  obtain ⟨amounts, nonces⟩ := List.append_inj same (by simp)
  exact ⟨strkeys sources, strkeys targets, strkeys assets, I128.toBeBytes_injective amounts,
    u64ToBeBytes_injective nonces⟩

/-! ## Signature checks -/

/-- Decode the public key and check the signature over a message. -/
def verifySignature (env : Env) (pubkey message : BytesN 32) (signature : BytesN 64) :
    Call Unit := do
  reject (env.host.verifyingKey pubkey = false) .metaTxInvalidSignature
  reject (env.host.verifyStrict pubkey message signature = false) .metaTxInvalidSignature

/-- The stack buffer that holds an address while it is hashed is too short for
its textual form. -/
def strkeyTooLong (env : Env) (address : Address) : Prop :=
  maxStrkeyLen < (env.host.strkey address).length

instance (env : Env) (address : Address) : Decidable (strkeyTooLong env address) :=
  inferInstanceAs (Decidable (_ < _))

end OnboardingBridge.Contract
