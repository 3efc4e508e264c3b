import OnboardingBridge.Foundations.PrefixBlocks
import OnboardingBridge.Indexer.Subscriptions

/-!
# URLs of webhooks

A subscription is accepted with a URL whose host is no private or reserved address. An IPv6 address
that is mapped from an IPv4 address is checked as that address. One that is compatible with an
IPv4 address is to be checked so too, but it is checked as an IPv6 address (`webhook_urls`).
-/

set_option autoImplicit false

namespace OnboardingBridge.Indexer

open Foundations Relayer

/-! ## Addresses -/

/-- The four octets of an address. -/
structure Ipv4Addr where
  a : UInt8
  b : UInt8
  c : UInt8
  d : UInt8
deriving DecidableEq

/-- The eight segments of an address. -/
structure Ipv6Addr where
  s0 : UInt16
  s1 : UInt16
  s2 : UInt16
  s3 : UInt16
  s4 : UInt16
  s5 : UInt16
  s6 : UInt16
  s7 : UInt16
deriving DecidableEq

inductive IpAddr where
  | v4 (address : Ipv4Addr)
  | v6 (address : Ipv6Addr)
deriving DecidableEq

namespace Ipv4Addr

variable (address : Ipv4Addr)

def isLoopback : Bool := address.a = 127

def isPrivate : Bool :=
  address.a = 10 || (address.a = 172 && 16 ≤ address.b && address.b ≤ 31) ||
    (address.a = 192 && address.b = 168)

def isLinkLocal : Bool := address.a = 169 && address.b = 254

def isBroadcast : Bool :=
  address.a = 255 && address.b = 255 && address.c = 255 && address.d = 255

def isDocumentation : Bool :=
  (address.a = 192 && address.b = 0 && address.c = 2) ||
    (address.a = 198 && address.b = 51 && address.c = 100) ||
    (address.a = 203 && address.b = 0 && address.c = 113)

def isUnspecified : Bool := address.a = 0 && address.b = 0 && address.c = 0 && address.d = 0

def isMulticast : Bool := 224 ≤ address.a && address.a ≤ 239

end Ipv4Addr

namespace Ipv6Addr

variable (address : Ipv6Addr)

/-- The segments before the last two. -/
def leading : List UInt16 := [address.s0, address.s1, address.s2, address.s3, address.s4, address.s5]

def isLoopback : Bool := address = ⟨0, 0, 0, 0, 0, 0, 0, 1⟩

def isUnspecified : Bool := address = ⟨0, 0, 0, 0, 0, 0, 0, 0⟩

def isMulticast : Bool := address.s0 &&& 0xFF00 = 0xFF00

/-- The IPv4 address of the last two segments. -/
def lastOctets : Ipv4Addr :=
  ⟨(address.s6 >>> 8).toUInt8, address.s6.toUInt8, (address.s7 >>> 8).toUInt8, address.s7.toUInt8⟩

def toIpv4Mapped : Option Ipv4Addr :=
  if address.leading = [0, 0, 0, 0, 0, 0xFFFF] then some address.lastOctets else none

end Ipv6Addr

/-! ## The check of an address -/

def isPrivateOrReserved : IpAddr → Bool
  | .v4 v4 =>
      v4.isLoopback || v4.isPrivate || v4.isLinkLocal || v4.isBroadcast || v4.isDocumentation ||
        v4.isUnspecified || v4.isMulticast || v4.a = 0 || (v4.a = 100 && v4.b &&& 0xC0 = 64) ||
        (v4.a = 192 && v4.b = 0 && v4.c = 0) || (v4.a = 198 && (v4.b = 18 || v4.b = 19)) ||
        240 ≤ v4.a
  | .v6 v6 =>
      v6.isLoopback || v6.isUnspecified || v6.isMulticast || v6.s0 &&& 0xFE00 = 0xFC00 ||
        v6.s0 &&& 0xFFC0 = 0xFE80

/-- Only mapped addresses are unwrapped, the name notwithstanding. -/
def unwrapIpv4MappedOrCompatible : IpAddr → IpAddr
  | .v4 v4 => .v4 v4
  | .v6 v6 =>
      match v6.toIpv4Mapped with
      | some v4 => .v4 v4
      | none => .v6 v6

/-! ## The check of a URL -/

inductive UrlValidationError where
  | invalidUrl (reason : String)
  | forbiddenScheme (scheme : String)
  | privateOrReservedHost (host : String)
  | unresolvableHost (host : String)
deriving DecidableEq

/-- What the parser makes of a URL, with the port or the default one of the scheme. -/
structure ParsedUrl where
  scheme : String
  host : Option String
  port : UInt16

/-- The parser of URLs, and the parser and the text of addresses. -/
structure UrlLibrary where
  parseUrl : String → Except String ParsedUrl
  parseIp : String → Option IpAddr
  text : IpAddr → String

/-- `trim_matches` of brackets. -/
def trimBrackets (host : String) : String :=
  let isBracket (c : Char) : Bool := c = '[' || c = ']'
  String.ofList (((host.toList.dropWhile isBracket).reverse.dropWhile isBracket).reverse)

/-- The address of a host that is a literal. -/
def UrlLibrary.literal (library : UrlLibrary) (host : String) : Option IpAddr :=
  library.parseIp (trimBrackets host)

/-- The loop over the addresses of the resolver. -/
def checkAddresses (library : UrlLibrary) : List IpAddr → Except UrlValidationError Unit
  | [] => return ()
  | address :: rest =>
      let ip := unwrapIpv4MappedOrCompatible address
      if isPrivateOrReserved ip then throw (.privateOrReservedHost (library.text ip))
      else checkAddresses library rest

/-- The part of the check that is about the host, with the resolver. -/
def checkHost (library : UrlLibrary) (lookupHost : String → UInt16 → Option (List IpAddr))
    (host : String) (port : UInt16) : Except UrlValidationError Unit :=
  match library.literal host with
  | some ip =>
      let unwrapped := unwrapIpv4MappedOrCompatible ip
      if isPrivateOrReserved unwrapped then
        throw (.privateOrReservedHost (library.text unwrapped))
      else return ()
  | none =>
      if host.map Char.toLower = "localhost" then throw (.privateOrReservedHost "localhost")
      else
        match lookupHost host port with
        | none => throw (.unresolvableHost host)
        | some addresses => checkAddresses library addresses

def validateWebhookUrl (library : UrlLibrary) (lookupHost : String → UInt16 → Option (List IpAddr))
    (url : String) : Except UrlValidationError Unit :=
  match library.parseUrl url with
  | .error reason => throw (.invalidUrl reason)
  | .ok parsed =>
      if parsed.scheme ≠ "http" ∧ parsed.scheme ≠ "https" then
        throw (.forbiddenScheme parsed.scheme)
      else
        match parsed.host with
        | none => throw (.invalidUrl "URL has no host")
        | some host => checkHost library lookupHost host parsed.port

/-! ## The ranges -/

def Ipv4Addr.value (address : Ipv4Addr) : ℕ :=
  address.a.toNat * 2 ^ 24 + address.b.toNat * 2 ^ 16 + address.c.toNat * 2 ^ 8 + address.d.toNat

def Ipv6Addr.value (address : Ipv6Addr) : ℕ :=
  address.s0.toNat * 2 ^ 112 + address.s1.toNat * 2 ^ 96 + address.s2.toNat * 2 ^ 80 +
    address.s3.toNat * 2 ^ 64 + address.s4.toNat * 2 ^ 48 + address.s5.toNat * 2 ^ 32 +
    address.s6.toNat * 2 ^ 16 + address.s7.toNat

/-- A block of IPv4 addresses in dotted notation. -/
def ipv4Block (a b c d prefixLength : ℕ) : PrefixBlock :=
  ⟨a * 2 ^ 24 + b * 2 ^ 16 + c * 2 ^ 8 + d, prefixLength⟩

def ipv4Ranges : List PrefixBlock := [
  -- loopback
  ipv4Block 127 0 0 0 8,
  -- private
  ipv4Block 10 0 0 0 8, ipv4Block 172 16 0 0 12, ipv4Block 192 168 0 0 16,
  -- link-local and broadcast
  ipv4Block 169 254 0 0 16, ipv4Block 255 255 255 255 32,
  -- documentation
  ipv4Block 192 0 2 0 24, ipv4Block 198 51 100 0 24, ipv4Block 203 0 113 0 24,
  -- unspecified, multicast and this network
  ipv4Block 0 0 0 0 32, ipv4Block 224 0 0 0 4, ipv4Block 0 0 0 0 8,
  -- shared between carriers, protocol assignments, benchmarking and future use
  ipv4Block 100 64 0 0 10, ipv4Block 192 0 0 0 24, ipv4Block 198 18 0 0 15, ipv4Block 240 0 0 0 4]

def ipv6Ranges : List PrefixBlock := [
  -- loopback, unspecified and multicast
  ⟨1, 128⟩, ⟨0, 128⟩, ⟨0xFF00 * 2 ^ 112, 8⟩,
  -- unique local and link-local
  ⟨0xFC00 * 2 ^ 112, 7⟩, ⟨0xFE80 * 2 ^ 112, 10⟩]

/-- An address in one of the ranges that must not be reached. -/
def IpAddr.Reserved (ip : IpAddr) : Prop :=
  match ip with
  | .v4 address => ∃ block ∈ ipv4Ranges, block.Contains 32 address.value
  | .v6 address => ∃ block ∈ ipv6Ranges, block.Contains 128 address.value

/-- The mask of the range that carriers share. -/
theorem mask_carriers (b : UInt8) : b &&& 0xC0 = 64 ↔ b.toNat / 64 = 1 := by
  have bound := b.toNat_lt
  have masked : b.toNat &&& 192 = b.toNat / 64 * 64 := @and_mask _ 6 2 bound
  have constants : (0xC0 : UInt8).toNat = 192 ∧ (64 : UInt8).toNat = 64 := ⟨rfl, rfl⟩
  rw [← UInt8.toNat_inj, UInt8.toNat_and, constants.1, constants.2, masked]
  omega

section Octets

variable (address : Ipv4Addr) {k l m n : ℕ}

theorem Ipv4Addr.mem_octet (boundL : l < 256) (boundM : m < 256) (boundN : n < 256) :
    (ipv4Block k l m n 8).Contains 32 address.value ↔ address.a.toNat = k := by
  have octetB := address.b.toNat_lt
  have octetC := address.c.toNat_lt
  have octetD := address.d.toNat_lt
  simp only [PrefixBlock.Contains, ipv4Block, Ipv4Addr.value]
  omega

theorem Ipv4Addr.mem_two_octets (boundL : l < 256) (boundM : m < 256) (boundN : n < 256) :
    (ipv4Block k l m n 16).Contains 32 address.value ↔
      address.a.toNat = k ∧ address.b.toNat = l := by
  have octetB := address.b.toNat_lt
  have octetC := address.c.toNat_lt
  have octetD := address.d.toNat_lt
  simp only [PrefixBlock.Contains, ipv4Block, Ipv4Addr.value]
  omega

theorem Ipv4Addr.mem_three_octets (boundL : l < 256) (boundM : m < 256) (boundN : n < 256) :
    (ipv4Block k l m n 24).Contains 32 address.value ↔
      (address.a.toNat = k ∧ address.b.toNat = l) ∧ address.c.toNat = m := by
  have octetB := address.b.toNat_lt
  have octetC := address.c.toNat_lt
  have octetD := address.d.toNat_lt
  simp only [PrefixBlock.Contains, ipv4Block, Ipv4Addr.value]
  omega

theorem Ipv4Addr.mem_four_octets (boundL : l < 256) (boundM : m < 256) (boundN : n < 256) :
    (ipv4Block k l m n 32).Contains 32 address.value ↔
      ((address.a.toNat = k ∧ address.b.toNat = l) ∧ address.c.toNat = m) ∧
        address.d.toNat = n := by
  have octetB := address.b.toNat_lt
  have octetC := address.c.toNat_lt
  have octetD := address.d.toNat_lt
  simp only [PrefixBlock.Contains, ipv4Block, Ipv4Addr.value]
  omega

/-- The blocks that end within an octet. -/
theorem Ipv4Addr.mem_split_octets :
    ((ipv4Block 172 16 0 0 12).Contains 32 address.value ↔
      (address.a.toNat = 172 ∧ 16 ≤ address.b.toNat) ∧ address.b.toNat ≤ 31) ∧
    ((ipv4Block 224 0 0 0 4).Contains 32 address.value ↔
      224 ≤ address.a.toNat ∧ address.a.toNat ≤ 239) ∧
    ((ipv4Block 100 64 0 0 10).Contains 32 address.value ↔
      address.a.toNat = 100 ∧ address.b.toNat / 64 = 1) ∧
    ((ipv4Block 198 18 0 0 15).Contains 32 address.value ↔
      address.a.toNat = 198 ∧ (address.b.toNat = 18 ∨ address.b.toNat = 19)) ∧
    ((ipv4Block 240 0 0 0 4).Contains 32 address.value ↔ 240 ≤ address.a.toNat) := by
  have octetA := address.a.toNat_lt
  have octetB := address.b.toNat_lt
  have octetC := address.c.toNat_lt
  have octetD := address.d.toNat_lt
  simp only [PrefixBlock.Contains, ipv4Block, Ipv4Addr.value]
  refine ⟨?_, ?_, ?_, ?_, ?_⟩ <;> omega

end Octets

theorem isPrivateOrReserved_v4 (address : Ipv4Addr) :
    isPrivateOrReserved (.v4 address) = true ↔ (IpAddr.v4 address).Reserved := by
  obtain ⟨inner, multicast, carriers, benchmarks, future⟩ := address.mem_split_octets
  simp only [isPrivateOrReserved, Ipv4Addr.isLoopback, Ipv4Addr.isPrivate, Ipv4Addr.isLinkLocal,
    Ipv4Addr.isBroadcast, Ipv4Addr.isDocumentation, Ipv4Addr.isUnspecified, Ipv4Addr.isMulticast,
    Bool.or_eq_true, Bool.and_eq_true, decide_eq_true_eq, mask_carriers]
  simp only [← UInt8.toNat_inj, UInt8.le_iff_toNat_le, UInt8.reduceToNat, or_assoc]
  simp (disch := decide) only [IpAddr.Reserved, ipv4Ranges, List.exists_mem_cons_iff,
    List.not_mem_nil, false_and, exists_false, or_false, inner, multicast, carriers, benchmarks,
    future, Ipv4Addr.mem_octet, Ipv4Addr.mem_two_octets, Ipv4Addr.mem_three_octets,
    Ipv4Addr.mem_four_octets]

/-- The masks of the IPv6 ranges. -/
theorem mask_segment (segment : UInt16) :
    (segment &&& 0xFF00 = 0xFF00 ↔ segment.toNat / 256 = 255) ∧
      (segment &&& 0xFE00 = 0xFC00 ↔ segment.toNat / 512 = 126) ∧
        (segment &&& 0xFFC0 = 0xFE80 ↔ segment.toNat / 64 = 1018) := by
  have bound := segment.toNat_lt
  have multicast : segment.toNat &&& 0xFF00 = segment.toNat / 256 * 256 :=
    @and_mask _ 8 8 bound
  have unique : segment.toNat &&& 0xFE00 = segment.toNat / 512 * 512 := @and_mask _ 9 7 bound
  have link : segment.toNat &&& 0xFFC0 = segment.toNat / 64 * 64 := @and_mask _ 6 10 bound
  simp only [← UInt16.toNat_inj, UInt16.toNat_and, UInt16.reduceToNat, multicast, unique, link]
  omega

theorem isPrivateOrReserved_v6 (address : Ipv6Addr) :
    isPrivateOrReserved (.v6 address) = true ↔ (IpAddr.v6 address).Reserved := by
  obtain ⟨s0, s1, s2, s3, s4, s5, s6, s7⟩ := address
  obtain ⟨multicast, unique, link⟩ := mask_segment s0
  have bound0 := s0.toNat_lt
  have bound1 := s1.toNat_lt
  have bound2 := s2.toNat_lt
  have bound3 := s3.toNat_lt
  have bound4 := s4.toNat_lt
  have bound5 := s5.toNat_lt
  have bound6 := s6.toNat_lt
  have bound7 := s7.toNat_lt
  simp only [isPrivateOrReserved, Ipv6Addr.isLoopback, Ipv6Addr.isUnspecified,
    Ipv6Addr.isMulticast, Bool.or_eq_true, decide_eq_true_eq, multicast, unique, link,
    Ipv6Addr.mk.injEq, ← UInt16.toNat_inj, UInt16.reduceToNat]
  simp only [IpAddr.Reserved, ipv6Ranges, List.exists_mem_cons_iff, List.not_mem_nil, false_and,
    exists_false, or_false, PrefixBlock.Contains, Ipv6Addr.value, or_assoc]
  refine or_congr ?_ (or_congr ?_ (or_congr ?_ (or_congr ?_ ?_))) <;> omega

/-! ## Embedded addresses -/

/-- The address with an IPv4-mapped or IPv4-compatible one replaced by the IPv4 address in it. -/
def IpAddr.embedded (ip : IpAddr) : IpAddr :=
  match ip with
  | .v4 address => .v4 address
  | .v6 address =>
      if address.leading = [0, 0, 0, 0, 0, 0xFFFF] ∨ address.leading = [0, 0, 0, 0, 0, 0] then
        .v4 address.lastOctets
      else .v6 address

/-- An IPv4-compatible address of a reserved one that is not reserved itself. -/
def IpAddr.Conceals (ip : IpAddr) : Prop :=
  ∃ address : Ipv6Addr, ip = .v6 address ∧ address.leading = [0, 0, 0, 0, 0, 0] ∧
    (IpAddr.v4 address.lastOctets).Reserved ∧ ¬ (IpAddr.v6 address).Reserved

theorem isPrivateOrReserved_iff (ip : IpAddr) : isPrivateOrReserved ip = true ↔ ip.Reserved := by
  cases ip with
  | v4 address => exact isPrivateOrReserved_v4 address
  | v6 address => exact isPrivateOrReserved_v6 address

/-- An address that passes the check is reserved exactly when it conceals a reserved one. -/
theorem reserved_embedded_iff {ip : IpAddr}
    (passes : ¬ (unwrapIpv4MappedOrCompatible ip).Reserved) :
    ip.embedded.Reserved ↔ ip.Conceals := by
  cases ip with
  | v4 address =>
      refine ⟨fun reserved => absurd reserved passes, ?_⟩
      rintro ⟨address, isAddress, -⟩
      cases isAddress
  | v6 address =>
      unfold unwrapIpv4MappedOrCompatible Ipv6Addr.toIpv4Mapped at passes
      unfold IpAddr.embedded IpAddr.Conceals
      by_cases mapped : address.leading = [0, 0, 0, 0, 0, 0xFFFF]
      · simp only [if_pos mapped] at passes
        simp [mapped, passes]
      · simp only [if_neg mapped] at passes
        by_cases compatible : address.leading = [0, 0, 0, 0, 0, 0]
        · simp [compatible, passes]
        · simp [mapped, compatible, passes]

/-! ## The addresses of a URL -/

section Urls

variable (library : UrlLibrary) (lookupHost : String → UInt16 → Option (List IpAddr))

/-- The addresses of a host: the literal, or what the resolver returns. -/
inductive Denotes (host : String) (port : UInt16) : List IpAddr → Prop where
  | literal {ip : IpAddr} (isLiteral : library.literal host = some ip) : Denotes host port [ip]
  | resolved {addresses : List IpAddr} (noLiteral : library.literal host = none)
      (answer : lookupHost host port = some addresses) : Denotes host port addresses

/-- A URL of an allowed scheme, its host and the addresses of the host. -/
def Reaches (url host : String) (addresses : List IpAddr) : Prop :=
  ∃ parsed : ParsedUrl, library.parseUrl url = .ok parsed ∧
    (parsed.scheme = "http" ∨ parsed.scheme = "https") ∧ parsed.host = some host ∧
    Denotes library lookupHost host parsed.port addresses

/-- The name of the host itself, which is not looked up. -/
def IsLocalhost (host : String) : Prop :=
  library.literal host = none ∧ host.map Char.toLower = "localhost"

theorem checkAddresses_ok_iff (addresses : List IpAddr) :
    checkAddresses library addresses = .ok () ↔
      ∀ ip ∈ addresses, ¬ (unwrapIpv4MappedOrCompatible ip).Reserved := by
  induction addresses with
  | nil => simp [checkAddresses, pure, Except.pure]
  | cons ip rest step =>
      rw [List.forall_mem_cons, ← step, ← isPrivateOrReserved_iff, checkAddresses]
      by_cases reserved : isPrivateOrReserved (unwrapIpv4MappedOrCompatible ip) = true
      · simp [reserved, throw, throwThe, MonadExceptOf.throw]
      · simp [reserved]

/-- What is accepted of a host: addresses that pass the check. -/
theorem checkHost_ok_iff (host : String) (port : UInt16) :
    checkHost library lookupHost host port = .ok () ↔
      ∃ addresses, Denotes library lookupHost host port addresses ∧ ¬ IsLocalhost library host ∧
        ∀ ip ∈ addresses, ¬ (unwrapIpv4MappedOrCompatible ip).Reserved := by
  unfold checkHost
  cases literal : library.literal host with
  | some ip =>
      constructor
      · intro accepted
        refine ⟨[ip], .literal literal, fun isLocal => ?_, ?_⟩
        · rw [isLocal.1] at literal
          cases literal
        · rw [List.forall_mem_singleton, ← isPrivateOrReserved_iff]
          intro reserved
          dsimp only at accepted
          rw [if_pos reserved] at accepted
          cases accepted
      · rintro ⟨addresses, denotes, -, passes⟩
        cases denotes with
        | literal isLiteral =>
            obtain rfl := Option.some.inj (literal.symm.trans isLiteral)
            rw [List.forall_mem_singleton, ← isPrivateOrReserved_iff] at passes
            exact if_neg passes
        | resolved noLiteral =>
            rw [literal] at noLiteral
            cases noLiteral
  | none =>
      constructor
      · intro accepted
        by_cases isLocal : host.map Char.toLower = "localhost"
        · rw [if_pos isLocal] at accepted
          cases accepted
        rw [if_neg isLocal] at accepted
        cases answer : lookupHost host port with
        | none =>
            rw [answer] at accepted
            cases accepted
        | some addresses =>
            rw [answer] at accepted
            refine ⟨addresses, .resolved literal answer, fun found => isLocal found.2, ?_⟩
            exact (checkAddresses_ok_iff library addresses).mp accepted
      · rintro ⟨addresses, denotes, remote, passes⟩
        have isLocal : ¬ host.map Char.toLower = "localhost" := fun named => remote ⟨literal, named⟩
        cases denotes with
        | literal isLiteral =>
            rw [literal] at isLiteral
            cases isLiteral
        | resolved noLiteral answer =>
            rw [if_neg isLocal, answer]
            exact (checkAddresses_ok_iff library addresses).mpr passes

/-- What is accepted: an allowed scheme and addresses that pass the check. -/
theorem validateWebhookUrl_ok_iff (url : String) :
    validateWebhookUrl library lookupHost url = .ok () ↔
      ∃ host addresses, Reaches library lookupHost url host addresses ∧
        ¬ IsLocalhost library host ∧
        ∀ ip ∈ addresses, ¬ (unwrapIpv4MappedOrCompatible ip).Reserved := by
  unfold validateWebhookUrl
  constructor
  · intro accepted
    cases parsing : library.parseUrl url with
    | error reason =>
        rw [parsing] at accepted
        cases accepted
    | ok parsed =>
        rw [parsing] at accepted
        dsimp only at accepted
        by_cases forbidden : parsed.scheme ≠ "http" ∧ parsed.scheme ≠ "https"
        · rw [if_pos forbidden] at accepted
          cases accepted
        rw [if_neg forbidden] at accepted
        cases isHost : parsed.host with
        | none =>
            rw [isHost] at accepted
            cases accepted
        | some host =>
            rw [isHost] at accepted
            obtain ⟨addresses, denotes, remote, passes⟩ :=
              (checkHost_ok_iff library lookupHost host parsed.port).mp accepted
            have allowed : parsed.scheme = "http" ∨ parsed.scheme = "https" := by tauto
            exact ⟨host, addresses, ⟨parsed, parsing, allowed, isHost, denotes⟩, remote, passes⟩
  · rintro ⟨host, addresses, ⟨parsed, parsing, allowed, isHost, denotes⟩, remote, passes⟩
    have notForbidden : ¬ (parsed.scheme ≠ "http" ∧ parsed.scheme ≠ "https") := by tauto
    rw [parsing]
    refine (if_neg notForbidden).trans ?_
    rw [isHost]
    exact (checkHost_ok_iff library lookupHost host parsed.port).mpr
      ⟨addresses, denotes, remote, passes⟩

theorem Denotes.unique {library : UrlLibrary}
    {lookupHost : String → UInt16 → Option (List IpAddr)} {host : String} {port : UInt16}
    {addresses others : List IpAddr} (denotes : Denotes library lookupHost host port addresses)
    (again : Denotes library lookupHost host port others) : addresses = others := by
  cases denotes with
  | literal isLiteral =>
      cases again with
      | literal other => rw [Option.some.inj (isLiteral.symm.trans other)]
      | resolved noLiteral => exact absurd (noLiteral.symm.trans isLiteral) (by simp)
  | resolved noLiteral answer =>
      cases again with
      | literal isLiteral => exact absurd (noLiteral.symm.trans isLiteral) (by simp)
      | resolved _ other => exact Option.some.inj (answer.symm.trans other)

theorem Reaches.unique {library : UrlLibrary}
    {lookupHost : String → UInt16 → Option (List IpAddr)} {url host otherHost : String}
    {addresses others : List IpAddr} (reached : Reaches library lookupHost url host addresses)
    (again : Reaches library lookupHost url otherHost others) :
    host = otherHost ∧ addresses = others := by
  obtain ⟨parsed, isParsed, -, isHost, denotes⟩ := reached
  obtain ⟨other, alsoParsed, -, alsoHost, alsoDenotes⟩ := again
  obtain rfl := Except.ok.inj (isParsed.symm.trans alsoParsed)
  obtain rfl := Option.some.inj (isHost.symm.trans alsoHost)
  exact ⟨rfl, denotes.unique alsoDenotes⟩

/-- An accepted URL has an allowed scheme, and no address of its host is reserved, also not the
IPv4 address that it embeds. -/
def Guarded (url : String) : Prop :=
  validateWebhookUrl library lookupHost url = .ok () →
    ∃ host addresses, Reaches library lookupHost url host addresses ∧
      ∀ ip ∈ addresses, ¬ ip.embedded.Reserved

/-- A URL of which the addresses pass the check, although one conceals a reserved address. -/
def Deceptive (url : String) : Prop :=
  ∃ host addresses, Reaches library lookupHost url host addresses ∧ ¬ IsLocalhost library host ∧
    (∀ ip ∈ addresses, ¬ (unwrapIpv4MappedOrCompatible ip).Reserved) ∧
    ∃ ip ∈ addresses, ip.Conceals

/-- The check keeps the reserved ranges out of reach, unless a URL is deceptive. -/
theorem webhook_urls (url : String) :
    Guarded library lookupHost url ↔ ¬ Deceptive library lookupHost url := by
  unfold Guarded
  rw [validateWebhookUrl_ok_iff]
  constructor
  · rintro guarded ⟨host, addresses, reached, remote, passes, ip, member, conceals⟩
    obtain ⟨otherHost, others, again, free⟩ := guarded ⟨host, addresses, reached, remote, passes⟩
    obtain ⟨rfl, rfl⟩ := reached.unique again
    exact free ip member ((reserved_embedded_iff (passes ip member)).mpr conceals)
  · rintro honest ⟨host, addresses, reached, remote, passes⟩
    refine ⟨host, addresses, reached, ?_⟩
    intro ip member reserved
    have conceals := (reserved_embedded_iff (passes ip member)).mp reserved
    exact honest ⟨host, addresses, reached, remote, passes, ip, member, conceals⟩

end Urls

/-- The loopback address in a URL, written as an IPv4-compatible address. -/
theorem compatible_loopback_accepted :
    let library : UrlLibrary :=
      { parseUrl := fun url =>
          if url = "http://[::127.0.0.1]/hook" then
            .ok { scheme := "http", host := some "[::7f00:1]", port := 80 }
          else .error "relative URL without a base"
        parseIp := fun host =>
          if host = "::7f00:1" then some (.v6 ⟨0, 0, 0, 0, 0, 0, 0x7F00, 1⟩) else none
        text := fun _ => "::7f00:1" }
    ¬ Guarded library (fun _ _ => none) "http://[::127.0.0.1]/hook" := by
  intro library guarded
  have isLiteral : library.literal "[::7f00:1]" = some (.v6 ⟨0, 0, 0, 0, 0, 0, 0x7F00, 1⟩) := by
    decide
  have reached : Reaches library (fun _ _ => none) "http://[::127.0.0.1]/hook" "[::7f00:1]"
      [.v6 ⟨0, 0, 0, 0, 0, 0, 0x7F00, 1⟩] :=
    ⟨_, rfl, .inl rfl, rfl, .literal isLiteral⟩
  have accepted : validateWebhookUrl library (fun _ _ => none) "http://[::127.0.0.1]/hook" =
      .ok () := by
    decide
  obtain ⟨host, addresses, again, free⟩ := guarded accepted
  obtain ⟨rfl, rfl⟩ := reached.unique again
  refine free _ (List.mem_singleton_self _) ?_
  rw [← isPrivateOrReserved_iff]
  decide

end OnboardingBridge.Indexer
