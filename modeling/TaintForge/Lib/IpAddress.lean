import TaintForge.Lib.JsonText

/-!
# Internet addresses

The part of Python's `ipaddress` that reads addresses and networks from their texts, writes them, and
tells which addresses lie in a network.  The tables of special networks are those of Python 3.11.

* `IpAddress`, `IpNetwork`: the values of the two families.
* `ipAddress`, `ipNetwork`: the readers, with nothing where they raise `ValueError`.
* `IpNetwork.contains`: `address in network`, which is false between the families.
* `IpAddress.ipv4Mapped`, `IpAddress.host`: the IPv4 address inside of an IPv4-mapped one, and the address
  of the host that packets to an address reach.
* `IpAddress.isGlobal`: the property `is_global`.
-/

namespace TaintForge

/-- An address: its number, and the zone of an IPv6 address. -/
inductive IpAddress
  | v4 (ip : BitVec 32)
  | v6 (ip : BitVec 128) (scopeId : Option PyStr)
  deriving DecidableEq

/-- A network: its first address and the length of the part that its addresses share. -/
inductive IpNetwork
  | v4 (ip : BitVec 32) (prefixlen : ℕ)
  | v6 (ip : BitVec 128) (scopeId : Option PyStr) (prefixlen : ℕ)
  deriving DecidableEq

/-- `_ip_int_from_prefix`: as many ones as the length says, and then zeros. -/
def netmask (w prefixlen : ℕ) : BitVec w := BitVec.allOnes w ^^^ (BitVec.allOnes w >>> prefixlen)

namespace IpNetwork

/-- `version`. -/
def version : IpNetwork → ℕ
  | .v4 _ _ => 4
  | .v6 _ _ _ => 6

/-- `__contains__`. -/
def contains : IpNetwork → IpAddress → Bool
  | .v4 network prefixlen, .v4 ip => ip &&& netmask 32 prefixlen == network
  | .v6 network _ prefixlen, .v6 ip _ => ip &&& netmask 128 prefixlen == network
  | _, _ => false

end IpNetwork

namespace IpAddress

/-- `version`. -/
def version : IpAddress → ℕ
  | .v4 _ => 4
  | .v6 _ _ => 6

/-! ### Mapped addresses -/

/-- `ipv4_mapped`. -/
def ipv4Mapped : IpAddress → Option (BitVec 32)
  | .v4 _ => none
  | .v6 ip _ => if ip >>> 32 = 0xFFFF#128 then some (ip.setWidth 32) else none

/-- The address of the host that an address stands for: packets to an IPv4-mapped address go to the IPv4
address inside of it. -/
def host (a : IpAddress) : IpAddress :=
  match a.ipv4Mapped with
  | some ip => .v4 ip
  | none => a

theorem host_of_ipv4Mapped {a : IpAddress} {ip : BitVec 32} (h : a.ipv4Mapped = some ip) :
    a.host = .v4 ip := by
  simp [host, h]

theorem host_of_not_mapped {a : IpAddress} (h : a.ipv4Mapped = none) : a.host = a := by
  simp [host, h]

/-! ### Special networks -/

/-- The address `a.b.c.d`. -/
def quad (a b c d : ℕ) : BitVec 32 := BitVec.ofNat 32 (((a * 256 + b) * 256 + c) * 256 + d)

/-- The address with three first groups of digits, and a number for all that follows them. -/
def hextets (first second third last : ℕ) : BitVec 128 :=
  BitVec.ofNat 128 (first * 2 ^ 112 + second * 2 ^ 96 + third * 2 ^ 80 + last)

/-- `_IPv4Constants._private_networks`. -/
def privateNetworks4 : List IpNetwork :=
  [.v4 (quad 0 0 0 0) 8, .v4 (quad 10 0 0 0) 8, .v4 (quad 127 0 0 0) 8, .v4 (quad 169 254 0 0) 16,
    .v4 (quad 172 16 0 0) 12, .v4 (quad 192 0 0 0) 24, .v4 (quad 192 0 0 170) 31,
    .v4 (quad 192 0 2 0) 24, .v4 (quad 192 168 0 0) 16, .v4 (quad 198 18 0 0) 15,
    .v4 (quad 198 51 100 0) 24, .v4 (quad 203 0 113 0) 24, .v4 (quad 240 0 0 0) 4,
    .v4 (quad 255 255 255 255) 32]

/-- `_IPv4Constants._private_networks_exceptions`. -/
def privateExceptions4 : List IpNetwork := [.v4 (quad 192 0 0 9) 32, .v4 (quad 192 0 0 10) 32]

/-- `_IPv4Constants._public_network`. -/
def publicNetwork4 : IpNetwork := .v4 (quad 100 64 0 0) 10

/-- `_IPv6Constants._private_networks`. -/
def privateNetworks6 : List IpNetwork :=
  [.v6 (hextets 0 0 0 1) none 128, .v6 (hextets 0 0 0 0) none 128,
    .v6 (hextets 0 0 0 0xFFFF00000000) none 96, .v6 (hextets 0x64 0xFF9B 1 0) none 48,
    .v6 (hextets 0x100 0 0 0) none 64, .v6 (hextets 0x2001 0 0 0) none 23,
    .v6 (hextets 0x2001 0xDB8 0 0) none 32, .v6 (hextets 0x2002 0 0 0) none 16,
    .v6 (hextets 0xFC00 0 0 0) none 7, .v6 (hextets 0xFE80 0 0 0) none 10]

/-- `_IPv6Constants._private_networks_exceptions`. -/
def privateExceptions6 : List IpNetwork :=
  [.v6 (hextets 0x2001 1 0 1) none 128, .v6 (hextets 0x2001 1 0 2) none 128,
    .v6 (hextets 0x2001 3 0 0) none 32, .v6 (hextets 0x2001 4 0x112 0) none 48,
    .v6 (hextets 0x2001 0x20 0 0) none 28, .v6 (hextets 0x2001 0x30 0 0) none 28]

/-- `IPv4Address.is_private`. -/
def isPrivate4 (ip : BitVec 32) : Bool :=
  privateNetworks4.any (·.contains (.v4 ip)) && privateExceptions4.all (!·.contains (.v4 ip))

/-- `is_private`. -/
def isPrivate (a : IpAddress) : Bool :=
  match a, a.ipv4Mapped with
  | .v4 ip, _ => isPrivate4 ip
  | .v6 _ _, some ip => isPrivate4 ip
  | a, none => privateNetworks6.any (·.contains a) && privateExceptions6.all (!·.contains a)

/-- `is_global`. -/
def isGlobal : IpAddress → Bool
  | .v4 ip => !publicNetwork4.contains (.v4 ip) && !isPrivate4 ip
  | a => !a.isPrivate

end IpAddress

/-! ### Reading -/

/-- `_BaseV4._parse_octet`. -/
def parseOctet (s : PyStr) : Option ℕ :=
  if s ≠ [] ∧ s.all Json.isDigit ∧ s.length ≤ 3 ∧ ¬(s ≠ [0x30] ∧ s.head? = some 0x30) ∧
      Json.digitsValue s ≤ 255 then
    some (Json.digitsValue s)
  else none

/-- `_BaseV4._ip_int_from_string`. -/
def ipv4IntFromString (s : PyStr) : Option (BitVec 32) :=
  match s.splitOn 0x2E with
  | [a, b, c, d] => do
    let a ← parseOctet a
    let b ← parseOctet b
    let c ← parseOctet c
    let d ← parseOctet d
    return IpAddress.quad a b c d
  | _ => none

/-- `IPv4Address`, from its text. -/
def ipv4Address (s : PyStr) : Option (BitVec 32) :=
  if 0x2F ∈ s then none else ipv4IntFromString s

/-- `'%x' % n`. -/
def hexText (n : ℕ) : PyStr :=
  if n = 0 then [0x30] else (Nat.digits 16 n).reverse.map Json.hexDigit

/-- The digits of a hexadecimal number, from its first one. -/
def hexDigits : PyStr → ℕ → Option ℕ
  | [], n => some n
  | c :: s, n => (Json.hexValue c).bind fun digit => hexDigits s (n * 16 + digit)

/-- `_BaseV6._parse_hextet`. -/
def parseHextet (s : PyStr) : Option ℕ :=
  if s ≠ [] ∧ s.length ≤ 4 then hexDigits s 0 else none

/-- The loop of `_ip_int_from_string` that shifts in one part after another. -/
def parseHextets : List PyStr → ℕ → Option ℕ
  | [], n => some n
  | part :: parts, n => (parseHextet part).bind fun hextet => parseHextets parts (n * 65536 + hextet)

/-- The parts of an IPv6 address, with an IPv4 suffix turned into two parts of their own. -/
def ipv6Parts (s : PyStr) : Option (List PyStr) :=
  let parts := s.splitOn 0x3A
  if parts.length < 3 then none
  else if 0x2E ∈ parts.getLastD [] then
    (ipv4Address (parts.getLastD [])).map fun ip : BitVec 32 =>
      parts.dropLast ++ [hexText (ip >>> 16).toNat, hexText (ip.setWidth 16).toNat]
  else some parts

/-- The places of empty parts between the first part and the last one. -/
def skips (parts : List PyStr) : List ℕ :=
  (List.range parts.length).filter fun i =>
    decide (1 ≤ i) && decide (i + 1 < parts.length) && parts[i]? == some []

/-- How many parts stand before the `::` at the given place, where they are well formed. -/
def partsHigh (parts : List PyStr) (skip : ℕ) : Option ℕ :=
  if parts.head? = some [] then if skip = 1 then some 0 else none else some skip

/-- How many parts stand after the `::` at the given place, where they are well formed. -/
def partsLow (parts : List PyStr) (skip : ℕ) : Option ℕ :=
  if parts.getLast? = some [] then if parts.length - skip - 1 = 1 then some 0 else none
  else some (parts.length - skip - 1)

/-- `_BaseV6._ip_int_from_string`. -/
def ipv6IntFromString (s : PyStr) : Option (BitVec 128) := do
  let parts ← ipv6Parts s
  if parts.length ≤ 9 then
    match skips parts with
    | [] =>
      -- An empty part is found when the parts are read.
      if parts.length = 8 then
        let ip ← parseHextets parts 0
        return BitVec.ofNat 128 ip
      else none
    | [skip] =>
      let high ← partsHigh parts skip
      let low ← partsLow parts skip
      if high + low < 8 then
        let ip ← parseHextets (parts.take high) 0
        let ip ← parseHextets (parts.drop (parts.length - low)) (ip * 65536 ^ (8 - (high + low)))
        return BitVec.ofNat 128 ip
      else none
    | _ => none
  else none

/-- `_BaseV6._split_scope_id`. -/
def splitScopeId (s : PyStr) : Option (PyStr × Option PyStr) :=
  match s.dropWhile (· != 0x25) with
  | [] => some (s, none)
  | _ :: scopeId =>
    if scopeId ≠ [] ∧ 0x25 ∉ scopeId then some (s.takeWhile (· != 0x25), some scopeId) else none

/-- `IPv6Address`, from its text. -/
def ipv6Address (s : PyStr) : Option (BitVec 128 × Option PyStr) :=
  if 0x2F ∈ s then none
  else do
    let (address, scopeId) ← splitScopeId s
    let ip ← ipv6IntFromString address
    return (ip, scopeId)

/-- `ip_address`. -/
def ipAddress (s : PyStr) : Option IpAddress :=
  match ipv4Address s with
  | some ip => some (.v4 ip)
  | none => (ipv6Address s).map fun (ip, scopeId) => .v6 ip scopeId

/-- `_prefix_from_prefix_string`. -/
def lengthFromDigits (limit : ℕ) (s : PyStr) : Option ℕ :=
  if s ≠ [] ∧ s.all Json.isDigit ∧ s.length ≤ maxStrDigits ∧ Json.digitsValue s ≤ limit then
    some (Json.digitsValue s)
  else none

/-- `_prefix_from_ip_int`: the length whose mask this is. -/
def lengthFromMask (mask : BitVec 32) : Option ℕ :=
  (List.range 33).find? fun prefixlen => netmask 32 prefixlen == mask

/-- `_prefix_from_ip_string`: a mask of the network, or else of the hosts. -/
def lengthFromMaskText (s : PyStr) : Option ℕ := do
  let mask ← ipv4IntFromString s
  lengthFromMask mask <|> lengthFromMask (~~~ mask)

/-- `IPv4Network(address, strict=False)`. -/
def ipv4Network (s : PyStr) : Option IpNetwork :=
  match s.splitOn 0x2F with
  | [address] => (ipv4Address address).map fun ip => .v4 ip 32
  | [address, mask] => do
    let ip ← ipv4Address address
    let prefixlen ← lengthFromDigits 32 mask <|> lengthFromMaskText mask
    return .v4 (ip &&& netmask 32 prefixlen) prefixlen
  | _ => none

/-- The network of an IPv6 address, which keeps its zone if it has no bits of a host. -/
def ipv6NetworkOf (ip : BitVec 128) (scopeId : Option PyStr) (prefixlen : ℕ) : IpNetwork :=
  if ip &&& netmask 128 prefixlen = ip then .v6 ip scopeId prefixlen
  else .v6 (ip &&& netmask 128 prefixlen) none prefixlen

/-- `IPv6Network(address, strict=False)`. -/
def ipv6Network (s : PyStr) : Option IpNetwork :=
  match s.splitOn 0x2F with
  | [address] => (ipv6Address address).map fun (ip, scopeId) => ipv6NetworkOf ip scopeId 128
  | [address, mask] => do
    let (ip, scopeId) ← ipv6Address address
    let prefixlen ← lengthFromDigits 128 mask
    return ipv6NetworkOf ip scopeId prefixlen
  | _ => none

/-- `ip_network(address, strict=False)`. -/
def ipNetwork (s : PyStr) : Option IpNetwork := ipv4Network s <|> ipv6Network s

/-! ### Writing -/

/-- The search of `_compress_hextets` for the longest run of zeros: the best run and the present one. -/
structure ZeroRun where
  bestStart : ℕ
  bestLength : ℕ
  start : ℕ
  length : ℕ

/-- One hextet of the search. -/
def ZeroRun.next (run : ZeroRun) (hextet : ℕ × ℕ) : ZeroRun :=
  if hextet.1 = 0 then
    let start := if run.length = 0 then hextet.2 else run.start
    let length := run.length + 1
    if run.bestLength < length then ⟨start, length, start, length⟩
    else { run with start := start, length := length }
  else { run with length := 0 }

/-- `_compress_hextets`, on the numbers. -/
def compressHextets (hextets : List ℕ) : List PyStr :=
  let run := hextets.zipIdx.foldl ZeroRun.next ⟨0, 0, 0, 0⟩
  let texts := hextets.map hexText
  if 1 < run.bestLength then
    let stop := run.bestStart + run.bestLength
    (if run.bestStart = 0 then [[]] else []) ++ texts.take run.bestStart ++ [[]] ++ texts.drop stop ++
      (if stop = hextets.length then [[]] else [])
  else texts

/-- The eight groups of 16 bits. -/
def groups (ip : BitVec 128) : List ℕ :=
  [7, 6, 5, 4, 3, 2, 1, 0].map fun i => (ip.extractLsb' (16 * i) 16).toNat

/-- `str(address)` of an IPv4 address. -/
def ipv4Text (ip : BitVec 32) : PyStr :=
  [0x2E].intercalate ([3, 2, 1, 0].map fun i => decimal (ip.extractLsb' (8 * i) 8).toNat)

/-- `str(address)` of an IPv6 address. -/
def ipv6Text (ip : BitVec 128) (scopeId : Option PyStr) : PyStr :=
  [0x3A].intercalate (compressHextets (groups ip)) ++
    match scopeId with
    | some zone => 0x25 :: zone
    | none => []

/-- `str(address)`. -/
def IpAddress.str : IpAddress → PyStr
  | .v4 ip => ipv4Text ip
  | .v6 ip scopeId => ipv6Text ip scopeId

/-- `str(network)`. -/
def IpNetwork.str : IpNetwork → PyStr
  | .v4 ip prefixlen => ipv4Text ip ++ 0x2F :: decimal prefixlen
  | .v6 ip scopeId prefixlen => ipv6Text ip scopeId ++ 0x2F :: decimal prefixlen

end TaintForge
