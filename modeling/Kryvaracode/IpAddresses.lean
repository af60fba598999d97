import Kryvaracode.UnicodeText

-- Addresses and networks as `ipaddress` reads them.
namespace IpAddresses

inductive Address where
  | v4 (ip : BitVec 32)
  | v6 (ip : BitVec 128)
  deriving DecidableEq, Repr

def netmask (width length : Nat) : BitVec width := BitVec.allOnes width ^^^ (BitVec.allOnes width >>> length)

-- A block of addresses: its first one has no bit behind the mask.
structure Block (width : Nat) where
  address : BitVec width
  length : Nat
  short : length ≤ width
  aligned : address &&& netmask width length = address

-- `strict=False`: the bits behind the mask are dropped.
def Block.of (ip : BitVec width) (length : Nat) (short : length ≤ width) : Block width where
  address := ip &&& netmask width length
  length
  short
  aligned := by rw [BitVec.and_assoc,BitVec.and_self]

def Block.contains (block : Block width) (ip : BitVec width) : Bool := ip &&& netmask width block.length == block.address

theorem masked_toNat (ip : BitVec width) (short : length ≤ width) :
    (ip &&& netmask width length).toNat = ip.toNat / 2 ^ (width - length) * 2 ^ (width - length) := by
  have shifted : ip &&& netmask width length = (ip >>> (width - length)) <<< (width - length) := by
    refine BitVec.eq_of_getLsbD_eq fun i small => ?_
    simp only [netmask,BitVec.getLsbD_and,BitVec.getLsbD_xor,BitVec.getLsbD_allOnes,BitVec.getLsbD_ushiftRight,
      BitVec.getLsbD_shiftLeft,small,decide_true,Bool.true_xor,Bool.true_and]
    by_cases high : i < width - length
    · have behind : length + i < width := by omega
      simp [high,behind]
    · have ahead : ¬length + i < width := by omega
      have back : width - length + (i - (width - length)) = i := by omega
      simp [high,ahead,back]
  have fits : ip.toNat / 2 ^ (width - length) * 2 ^ (width - length) < 2 ^ width :=
    Nat.lt_of_le_of_lt (Nat.div_mul_le_self _ _) ip.isLt
  rw [shifted,BitVec.toNat_shiftLeft,BitVec.toNat_ushiftRight,Nat.shiftRight_eq_div_pow,Nat.shiftLeft_eq,Nat.mod_eq_of_lt fits]

def Block.Covers (block : Block width) (ip : BitVec width) : Prop :=
  block.address.toNat ≤ ip.toNat ∧ ip.toNat < block.address.toNat + 2 ^ (width - block.length)

-- The mask tells whether the address lies in the block's stretch of addresses.
theorem Block.contains_covers (block : Block width) (ip : BitVec width) : block.contains ip = true ↔ block.Covers ip := by
  have positive : 0 < 2 ^ (width - block.length) := Nat.two_pow_pos _
  have start := masked_toNat block.address block.short
  rw [block.aligned] at start
  rw [Block.contains,beq_iff_eq,← BitVec.toNat_inj,masked_toNat ip block.short,Block.Covers]
  generalize 2 ^ (width - block.length) = size at positive start ⊢
  have parts := Nat.div_add_mod' ip.toNat size
  have rest := Nat.mod_lt ip.toNat positive
  constructor
  · intro same
    omega
  · rintro ⟨low,high⟩
    have quotient : ip.toNat / size = block.address.toNat / size := by
      refine Nat.div_eq_of_lt_le (by omega) ?_
      rw [Nat.succ_mul]
      omega
    rw [quotient,← start]

inductive Network where
  | v4 (block : Block 32)
  | v6 (block : Block 128)

-- No address of one version is in a network of the other.
def Network.contains : Network → Address → Bool
  | .v4 block,.v4 ip => block.contains ip
  | .v6 block,.v6 ip => block.contains ip
  | _,_ => false

def Network.Covers : Network → Address → Prop
  | .v4 block,.v4 ip => block.Covers ip
  | .v6 block,.v6 ip => block.Covers ip
  | _,_ => False

theorem Network.contains_covers (network : Network) (address : Address) :
    network.contains address = true ↔ network.Covers address := by
  cases network <;> cases address <;> simp [Network.contains,Network.Covers,Block.contains_covers]

-- `ipv4_mapped`
def mapped (ip : BitVec 128) : Option (BitVec 32) := if ip >>> 32 = 0xFFFF then some (ip.truncate 32) else none

-- What a socket reaches: an IPv4-mapped address stands for the one it embeds.
def Address.denoted : Address → Address
  | .v4 ip => .v4 ip
  | .v6 ip => match mapped ip with
    | some embedded => .v4 embedded
    | none => .v6 ip

theorem mapped_range (found : mapped ip = some embedded) : 0xFFFF00000000 ≤ ip.toNat ∧ ip.toNat < 0x1000000000000 := by
  unfold mapped at found
  split at found
  · rename_i high
    have quotient : ip.toNat / 2 ^ 32 = 0xFFFF := by
      have read := congrArg BitVec.toNat high
      rwa [BitVec.toNat_ushiftRight,Nat.shiftRight_eq_div_pow] at read
    omega
  · cases found

def digit (c : Char) : Bool := c.isDigit
def decimal (text : Text) : Nat := text.foldl (fun value c => value * 10 + (c.toNat - '0'.toNat)) 0

def parseOctet (octet : Text) : Option Nat :=
  if octet.isEmpty then none
  else if !octet.all digit then none
  else if 3 < octet.length then none
  else if octet ≠ ['0'] ∧ octet.head? = some '0' then none
  else if 255 < decimal octet then none else some (decimal octet)

-- The integer of `IPv4Address`, or None for its AddressValueError.
def ipv4 (text : Text) : Option (BitVec 32) :=
  if text.contains '/' then none else
  match text.splitOn '.' with
  | [a,b,c,d] => do
      let a ← parseOctet a
      let b ← parseOctet b
      let c ← parseOctet c
      let d ← parseOctet d
      some (BitVec.ofNat 32 (((a * 256 + b) * 256 + c) * 256 + d))
  | _ => none

def hexDigit (c : Char) : Option Nat :=
  if c.isDigit then some (c.toNat - '0'.toNat)
  else if 'a' ≤ c ∧ c ≤ 'f' then some (c.toNat - 'a'.toNat + 10)
  else if 'A' ≤ c ∧ c ≤ 'F' then some (c.toNat - 'A'.toNat + 10) else none

-- A part between colons. What `'%x'` writes is read back as the same number.
inductive Part where
  | text (text : Text)
  | hex (value : Nat)
  deriving DecidableEq, Repr

def Part.missing (part : Part) : Bool := decide (part = .text [])

def parseHextet : Part → Option Nat
  | .hex value => some value
  | .text hextet => do
      let digits ← hextet.mapM hexDigit
      if 4 < hextet.length then none else if hextet.isEmpty then none
      else some (digits.foldl (fun value digit => value * 16 + digit) 0)

-- A dotted suffix counts for two parts.
def withSuffix (parts : List Text) : Option (List Part) :=
  match parts.getLast? with
  | none => some []
  | some last =>
      if last.contains '.' then
        (ipv4 last).map fun ip => parts.dropLast.map .text ++ [.hex (ip >>> 16).toNat,.hex (ip &&& 0xFFFF).toNat]
      else some (parts.map .text)

-- The parts before and after the `::`, and the number of zero parts it stands for.
def skip (parts : List Part) (index : Nat) : Option (List Part × Nat × List Part) := do
  let leading := parts.head?.any Part.missing
  let trailing := parts.getLast?.any Part.missing
  let high := if leading then index - 1 else index
  let low := if trailing then parts.length - index - 2 else parts.length - index - 1
  if leading ∧ high ≠ 0 then none
  else if trailing ∧ low ≠ 0 then none
  else if 8 < high + low + 1 then none
  else some (parts.take high,8 - (high + low),parts.drop (parts.length - low))

def layout (parts : List Part) : Option (List Part × Nat × List Part) :=
  match ((parts.zipIdx.drop 1).dropLast.filter fun place => place.1.missing).map Prod.snd with
  | [] =>
      if parts.length ≠ 8 then none
      else if parts.head?.any Part.missing then none
      else if parts.getLast?.any Part.missing then none
      else some (parts,0,[])
  | [index] => skip parts index
  | _ => none

def ipv6Value (text : Text) : Option (BitVec 128) := do
  let parts := text.splitOn ':'
  if text.isEmpty ∨ parts.length < 3 then none else
  let parts ← withSuffix parts
  if 9 < parts.length then none else
  let (high,skipped,low) ← layout parts
  let high ← high.mapM parseHextet
  let low ← low.mapM parseHextet
  let append := fun (ip : BitVec 128) (hextet : Nat) => ip <<< 16 ||| BitVec.ofNat 128 hextet
  some (low.foldl append (high.foldl append 0 <<< (16 * skipped)))

-- The address before `%` and a scope, if one is named.
def splitScopeId (text : Text) : Option Text :=
  match text.dropWhile (· != '%') with
  | [] => some text
  | _ :: scope => if scope.isEmpty ∨ scope.contains '%' then none else some (text.takeWhile (· != '%'))

def ipv6 (text : Text) : Option (BitVec 128) :=
  if text.contains '/' then none else (splitScopeId text).bind ipv6Value

def ipAddress (text : Text) : Option Address := ((ipv4 text).map Address.v4).or ((ipv6 text).map Address.v6)

-- A prefix is given by its length; a mask written as an address is left out.
def prefixLength (text : Text) (width : Nat) : Option ({length : Nat // length ≤ width}) :=
  if text.isEmpty ∨ !text.all digit then none
  else if short : decimal text ≤ width then some ⟨decimal text,short⟩ else none

def ipNetwork (cidr : Text) : Option Network :=
  match cidr.splitOn '/' with
  | [address] =>
      ((ipv4 address).map fun ip => Network.v4 (.of ip 32 le_rfl)).or ((ipv6 address).map fun ip => .v6 (.of ip 128 le_rfl))
  | [address,length] =>
      let four : Option Network := do
        let ip ← ipv4 address
        let length ← prefixLength length 32
        some (.v4 (.of ip length.1 length.2))
      let six : Option Network := do
        let ip ← ipv6 address
        let length ← prefixLength length 128
        some (.v6 (.of ip length.1 length.2))
      four.or six
  | _ => none

end IpAddresses
