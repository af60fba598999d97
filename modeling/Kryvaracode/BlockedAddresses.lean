import Kryvaracode.Exceptions
import Kryvaracode.IpAddresses

namespace Kryvaracode.Aegis
open IpAddresses

-- `BLOCKED_IP_RANGES`
def blockedIpRanges : List Text :=
  ["127.0.0.0/8".toList,"10.0.0.0/8".toList,"172.16.0.0/12".toList,"192.168.0.0/16".toList,"169.254.0.0/16".toList,
   "::1/128".toList,"fc00::/7".toList,"fe80::/10".toList]

def blockedNetworks : List Network := blockedIpRanges.filterMap ipNetwork

-- No range is lost on the way: `ip_network` raises for none of them.
theorem ranges_read : blockedIpRanges.all (fun cidr => (ipNetwork cidr).isSome) = true := by
  delta blockedIpRanges
  repeat rewrite [String.toList_ofList]
  decide +kernel

def inBlockedNetwork (address : Address) : Bool := blockedNetworks.any fun network => network.contains address

-- An answer of the resolver is its `sockaddr`: None when empty, else its first field.
abbrev Info := Option Text

def scan : List Info → Bool
  | [] => false
  | none :: infos => scan infos
  | some ip :: infos =>
      match ipAddress ip with
      | none => scan infos
      | some address => if inBlockedNetwork address then true else scan infos

-- `socket.getaddrinfo`, which may fail.
variable (getaddrinfo : Text → Result (List Info))

def hostnameIsBlocked (hostname : Text) : Result Bool := do
  let infos ← getaddrinfo hostname
  .ok (scan infos)

def isBlockedIp (ipStr : Text) : Result Bool :=
  match ipAddress ipStr with
  | none => hostnameIsBlocked getaddrinfo ipStr
  | some address => .ok (inBlockedNetwork address)

-- The address lies in one of the ranges.
def Listed (address : Address) : Prop := ∃ network ∈ blockedNetworks, network.Covers address

def resolved (infos : List Info) : List Address := infos.filterMap fun info => info.bind ipAddress

theorem inBlockedNetwork_iff (address : Address) : inBlockedNetwork address = true ↔ Listed address := by
  simp [inBlockedNetwork,Listed,Network.contains_covers]

theorem scan_iff (infos : List Info) : scan infos = true ↔ ∃ address ∈ resolved infos, Listed address := by
  induction infos with
  | nil => simp [scan,resolved]
  | cons info infos ih =>
      cases info with
      | none => simpa [scan,resolved] using ih
      | some ip =>
          cases read : ipAddress ip with
          | none => simpa [scan,resolved,read] using ih
          | some address =>
              have here := inBlockedNetwork_iff address
              cases hit : inBlockedNetwork address <;> simp_all [scan,resolved]

-- The range of the IPv4-mapped addresses meets no range of version 6.
def besideMapped : Network → Bool
  | .v4 _ => true
  | .v6 block => decide (block.address.toNat + 2 ^ (128 - block.length) ≤ 0xFFFF00000000 ∨ 0x1000000000000 ≤ block.address.toNat)

theorem networks_beside : blockedNetworks.all besideMapped = true := by
  delta blockedNetworks blockedIpRanges
  repeat rewrite [String.toList_ofList]
  decide +kernel

theorem mapped_unlisted (found : mapped ip = some embedded) : ¬Listed (.v6 ip) := by
  rintro ⟨network,member,covers⟩
  have beside := List.all_eq_true.mp networks_beside network member
  have range := mapped_range found
  cases network with
  | v4 block => exact covers
  | v6 block =>
      have bounds := of_decide_eq_true beside
      obtain ⟨low,high⟩ := covers
      omega

-- An IPv4-mapped address whose embedded address lies in one of the ranges.
def Masked (address : Address) : Prop :=
  ∃ ip embedded, address = .v6 ip ∧ mapped ip = some embedded ∧ Listed (.v4 embedded)

theorem masked_unlisted (masked : Masked address) : ¬Listed address := by
  obtain ⟨ip,embedded,rfl,found,_⟩ := masked
  exact mapped_unlisted found

theorem listed_denoted (address : Address) : Listed address.denoted ↔ Listed address ∨ Masked address := by
  cases address with
  | v4 ip => simp [Address.denoted,Masked]
  | v6 ip =>
      cases found : mapped ip with
      | none => simp [Address.denoted,Masked,found]
      | some embedded => simp [Address.denoted,Masked,found,mapped_unlisted found]

-- True exactly for a blocked destination, and never an exception.
def Complete (ipStr : Text) : Prop :=
  match ipAddress ipStr with
  | some address => ∃ verdict, isBlockedIp getaddrinfo ipStr = .ok verdict ∧ (verdict = true ↔ Listed address.denoted)
  | none => ∃ verdict, isBlockedIp getaddrinfo ipStr = .ok verdict ∧
      ∀ infos, getaddrinfo ipStr = .ok infos → (verdict = true ↔ ∃ address ∈ resolved infos, Listed address.denoted)

theorem literal_exact (address : Address) : (inBlockedNetwork address = true ↔ Listed address.denoted) ↔ ¬Masked address := by
  rw [inBlockedNetwork_iff,listed_denoted]
  constructor
  · intro exactly masked
    exact masked_unlisted masked (exactly.mpr (.inr masked))
  · intro plain
    rw [or_iff_left plain]

theorem scan_exact (infos : List Info) : (scan infos = true ↔ ∃ address ∈ resolved infos, Listed address.denoted) ↔
    (∃ address ∈ resolved infos, Listed address) ∨ ∀ address ∈ resolved infos, ¬Masked address := by
  rw [scan_iff]
  constructor
  · intro exactly
    by_cases listed : ∃ address ∈ resolved infos, Listed address
    · exact .inl listed
    · refine .inr fun address member masked => listed (exactly.mpr ⟨address,member,?_⟩)
      exact (listed_denoted address).mpr (.inr masked)
  · intro condition
    constructor
    · rintro ⟨address,member,listed⟩
      exact ⟨address,member,(listed_denoted address).mpr (.inl listed)⟩
    · rintro ⟨address,member,denoted⟩
      rcases condition with listed | plain
      · exact listed
      · exact ⟨address,member,((listed_denoted address).mp denoted).resolve_right (plain address member)⟩

theorem complete_exact (ipStr : Text) : Complete getaddrinfo ipStr ↔
    match ipAddress ipStr with
    | some address => ¬Masked address
    | none => ∃ infos, getaddrinfo ipStr = .ok infos ∧
        ((∃ address ∈ resolved infos, Listed address) ∨ ∀ address ∈ resolved infos, ¬Masked address) := by
  unfold Complete isBlockedIp
  cases ipAddress ipStr with
  | some address =>
      dsimp only
      rw [← literal_exact]
      constructor
      · rintro ⟨verdict,answer,exactly⟩
        cases answer
        exact exactly
      · exact fun exactly => ⟨_,rfl,exactly⟩
  | none =>
      dsimp only
      simp only [← scan_exact]
      unfold hostnameIsBlocked
      constructor
      · rintro ⟨verdict,answer,exactly⟩
        obtain ⟨infos,told,same⟩ := bind_ok.mp answer
        cases same
        exact ⟨infos,told,exactly infos told⟩
      · rintro ⟨infos,told,exactly⟩
        refine ⟨scan infos,by rw [told]; rfl,fun others again => ?_⟩
        rw [told] at again
        cases again
        exact exactly

def gaierror (detail : Text) : Failure := ⟨.other "gaierror".toList,detail⟩

-- The loopback address in its other notation, and a name that nobody knows.
theorem loopback_passes : isBlockedIp (fun _ => .ok []) "::ffff:127.0.0.1".toList = .ok false ∧
    (∃ address, ipAddress "::ffff:127.0.0.1".toList = some address ∧ Listed address.denoted) ∧
    isBlockedIp (fun _ => .error (gaierror "Name or service not known".toList)) "nowhere.invalid".toList =
      .error (gaierror "Name or service not known".toList) ∧
    ¬Complete (fun _ => .ok []) "::ffff:127.0.0.1".toList := by
  have read : ipAddress "::ffff:127.0.0.1".toList = some (.v6 0xFFFF7F000001) := by
    rewrite [String.toList_ofList]
    decide +kernel
  have unread : ipAddress "nowhere.invalid".toList = none := by
    rewrite [String.toList_ofList]
    decide +kernel
  have inside : inBlockedNetwork (.v4 0x7F000001) = true := by
    delta inBlockedNetwork blockedNetworks blockedIpRanges
    repeat rewrite [String.toList_ofList]
    decide +kernel
  have missed : inBlockedNetwork (.v6 0xFFFF7F000001) = false := by
    rw [Bool.eq_false_iff,ne_eq,inBlockedNetwork_iff]
    exact mapped_unlisted (show mapped 0xFFFF7F000001 = some 0x7F000001 by decide)
  have denoted : Listed (Address.v6 0xFFFF7F000001).denoted := (inBlockedNetwork_iff _).mp inside
  refine ⟨by rw [isBlockedIp,read]; simp only [missed],⟨_,read,denoted⟩,by rw [isBlockedIp,unread]; rfl,?_⟩
  unfold Complete isBlockedIp
  rw [read]
  rintro ⟨verdict,answer,exactly⟩
  simp only [missed,Except.ok.injEq] at answer
  rw [← answer] at exactly
  cases exactly.mpr denoted

end Kryvaracode.Aegis
