/-
# A candidate of the ICE agent, and the line it is read from

`unmarshal_candidate` cuts a line at its white space and reads the words by their places: eight
fixed ones, of which the seventh is not looked at, and behind them ONE extension, which is either
`raddr a rport p` or `tcptype t`, whichever comes first.  Then it builds a candidate of the type
that the eighth word names.

What the four constructors do with it differs:

* a host candidate keeps the TCP type and has no related address.  It may have a name under
  `.local` for an address, and then it counts as UDP over IPv4 whatever the line says;
* the three others need an IP address, keep the related address and drop the TCP type.

Section 3 is what a candidate says of itself: a foundation and a priority of 0 in the line count
as absent and are computed.  `computedPriority_ne_zero` is what matters of that here: a priority
of 0 never comes back.

The line the agent itself writes, `marshal`, has the related address in it, and
`unmarshal_marshal_related` says that it is read back.
-/
import WebrtcBridge.Lib.IpAddr
import WebrtcBridge.Lib.Words
import WebrtcBridge.Stats.Numbers

namespace WebrtcBridge.Ice

open Lib Lib.IpAddr
open Stats (digits isDigit_of_mem_digits digits_head digits_ok ofDigitChars_digits)

/-! ## 1. Candidates -/

inductive CandidateType where
  | unspecified
  | host
  | serverReflexive
  | peerReflexive
  | relay
  deriving DecidableEq, Repr

/-- `Display` of a `CandidateType`. -/
def CandidateType.text : CandidateType → Text
  | .host => "host".toList
  | .serverReflexive => "srflx".toList
  | .peerReflexive => "prflx".toList
  | .relay => "relay".toList
  | .unspecified => "Unknown candidate type".toList

def CandidateType.preference : CandidateType → UInt16
  | .host => 126
  | .peerReflexive => 110
  | .serverReflexive => 100
  | .relay => 0
  | .unspecified => 0

inductive TcpType where
  | unspecified
  | active
  | passive
  | simultaneousOpen
  deriving DecidableEq, Repr

/-- `TcpType::from`. -/
def TcpType.ofText (raw : Text) : TcpType :=
  if raw = "active".toList then .active
  else if raw = "passive".toList then .passive
  else if raw = "so".toList then .simultaneousOpen
  else .unspecified

/-- `Display` of a `TcpType`. -/
def TcpType.text : TcpType → Text
  | .active => "active".toList
  | .passive => "passive".toList
  | .simultaneousOpen => "so".toList
  | .unspecified => "unspecified".toList

inductive NetworkType where
  | unspecified
  | udp4
  | udp6
  | tcp4
  | tcp6
  deriving DecidableEq, Repr

/-- `Display` of a `NetworkType`. -/
def NetworkType.text : NetworkType → Text
  | .udp4 => "udp4".toList
  | .udp6 => "udp6".toList
  | .tcp4 => "tcp4".toList
  | .tcp6 => "tcp6".toList
  | .unspecified => "unspecified".toList

def NetworkType.networkShort : NetworkType → Text
  | .udp4 => "udp".toList
  | .udp6 => "udp".toList
  | .tcp4 => "tcp".toList
  | .tcp6 => "tcp".toList
  | .unspecified => "Unspecified".toList

def NetworkType.isTcp (n : NetworkType) : Bool := n = .tcp4 || n = .tcp6

/-- What can go wrong; the messages are those of `Error::Other`. -/
inductive Error where
  | other (message : Text)
  | parseInt
  | addressParseFailed
  | determineNetworkType
  deriving DecidableEq, Repr

/-- `determine_network_type`.  No letter outside ASCII has one of `u`, `d`, `p`, `t`, `c` for its
lower case, so lowering the ASCII letters is enough. -/
def determineNetworkType (network : Text) (ip : IpAddr) : Except Error NetworkType :=
  let net := network.map Char.toLower
  if "udp".toList.isPrefixOf net then .ok (if ip.isIpv4 then .udp4 else .udp6)
  else if "tcp".toList.isPrefixOf net then .ok (if ip.isIpv4 then .tcp4 else .tcp6)
  else .error .determineNetworkType

structure CandidateRelatedAddress where
  address : Text
  port : UInt16
  deriving DecidableEq, Repr

structure Candidate where
  networkType : NetworkType
  candidateType : CandidateType
  component : UInt16
  address : Text
  port : UInt16
  relatedAddress : Option CandidateRelatedAddress
  tcpType : TcpType
  resolvedAddr : IpAddr × UInt16
  foundationOverride : Text
  priorityOverride : UInt32
  network : Text
  deriving DecidableEq, Repr

structure CandidateConfig where
  network : Text
  address : Text
  port : UInt16
  component : UInt16
  priority : UInt32
  foundation : Text

/-- A name for mDNS. -/
def isLocalName (address : Text) : Bool := ".local".toList.isSuffixOf address

/-- `new_candidate_host`. -/
def newCandidateHost (base : CandidateConfig) (tcpType : TcpType) : Except Error Candidate := do
  let (resolvedAddr, networkType) ←
    if isLocalName base.address = false then
      match parseIp base.address with
      | some ip => do
        let networkType ← determineNetworkType base.network ip
        pure ((ip, base.port), networkType)
      | none => .error .addressParseFailed
    else pure ((IpAddr.v4 0 0 0 0, 0), NetworkType.udp4)
  return {
    networkType := networkType
    candidateType := .host
    address := base.address
    port := base.port
    resolvedAddr := resolvedAddr
    component := base.component
    foundationOverride := base.foundation
    priorityOverride := base.priority
    network := base.network
    tcpType := tcpType
    relatedAddress := none }

/-- What the three other constructors do: they differ in the type only. -/
def newCandidateRelated (candidateType : CandidateType) (base : CandidateConfig) (relAddr : Text)
    (relPort : UInt16) : Except Error Candidate :=
  match parseIp base.address with
  | none => .error .addressParseFailed
  | some ip => do
    let networkType ← determineNetworkType base.network ip
    return {
      networkType := networkType
      candidateType := candidateType
      address := base.address
      port := base.port
      resolvedAddr := (ip, base.port)
      component := base.component
      foundationOverride := base.foundation
      priorityOverride := base.priority
      relatedAddress := some ⟨relAddr, relPort⟩
      network := []
      tcpType := .unspecified }

def newCandidateServerReflexive := newCandidateRelated .serverReflexive

def newCandidatePeerReflexive := newCandidateRelated .peerReflexive

def newCandidateRelay := newCandidateRelated .relay

/-! ## 2. Reading a line -/

/-- `char::is_whitespace`. -/
def isWhitespace (c : Char) : Bool :=
  (0x09 ≤ c.toNat && c.toNat ≤ 0x0d) || c.toNat = 0x20 || c.toNat = 0x85 || c.toNat = 0xa0
    || c.toNat = 0x1680 || (0x2000 ≤ c.toNat && c.toNat ≤ 0x200a) || c.toNat = 0x2028
    || c.toNat = 0x2029 || c.toNat = 0x202f || c.toNat = 0x205f || c.toNat = 0x3000

/-- `str::parse` at an unsigned type with the values below `bound`: one `+` may stand in front. -/
def parseUnsigned (bound : Nat) (t : Text) : Except Error Nat :=
  let ds := if t.head? = some '+' then t.tail else t
  if ds.isEmpty || !ds.all Char.isDigit then .error .parseInt
  else if Nat.ofDigitChars 10 ds 0 < bound then .ok (Nat.ofDigitChars 10 ds 0)
  else .error .parseInt

def parseU16 (t : Text) : Except Error UInt16 := (parseUnsigned (2 ^ 16) t).map UInt16.ofNat

def parseU32 (t : Text) : Except Error UInt32 := (parseUnsigned (2 ^ 32) t).map UInt32.ofNat

/-- The words behind the eighth: the related address and port, and the TCP type. -/
def readExtension : List Text → Except Error (Text × UInt16 × TcpType)
  | [] => .ok ([], 0, .unspecified)
  | key :: rest =>
    if key = "raddr".toList then
      match rest with
      | relAddr :: _ :: relPort :: _ => do
        let relPort ← parseU16 relPort
        return (relAddr, relPort, .unspecified)
      | _ => .error (.other "ErrParseRelatedAddr: incorrect length".toList)
    else if key = "tcptype".toList then
      match rest with
      | t :: _ => .ok ([], 0, .ofText t)
      | [] => .error (.other "ErrParseType: incorrect length".toList)
    else .ok ([], 0, .unspecified)

/-- The last `match` of `unmarshal_candidate`. -/
def newCandidate (typ : Text) (base : CandidateConfig) (relAddr : Text) (relPort : UInt16)
    (tcpType : TcpType) : Except Error Candidate :=
  if typ = "host".toList then newCandidateHost base tcpType
  else if typ = "srflx".toList then newCandidateServerReflexive base relAddr relPort
  else if typ = "prflx".toList then newCandidatePeerReflexive base relAddr relPort
  else if typ = "relay".toList then newCandidateRelay base relAddr relPort
  else .error (.other ("ErrUnknownCandidateType (".toList ++ typ ++ ")".toList))

/-- `unmarshal_candidate`, from the words of the line on. -/
def unmarshalWords : List Text → Except Error Candidate
  | foundation :: component :: network :: priority :: address :: port :: _ :: typ :: rest => do
    let component ← parseU16 component
    let priority ← parseU32 priority
    let port ← parseU16 port
    let (relAddr, relPort, tcpType) ← readExtension rest
    newCandidate typ ⟨network, address, port, component, priority, foundation⟩ relAddr relPort
      tcpType
  | split =>
    .error (.other ("ErrAttributeTooShortIceCandidate (".toList ++ digits split.length
      ++ ")".toList))

/-- `unmarshal_candidate`. -/
def unmarshalCandidate (raw : Text) : Except Error Candidate :=
  unmarshalWords (words isWhitespace raw)

/-! ## 3. What a candidate says of itself

The foundation that is computed is a CRC-32C of the type, the address and the network type; the
checksum is that of another crate and a parameter here. -/

section Getters

variable (checksum : Text → UInt32)

def Candidate.foundation (k : Candidate) : Text :=
  if k.foundationOverride ≠ [] then k.foundationOverride
  else digits (checksum (k.candidateType.text ++ k.address ++ k.networkType.text)).toNat

/-- The direction part of a TCP candidate's local preference. -/
def Candidate.directionPref (k : Candidate) : UInt16 :=
  match k.candidateType with
  | .host | .relay =>
    match k.tcpType with
    | .active => 6
    | .passive => 4
    | .simultaneousOpen => 2
    | .unspecified => 0
  | .peerReflexive | .serverReflexive =>
    match k.tcpType with
    | .simultaneousOpen => 6
    | .active => 4
    | .passive => 2
    | .unspecified => 0
  | .unspecified => 0

def Candidate.localPreference (k : Candidate) : UInt16 :=
  if k.networkType.isTcp then 8192 * k.directionPref + 8191 else 65535

/-- The formula of RFC 8445; the subtraction wraps, as it does in a release build. -/
def Candidate.computedPriority (k : Candidate) : UInt32 :=
  16777216 * k.candidateType.preference.toUInt32 + 256 * k.localPreference.toUInt32
    + (256 - k.component.toUInt32)

def Candidate.priority (k : Candidate) : UInt32 :=
  if k.priorityOverride ≠ 0 then k.priorityOverride else k.computedPriority

/-- What both printers begin with. -/
def line (foundation : Text) (component : UInt16) (protocol : Text) (priority : UInt32)
    (address : Text) (port : UInt16) (typ rest : Text) : Text :=
  foundation ++ ' ' :: (digits component.toNat ++ ' ' :: (protocol ++ ' ' ::
    (digits priority.toNat ++ ' ' :: (address ++ ' ' :: (digits port.toNat ++ ' ' ::
      ("typ".toList ++ ' ' :: (typ ++ rest)))))))

/-- `Candidate::marshal`. -/
def Candidate.marshal (k : Candidate) : Text :=
  line (k.foundation checksum) k.component k.networkType.networkShort k.priority k.address k.port
    k.candidateType.text
    ((if k.tcpType ≠ .unspecified then " tcptype ".toList ++ k.tcpType.text else [])
      ++ match k.relatedAddress with
        | some r => " raddr ".toList ++ r.address ++ " rport ".toList ++ digits r.port.toNat
        | none => [])

theorem localPreference_ge (k : Candidate) : 8191 ≤ k.localPreference.toNat := by
  unfold Candidate.localPreference Candidate.directionPref
  split
  · cases k.candidateType <;> cases k.tcpType <;> decide
  · decide

theorem preference_le (t : CandidateType) : t.preference.toNat ≤ 126 := by
  cases t <;> decide

/-- **No candidate computes a priority of 0**: even the lowest local preference outweighs what the
component can take away, and the sum stays below 2^32. -/
theorem computedPriority_ne_zero (k : Candidate) : k.computedPriority ≠ 0 := by
  have hlocal := localPreference_ge k
  have hlocal' : k.localPreference.toNat < 65536 := k.localPreference.toNat_lt
  have htype := preference_le k.candidateType
  have hcomponent : k.component.toNat < 65536 := k.component.toNat_lt
  intro h
  have hzero := congrArg UInt32.toNat h
  simp only [Candidate.computedPriority, UInt32.toNat_add, UInt32.toNat_mul, UInt32.toNat_sub,
    UInt16.toNat_toUInt32, UInt32.toNat_ofNat] at hzero
  omega

theorem priority_eq_override_iff (k : Candidate) :
    k.priority = k.priorityOverride ↔ k.priorityOverride ≠ 0 := by
  unfold Candidate.priority
  split
  · next h => simp [h]
  · next h =>
    rw [not_not] at h
    simp [h, computedPriority_ne_zero]

end Getters

/-! ## 4. Reading a printed line back -/

theorem isWhitespace_space : isWhitespace ' ' = true := by decide

theorem isWhitespace_of_isDigit {c : Char} (h : c.isDigit = true) : isWhitespace c = false := by
  have hrange : 48 ≤ c.toNat ∧ c.toNat ≤ 57 := by
    simpa [Char.isDigit, UInt32.le_iff_toNat_le] using h
  simp only [isWhitespace, Bool.or_eq_false_iff, Bool.and_eq_false_iff, decide_eq_false_iff_not]
  omega

theorem isWord_digits (n : Nat) : IsWord isWhitespace (digits n) :=
  ⟨Nat.toDigits_ne_nil, fun _ hc => isWhitespace_of_isDigit (isDigit_of_mem_digits hc)⟩

theorem parseUnsigned_digits {bound n : Nat} (h : n < bound) :
    parseUnsigned bound (digits n) = .ok n := by
  have hplus : (digits n).head? ≠ some '+' := digits_head (by decide)
  simp only [parseUnsigned, hplus, if_false, digits_ok, Bool.false_eq_true, ofDigitChars_digits,
    if_pos h]

@[simp] theorem parseU16_digits (n : UInt16) : parseU16 (digits n.toNat) = .ok n := by
  simp [parseU16, parseUnsigned_digits n.toNat_lt, Except.map]

@[simp] theorem parseU32_digits (n : UInt32) : parseU32 (digits n.toNat) = .ok n := by
  simp [parseU32, parseUnsigned_digits n.toNat_lt, Except.map]

section Line

variable {foundation address protocol typ rest : Text} {component port : UInt16}
  {priority : UInt32} {extension : List Text}

/-- **The words of a printed line**, up to the address. -/
theorem words_line_front (hfoundation : IsWord isWhitespace foundation)
    (hprotocol : IsWord isWhitespace protocol) :
    words isWhitespace (line foundation component protocol priority address port typ rest)
      = foundation :: digits component.toNat :: protocol :: digits priority.toNat
        :: words isWhitespace (address ++ ' ' :: (digits port.toNat ++ ' ' ::
          ("typ".toList ++ ' ' :: (typ ++ rest)))) := by
  unfold line
  rw [words_cons hfoundation isWhitespace_space, words_cons (isWord_digits _) isWhitespace_space,
    words_cons hprotocol isWhitespace_space, words_cons (isWord_digits _) isWhitespace_space]

/-- **The words of a printed line.** -/
theorem words_line (hfoundation : IsWord isWhitespace foundation)
    (hprotocol : IsWord isWhitespace protocol) (haddress : IsWord isWhitespace address)
    (htyp : words isWhitespace (typ ++ rest) = typ :: extension) :
    words isWhitespace (line foundation component protocol priority address port typ rest)
      = foundation :: digits component.toNat :: protocol :: digits priority.toNat :: address
        :: digits port.toNat :: "typ".toList :: typ :: extension := by
  rw [words_line_front hfoundation hprotocol, words_cons haddress isWhitespace_space,
    words_cons (isWord_digits _) isWhitespace_space,
    words_cons (w := "typ".toList) (by decide) isWhitespace_space, htyp]

/-- **A printed line is read as the candidate its words describe.** -/
theorem unmarshal_line (hfoundation : IsWord isWhitespace foundation)
    (hprotocol : IsWord isWhitespace protocol) (haddress : IsWord isWhitespace address)
    (htyp : words isWhitespace (typ ++ rest) = typ :: extension) {relAddr : Text}
    {relPort : UInt16} {tcpType : TcpType}
    (hextension : readExtension extension = .ok (relAddr, relPort, tcpType)) :
    unmarshalCandidate (line foundation component protocol priority address port typ rest)
      = newCandidate typ ⟨protocol, address, port, component, priority, foundation⟩ relAddr relPort
        tcpType := by
  rw [unmarshalCandidate, words_line hfoundation hprotocol haddress htyp, unmarshalWords]
  simp [hextension, bind, Except.bind]

end Line

/-! ## 5. The agent's own line -/

theorem isWord_networkShort (n : NetworkType) : IsWord isWhitespace n.networkShort := by
  cases n <;> decide

/-- The network a candidate prints is found again, whichever family the address is of. -/
theorem determineNetworkType_short {n : NetworkType} (hn : n ≠ .unspecified) (ip : IpAddr) :
    ∃ n', determineNetworkType n.networkShort ip = .ok n' ∧ n'.networkShort = n.networkShort := by
  cases n with
  | unspecified => exact absurd rfl hn
  | udp4 | udp6 | tcp4 | tcp6 => cases ip <;> exact ⟨_, rfl, rfl⟩

theorem newCandidateRelated_ok (t : CandidateType) {base : CandidateConfig} (relAddr : Text)
    (relPort : UInt16) {ip : IpAddr} (hip : parseIp base.address = some ip) {n : NetworkType}
    (hn : determineNetworkType base.network ip = .ok n) :
    newCandidateRelated t base relAddr relPort = .ok
      { networkType := n, candidateType := t, address := base.address, port := base.port,
        resolvedAddr := (ip, base.port), component := base.component,
        foundationOverride := base.foundation, priorityOverride := base.priority,
        relatedAddress := some ⟨relAddr, relPort⟩, network := [], tcpType := .unspecified } := by
  unfold newCandidateRelated
  rw [hip]
  simp [hn, bind, Except.bind, pure, Except.pure]

/-- The types whose candidates have a related address. -/
def CandidateType.IsRelated (t : CandidateType) : Prop :=
  t = .serverReflexive ∨ t = .peerReflexive ∨ t = .relay

theorem newCandidate_related {t : CandidateType} (ht : t.IsRelated) (base : CandidateConfig)
    (relAddr : Text) (relPort : UInt16) (tcpType : TcpType) :
    newCandidate t.text base relAddr relPort tcpType
      = newCandidateRelated t base relAddr relPort := by
  rcases ht with rfl | rfl | rfl <;> rfl

/-- **The agent reads the related address in its own line back**, for a candidate without a TCP
type. -/
theorem unmarshal_marshal_related (checksum : Text → UInt32) {k : Candidate}
    (htype : k.candidateType.IsRelated) (hnetwork : k.networkType ≠ .unspecified)
    (htcp : k.tcpType = .unspecified) (hfoundation : IsWord isWhitespace (k.foundation checksum))
    (haddress : IsWord isWhitespace k.address) {ip : IpAddr} (hip : parseIp k.address = some ip)
    {r : CandidateRelatedAddress} (hr : k.relatedAddress = some r)
    (hword : IsWord isWhitespace r.address) :
    ∃ k', unmarshalCandidate (k.marshal checksum) = .ok k' ∧ k'.relatedAddress = some r := by
  have htyp : IsWord isWhitespace k.candidateType.text := by
    rcases htype with h | h | h <;> rw [h] <;> decide
  have hwords : words isWhitespace (k.candidateType.text
      ++ (" raddr ".toList ++ r.address ++ " rport ".toList ++ digits r.port.toNat))
      = k.candidateType.text
        :: ["raddr".toList, r.address, "rport".toList, digits r.port.toNat] := by
    have hraddr : IsWord isWhitespace "raddr".toList := by decide
    have hrport : IsWord isWhitespace "rport".toList := by decide
    have hassoc : k.candidateType.text
        ++ (" raddr ".toList ++ r.address ++ " rport ".toList ++ digits r.port.toNat)
        = k.candidateType.text ++ ' ' :: ("raddr".toList ++ ' ' :: (r.address ++ ' ' ::
          ("rport".toList ++ ' ' :: digits r.port.toNat))) := by
      simp
    rw [hassoc, words_cons htyp isWhitespace_space, words_cons hraddr isWhitespace_space,
      words_cons hword isWhitespace_space, words_cons hrport isWhitespace_space,
      words_word (isWord_digits _)]
  have hextension : readExtension ["raddr".toList, r.address, "rport".toList, digits r.port.toNat]
      = .ok (r.address, r.port, .unspecified) := by
    simp [readExtension, bind, Except.bind, pure, Except.pure]
  obtain ⟨n, hn, -⟩ := determineNetworkType_short hnetwork ip
  have hline : unmarshalCandidate (k.marshal checksum)
      = newCandidateRelated k.candidateType ⟨k.networkType.networkShort, k.address, k.port,
        k.component, k.priority, k.foundation checksum⟩ r.address r.port := by
    rw [Candidate.marshal, htcp, hr]
    simp only [ne_eq, not_true_eq_false, if_false, List.nil_append]
    rw [unmarshal_line hfoundation (isWord_networkShort k.networkType) haddress hwords hextension,
      newCandidate_related htype]
  rw [hline]
  exact ⟨_, newCandidateRelated_ok _ _ _ hip hn, rfl⟩

end WebrtcBridge.Ice
