/-
# The candidate text that Java carries from one peer to the other

`Forwarder::on_ice_candidate` prints a gathered candidate for Java with a `format!` of its own,
beside the agent's `marshal`.  Java hands the text to the other side, where
`webrtc_ffi_add_ice_candidate` takes it, cuts `candidate:` off and calls `unmarshal_candidate`.

What is lost on the way:

* the related address and port, ALWAYS: the bridge does not print them;
* the TCP type of a candidate that is not a host candidate, because the agent drops it, and the TCP
  type of a candidate that is not TCP, because the bridge does not print it;
* TCP itself, for a host candidate with a `.local` name;
* a priority of 0, which counts as absent.

And some texts are not read at all: an address that is no IP address, a text with a NUL in it (Java
gets the empty string then), a foundation or an address that is not one word.

`candidate_text_iff` says that there is nothing else.
-/
import WebrtcBridge.Ffi.Boundary
import WebrtcBridge.Ice.Candidate

namespace WebrtcBridge.Ice

open Lib Lib.IpAddr
open Stats (RTCIceCandidateType digits intoCstring isDigit_of_mem_digits)

/-! ## 1. The candidate of the event -/

inductive RTCIceProtocol where
  | unspecified
  | udp
  | tcp
  deriving DecidableEq, Repr

/-- `RTCIceProtocol::from`.  No letter outside ASCII has one of these for its upper case. -/
def RTCIceProtocol.ofText (raw : Lib.Text) : RTCIceProtocol :=
  if raw.map Char.toUpper = "UDP".toList then .udp
  else if raw.map Char.toUpper = "TCP".toList then .tcp
  else .unspecified

/-- `Display` of an `RTCIceProtocol`. -/
def RTCIceProtocol.text : RTCIceProtocol → Lib.Text
  | .udp => "udp".toList
  | .tcp => "tcp".toList
  | .unspecified => "Unspecified".toList

/-- `Display` of an `RTCIceCandidateType`. -/
def typText : RTCIceCandidateType → Lib.Text
  | .host => "host".toList
  | .srflx => "srflx".toList
  | .prflx => "prflx".toList
  | .relay => "relay".toList
  | .unspecified => "Unspecified".toList

/-- `RTCIceCandidateType::from`. -/
def typOf : CandidateType → RTCIceCandidateType
  | .host => .host
  | .serverReflexive => .srflx
  | .peerReflexive => .prflx
  | .relay => .relay
  | .unspecified => .unspecified

/-- `RTCIceCandidate`.  `RTCIceTcpCandidateType` has the values of `TcpType`, one for one. -/
structure RTCIceCandidate where
  foundation : Lib.Text
  priority : UInt32
  address : Lib.Text
  protocol : RTCIceProtocol
  port : UInt16
  typ : RTCIceCandidateType
  component : UInt16
  relatedAddress : Lib.Text
  relatedPort : UInt16
  tcpType : TcpType
  deriving DecidableEq, Repr

/-- `RTCIceCandidate::from`: no related address is an empty one with port 0. -/
def RTCIceCandidate.ofCandidate (checksum : Lib.Text → UInt32) (k : Candidate) :
    RTCIceCandidate where
  foundation := k.foundation checksum
  priority := k.priority
  address := k.address
  protocol := .ofText k.networkType.networkShort
  port := k.port
  typ := typOf k.candidateType
  component := k.component
  relatedAddress := (k.relatedAddress.map (·.address)).getD []
  relatedPort := (k.relatedAddress.map (·.port)).getD 0
  tcpType := k.tcpType

/-! ## 2. There and back -/

/-- `tcp_suffix`. -/
def tcpSuffix (c : RTCIceCandidate) : Lib.Text :=
  if c.protocol = .tcp then
    match c.tcpType with
    | .active => " tcptype active".toList
    | .passive => " tcptype passive".toList
    | .simultaneousOpen => " tcptype so".toList
    | .unspecified => []
  else []

/-- `candidate_str`. -/
def candidateStr (c : RTCIceCandidate) : Lib.Text :=
  "candidate:".toList ++ line c.foundation c.component c.protocol.text c.priority c.address c.port
    (typText c.typ) (tcpSuffix c)

/-- `Forwarder::on_ice_candidate`: what Java is given. -/
def onIceCandidate (c : RTCIceCandidate) : Lib.Text := intoCstring (candidateStr c)

/-- What `webrtc_ffi_add_ice_candidate` makes of a text. -/
def readCandidate (text : Lib.Text) : Except Error Candidate :=
  unmarshalCandidate (Ffi.candidateValue (Ffi.readStr (some text)))

/-- **The text comes back as the candidate it was printed from.** -/
def RoundTrips (checksum : Lib.Text → UInt32) (c : RTCIceCandidate) : Prop :=
  ∃ k, readCandidate (onIceCandidate c) = .ok k ∧ RTCIceCandidate.ofCandidate checksum k = c

/-! ## 3. What is read -/

/-- The printed line after its prefix. -/
def printedLine (c : RTCIceCandidate) : Lib.Text :=
  line c.foundation c.component c.protocol.text c.priority c.address c.port (typText c.typ)
    (tcpSuffix c)

theorem nul_not_mem_digits (n : Nat) : '\x00' ∉ digits n := fun h =>
  absurd (isDigit_of_mem_digits h) (by decide)

theorem nul_mem_line {protocol typ rest : Lib.Text} (hprotocol : '\x00' ∉ protocol)
    (htyp : '\x00' ∉ typ) (hrest : '\x00' ∉ rest) (foundation address : Lib.Text)
    (component port : UInt16) (priority : UInt32) :
    '\x00' ∈ line foundation component protocol priority address port typ rest
      ↔ '\x00' ∈ foundation ∨ '\x00' ∈ address := by
  have htypWord : '\x00' ∉ "typ".toList := by decide
  have hspace : '\x00' ≠ ' ' := by decide
  simp only [line, List.mem_append, List.mem_cons, hprotocol, htyp, hrest, htypWord, hspace,
    nul_not_mem_digits, false_or, or_false]

theorem nul_not_mem_tcpSuffix (c : RTCIceCandidate) : '\x00' ∉ tcpSuffix c := by
  unfold tcpSuffix
  split
  · cases c.tcpType <;> decide
  · exact List.not_mem_nil

/-- Only the foundation and the address can bring a NUL into the text. -/
theorem nul_mem_candidateStr (c : RTCIceCandidate) :
    '\x00' ∈ candidateStr c ↔ '\x00' ∈ c.foundation ∨ '\x00' ∈ c.address := by
  have hprefix : '\x00' ∉ "candidate:".toList := by decide
  have hprotocol : '\x00' ∉ c.protocol.text := by cases c.protocol <;> decide
  have htyp : '\x00' ∉ typText c.typ := by cases c.typ <;> decide
  unfold candidateStr
  rw [List.mem_append, nul_mem_line hprotocol htyp (nul_not_mem_tcpSuffix c), or_iff_right hprefix]

/-- A text without NUL arrives, and the prefix is taken off again. -/
theorem readCandidate_of_noNul {c : RTCIceCandidate} (h : '\x00' ∉ candidateStr c) :
    readCandidate (onIceCandidate c) = unmarshalCandidate (printedLine c) := by
  have htext : onIceCandidate c = candidateStr c := by simp [onIceCandidate, intoCstring, h]
  have hread : Ffi.readStr (some (candidateStr c)) = candidateStr c := by
    simp only [Ffi.readStr, List.takeWhile_eq_self_iff, decide_eq_true_eq]
    rintro d hd rfl
    exact h hd
  have hvalue : Ffi.candidateValue (candidateStr c) = printedLine c := by
    unfold Ffi.candidateValue candidateStr
    rw [if_pos (List.isPrefixOf_iff_prefix.mpr (List.prefix_append _ _)),
      List.drop_left' (by decide)]
    rfl
  rw [readCandidate, htext, hread, hvalue]

/-- A text with a NUL arrives as nothing, and nothing is no candidate. -/
theorem readCandidate_of_nul {c : RTCIceCandidate} (h : '\x00' ∈ candidateStr c) :
    readCandidate (onIceCandidate c)
      = .error (.other "ErrAttributeTooShortIceCandidate (0)".toList) := by
  have htext : onIceCandidate c = [] := by simp [onIceCandidate, intoCstring, h]
  rw [htext]
  rfl

/-- The TCP type that is in the text. -/
def printedTcpType (c : RTCIceCandidate) : TcpType :=
  if c.protocol = .tcp then c.tcpType else .unspecified

theorem words_typ (c : RTCIceCandidate) :
    ∃ extension, words isWhitespace (typText c.typ ++ tcpSuffix c) = typText c.typ :: extension
      ∧ readExtension extension = .ok ([], 0, printedTcpType c) := by
  unfold tcpSuffix printedTcpType
  split
  · cases c.tcpType <;> cases c.typ <;> exact ⟨_, rfl, rfl⟩
  · cases c.typ <;> exact ⟨_, rfl, rfl⟩

theorem isWord_protocol (p : RTCIceProtocol) : IsWord isWhitespace p.text := by
  cases p <;> decide

/-- The fixed words, as the agent reads them. -/
def base (c : RTCIceCandidate) : CandidateConfig :=
  ⟨c.protocol.text, c.address, c.port, c.component, c.priority, c.foundation⟩

/-- **The printed line is read**: everything but the related address and port. -/
theorem unmarshal_printedLine {c : RTCIceCandidate} (hfoundation : IsWord isWhitespace c.foundation)
    (haddress : IsWord isWhitespace c.address) :
    unmarshalCandidate (printedLine c)
      = newCandidate (typText c.typ) (base c) [] 0 (printedTcpType c) := by
  obtain ⟨extension, hwords, hextension⟩ := words_typ c
  exact unmarshal_line hfoundation (isWord_protocol _) haddress hwords hextension

/-! ## 4. What the constructors keep -/

/-- The words that every constructor copies. -/
structure Kept (k : Candidate) (b : CandidateConfig) : Prop where
  foundation : k.foundationOverride = b.foundation
  component : k.component = b.component
  priority : k.priorityOverride = b.priority
  address : k.address = b.address
  port : k.port = b.port

/-- The network type is the one the line names, or UDP over IPv4 for a `.local` name. -/
def HostNetwork (b : CandidateConfig) (n : NetworkType) : Prop :=
  if isLocalName b.address then n = .udp4
  else ∃ ip, parseIp b.address = some ip ∧ determineNetworkType b.network ip = .ok n

theorem newCandidateHost_cases {b : CandidateConfig} {t : TcpType} {k : Candidate}
    (h : newCandidateHost b t = .ok k) :
    Kept k b ∧ k.candidateType = .host ∧ k.tcpType = t ∧ k.relatedAddress = none
      ∧ HostNetwork b k.networkType := by
  unfold newCandidateHost at h
  unfold HostNetwork
  cases hlocal : isLocalName b.address with
  | true =>
    simp [hlocal, bind, Except.bind, pure, Except.pure] at h
    subst h
    exact ⟨⟨rfl, rfl, rfl, rfl, rfl⟩, rfl, rfl, rfl, rfl⟩
  | false =>
    cases hip : parseIp b.address with
    | none => simp [hlocal, hip, bind, Except.bind] at h
    | some ip =>
      cases hn : determineNetworkType b.network ip with
      | error e => simp [hlocal, hip, hn, bind, Except.bind] at h
      | ok n =>
        simp [hlocal, hip, hn, bind, Except.bind, pure, Except.pure] at h
        subst h
        exact ⟨⟨rfl, rfl, rfl, rfl, rfl⟩, rfl, rfl, rfl, ip, rfl, hn⟩

theorem newCandidateHost_of_network {b : CandidateConfig} {n : NetworkType} (h : HostNetwork b n)
    (t : TcpType) : ∃ k, newCandidateHost b t = .ok k ∧ k.networkType = n := by
  unfold HostNetwork at h
  unfold newCandidateHost
  cases hlocal : isLocalName b.address with
  | true =>
    rw [hlocal] at h
    exact ⟨_, rfl, h.symm⟩
  | false =>
    rw [hlocal] at h
    obtain ⟨ip, hip, hn⟩ := h
    simp [hip, hn, bind, Except.bind, pure, Except.pure]

theorem newCandidateRelated_cases {t : CandidateType} {b : CandidateConfig} {relAddr : Lib.Text}
    {relPort : UInt16} {k : Candidate} (h : newCandidateRelated t b relAddr relPort = .ok k) :
    Kept k b ∧ k.candidateType = t ∧ k.tcpType = .unspecified
      ∧ k.relatedAddress = some ⟨relAddr, relPort⟩
      ∧ ∃ ip, parseIp b.address = some ip
        ∧ determineNetworkType b.network ip = .ok k.networkType := by
  cases hip : parseIp b.address with
  | none => simp [newCandidateRelated, hip] at h
  | some ip =>
    cases hn : determineNetworkType b.network ip with
    | error e => simp [newCandidateRelated, hip, hn, bind, Except.bind] at h
    | ok n =>
      rw [newCandidateRelated_ok t relAddr relPort hip hn] at h
      cases h
      exact ⟨⟨rfl, rfl, rfl, rfl, rfl⟩, rfl, rfl, rfl, ip, rfl, hn⟩

theorem newCandidate_kept {typ : Lib.Text} {b : CandidateConfig} {relAddr : Lib.Text}
    {relPort : UInt16} {tcpType : TcpType} {k : Candidate}
    (h : newCandidate typ b relAddr relPort tcpType = .ok k) : Kept k b := by
  unfold newCandidate at h
  split_ifs at h
  · exact (newCandidateHost_cases h).1
  · exact (newCandidateRelated_cases h).1
  · exact (newCandidateRelated_cases h).1
  · exact (newCandidateRelated_cases h).1

/-! ## 5. What a reader finds are words

So a foundation or an address that is not one word cannot come back. -/

/-- A candidate that was read has the first word for its foundation and the fifth for its
address. -/
theorem unmarshalWords_kept {split : List Lib.Text} {k : Candidate}
    (h : unmarshalWords split = .ok k) :
    ∃ component network priority rest, split
      = k.foundationOverride :: component :: network :: priority :: k.address :: rest := by
  unfold unmarshalWords at h
  split at h
  · next foundation component network priority address port seventh typ rest =>
    cases hc : parseU16 component with
    | error e => simp [hc, bind, Except.bind] at h
    | ok component' =>
    cases hp : parseU32 priority with
    | error e => simp [hc, hp, bind, Except.bind] at h
    | ok priority' =>
    cases hport : parseU16 port with
    | error e => simp [hc, hp, hport, bind, Except.bind] at h
    | ok port' =>
    cases he : readExtension rest with
    | error e => simp [hc, hp, hport, he, bind, Except.bind] at h
    | ok extension =>
      simp only [hc, hp, hport, he, bind, Except.bind] at h
      have hkept := newCandidate_kept h
      exact ⟨component, network, priority, _, by rw [hkept.foundation, hkept.address]⟩
  · cases h

theorem words_of_roundTrips {checksum : Lib.Text → UInt32} {c : RTCIceCandidate} {k : Candidate}
    (hread : unmarshalCandidate (printedLine c) = .ok k)
    (hback : RTCIceCandidate.ofCandidate checksum k = c) :
    IsWord isWhitespace c.foundation ∧ IsWord isWhitespace c.address := by
  obtain ⟨component, network, priority, rest, hwords⟩ := unmarshalWords_kept hread
  have hmem : ∀ w ∈ [k.foundationOverride, k.address], w ∈ words isWhitespace (printedLine c) := by
    rw [hwords]
    simp
  have hfound : IsWord isWhitespace k.foundationOverride :=
    isWord_of_mem_words (hmem _ (by simp))
  have hfoundation : k.foundation checksum = k.foundationOverride := by
    simp [Candidate.foundation, hfound.1]
  have haddress : IsWord isWhitespace k.address := isWord_of_mem_words (hmem _ (by simp))
  subst hback
  exact ⟨by rwa [RTCIceCandidate.ofCandidate, hfoundation], haddress⟩

/-! ## 6. The exact condition -/

/-- The line is resolved to a network of the candidate's protocol: a host candidate with a `.local`
name is UDP, any other candidate has an IP address and one of the two protocols. -/
def Resolves (c : RTCIceCandidate) : Prop :=
  if c.typ = .host ∧ isLocalName c.address then c.protocol = .udp
  else (parseIp c.address).isSome ∧ c.protocol ≠ .unspecified

/-- **What a candidate must be for its text to come back.** -/
structure Carried (c : RTCIceCandidate) : Prop where
  typ : c.typ ≠ .unspecified
  foundation : IsWord isWhitespace c.foundation
  address : IsWord isWhitespace c.address
  noNul : '\x00' ∉ c.foundation ∧ '\x00' ∉ c.address
  resolves : Resolves c
  priority : c.priority ≠ 0
  tcpType : c.tcpType = .unspecified ∨ c.typ = .host ∧ c.protocol = .tcp
  related : c.relatedAddress = [] ∧ c.relatedPort = 0

theorem protocol_of_determined {p : RTCIceProtocol} {ip : IpAddr} {n : NetworkType}
    (h : determineNetworkType p.text ip = .ok n) :
    RTCIceProtocol.ofText n.networkShort = p ∧ p ≠ .unspecified := by
  cases p with
  | unspecified => cases ip <;> cases h
  | udp | tcp => cases ip <;> cases h <;> exact ⟨rfl, nofun⟩

theorem determined_of_protocol {p : RTCIceProtocol} (hp : p ≠ .unspecified) (ip : IpAddr) :
    ∃ n, determineNetworkType p.text ip = .ok n := by
  cases p with
  | unspecified => exact absurd rfl hp
  | udp | tcp => cases ip <;> exact ⟨_, rfl⟩

/-- With the fixed words kept, the candidate is the same if the rest is. -/
theorem ofCandidate_eq_iff {checksum : Lib.Text → UInt32} {c : RTCIceCandidate} {k : Candidate}
    (hword : c.foundation ≠ []) (hkept : Kept k (base c)) (htyp : typOf k.candidateType = c.typ) :
    RTCIceCandidate.ofCandidate checksum k = c ↔
      RTCIceProtocol.ofText k.networkType.networkShort = c.protocol ∧ c.priority ≠ 0
        ∧ k.tcpType = c.tcpType
        ∧ (k.relatedAddress.map (·.address)).getD [] = c.relatedAddress
        ∧ (k.relatedAddress.map (·.port)).getD 0 = c.relatedPort := by
  obtain ⟨hfoundation, hcomponent, hpriority, haddress, hport⟩ := hkept
  have hfound : k.foundation checksum = c.foundation := by
    rw [Candidate.foundation, if_pos (by rwa [hfoundation]), hfoundation]
    rfl
  have hprio : k.priority = c.priority ↔ c.priority ≠ 0 := by
    have h := priority_eq_override_iff k
    rwa [hpriority] at h
  cases c
  simp only [base] at *
  simp only [RTCIceCandidate.ofCandidate, RTCIceCandidate.mk.injEq, hfound, hcomponent, haddress,
    hport, htyp, hprio, true_and]
  constructor
  · rintro ⟨hp, hprotocol, hra, hrp, htcp⟩
    exact ⟨hprotocol, hp, htcp, hra, hrp⟩
  · rintro ⟨hprotocol, hp, htcp, hra, hrp⟩
    exact ⟨hp, hprotocol, hra, hrp, htcp⟩

theorem printedTcpType_eq_iff (c : RTCIceCandidate) :
    printedTcpType c = c.tcpType ↔ c.tcpType = .unspecified ∨ c.protocol = .tcp := by
  unfold printedTcpType
  by_cases h : c.protocol = .tcp
  · simp [h]
  · simp [h, eq_comm]

/-- A host candidate resolves to a network of its protocol if and only if there is one. -/
theorem hostNetwork_iff {c : RTCIceCandidate} (htyp : c.typ = .host) :
    (∃ n, HostNetwork (base c) n ∧ RTCIceProtocol.ofText n.networkShort = c.protocol)
      ↔ Resolves c := by
  unfold HostNetwork Resolves
  cases hlocal : isLocalName c.address with
  | true =>
    simp only [base, hlocal, htyp, and_self, if_true]
    constructor
    · rintro ⟨n, rfl, h⟩
      exact h.symm
    · intro h
      exact ⟨.udp4, rfl, h.symm⟩
  | false =>
    simp only [base, hlocal, Bool.false_eq_true, and_false, if_false]
    constructor
    · rintro ⟨n, ⟨ip, hip, hn⟩, -⟩
      exact ⟨by simp [hip], (protocol_of_determined hn).2⟩
    · rintro ⟨hip, hp⟩
      obtain ⟨ip, hip⟩ := Option.isSome_iff_exists.mp hip
      obtain ⟨n, hn⟩ := determined_of_protocol hp ip
      exact ⟨n, ⟨ip, hip, hn⟩, (protocol_of_determined hn).1⟩

theorem host_back_iff (checksum : Lib.Text → UInt32) {c : RTCIceCandidate}
    (hword : c.foundation ≠ []) (htyp : c.typ = .host) :
    (∃ k, newCandidateHost (base c) (printedTcpType c) = .ok k
        ∧ RTCIceCandidate.ofCandidate checksum k = c)
      ↔ Resolves c ∧ c.priority ≠ 0 ∧ (c.tcpType = .unspecified ∨ c.protocol = .tcp)
        ∧ c.relatedAddress = [] ∧ c.relatedPort = 0 := by
  rw [← hostNetwork_iff htyp, ← printedTcpType_eq_iff]
  constructor
  · rintro ⟨k, hread, hback⟩
    obtain ⟨hkept, hhost, htcp, hrelated, hnetwork⟩ := newCandidateHost_cases hread
    obtain ⟨hprotocol, hprio, htcp', hra, hrp⟩ :=
      (ofCandidate_eq_iff hword hkept (by rw [hhost, htyp]; rfl)).mp hback
    rw [hrelated] at hra hrp
    exact ⟨⟨_, hnetwork, hprotocol⟩, hprio, htcp.symm.trans htcp', hra.symm, hrp.symm⟩
  · rintro ⟨⟨n, hnetwork, hprotocol⟩, hprio, htcp, hra, hrp⟩
    obtain ⟨k, hread, rfl⟩ := newCandidateHost_of_network hnetwork (printedTcpType c)
    obtain ⟨hkept, hhost, htcp', hrelated, -⟩ := newCandidateHost_cases hread
    refine ⟨k, hread, (ofCandidate_eq_iff hword hkept (by rw [hhost, htyp]; rfl)).mpr ?_⟩
    rw [hrelated]
    exact ⟨hprotocol, hprio, htcp'.trans htcp, hra.symm, hrp.symm⟩

theorem related_back_iff (checksum : Lib.Text → UInt32) {c : RTCIceCandidate}
    (hword : c.foundation ≠ []) {t : CandidateType} (ht : t.IsRelated) (htyp : typOf t = c.typ) :
    (∃ k, newCandidate (typText c.typ) (base c) [] 0 (printedTcpType c) = .ok k
        ∧ RTCIceCandidate.ofCandidate checksum k = c)
      ↔ Resolves c ∧ c.priority ≠ 0 ∧ c.tcpType = .unspecified
        ∧ c.relatedAddress = [] ∧ c.relatedPort = 0 := by
  have hnew : newCandidate (typText c.typ) (base c) [] 0 (printedTcpType c)
      = newCandidateRelated t (base c) [] 0 := by
    rw [← htyp, ← newCandidate_related ht]
    rcases ht with rfl | rfl | rfl <;> rfl
  have hresolves : Resolves c ↔ (parseIp c.address).isSome ∧ c.protocol ≠ .unspecified := by
    have hhost : c.typ ≠ .host := by
      rw [← htyp]
      rcases ht with rfl | rfl | rfl <;> exact nofun
    simp [Resolves, hhost]
  rw [hnew]
  rw [hresolves]
  constructor
  · rintro ⟨k, hread, hback⟩
    obtain ⟨hkept, hk, htcp, hrelated, ip, hip, hn⟩ := newCandidateRelated_cases hread
    obtain ⟨-, hprio, htcp', hra, hrp⟩ :=
      (ofCandidate_eq_iff hword hkept (by rw [hk, htyp])).mp hback
    rw [hrelated] at hra hrp
    exact ⟨⟨Option.isSome_iff_exists.mpr ⟨ip, hip⟩, (protocol_of_determined hn).2⟩, hprio,
      htcp'.symm.trans htcp, hra.symm, hrp.symm⟩
  · rintro ⟨⟨hip, hp⟩, hprio, htcp, hra, hrp⟩
    obtain ⟨ip, hip⟩ := Option.isSome_iff_exists.mp hip
    obtain ⟨n, hn⟩ := determined_of_protocol hp ip
    have hread : newCandidateRelated t (base c) [] 0 = .ok _ := newCandidateRelated_ok t [] 0 hip hn
    obtain ⟨hkept, hk, -⟩ := newCandidateRelated_cases hread
    exact ⟨_, hread, (ofCandidate_eq_iff hword hkept (by rw [hk, htyp])).mpr
      ⟨(protocol_of_determined hn).1, hprio, htcp.symm, hra.symm, hrp.symm⟩⟩

/-- With words for its foundation and its address, type by type. -/
theorem read_back_iff (checksum : Lib.Text → UInt32) {c : RTCIceCandidate}
    (hfoundation : IsWord isWhitespace c.foundation) (haddress : IsWord isWhitespace c.address) :
    (∃ k, unmarshalCandidate (printedLine c) = .ok k ∧ RTCIceCandidate.ofCandidate checksum k = c)
      ↔ c.typ ≠ .unspecified ∧ Resolves c ∧ c.priority ≠ 0
        ∧ (c.tcpType = .unspecified ∨ c.typ = .host ∧ c.protocol = .tcp)
        ∧ c.relatedAddress = [] ∧ c.relatedPort = 0 := by
  rw [unmarshal_printedLine hfoundation haddress]
  have hword := hfoundation.1
  cases htyp : c.typ with
  | unspecified =>
    simp only [ne_eq, not_true_eq_false, false_and, iff_false, not_exists, not_and]
    intro k hread
    cases hread
  | host =>
    have hnew : newCandidate (typText .host) (base c) [] 0 (printedTcpType c)
        = newCandidateHost (base c) (printedTcpType c) := rfl
    rw [hnew, host_back_iff checksum hword htyp]
    simp
  | srflx =>
    rw [← htyp, related_back_iff checksum hword (.inl rfl) htyp.symm]
    simp [htyp]
  | prflx =>
    rw [← htyp, related_back_iff checksum hword (.inr (.inl rfl)) htyp.symm]
    simp [htyp]
  | relay =>
    rw [← htyp, related_back_iff checksum hword (.inr (.inr rfl)) htyp.symm]
    simp [htyp]

/-- **The candidate's text comes back as the same candidate if and only if the candidate is
carried**: it has no related address, no TCP type other than that of a TCP host candidate, a
priority, an address the agent resolves, and its foundation and address are words without NUL. -/
theorem candidate_text_iff (checksum : Lib.Text → UInt32) (c : RTCIceCandidate) :
    RoundTrips checksum c ↔ Carried c := by
  by_cases hnul : '\x00' ∈ candidateStr c
  · constructor
    · rintro ⟨k, hread, -⟩
      rw [readCandidate_of_nul hnul] at hread
      cases hread
    · intro h
      rcases (nul_mem_candidateStr c).mp hnul with hf | ha
      · exact absurd hf h.noNul.1
      · exact absurd ha h.noNul.2
  · unfold RoundTrips
    rw [readCandidate_of_noNul hnul]
    rw [nul_mem_candidateStr, not_or] at hnul
    constructor
    · intro h
      obtain ⟨k, hread, hback⟩ := h
      obtain ⟨hfoundation, haddress⟩ := words_of_roundTrips hread hback
      obtain ⟨htyp, hresolves, hprio, htcp, hrelated⟩ :=
        (read_back_iff checksum hfoundation haddress).mp ⟨k, hread, hback⟩
      exact ⟨htyp, hfoundation, haddress, hnul, hresolves, hprio, htcp, hrelated⟩
    · intro h
      exact (read_back_iff checksum h.foundation h.address).mpr
        ⟨h.typ, h.resolves, h.priority, h.tcpType, h.related⟩

/-! ## 7. What is carried, and what is not -/

/-- What a STUN server shows a machine behind a NAT: an address outside, and the local address it
belongs to. -/
def reflexive : RTCIceCandidate where
  foundation := "1510613869".toList
  priority := 1694498815
  address := "203.0.113.7".toList
  protocol := .udp
  port := 61000
  typ := .srflx
  component := 1
  relatedAddress := "192.168.1.10".toList
  relatedPort := 50000
  tcpType := .unspecified

/-- The candidate that is read from its text. -/
def reflexiveRead : Candidate where
  networkType := .udp4
  candidateType := .serverReflexive
  component := 1
  address := "203.0.113.7".toList
  port := 61000
  relatedAddress := some ⟨[], 0⟩
  tcpType := .unspecified
  resolvedAddr := (.v4 203 0 113 7, 61000)
  foundationOverride := "1510613869".toList
  priorityOverride := 1694498815
  network := []

/-- **A server reflexive candidate comes back without its related address.** -/
theorem related_address_lost :
    readCandidate (onIceCandidate reflexive) = .ok reflexiveRead
      ∧ ∀ checksum, ¬ RoundTrips checksum reflexive := by
  have hread : readCandidate (onIceCandidate reflexive) = .ok reflexiveRead := by decide
  refine ⟨hread, ?_⟩
  rintro checksum ⟨k, hk, hback⟩
  obtain rfl : reflexiveRead = k := Except.ok.inj (hread.symm.trans hk)
  have hport : (0 : UInt16) = 50000 := congrArg RTCIceCandidate.relatedPort hback
  exact absurd hport (by decide)

end WebrtcBridge.Ice
