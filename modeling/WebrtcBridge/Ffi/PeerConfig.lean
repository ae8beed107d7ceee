/-
# The configuration of a peer, from the setters to the builder

`Configuration` collects servers, addresses, a port range and flags through the setters of the FFI,
and `webrtc_ffi_peer_create` hands them to the peer-connection builder.  On the way it works on the
configuration, in this order:

    clone ice_servers  ->  rewrite ports  ->  apply flags  ->  hand over the addresses

* The servers are cloned FIRST.  The flags that are to remove some of them remove them from the
  configuration, where nobody looks any more (`flags_applied_iff`).
* The port of an address `host:0` is replaced by cutting off the `0` and adding `:` and the port.
  The colon is still there, so that the result is `host::port` (`rewrite_zero`).
* The setter narrows its arguments to sixteen bits before it compares them, so 65536 is 0 and 70000
  is 4464 (`setPortRange_call`).

Together: a port range is as documented only where it has nothing to do (`port_range_kept_iff`).
-/
import Mathlib.Data.List.Forall2
import WebrtcBridge.Ffi.Boundary
import WebrtcBridge.Ice.Candidate
import WebrtcBridge.Lib.Runs

namespace WebrtcBridge.Ffi.PeerConfig

open Lib
open Ice (isWhitespace)
open Stats (digits)

/-! ## 1. The setters -/

/-- `RTCIceServer`. -/
structure RtcIceServer where
  urls : List Text
  username : Text
  credential : Text
  deriving DecidableEq, Repr

structure Config where
  iceServers : List RtcIceServer
  udpAddrs : List Text
  tcpAddrs : List Text
  dtlsRole : Int32
  networkTypes : Int32
  minPort : UInt16
  maxPort : UInt16
  allocatorFlags : UInt32
  rtcpForwarder : Bool
  codecs : List Text
  deriving DecidableEq, Repr

/-- `webrtc_ffi_config_create`. -/
def webrtcFfiConfigCreate : Config where
  iceServers := []
  udpAddrs := ["0.0.0.0:0".toList]
  tcpAddrs := []
  dtlsRole := 0
  networkTypes := 0
  minPort := 0
  maxPort := 0
  allocatorFlags := 0
  rtcpForwarder := false
  codecs := []

/-- `str::trim`. -/
def trim (t : Text) : Text := (t.dropWhile isWhitespace).rdropWhile isWhitespace

/-- The entries of a list in a string: cut, trimmed, and not empty. -/
def entries (p : CStr) : List Text :=
  (((readStr p).splitOnP fun c => c = ',' || c = ' ' || c = '\n').map trim).filter fun s =>
    !s.isEmpty

/-- `webrtc_ffi_config_set_transport`. -/
def webrtcFfiConfigSetTransport (c : Config) (udpAddrs tcpAddrs : CStr)
    (dtlsRole networkTypes : Int32) : Int × Config :=
  let udp := entries udpAddrs
  let tcp := entries tcpAddrs
  (0, { c with
    udpAddrs := if udp.isEmpty && tcp.isEmpty then ["0.0.0.0:0".toList] else udp
    tcpAddrs := tcp
    dtlsRole := dtlsRole
    networkTypes := networkTypes })

/-- `webrtc_ffi_config_add_ice_server`. -/
def webrtcFfiConfigAddIceServer (c : Config) (urls username credential : CStr) : Int × Config :=
  let urls := entries urls
  if urls.isEmpty then (-2, c)
  else (0, { c with iceServers := c.iceServers ++ [⟨urls, readStr username, readStr credential⟩] })

/-- `as u16`. -/
def asU16 (x : Int32) : UInt16 := x.toUInt32.toUInt16

/-- `webrtc_ffi_config_set_port_range`. -/
def webrtcFfiConfigSetPortRange (c : Config) (minPort maxPort : Int32) : Int × Config :=
  let min := asU16 minPort
  let max := asU16 maxPort
  if min ≠ 0 ∧ max ≠ 0 ∧ max < min then (-2, c)
  else (0, { c with minPort := min, maxPort := max })

/-- `webrtc_ffi_config_set_allocator_flags`. -/
def webrtcFfiConfigSetAllocatorFlags (c : Config) (flags : Int32) : Int × Config :=
  (0, { c with allocatorFlags := flags.toUInt32 })

/-- `webrtc_ffi_config_set_rtcp_forwarder`. -/
def webrtcFfiConfigSetRtcpForwarder (c : Config) (enabled : Int32) : Int × Config :=
  (0, { c with rtcpForwarder := enabled ≠ 0 })

/-- `to_ascii_lowercase`. -/
def toAsciiLowercase (t : Text) : Text := t.map Char.toLower

/-- `webrtc_ffi_config_set_codecs`. -/
def webrtcFfiConfigSetCodecs (c : Config) (codecs : CStr) : Int × Config :=
  (0, { c with codecs := (entries codecs).map toAsciiLowercase })

/-- The setters of `Configuration`. -/
inductive Setter
  | setTransport (udpAddrs tcpAddrs : CStr) (dtlsRole networkTypes : Int32)
  | addIceServer (urls username credential : CStr)
  | setPortRange (minPort maxPort : Int32)
  | setAllocatorFlags (flags : Int32)
  | setRtcpForwarder (enabled : Bool)
  | setCodecs (codecs : CStr)
  deriving DecidableEq, Repr

/-- What they throw. -/
inductive JavaError
  | illegalArgument (message : String)
  | illegalState (message : String)
  deriving DecidableEq, Repr

/-- A return code other than zero is thrown. -/
def check (error : Int → JavaError) (r : Int × Config) : Except JavaError Unit × Config :=
  (if r.1 = 0 then .ok () else .error (error r.1), r.2)

/-- A call on a configuration that is open. -/
def Setter.call (c : Config) : Setter → Except JavaError Unit × Config
  | .setTransport udpAddrs tcpAddrs dtlsRole networkTypes =>
    check (fun rc => .illegalArgument ("Invalid transport configuration: " ++ toString rc))
      (webrtcFfiConfigSetTransport c udpAddrs tcpAddrs dtlsRole networkTypes)
  | .addIceServer urls username credential =>
    check (fun rc => .illegalArgument ("Invalid ICE server configuration: " ++ toString rc))
      (webrtcFfiConfigAddIceServer c urls username credential)
  | .setPortRange minPort maxPort =>
    check (fun rc =>
        if rc = -2 then
          .illegalArgument ("minPort (" ++ toString minPort ++ ") must be <= maxPort ("
            ++ toString maxPort ++ ")")
        else .illegalState ("Failed to set port range: " ++ toString rc))
      (webrtcFfiConfigSetPortRange c minPort maxPort)
  | .setAllocatorFlags flags =>
    check (fun rc => .illegalState ("Failed to set allocator flags: " ++ toString rc))
      (webrtcFfiConfigSetAllocatorFlags c flags)
  | .setRtcpForwarder enabled =>
    check (fun rc => .illegalState ("Failed to set RTCP forwarder: " ++ toString rc))
      (webrtcFfiConfigSetRtcpForwarder c (if enabled then 1 else 0))
  | .setCodecs codecs =>
    check (fun rc => .illegalState ("Failed to set codecs: " ++ toString rc))
      (webrtcFfiConfigSetCodecs c codecs)

/-! ## 2. The builder -/

inductive DtlsRole
  | auto
  | client
  | server
  deriving DecidableEq, Repr

inductive NetworkType
  | udp4
  | udp6
  | tcp4
  | tcp6
  deriving DecidableEq, Repr

/-- What the builder is given; where it is given nothing it has its default. -/
structure Builder where
  codecs : List Text
  rtcpForwarder : Bool
  iceServers : List RtcIceServer := []
  answeringDtlsRole : Option DtlsRole := none
  networkTypes : Option (List NetworkType) := none
  tcpAddrs : List Text := []
  udpAddrs : List Text := []
  deriving DecidableEq, Repr

/-- The closure that is mapped over the addresses. -/
def rewrite (min : UInt16) (addr : Text) : Text :=
  if ":0".toList.isSuffixOf addr then addr.dropLast ++ ':' :: digits min.toNat else addr

/-- The port range. -/
def applyPortRange (c : Config) : Config :=
  if c.minPort ≠ 0 ∨ c.maxPort ≠ 0 then
    let min := if c.minPort ≠ 0 then c.minPort else 1
    { c with udpAddrs := c.udpAddrs.map (rewrite min), tcpAddrs := c.tcpAddrs.map (rewrite min) }
  else c

/-- `flags & bit != 0`. -/
def hasFlag (flags bit : UInt32) : Bool := flags &&& bit != 0

/-- The allocator flags. -/
def applyAllocatorFlags (c : Config) : Config :=
  let flags := c.allocatorFlags
  let c := if hasFlag flags 1 then { c with udpAddrs := [] } else c
  let c := if hasFlag flags 8 then { c with tcpAddrs := [] } else c
  let c :=
    if hasFlag flags 2 then
      { c with iceServers := c.iceServers.filter fun s => !s.username.isEmpty }
    else c
  if hasFlag flags 4 then { c with iceServers := c.iceServers.filter fun s => s.username.isEmpty }
  else c

def answeringDtlsRole (dtlsRole : Int32) : Option DtlsRole :=
  if dtlsRole = 1 then some .auto
  else if dtlsRole = 2 then some .client
  else if dtlsRole = 3 then some .server
  else none

def selectedNetworkTypes (networkTypes : Int32) : Option (List NetworkType) :=
  if networkTypes ≠ 0 then
    some ((if networkTypes &&& 1 ≠ 0 then [.udp4, .udp6] else [])
      ++ if networkTypes &&& 2 ≠ 0 then [.tcp4, .tcp6] else [])
  else none

/-- `webrtc_ffi_peer_create`, as far as the configuration goes: what the builder gets, and what is
left in the configuration. -/
def webrtcFfiPeerCreate : Option Config → Builder × Option Config
  | none => ({ codecs := [], rtcpForwarder := false, udpAddrs := ["0.0.0.0:0".toList] }, none)
  | some c =>
    let iceServers := if c.iceServers.isEmpty then [] else c.iceServers
    let c' := applyAllocatorFlags (applyPortRange c)
    ({ codecs := c.codecs
       rtcpForwarder := c.rtcpForwarder
       iceServers := iceServers
       answeringDtlsRole := answeringDtlsRole c.dtlsRole
       networkTypes := selectedNetworkTypes c.networkTypes
       tcpAddrs := if c'.tcpAddrs.isEmpty then [] else c'.tcpAddrs
       udpAddrs := c'.udpAddrs }, some c')

/-! ## 3. The flags -/

/-- The addresses that are left when a flag has been looked at. -/
def enabled (flags bit : UInt32) (addrs : List Text) : List Text :=
  if hasFlag flags bit then [] else addrs

@[simp] theorem applyAllocatorFlags_udpAddrs (c : Config) :
    (applyAllocatorFlags c).udpAddrs = enabled c.allocatorFlags 1 c.udpAddrs := by
  simp only [applyAllocatorFlags, enabled, apply_ite Config.udpAddrs, ite_self]

@[simp] theorem applyAllocatorFlags_tcpAddrs (c : Config) :
    (applyAllocatorFlags c).tcpAddrs = enabled c.allocatorFlags 8 c.tcpAddrs := by
  simp only [applyAllocatorFlags, enabled, apply_ite Config.tcpAddrs, ite_self]

@[simp] theorem applyPortRange_allocatorFlags (c : Config) :
    (applyPortRange c).allocatorFlags = c.allocatorFlags := by
  unfold applyPortRange
  split <;> rfl

theorem ite_isEmpty {α : Type} (l : List α) : (if l.isEmpty then [] else l) = l := by
  cases l <;> rfl

/-- What the builder gets of the servers and the addresses. -/
theorem builder_eq (c : Config) :
    (webrtcFfiPeerCreate (some c)).1.iceServers = c.iceServers
      ∧ (webrtcFfiPeerCreate (some c)).1.udpAddrs
        = enabled c.allocatorFlags 1 (applyPortRange c).udpAddrs
      ∧ (webrtcFfiPeerCreate (some c)).1.tcpAddrs
        = enabled c.allocatorFlags 8 (applyPortRange c).tcpAddrs := by
  refine ⟨ite_isEmpty _, ?_, (ite_isEmpty _).trans ?_⟩
  · change (applyAllocatorFlags (applyPortRange c)).udpAddrs = _
    rw [applyAllocatorFlags_udpAddrs, applyPortRange_allocatorFlags]
  · rw [applyAllocatorFlags_tcpAddrs, applyPortRange_allocatorFlags]

/-- Whether a server is to stay. -/
def keeps (flags : UInt32) (s : RtcIceServer) : Bool :=
  !(hasFlag flags 2 && s.username.isEmpty) && !(hasFlag flags 4 && !s.username.isEmpty)

/-- **What the flags are for.** -/
structure FlagsApplied (c : Config) (b : Builder) : Prop where
  iceServers : b.iceServers = c.iceServers.filter (keeps c.allocatorFlags)
  udpAddrs : b.udpAddrs = enabled c.allocatorFlags 1 (applyPortRange c).udpAddrs
  tcpAddrs : b.tcpAddrs = enabled c.allocatorFlags 8 (applyPortRange c).tcpAddrs

/-- **The flags are applied to the addresses, and to the servers only if that changes nothing.** -/
theorem flags_applied_iff (c : Config) :
    FlagsApplied c (webrtcFfiPeerCreate (some c)).1
      ↔ (hasFlag c.allocatorFlags 2 = true → ∀ s ∈ c.iceServers, s.username ≠ [])
        ∧ (hasFlag c.allocatorFlags 4 = true → ∀ s ∈ c.iceServers, s.username = []) := by
  obtain ⟨hice, hudp, htcp⟩ := builder_eq c
  have hfilter : FlagsApplied c (webrtcFfiPeerCreate (some c)).1
      ↔ ∀ s ∈ c.iceServers, keeps c.allocatorFlags s = true := by
    constructor
    · intro h
      have hkept := h.iceServers
      rw [hice] at hkept
      exact List.filter_eq_self.mp hkept.symm
    · intro h
      exact ⟨by rw [hice, List.filter_eq_self.mpr h], hudp, htcp⟩
  rw [hfilter]
  constructor
  · intro h
    constructor
    · intro hflag s hs hname
      have hkeep := h s hs
      simp [keeps, hflag, hname] at hkeep
    · intro hflag s hs
      have hkeep := h s hs
      simp only [keeps, hflag, Bool.true_and, Bool.not_not, Bool.and_eq_true] at hkeep
      exact List.isEmpty_iff.mp hkeep.2
  · rintro ⟨hstun, hrelay⟩ s hs
    simp only [keeps, Bool.and_eq_true, Bool.not_eq_true', Bool.and_eq_false_imp]
    constructor
    · intro hflag
      simpa using hstun hflag s hs
    · intro hflag
      simpa using hrelay hflag s hs

/-- A STUN server, and the flag that disables it. -/
def stunConfig : Config :=
  { webrtcFfiConfigCreate with
    iceServers := [⟨["stun:stun.example.org".toList], [], []⟩]
    allocatorFlags := 2 }

theorem disabled_stun_server_reaches_builder :
    ¬ FlagsApplied stunConfig (webrtcFfiPeerCreate (some stunConfig)).1 := by
  intro h
  exact absurd h.iceServers (by decide)

/-! ## 4. The port range -/

/-- The port of an address. -/
def parsePort (p : Text) : Option Nat :=
  if p ≠ [] ∧ p.all Char.isDigit ∧ Nat.ofDigitChars 10 p 0 < 2 ^ 16 then
    some (Nat.ofDigitChars 10 p 0)
  else none

/-- An address `host:port`, cut at the last colon. -/
def parseAddress (addr : Text) : Option (Text × Nat) :=
  match Text.splitLast ':' addr with
  | none => none
  | some (host, port) => (parsePort port).map (host, ·)

theorem parseAddress_append (host : Text) {port : Text} (h : ':' ∉ port) :
    parseAddress (host ++ ':' :: port) = (parsePort port).map (host, ·) := by
  rw [parseAddress, Text.splitLast_append host h]

theorem suffix_zero {addr : Text} (h : ":0".toList.isSuffixOf addr = true) :
    ∃ host, addr = host ++ ":0".toList := by
  obtain ⟨host, rfl⟩ := List.isSuffixOf_iff_suffix.mp h
  exact ⟨host, rfl⟩

theorem parseAddress_zero (host : Text) : parseAddress (host ++ ":0".toList) = some (host, 0) := by
  exact (parseAddress_append host (by decide)).trans rfl

/-- **The colon stays.** -/
theorem rewrite_zero (min : UInt16) (host : Text) :
    rewrite min (host ++ ":0".toList) = (host ++ [':']) ++ ':' :: digits min.toNat := by
  have hsuffix : ":0".toList.isSuffixOf (host ++ ":0".toList) = true :=
    List.isSuffixOf_iff_suffix.mpr ⟨host, rfl⟩
  rw [rewrite, if_pos hsuffix]
  congr 1
  rw [show ":0".toList = [':', '0'] from rfl, List.append_cons, List.dropLast_concat]

/-- What is to become of an address: an address with a port, at a port; any other stays. -/
def Moved (start : Nat) (addr addr' : Text) : Prop :=
  match parseAddress addr with
  | some (host, port) => parseAddress addr' = some (host, if port = 0 then start else port)
  | none => addr' = addr

/-- The port is 0, in whatever notation. -/
def PortZero (addr : Text) : Prop := ∃ host, parseAddress addr = some (host, 0)

/-- **An address is treated as documented only if its port is not 0.** -/
theorem moved_rewrite_iff {start : Nat} (hstart : start ≠ 0) (min : UInt16) (addr : Text) :
    Moved start addr (rewrite min addr) ↔ ¬ PortZero addr := by
  by_cases hsuffix : ":0".toList.isSuffixOf addr = true
  · obtain ⟨host, rfl⟩ := suffix_zero hsuffix
    refine iff_of_false ?_ (fun h => h ⟨host, parseAddress_zero host⟩)
    intro hmoved
    have hcolon : ':' ∉ digits min.toNat := by
      intro hmem
      have hdigit := Stats.isDigit_of_mem_digits hmem
      exact absurd hdigit (by decide)
    rw [Moved, parseAddress_zero, rewrite_zero, parseAddress_append _ hcolon] at hmoved
    obtain ⟨port, -, hhost⟩ := Option.map_eq_some_iff.mp hmoved
    have hlength := congrArg List.length (Prod.mk.inj hhost).1
    simp at hlength
  · rw [rewrite, if_neg hsuffix]
    unfold Moved PortZero
    cases hparse : parseAddress addr with
    | none => simp
    | some v =>
      obtain ⟨host, port⟩ := v
      by_cases hport : port = 0
      · simp [hport, Ne.symm hstart]
      · simp [hport]

/-! ## 5. Sequences of setters -/

/-- A pair that is to be rejected. -/
def Bad (minPort maxPort : Int32) : Prop :=
  (minPort < 0 ∨ 65535 < minPort) ∨ (maxPort < 0 ∨ 65535 < maxPort)
    ∨ (minPort ≠ 0 ∧ maxPort ≠ 0 ∧ maxPort < minPort)

/-- A pair that is rejected: what is left of it after narrowing. -/
def Crossed (minPort maxPort : Int32) : Prop :=
  asU16 minPort ≠ 0 ∧ asU16 maxPort ≠ 0 ∧ asU16 maxPort < asU16 minPort

instance (minPort maxPort : Int32) : Decidable (Bad minPort maxPort) :=
  inferInstanceAs (Decidable (_ ∨ _))

instance (minPort maxPort : Int32) : Decidable (Crossed minPort maxPort) :=
  inferInstanceAs (Decidable (_ ∧ _))

/-- A configuration, and the port range that was accepted last. -/
structure Session where
  config : Config
  minPort : Int32
  maxPort : Int32

def Session.new : Session := ⟨webrtcFfiConfigCreate, 0, 0⟩

/-- One call. -/
def Session.step (s : Session) (call : Setter) : Session :=
  match call, (call.call s.config).1 with
  | .setPortRange minPort maxPort, .ok () => ⟨(call.call s.config).2, minPort, maxPort⟩
  | _, _ => { s with config := (call.call s.config).2 }

/-- Where the ports are to start. -/
def Session.startPort (s : Session) : Nat :=
  if s.minPort ≠ 0 then s.minPort.toInt.toNat else s.maxPort.toInt.toNat

/-- **What a port range is for**, over the calls that are made. -/
structure PortRangeKept (calls : List Setter) : Prop where
  /-- A bad pair is rejected, and nothing changes. -/
  rejects : ∀ before minPort maxPort after,
    calls = before ++ .setPortRange minPort maxPort :: after →
    Bad minPort maxPort → ∃ e, Setter.call (run Session.step .new before).config
        (.setPortRange minPort maxPort) = (.error e, (run Session.step .new before).config)
  /-- Addresses keep their hosts, and their ports if they have one. -/
  addresses : ∀ s, s = run Session.step .new calls → ¬ (s.minPort = 0 ∧ s.maxPort = 0) →
    List.Forall₂ (Moved s.startPort) (enabled s.config.allocatorFlags 1 s.config.udpAddrs)
        (webrtcFfiPeerCreate (some s.config)).1.udpAddrs
      ∧ List.Forall₂ (Moved s.startPort) (enabled s.config.allocatorFlags 8 s.config.tcpAddrs)
        (webrtcFfiPeerCreate (some s.config)).1.tcpAddrs

/-- **What is rejected**, and only that. -/
theorem setPortRange_call (c : Config) (minPort maxPort : Int32) :
    Setter.call c (.setPortRange minPort maxPort)
      = if Crossed minPort maxPort then
          (.error (.illegalArgument ("minPort (" ++ toString minPort ++ ") must be <= maxPort ("
            ++ toString maxPort ++ ")")), c)
        else (.ok (), { c with minPort := asU16 minPort, maxPort := asU16 maxPort }) := by
  by_cases h : Crossed minPort maxPort
  · have hffi : webrtcFfiConfigSetPortRange c minPort maxPort = (-2, c) := if_pos h
    rw [if_pos h, Setter.call, hffi]
    rfl
  · have hffi : webrtcFfiConfigSetPortRange c minPort maxPort
        = (0, { c with minPort := asU16 minPort, maxPort := asU16 maxPort }) := if_neg h
    rw [if_neg h, Setter.call, hffi]
    rfl

/-- Narrowed, 70000 is 4464. -/
example : Bad 70000 5000 ∧ ¬ Crossed 70000 5000 := by decide

/-- Narrowing is harmless within the range. -/
theorem asU16_toNat {x : Int32} (h : ¬ (x < 0 ∨ 65535 < x)) :
    ((asU16 x).toNat : Int) = x.toInt := by
  have hlow : 0 ≤ x.toInt := by
    have := mt Or.inl h
    rwa [Int32.lt_iff_toInt_lt, Int.not_lt] at this
  have hhigh : x.toInt ≤ 65535 := by
    have := mt Or.inr h
    rwa [Int32.lt_iff_toInt_lt, Int.not_lt] at this
  have hnat : x.toUInt32.toNat = x.toInt.toNat :=
    Int32.toNat_toUInt32_of_le (Int32.le_iff_toInt_le.mpr hlow)
  rw [asU16, UInt32.toNat_toUInt16, hnat]
  omega

theorem toInt_toNat_ne_zero {x : Int32} (h : ¬ (x < 0 ∨ 65535 < x)) (hx : x ≠ 0) :
    x.toInt.toNat ≠ 0 := by
  have hnat := asU16_toNat h
  have hne : x.toInt ≠ 0 := fun hzero => hx (Int32.toInt_inj.mp hzero)
  omega

theorem asU16_ne_zero {x : Int32} (h : ¬ (x < 0 ∨ 65535 < x)) (hx : x ≠ 0) : asU16 x ≠ 0 := by
  have hnat := asU16_toNat h
  have hne := toInt_toNat_ne_zero h hx
  intro hzero
  rw [hzero] at hnat
  exact hne (by rw [← hnat]; rfl)

/-- The range in the configuration is the one that was accepted. -/
structure Session.Agrees (s : Session) : Prop where
  good : ¬ Bad s.minPort s.maxPort
  minPort : s.config.minPort = asU16 s.minPort
  maxPort : s.config.maxPort = asU16 s.maxPort

/-- Bad pairs in the calls are rejected. -/
def RejectsBad (call : Setter) : Prop :=
  ∀ minPort maxPort, call = .setPortRange minPort maxPort → Bad minPort maxPort →
    Crossed minPort maxPort

theorem step_agrees (s : Session) (call : Setter) (hcall : RejectsBad call) (h : s.Agrees) :
    (s.step call).Agrees := by
  cases call with
  | setPortRange minPort maxPort =>
    unfold Session.step
    rw [setPortRange_call]
    by_cases hcrossed : Crossed minPort maxPort
    · rw [if_pos hcrossed]
      exact ⟨h.good, h.minPort, h.maxPort⟩
    · rw [if_neg hcrossed]
      exact ⟨fun hbad => hcrossed (hcall minPort maxPort rfl hbad), rfl, rfl⟩
  | addIceServer urls username credential =>
    have hports : ∀ c : Config,
        (webrtcFfiConfigAddIceServer c urls username credential).2.minPort = c.minPort
          ∧ (webrtcFfiConfigAddIceServer c urls username credential).2.maxPort = c.maxPort := by
      intro c
      unfold webrtcFfiConfigAddIceServer
      dsimp only
      split <;> exact ⟨rfl, rfl⟩
    exact ⟨h.good, (hports s.config).1.trans h.minPort, (hports s.config).2.trans h.maxPort⟩
  | setTransport udpAddrs tcpAddrs dtlsRole networkTypes | setAllocatorFlags flags
      | setRtcpForwarder on | setCodecs codecs => exact ⟨h.good, h.minPort, h.maxPort⟩

theorem run_agrees {calls : List Setter} (hcalls : ∀ call ∈ calls, RejectsBad call) :
    (run Session.step .new calls).Agrees :=
  run_inv_on Session.Agrees RejectsBad step_agrees calls .new hcalls ⟨by decide, rfl, rfl⟩

theorem rejects_iff (calls : List Setter) :
    (∀ before minPort maxPort after, calls = before ++ .setPortRange minPort maxPort :: after →
      Bad minPort maxPort → ∃ e, Setter.call (run Session.step .new before).config
        (.setPortRange minPort maxPort) = (.error e, (run Session.step .new before).config))
      ↔ ∀ call ∈ calls, RejectsBad call := by
  constructor
  · rintro h call hmem minPort maxPort rfl hbad
    obtain ⟨before, after, hsplit⟩ := List.append_of_mem hmem
    obtain ⟨e, he⟩ := h before minPort maxPort after hsplit hbad
    by_contra hcrossed
    rw [setPortRange_call, if_neg hcrossed] at he
    cases (Prod.mk.inj he).1
  · intro h before minPort maxPort after hsplit hbad
    have hcrossed := h (.setPortRange minPort maxPort) (by simp [hsplit]) minPort maxPort rfl hbad
    exact ⟨_, by rw [setPortRange_call, if_pos hcrossed]⟩

section Addresses

variable {s : Session}

/-- With a range that was accepted there is a port to start from, and the addresses are
rewritten. -/
theorem Session.Agrees.rewrites (h : s.Agrees) (hrange : ¬ (s.minPort = 0 ∧ s.maxPort = 0)) :
    s.startPort ≠ 0
      ∧ ∃ min, (applyPortRange s.config).udpAddrs = s.config.udpAddrs.map (rewrite min)
      ∧ (applyPortRange s.config).tcpAddrs = s.config.tcpAddrs.map (rewrite min) := by
  have hmin : ¬ (s.minPort < 0 ∨ 65535 < s.minPort) := fun hbad => h.good (.inl hbad)
  have hmax : ¬ (s.maxPort < 0 ∨ 65535 < s.maxPort) := fun hbad => h.good (.inr (.inl hbad))
  constructor
  · unfold Session.startPort
    split
    · next hne => exact toInt_toNat_ne_zero hmin hne
    · next heq =>
      have hne : s.maxPort ≠ 0 := fun hzero => hrange ⟨not_not.mp heq, hzero⟩
      exact toInt_toNat_ne_zero hmax hne
  · have hset : s.config.minPort ≠ 0 ∨ s.config.maxPort ≠ 0 := by
      rw [h.minPort, h.maxPort]
      rcases not_and_or.mp hrange with hne | hne
      · exact .inl (asU16_ne_zero hmin hne)
      · exact .inr (asU16_ne_zero hmax hne)
    rw [applyPortRange, if_pos hset]
    exact ⟨_, rfl, rfl⟩

/-- Addresses that have been mapped, and maybe removed. -/
theorem forall₂_enabled_iff {start : Nat} (hstart : start ≠ 0) (min : UInt16) (flags bit : UInt32)
    (addrs : List Text) :
    List.Forall₂ (Moved start) (enabled flags bit addrs)
        (enabled flags bit (addrs.map (rewrite min)))
      ↔ ∀ addr ∈ enabled flags bit addrs, ¬ PortZero addr := by
  unfold enabled
  split
  · simp
  · rw [List.forall₂_map_right_iff, List.forall₂_same]
    exact forall₂_congr fun addr _ => moved_rewrite_iff hstart min addr

end Addresses

/-- **A port range is kept exactly if there is nothing to do for it**: every bad pair is still the
wrong way round after narrowing, and while a range is in force no address that is in use has the
port 0. -/
theorem port_range_kept_iff (calls : List Setter) :
    PortRangeKept calls
      ↔ (∀ minPort maxPort, .setPortRange minPort maxPort ∈ calls → Bad minPort maxPort →
          Crossed minPort maxPort)
        ∧ ∀ s, s = run Session.step .new calls → ¬ (s.minPort = 0 ∧ s.maxPort = 0) →
          (∀ addr ∈ enabled s.config.allocatorFlags 1 s.config.udpAddrs, ¬ PortZero addr)
            ∧ ∀ addr ∈ enabled s.config.allocatorFlags 8 s.config.tcpAddrs, ¬ PortZero addr := by
  have hbad : (∀ call ∈ calls, RejectsBad call)
      ↔ ∀ minPort maxPort, .setPortRange minPort maxPort ∈ calls → Bad minPort maxPort →
          Crossed minPort maxPort := by
    constructor
    · exact fun h minPort maxPort hmem => h _ hmem minPort maxPort rfl
    · rintro h call hmem minPort maxPort rfl
      exact h minPort maxPort hmem
  have haddresses (hcalls : ∀ call ∈ calls, RejectsBad call) (s : Session)
      (hs : s = run Session.step .new calls) (hrange : ¬ (s.minPort = 0 ∧ s.maxPort = 0)) :
      (List.Forall₂ (Moved s.startPort) (enabled s.config.allocatorFlags 1 s.config.udpAddrs)
          (webrtcFfiPeerCreate (some s.config)).1.udpAddrs
        ∧ List.Forall₂ (Moved s.startPort) (enabled s.config.allocatorFlags 8 s.config.tcpAddrs)
          (webrtcFfiPeerCreate (some s.config)).1.tcpAddrs)
      ↔ (∀ addr ∈ enabled s.config.allocatorFlags 1 s.config.udpAddrs, ¬ PortZero addr)
        ∧ ∀ addr ∈ enabled s.config.allocatorFlags 8 s.config.tcpAddrs, ¬ PortZero addr := by
    have hagrees : s.Agrees := hs ▸ run_agrees hcalls
    obtain ⟨hstart, min, hudp, htcp⟩ := hagrees.rewrites hrange
    obtain ⟨-, hbudp, hbtcp⟩ := builder_eq s.config
    rw [hbudp, hbtcp, hudp, htcp, forall₂_enabled_iff hstart, forall₂_enabled_iff hstart]
  constructor
  · intro h
    have hcalls := (rejects_iff calls).mp h.rejects
    exact ⟨hbad.mp hcalls, fun s hs hrange => (haddresses hcalls s hs hrange).mp
      (h.addresses s hs hrange)⟩
  · rintro ⟨hcrossed, hports⟩
    have hcalls := hbad.mpr hcrossed
    exact ⟨(rejects_iff calls).mpr hcalls, fun s hs hrange => (haddresses hcalls s hs hrange).mpr
      (hports s hs hrange)⟩

/-- The example of the documentation, on a new configuration. -/
def documentedCalls : List Setter := [.setPortRange 10000 20000]

/-- The address `0.0.0.0:0` becomes `0.0.0.0::10000`. -/
theorem documented_range_breaks_address : ¬ PortRangeKept documentedCalls := by
  intro h
  have haddrs := (h.addresses _ rfl (by decide)).1
  have hudp : (webrtcFfiPeerCreate (some (run Session.step .new documentedCalls).config)).1.udpAddrs
      = ["0.0.0.0::10000".toList] := by decide
  rw [hudp] at haddrs
  cases haddrs with
  | cons hmoved _ =>
    have hparse : parseAddress "0.0.0.0:0".toList = some ("0.0.0.0".toList, 0) := by decide
    rw [Moved, hparse] at hmoved
    exact absurd hmoved (by decide)

end WebrtcBridge.Ffi.PeerConfig
