/-
# What `webrtc_ffi_get_stats` prints

A stats report is a list of entries of fifteen kinds.  The bridge prints three of them as JSON
objects, with `format!`, and everything else as nothing, with a comma between any two entries.
Strings go into the text as they are.

The text then becomes a C string.  `into_cstring` gives up on a text with a NUL in it and hands
over the empty string.
-/
import WebrtcBridge.Lib.Text

namespace WebrtcBridge.Stats

open Lib

/-! ## 1. Entries -/

/-- `RtpCodecKind`. -/
inductive RtpCodecKind
  | unspecified
  | audio
  | video
  deriving DecidableEq, Repr

/-- `RTCIceCandidateType`. -/
inductive RTCIceCandidateType
  | unspecified
  | host
  | srflx
  | prflx
  | relay
  deriving DecidableEq, Repr

/-- A decimal number as `f64` prints it: sign, whole part, and the digits behind the point, of which
there may be none.  Its value plays no role. -/
structure Decimal where
  negative : Bool
  whole : Nat
  fraction : List (Fin 10)
  deriving DecidableEq, Repr

/-- `RTCPeerConnectionStats`, as far as it is printed. -/
structure RTCPeerConnectionStats where
  dataChannelsOpened : UInt32
  dataChannelsClosed : UInt32
  deriving DecidableEq

/-- `RTCInboundRtpStreamStats` with the base structures it contains, as far as it is printed. -/
structure RTCInboundRtpStreamStats where
  ssrc : UInt32
  kind : RtpCodecKind
  trackIdentifier : Text
  bytesReceived : UInt64
  packetsReceived : UInt64
  packetsLost : Int64
  jitter : Decimal
  nackCount : UInt32
  firCount : UInt32
  pliCount : UInt32
  deriving DecidableEq

/-- `RTCIceCandidateStats`, as far as it is printed. -/
structure RTCIceCandidateStats where
  address : Option Text
  port : UInt16
  candidateType : RTCIceCandidateType
  deriving DecidableEq

/-- `RTCStatsReportEntry`; what is never printed has no data here. -/
inductive RTCStatsReportEntry
  | peerConnection (s : RTCPeerConnectionStats)
  | transport
  | iceCandidatePair
  | localCandidate
  | remoteCandidate (s : RTCIceCandidateStats)
  | certificate
  | codec
  | dataChannel
  | inboundRtp (s : RTCInboundRtpStreamStats)
  | outboundRtp
  | remoteInboundRtp
  | remoteOutboundRtp
  | audioSource
  | videoSource
  | audioPlayout
  deriving DecidableEq

/-! ## 2. Printing -/

/-- An unsigned number. -/
def digits (n : Nat) : Text := Nat.toDigits 10 n

/-- A signed number. -/
def signedDigits (n : Int) : Text := if n < 0 then '-' :: digits n.natAbs else digits n.natAbs

/-- `Display` of an `f64`. -/
def Decimal.text (d : Decimal) : Text :=
  (if d.negative then ['-'] else []) ++ digits d.whole
    ++ (if d.fraction.isEmpty then [] else '.' :: d.fraction.map fun i => i.val.digitChar)

/-- `Display` of `RtpCodecKind`. -/
def RtpCodecKind.text : RtpCodecKind → Text
  | .unspecified => "Unspecified".toList
  | .audio => "audio".toList
  | .video => "video".toList

/-- `Debug` of `RTCIceCandidateType`. -/
def RTCIceCandidateType.text : RTCIceCandidateType → Text
  | .unspecified => "Unspecified".toList
  | .host => "Host".toList
  | .srflx => "Srflx".toList
  | .prflx => "Prflx".toList
  | .relay => "Relay".toList

def RTCPeerConnectionStats.text (s : RTCPeerConnectionStats) : Text :=
  "\x7b\"type\":\"peer-connection\",\"data_channels_opened\":".toList
    ++ digits s.dataChannelsOpened.toNat
    ++ ",\"data_channels_closed\":".toList ++ digits s.dataChannelsClosed.toNat ++ "\x7d".toList

def RTCInboundRtpStreamStats.text (s : RTCInboundRtpStreamStats) : Text :=
  "\x7b\"type\":\"inbound-rtp\",\"ssrc\":".toList ++ digits s.ssrc.toNat
    ++ ",\"kind\":\"".toList ++ s.kind.text
    ++ "\",\"track_identifier\":\"".toList ++ s.trackIdentifier
    ++ "\",\"bytes_received\":".toList ++ digits s.bytesReceived.toNat
    ++ ",\"packets_received\":".toList ++ digits s.packetsReceived.toNat
    ++ ",\"packets_lost\":".toList ++ signedDigits s.packetsLost.toInt
    ++ ",\"jitter\":".toList ++ s.jitter.text
    ++ ",\"nack_count\":".toList ++ digits s.nackCount.toNat
    ++ ",\"fir_count\":".toList ++ digits s.firCount.toNat
    ++ ",\"pli_count\":".toList ++ digits s.pliCount.toNat ++ "\x7d".toList

def RTCIceCandidateStats.text (s : RTCIceCandidateStats) : Text :=
  "\x7b\"type\":\"remote-candidate\",\"address\":\"".toList ++ s.address.getD []
    ++ "\",\"port\":".toList ++ digits s.port.toNat
    ++ ",\"candidate_type\":\"".toList ++ s.candidateType.text ++ "\"\x7d".toList

/-- What an entry adds to the text. -/
def RTCStatsReportEntry.text : RTCStatsReportEntry → Text
  | .peerConnection s => s.text
  | .inboundRtp s => s.text
  | .remoteCandidate s => s.text
  | _ => []

/-- The loop over the entries: a comma before each but the first, whatever it prints. -/
def printEntries : Bool → List RTCStatsReportEntry → Text
  | _, [] => []
  | first, e :: es => (if first then [] else [',']) ++ e.text ++ printEntries false es

/-- The text of a report. -/
def reportText (report : List RTCStatsReportEntry) : Text :=
  '[' :: printEntries true report ++ [']']

/-- `into_cstring`: nothing, if there is a NUL inside. -/
def intoCstring (text : Text) : Text := if text.contains '\x00' then [] else text

/-- `webrtc_ffi_get_stats`. -/
def getStats (report : List RTCStatsReportEntry) : Text := intoCstring (reportText report)

end WebrtcBridge.Stats
