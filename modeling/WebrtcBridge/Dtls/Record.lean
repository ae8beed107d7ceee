/-
# DTLS records and datagrams

A DTLS record is a header of 13 bytes and a content; a datagram is one record behind another.  The
header carries what the receiver decides by before any key is used: the content type, the epoch and
the number of the record.

* §1  headers: `RecordLayerHeader`, with the round trip;
* §2  contents: alerts, ChangeCipherSpec, application data.  Handshake messages are opaque here:
  their fragments are the subject of `Dtls.FragmentBuffer`;
* §3  datagrams: `unpack_datagram` takes records apart where they were put together.  A record with
  an EMPTY content is the exception that `Framed` excludes: at the end of a datagram it makes the
  whole datagram invalid.
-/
import WebrtcBridge.Lib.BigEndian

namespace WebrtcBridge.Dtls

open Lib

/-! ## 1. Headers -/

def RECORD_LAYER_HEADER_SIZE : Nat := 13
def MAX_SEQUENCE_NUMBER : Nat := 0x0000FFFFFFFFFFFF

inductive ContentType where
  | changeCipherSpec
  | alert
  | handshake
  | applicationData
  | invalid
  deriving DecidableEq, Repr

/-- `From<u8>`. -/
def ContentType.ofUInt8 (val : UInt8) : ContentType :=
  if val = 20 then .changeCipherSpec
  else if val = 21 then .alert
  else if val = 22 then .handshake
  else if val = 23 then .applicationData
  else .invalid

/-- `as u8`. -/
def ContentType.toUInt8 : ContentType → UInt8
  | .changeCipherSpec => 20
  | .alert => 21
  | .handshake => 22
  | .applicationData => 23
  | .invalid => 24

@[simp] theorem ContentType.ofUInt8_toUInt8 (c : ContentType) :
    ContentType.ofUInt8 c.toUInt8 = c := by
  cases c <;> rfl

structure ProtocolVersion where
  major : UInt8
  minor : UInt8
  deriving DecidableEq, Repr

def PROTOCOL_VERSION1_0 : ProtocolVersion := ⟨0xfe, 0xff⟩
def PROTOCOL_VERSION1_2 : ProtocolVersion := ⟨0xfe, 0xfd⟩

inductive AlertLevel where
  | warning
  | fatal
  | invalid
  deriving DecidableEq, Repr

inductive AlertDescription where
  | closeNotify
  | unexpectedMessage
  | badRecordMac
  | decryptionFailed
  | recordOverflow
  | decompressionFailure
  | handshakeFailure
  | noCertificate
  | badCertificate
  | unsupportedCertificate
  | certificateRevoked
  | certificateExpired
  | certificateUnknown
  | illegalParameter
  | unknownCa
  | accessDenied
  | decodeError
  | decryptError
  | exportRestriction
  | protocolVersion
  | insufficientSecurity
  | internalError
  | userCanceled
  | noRenegotiation
  | unsupportedExtension
  | unknownPskIdentity
  | invalid
  deriving DecidableEq, Repr

structure Alert where
  alertLevel : AlertLevel
  alertDescription : AlertDescription
  deriving DecidableEq, Repr

inductive Error where
  | sequenceNumberOverflow
  | unsupportedProtocolVersion
  | unexpectedEof
  | invalidPacketLength
  | invalidContentType
  | invalidCipherSpec
  | fragmentBufferOverflow (newSize maxSize : Nat)
  | emptyFragment
  | handshakeMessage
  | alertFatalOrClose
  | alert (a : Alert)
  | applicationDataEpochZero
  | unhandledContextType
  | connClosed
  | cipher
  deriving DecidableEq, Repr

/-- `RecordLayerHeader`.  The number is a `u64` that holds 48 bits. -/
structure RecordLayerHeader where
  contentType : ContentType
  protocolVersion : ProtocolVersion
  epoch : UInt16
  sequenceNumber : Nat
  contentLen : UInt16
  deriving DecidableEq, Repr

namespace RecordLayerHeader

def bytes (h : RecordLayerHeader) : List UInt8 :=
  [h.contentType.toUInt8, h.protocolVersion.major, h.protocolVersion.minor]
    ++ (be16 h.epoch ++ (beBytes 6 h.sequenceNumber ++ be16 h.contentLen))

def marshal (h : RecordLayerHeader) : Except Error (List UInt8) :=
  if MAX_SEQUENCE_NUMBER < h.sequenceNumber then .error .sequenceNumberOverflow else .ok h.bytes

def unmarshal (reader : List UInt8) : Except Error (RecordLayerHeader × List UInt8) := do
  let (contentType, reader) ← getU8 Error.unexpectedEof reader
  let (major, reader) ← getU8 Error.unexpectedEof reader
  let (minor, reader) ← getU8 Error.unexpectedEof reader
  let (epoch, reader) ← getU16 Error.unexpectedEof reader
  let (sequenceNumber, reader) ← getUint Error.unexpectedEof 6 reader
  let protocolVersion : ProtocolVersion := ⟨major, minor⟩
  if protocolVersion ≠ PROTOCOL_VERSION1_0 ∧ protocolVersion ≠ PROTOCOL_VERSION1_2 then
    throw Error.unsupportedProtocolVersion
  let (contentLen, reader) ← getU16 Error.unexpectedEof reader
  return (⟨.ofUInt8 contentType, protocolVersion, epoch, sequenceNumber, contentLen⟩, reader)

/-- A header that the code writes: one of the two versions and a number of 48 bits. -/
structure WellFormed (h : RecordLayerHeader) : Prop where
  version : h.protocolVersion = PROTOCOL_VERSION1_0 ∨ h.protocolVersion = PROTOCOL_VERSION1_2
  number : h.sequenceNumber ≤ MAX_SEQUENCE_NUMBER

variable {h : RecordLayerHeader}

@[simp] theorem length_bytes (h : RecordLayerHeader) :
    h.bytes.length = RECORD_LAYER_HEADER_SIZE := by
  simp [bytes, RECORD_LAYER_HEADER_SIZE]

theorem WellFormed.marshal (hw : h.WellFormed) : h.marshal = .ok h.bytes :=
  if_neg (Nat.not_lt.mpr hw.number)

/-- **What is written is read**, whatever follows. -/
theorem WellFormed.unmarshal (hw : h.WellFormed) (rest : List UInt8) :
    RecordLayerHeader.unmarshal (h.bytes ++ rest) = .ok (h, rest) := by
  have hnumber : h.sequenceNumber < 256 ^ 6 := by
    have := hw.number
    unfold MAX_SEQUENCE_NUMBER at this
    omega
  have hversion : ¬ ((⟨h.protocolVersion.major, h.protocolVersion.minor⟩ : ProtocolVersion)
      ≠ PROTOCOL_VERSION1_0
      ∧ (⟨h.protocolVersion.major, h.protocolVersion.minor⟩ : ProtocolVersion)
        ≠ PROTOCOL_VERSION1_2) := by
    rintro ⟨h0, h2⟩
    rcases hw.version with hv | hv
    · exact h0 hv
    · exact h2 hv
  simp only [RecordLayerHeader.unmarshal, bytes, List.cons_append, List.nil_append,
    List.append_assoc, getU8_cons, getU16_be16, getUint_beBytes _ _ hnumber, bind, Except.bind,
    if_neg hversion, pure, Except.pure, ContentType.ofUInt8_toUInt8]

end RecordLayerHeader

/-! ## 2. Contents -/

def AlertLevel.ofUInt8 (val : UInt8) : AlertLevel :=
  if val = 1 then .warning else if val = 2 then .fatal else .invalid

/-- The descriptions and their numbers. -/
def alertDescriptions : List (Nat × AlertDescription) :=
  [(0, .closeNotify), (10, .unexpectedMessage), (20, .badRecordMac), (21, .decryptionFailed),
    (22, .recordOverflow), (30, .decompressionFailure), (40, .handshakeFailure),
    (41, .noCertificate), (42, .badCertificate), (43, .unsupportedCertificate),
    (44, .certificateRevoked), (45, .certificateExpired), (46, .certificateUnknown),
    (47, .illegalParameter), (48, .unknownCa), (49, .accessDenied), (50, .decodeError),
    (51, .decryptError), (60, .exportRestriction), (70, .protocolVersion),
    (71, .insufficientSecurity), (80, .internalError), (90, .userCanceled),
    (100, .noRenegotiation), (110, .unsupportedExtension), (115, .unknownPskIdentity)]

def AlertDescription.ofUInt8 (val : UInt8) : AlertDescription :=
  (alertDescriptions.lookup val.toNat).getD .invalid

def Alert.unmarshal (reader : List UInt8) : Except Error Alert := do
  let (alertLevel, reader) ← getU8 Error.unexpectedEof reader
  let (alertDescription, _) ← getU8 Error.unexpectedEof reader
  return ⟨.ofUInt8 alertLevel, .ofUInt8 alertDescription⟩

def ChangeCipherSpec.unmarshal (reader : List UInt8) : Except Error Unit := do
  let (data, _) ← getU8 Error.unexpectedEof reader
  if data ≠ 0x01 then throw Error.invalidCipherSpec

/-- `Content`; a handshake message is what `Handshake::unmarshal` reads. -/
inductive Content where
  | changeCipherSpec
  | alert (a : Alert)
  | handshake (raw : List UInt8)
  | applicationData (data : List UInt8)
  deriving DecidableEq, Repr

structure RecordLayer where
  recordLayerHeader : RecordLayerHeader
  content : Content
  deriving DecidableEq, Repr

/-- `RecordLayer::unmarshal`; `parses` says whether `Handshake::unmarshal` succeeds. -/
def RecordLayer.unmarshal (parses : List UInt8 → Bool) (reader : List UInt8) :
    Except Error RecordLayer := do
  let (h, reader) ← RecordLayerHeader.unmarshal reader
  match h.contentType with
  | .alert =>
    let a ← Alert.unmarshal reader
    return ⟨h, .alert a⟩
  | .applicationData => return ⟨h, .applicationData reader⟩
  | .changeCipherSpec =>
    let _ ← ChangeCipherSpec.unmarshal reader
    return ⟨h, .changeCipherSpec⟩
  | .handshake =>
    if parses reader then return ⟨h, .handshake reader⟩ else throw Error.handshakeMessage
  | .invalid => throw Error.invalidContentType

/-! ## 3. Datagrams -/

/-- The loop of `unpack_datagram` over what is behind the offset; the fuel is the length of it. -/
def unpackLoop : Nat → List UInt8 → Except Error (List (List UInt8))
  | 0, _ => .ok []
  | fuel + 1, buf =>
    if buf.length = 0 then .ok []
    else if buf.length ≤ RECORD_LAYER_HEADER_SIZE then .error .invalidPacketLength
    else
      let pktLen := RECORD_LAYER_HEADER_SIZE
        + beValue ((buf.drop (RECORD_LAYER_HEADER_SIZE - 2)).take 2)
      if buf.length < pktLen then .error .invalidPacketLength
      else do
        let rest ← unpackLoop fuel (buf.drop pktLen)
        return buf.take pktLen :: rest

def unpackDatagram (buf : List UInt8) : Except Error (List (List UInt8)) :=
  unpackLoop buf.length buf

/-- A record as it goes out: its length field counts a content that is not empty. -/
def Framed (r : List UInt8) : Prop :=
  RECORD_LAYER_HEADER_SIZE < r.length
    ∧ beValue ((r.drop (RECORD_LAYER_HEADER_SIZE - 2)).take 2) + RECORD_LAYER_HEADER_SIZE = r.length

instance (r : List UInt8) : Decidable (Framed r) := inferInstanceAs (Decidable (_ ∧ _))

theorem framed_record (h : RecordLayerHeader) {body : List UInt8} (hne : body ≠ [])
    (hlen : h.contentLen.toNat = body.length) : Framed (h.bytes ++ body) := by
  have hsize : RECORD_LAYER_HEADER_SIZE = 13 := rfl
  have hpos : 0 < body.length := List.length_pos_iff.mpr hne
  have hfront : h.bytes = ([h.contentType.toUInt8, h.protocolVersion.major, h.protocolVersion.minor]
      ++ (be16 h.epoch ++ beBytes 6 h.sequenceNumber)) ++ be16 h.contentLen := by
    simp [RecordLayerHeader.bytes]
  have hfield :
      ((h.bytes ++ body).drop (RECORD_LAYER_HEADER_SIZE - 2)).take 2 = be16 h.contentLen := by
    rw [hfront, List.append_assoc, List.drop_left' (by simp [hsize]),
      List.take_left' (length_be16 _)]
  have hvalue : beValue (be16 h.contentLen) = h.contentLen.toNat := by
    have hread := ofBe16_be16 h.contentLen
    have hlt := h.contentLen.toNat_lt
    have hnat := congrArg UInt16.toNat hread
    rw [ofBe16, UInt16.toNat_ofNat'] at hnat
    simp only [be16, beValue, List.foldl_cons, List.foldl_nil, Nat.zero_mul, Nat.zero_add]
    have h1 := (h.contentLen >>> 8).toUInt8.toNat_lt
    have h0 := h.contentLen.toUInt8.toNat_lt
    omega
  refine ⟨?_, ?_⟩
  · rw [List.length_append, h.length_bytes]
    omega
  · rw [hfield, hvalue, List.length_append, h.length_bytes, hlen, Nat.add_comm]

/-- **Records are taken apart where they were put together.** -/
theorem unpackLoop_framed {rs : List (List UInt8)} (hrs : ∀ r ∈ rs, Framed r) {fuel : Nat}
    (hfuel : rs.flatten.length ≤ fuel) : unpackLoop fuel rs.flatten = .ok rs := by
  induction rs generalizing fuel with
  | nil => cases fuel <;> rfl
  | cons r rs ih =>
    obtain ⟨hlong, hlen⟩ := hrs r List.mem_cons_self
    have hsize : RECORD_LAYER_HEADER_SIZE = 13 := rfl
    rw [List.flatten_cons, List.length_append] at hfuel
    obtain ⟨fuel, rfl⟩ : ∃ k, fuel = k + 1 := ⟨fuel - 1, by omega⟩
    have hfield : ((r ++ rs.flatten).drop (RECORD_LAYER_HEADER_SIZE - 2)).take 2
        = (r.drop (RECORD_LAYER_HEADER_SIZE - 2)).take 2 := by
      rw [List.drop_append_of_le_length (by omega),
        List.take_append_of_le_length (by rw [List.length_drop]; omega)]
    have hpkt : RECORD_LAYER_HEADER_SIZE
        + beValue (((r ++ rs.flatten).drop (RECORD_LAYER_HEADER_SIZE - 2)).take 2) = r.length := by
      rw [hfield]
      omega
    have hne : (r ++ rs.flatten).length ≠ 0 := by
      rw [List.length_append]
      omega
    have henough : ¬ (r ++ rs.flatten).length ≤ RECORD_LAYER_HEADER_SIZE := by
      rw [List.length_append]
      omega
    have hfits : ¬ (r ++ rs.flatten).length < r.length := by
      rw [List.length_append]
      omega
    rw [List.flatten_cons, unpackLoop, if_neg hne, if_neg henough]
    simp only [hpkt]
    rw [if_neg hfits, List.drop_left, List.take_left,
      ih (fun r' hr' => hrs r' (List.mem_cons_of_mem _ hr')) (by omega)]
    rfl

theorem unpackDatagram_framed {rs : List (List UInt8)} (hrs : ∀ r ∈ rs, Framed r) :
    unpackDatagram rs.flatten = .ok rs := unpackLoop_framed hrs (Nat.le_refl _)

end WebrtcBridge.Dtls
