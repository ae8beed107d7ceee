/-
# RTP packets, and the packets an application writes

An application that has RTP packets already hands them over as bytes: `webrtc_ffi_write_rtp` looks
the track up, parses the bytes, puts the SSRC of the track into the header and gives the packet to
the track.

* §1  `Packet::unmarshal` and `Packet::marshal` around those of the header, with the padding at the
  end of the payload;
* §2  the round trip: a packet with a well-formed header is written and parsed back;
* §3  `webrtc_ffi_write_rtp`: whatever the bytes, it returns, and the track gets what the bytes of a
  written packet say, with its own SSRC;
* §4  the packets that the echo server builds for it.
-/
import WebrtcBridge.Ffi.LocalTracks
import WebrtcBridge.Rtp.Header
import WebrtcBridge.Server.Forwarder

namespace WebrtcBridge.Rtp

open Lib Server
open Ffi.LocalTracks (TrackRegs LocalTrack)

/-! ## 1. Packets -/

structure Packet where
  header : Header
  payload : List UInt8
  deriving DecidableEq, Repr

def getPadding (len : Nat) : Nat := if len % 4 = 0 then 0 else 4 - len % 4

namespace Packet

def unmarshal (raw : List UInt8) : Except Error Packet := do
  let (header, payload) ← Header.unmarshal raw
  if header.padding then
    match payload.getLast? with
    | some last =>
      let paddingLen := last.toNat
      if paddingLen ≤ payload.length then
        return ⟨header, payload.take (payload.length - paddingLen)⟩
      else throw .errShortPacket
    | none => throw .errShortPacket
  else return ⟨header, payload⟩

/-- The number of bytes behind the payload. -/
def paddingLen (p : Packet) : Nat :=
  if p.header.padding then
    if getPadding p.payload.length = 0 then 4 else getPadding p.payload.length
  else 0

def marshalSize (p : Packet) : Nat := p.header.marshalSize + p.payload.length + p.paddingLen

/-- Zeros, and their number in the last byte. -/
def paddingBytes (n : Nat) : List UInt8 :=
  (List.range n).map fun i => if i ≠ n - 1 then 0 else UInt8.ofNat n

/-- What `marshal_to` writes into a buffer with `remaining` bytes. -/
def marshalTo (p : Packet) (remaining : Nat) : Except Error (List UInt8) :=
  if remaining < p.marshalSize then .error .errBufferTooSmall
  else do
    let header ← p.header.marshalTo remaining
    return header ++ p.payload ++ paddingBytes p.paddingLen

def marshal (p : Packet) : Except Error (List UInt8) := do
  let bytes ← p.marshalTo p.marshalSize
  if bytes.length ≠ p.marshalSize then throw (.marshalSize bytes.length p.marshalSize)
  else return bytes

/-! ## 2. The round trip -/

theorem length_paddingBytes (n : Nat) : (paddingBytes n).length = n := by
  simp [paddingBytes]

theorem getLast?_paddingBytes {n : Nat} (hn : 0 < n) :
    (paddingBytes n).getLast? = some (UInt8.ofNat n) := by
  obtain ⟨k, rfl⟩ := Nat.exists_eq_succ_of_ne_zero (Nat.pos_iff_ne_zero.mp hn)
  simp [paddingBytes, List.range_succ]

theorem paddingLen_pos {p : Packet} (hp : p.header.padding = true) :
    0 < p.paddingLen ∧ p.paddingLen ≤ 4 := by
  unfold paddingLen getPadding
  rw [if_pos hp]
  split <;> split at * <;> omega


theorem marshal_eq {p : Packet} {bytes : List UInt8}
    (hbytes : p.header.marshal = .ok bytes) (hlen : bytes.length = p.header.marshalSize) :
    p.marshal = .ok (bytes ++ p.payload ++ paddingBytes p.paddingLen) := by
  have hto := Header.marshalTo_of_marshal hbytes
    (by unfold marshalSize; omega : p.header.marshalSize ≤ p.marshalSize)
  have hsize : (bytes ++ p.payload ++ paddingBytes p.paddingLen).length = p.marshalSize := by
    rw [List.length_append, List.length_append, length_paddingBytes, hlen, marshalSize]
  have hpkt : p.marshalTo p.marshalSize
      = .ok (bytes ++ p.payload ++ paddingBytes p.paddingLen) := by
    rw [marshalTo, if_neg (Nat.lt_irrefl _), hto]
    rfl
  simp only [marshal, hpkt, bind, Except.bind, hsize, ne_eq, not_true_eq_false, if_false]
  rfl

/-- The payload behind a header that says there is no padding. -/
theorem unmarshal_of_header {raw rest : List UInt8} {h : Header}
    (hh : Header.unmarshal raw = .ok (h, rest)) (hp : h.padding = false) :
    unmarshal raw = .ok ⟨h, rest⟩ := by
  simp only [unmarshal, hh, bind, Except.bind, hp, Bool.false_eq_true, if_false]
  rfl

theorem unmarshal_padded {raw payload : List UInt8} {h : Header} {n : Nat}
    (hn : 0 < n) (hn4 : n ≤ 4)
    (hh : Header.unmarshal raw = .ok (h, payload ++ paddingBytes n)) (hp : h.padding = true) :
    unmarshal raw = .ok ⟨h, payload⟩ := by
  have hne : paddingBytes n ≠ [] := fun h0 => by
    have := length_paddingBytes n
    rw [h0, List.length_nil] at this
    omega
  have hlast : (payload ++ paddingBytes n).getLast? = some (UInt8.ofNat n) := by
    rw [List.getLast?_append, getLast?_paddingBytes hn]
    rfl
  have hval : (UInt8.ofNat n).toNat = n := by
    rw [UInt8.toNat_ofNat']
    exact Nat.mod_eq_of_lt (by omega)
  have htake : (payload ++ paddingBytes n).take ((payload ++ paddingBytes n).length - n)
      = payload := by
    rw [List.length_append, length_paddingBytes, Nat.add_sub_cancel, List.take_left]
  simp only [unmarshal, hh, bind, Except.bind, hp, if_true, hlast, hval, htake]
  rw [if_pos (by rw [List.length_append, length_paddingBytes]; omega)]
  rfl

/-- **A packet with a well-formed header is written, in `marshal_size` bytes, and parsed back.** -/
theorem unmarshal_marshal (p : Packet) (hw : p.header.WellFormed) :
    ∃ bytes, p.marshal = .ok bytes ∧ bytes.length = p.marshalSize ∧ unmarshal bytes = .ok p := by
  obtain ⟨bytes, hbytes, hlen, hread⟩ :=
    hw.unmarshal_marshal (p.payload ++ paddingBytes p.paddingLen)
  rw [← List.append_assoc] at hread
  refine ⟨_, marshal_eq hbytes hlen, ?_, ?_⟩
  · rw [List.length_append, List.length_append, length_paddingBytes, hlen, marshalSize]
  · cases hp : p.header.padding with
    | true => exact unmarshal_padded (paddingLen_pos hp).1 (paddingLen_pos hp).2 hread hp
    | false =>
      have hnone : paddingBytes p.paddingLen = [] := by rw [paddingLen, hp]; rfl
      rw [hnone, List.append_nil, List.append_nil] at hread
      rw [hnone, List.append_nil]
      exact unmarshal_of_header hread hp

/-- The same with the header apart: its bytes are read as the header in front of anything. -/
theorem marshal_split (p : Packet) (hw : p.header.WellFormed) :
    ∃ bytes rest, p.marshal = .ok (bytes ++ rest) ∧ bytes.length = p.header.marshalSize
      ∧ (∀ tail, Header.unmarshal (bytes ++ tail) = .ok (p.header, tail))
      ∧ unmarshal (bytes ++ rest) = .ok p := by
  obtain ⟨bytes, hbytes, hlen, _⟩ := hw.unmarshal_marshal []
  have hmarshal := marshal_eq hbytes hlen
  rw [List.append_assoc] at hmarshal
  refine ⟨bytes, _, hmarshal, hlen, fun tail => ?_, ?_⟩
  · obtain ⟨bytes', hbytes', _, hread⟩ := hw.unmarshal_marshal tail
    rw [hbytes, Except.ok.injEq] at hbytes'
    rwa [hbytes']
  · obtain ⟨whole, hwhole, _, hread⟩ := p.unmarshal_marshal hw
    rw [hmarshal, Except.ok.injEq] at hwhole
    rwa [hwhole]

theorem unmarshal_ne_panic (raw : List UInt8) : unmarshal raw ≠ .error .panic := by
  refine bind_ne_panic (Header.unmarshal_ne_panic raw) fun ⟨h, rest⟩ _ => ?_
  simp only
  split
  · split
    · split
      · simp [pure, Except.pure]
      · simp [throw, throwThe, MonadExceptOf.throw]
    · simp [throw, throwThe, MonadExceptOf.throw]
  · simp [pure, Except.pure]

end Packet

/-! ## 3. Writing packets from the application -/

/-- What `webrtc_ffi_write_rtp` does: its result, and the call of `track.write_rtp` if there was
one. -/
structure WriteRtp where
  code : Int32
  written : Option (LocalTrack × Packet)
  deriving DecidableEq, Repr

/-- A packet with the SSRC of the track, if it has one. -/
def Packet.withSsrc (p : Packet) (ssrc : UInt32) : Packet :=
  if ssrc ≠ 0 then { p with header := { p.header with ssrc := ssrc } } else p

/-- `webrtc_ffi_write_rtp`.  A null pointer is `none`; `accepts` says whether the track takes the
packet, which it does while it is bound to a sender whose driver runs.  `none` as a result is a
panic. -/
def writeRtp (regs : TrackRegs) (accepts : LocalTrack → Packet → Bool) (trackId : UInt32)
    (data : Option (List UInt8)) : Option WriteRtp :=
  match data with
  | none => some ⟨-1, none⟩
  | some bytes =>
    if bytes.length = 0 then some ⟨-1, none⟩
    else
      match regs.localRtpTracks trackId with
      | none => some ⟨-2, none⟩
      | some (trackSsrc, track) =>
        match Packet.unmarshal bytes with
        | .error .panic => none
        | .error _ => some ⟨-3, none⟩
        | .ok packet =>
          let packet := packet.withSsrc trackSsrc
          if accepts track packet then some ⟨0, some (track, packet)⟩
          else some ⟨-4, some (track, packet)⟩

section WriteRtp

variable {regs : TrackRegs} (accepts : LocalTrack → Packet → Bool) {trackId ssrc : UInt32}
  {track : LocalTrack}

theorem writeRtp_of_unmarshal (htrack : regs.localRtpTracks trackId = some (ssrc, track))
    {bytes : List UInt8} {p : Packet} (hne : bytes ≠ []) (hp : Packet.unmarshal bytes = .ok p) :
    writeRtp regs accepts trackId (some bytes)
      = some ⟨if accepts track (p.withSsrc ssrc) then 0 else -4,
        some (track, p.withSsrc ssrc)⟩ := by
  have hlen : bytes.length ≠ 0 := fun h0 => hne (List.length_eq_zero_iff.mp h0)
  simp only [writeRtp, hlen, if_false, htrack, hp]
  cases accepts track (p.withSsrc ssrc) <;> rfl

/-- **No bytes of the application stop the program**, and what does not parse reaches no track. -/
theorem writeRtp_returns (regs : TrackRegs) (accepts : LocalTrack → Packet → Bool)
    (trackId : UInt32) (data : Option (List UInt8)) :
    ∃ r, writeRtp regs accepts trackId data = some r
      ∧ (r.written ≠ none ↔ r.code = 0 ∨ r.code = -4)
      ∧ ∀ track p, r.written = some (track, p) →
          ∃ bytes q ssrc, data = some bytes ∧ Packet.unmarshal bytes = .ok q
            ∧ regs.localRtpTracks trackId = some (ssrc, track) ∧ p = q.withSsrc ssrc := by
  unfold writeRtp
  cases data with
  | none => exact ⟨_, rfl, by simp, by simp⟩
  | some bytes =>
    by_cases hlen : bytes.length = 0
    · simp only [hlen, if_true]
      exact ⟨_, rfl, by simp, by simp⟩
    · simp only [hlen, if_false]
      cases htrack : regs.localRtpTracks trackId with
      | none => exact ⟨_, rfl, by simp, by simp⟩
      | some e =>
        obtain ⟨ssrc, track⟩ := e
        have hpanic := Packet.unmarshal_ne_panic bytes
        cases hp : Packet.unmarshal bytes with
        | error e =>
          cases e with
          | panic => exact absurd hp hpanic
          | _ => exact ⟨_, rfl, by simp, by simp⟩
        | ok q =>
          simp only
          split
          · refine ⟨_, rfl, by simp, ?_⟩
            rintro t p hw
            cases hw
            exact ⟨bytes, q, ssrc, rfl, hp, rfl, rfl⟩
          · refine ⟨_, rfl, by simp, ?_⟩
            rintro t p hw
            cases hw
            exact ⟨bytes, q, ssrc, rfl, hp, rfl, rfl⟩

/-- **What a track is given.**  The bytes of a packet with a well-formed header reach the track as
that packet, with the SSRC of the track. -/
theorem writeRtp_marshal (htrack : regs.localRtpTracks trackId = some (ssrc, track)) (p : Packet)
    (hw : p.header.WellFormed) :
    ∃ bytes, p.marshal = .ok bytes
      ∧ writeRtp regs accepts trackId (some bytes)
        = some ⟨if accepts track (p.withSsrc ssrc) then 0 else -4,
          some (track, p.withSsrc ssrc)⟩ := by
  obtain ⟨bytes, hbytes, hlen, hread⟩ := p.unmarshal_marshal hw
  have hne : bytes ≠ [] := by
    rintro rfl
    have hpos : 12 ≤ p.marshalSize := by
      unfold Packet.marshalSize Header.marshalSize Header.marshalSizeFor
      omega
    rw [← hlen] at hpos
    simp at hpos
  exact ⟨bytes, hbytes, writeRtp_of_unmarshal accepts htrack hne hread⟩

/-- A track, and registries with that track alone. -/
def opusTrack : LocalTrack := ⟨0, [], [], [], .audio, 22, [], 48000, 2, []⟩

def opusRegs : TrackRegs :=
  { TrackRegs.init with
    localRtpTracks := fun id => if id = 10000 then some (22, opusTrack) else none }

/-- A header with an extension and with padding at the end of the packet. -/
def opusHeader : Header :=
  { Header.plain true 111 7 960 5 with
    padding := true
    extension := true
    extensionProfile := EXTENSION_PROFILE_ONE_BYTE
    extensions := [⟨3, [8]⟩]
    extensionsPadding := 2 }

theorem opusHeader_wellFormed : opusHeader.WellFormed where
  version := by decide
  payloadType := by decide
  csrc := by decide
  none := fun h => by cases h
  some := fun _ => by decide
  elements := fun _ => by simp [opusHeader, Extension.Fits]
  block := fun _ h => absurd rfl h

theorem writeRtp_marshal_opus :
    ∃ bytes, Packet.marshal ⟨opusHeader, [1, 2, 3]⟩ = .ok bytes
      ∧ writeRtp opusRegs (fun _ _ => true) 10000 (some bytes)
        = some ⟨0, some (opusTrack, ⟨{ opusHeader with ssrc := 22 }, [1, 2, 3]⟩)⟩ :=
  writeRtp_marshal (fun _ _ => true) (rfl : opusRegs.localRtpTracks 10000 = some (22, opusTrack)) _
    opusHeader_wellFormed

/-! ## 4. Packets built by the echo server -/

/-- What `RtpPacket.build` makes is the packet with a plain header. -/
theorem buildPacket_eq (payloadType : Nat) (sequenceNumber : UInt16) (timestamp ssrc : UInt32)
    (payload : List UInt8) :
    buildPacket ssrc payloadType sequenceNumber timestamp payload
      = (Header.plain false (UInt8.ofNat (payloadType % 128)) sequenceNumber timestamp
        ssrc).fixedBytes ++ payload := by
  have hfirst : (2 : UInt8) <<< 6 = 0x80 := by decide
  simp [buildPacket, Header.fixedBytes, Header.b0, Header.b1, Header.plain, hfirst,
    shortBytes, intBytes, be16, be32]

theorem unmarshal_buildPacket (payloadType : Nat) (sequenceNumber : UInt16)
    (timestamp ssrc : UInt32) (payload : List UInt8) :
    Packet.unmarshal (buildPacket ssrc payloadType sequenceNumber timestamp payload)
      = .ok ⟨.plain false (UInt8.ofNat (payloadType % 128)) sequenceNumber timestamp ssrc,
        payload⟩ := by
  have hpt : (UInt8.ofNat (payloadType % 128)).toNat < 128 := by
    rw [UInt8.toNat_ofNat']
    omega
  have hw := Header.wellFormed_plain false sequenceNumber timestamp ssrc hpt
  obtain ⟨bytes, hbytes, _, hread⟩ := hw.unmarshal_marshal payload
  rw [(Header.marshal_none rfl).1, Except.ok.injEq] at hbytes
  rw [← hbytes, ← buildPacket_eq] at hread
  exact Packet.unmarshal_of_header hread rfl

/-- **An echoed packet on its way out.**  Whatever payload type, number, timestamp and payload the
echo server builds a packet from, the native side parses it, and the track it is written to gets it
with the marker clear and, if the track was created with an SSRC, with that one. -/
theorem writeRtp_buildPacket (htrack : regs.localRtpTracks trackId = some (ssrc, track))
    (payloadType : Nat) (sequenceNumber : UInt16) (timestamp builtSsrc : UInt32)
    (payload : List UInt8) :
    ∃ code, writeRtp regs accepts trackId
        (some (buildPacket builtSsrc payloadType sequenceNumber timestamp payload))
      = some ⟨code, some (track,
          ⟨.plain false (UInt8.ofNat (payloadType % 128)) sequenceNumber timestamp
            (if ssrc ≠ 0 then ssrc else builtSsrc), payload⟩)⟩ := by
  have hwrite := writeRtp_of_unmarshal accepts htrack (by simp [buildPacket])
    (unmarshal_buildPacket payloadType sequenceNumber timestamp builtSsrc payload)
  refine ⟨_, hwrite.trans (congrArg some (congrArg (WriteRtp.mk _) ?_))⟩
  by_cases hssrc : ssrc = 0 <;> simp [Packet.withSsrc, hssrc, Header.plain]

theorem writeRtp_buildPacket_opus :
    ∃ code, writeRtp opusRegs (fun _ _ => true) 10000 (some (buildPacket 5 111 7 960 [1, 2, 3]))
      = some ⟨code, some (opusTrack, ⟨.plain false 111 7 960 22, [1, 2, 3]⟩)⟩ :=
  writeRtp_buildPacket (fun _ _ => true)
    (rfl : opusRegs.localRtpTracks 10000 = some (22, opusTrack))
    111 7 960 5 [1, 2, 3]

end WriteRtp

end WebrtcBridge.Rtp
