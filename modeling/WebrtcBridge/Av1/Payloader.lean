/-
# From a frame to RTP payloads: `Av1Payloader::payload`

The payloader parses the frame, asks `packetize` for the layout and then writes the packets, OBU by
OBU, from header, extension byte and payload of each.  It never has the bytes of an OBU in one
place: an element that starts at offset 1 begins with the extension byte, one that starts behind
the header is a slice of the payload.

Indexing, slicing and unsigned subtraction panic in Rust; here such a step gives `none`.
`payload_frame` says that no packet of a frame panics and that what is written is the wire format of
the abstract packets, for every MTU from 3 on; `wire_length_le` that each of them fits the MTU.
-/
import WebrtcBridge.Av1.Packetizer

namespace WebrtcBridge.Av1

open Lib Lib.Leb128

/-! ## 1. The code -/

/-- Unsigned subtraction. -/
def checkedSub (a b : Nat) : Option Nat := if b ≤ a then some (a - b) else none

/-- `Bytes::slice(start..stop)`. -/
def slice (bytes : List UInt8) (start stop : Nat) : Option (List UInt8) :=
  if start ≤ stop ∧ stop ≤ bytes.length then some ((bytes.drop start).take (stop - start)) else none

/-- Where in its payload an element of an OBU starts. -/
def payloadOffset (obu : Obu) (obuOffset : Nat) : Nat :=
  if headerSize obu.header < obuOffset then obuOffset - headerSize obu.header else 0

/-- An element that is not the last of its packet: the OBU from `obuOffset` to its end. -/
def putObu (obu : Obu) (obuOffset : Nat) : Option (List UInt8) := do
  let header := if obuOffset = 0 then [withoutSizeBit obu.header] else []
  let extension :=
    if obuOffset ≤ 1 ∧ obuHasExtension obu.header = true then [obu.extensionHeader] else []
  let start := payloadOffset obu obuOffset
  let payloadSize ← checkedSub obu.payload.length start
  let body ← slice obu.payload start (start + payloadSize)
  return header ++ extension ++ body

/-- The last element of a packet: `fragmentSize` bytes of the OBU from `obuOffset` on. -/
def putLastObu (obu : Obu) (obuOffset fragmentSize : Nat) : Option (List UInt8) := do
  let header :=
    if obuOffset = 0 ∧ 0 < fragmentSize then [withoutSizeBit obu.header] else []
  let fragmentSize := fragmentSize - header.length
  let extension :=
    if obuOffset ≤ 1 ∧ obuHasExtension obu.header = true ∧ 0 < fragmentSize then
      [obu.extensionHeader] else []
  let fragmentSize := fragmentSize - extension.length
  let start := payloadOffset obu obuOffset
  let body ← slice obu.payload start (start + fragmentSize)
  return header ++ extension ++ body

/-- The elements of a packet from OBU `i` on: so many whole ones, and the last.  All start at the
beginning of their OBU except, maybe, the first. -/
def storeElements (obus : List Obu) (packet : PacketMetadata) :
    Nat → Nat → Nat → Option (List UInt8)
  | 0, i, obuOffset => do
    let lastObu ← obus[i]?
    let size := if maxNumObusToOmitSize < packet.numObuElements then putLeb128 packet.lastObuSize
      else []
    let element ← putLastObu lastObu obuOffset packet.lastObuSize
    return size ++ element
  | n + 1, i, obuOffset => do
    let obu ← obus[i]?
    let fragmentSize ← checkedSub obu.size obuOffset
    let element ← putObu obu obuOffset
    let rest ← storeElements obus packet n (i + 1) 0
    return putLeb128 fragmentSize ++ element ++ rest

/-- The `N` flag: the first packet of a frame that starts with a sequence header. -/
def startsSequence (obus : List Obu) : Bool := obus.head?.any fun obu => obuType obu.header == 1

/-- `get_aggregation_header`. -/
def getAggregationHeader (obus : List Obu) (packet : PacketMetadata) (packetIndex : Nat) :
    Option UInt8 := do
  let lastObuOffset := if packet.numObuElements = 1 then packet.firstObuOffset else 0
  let lastIndex ← checkedSub (packet.firstObuIndex + packet.numObuElements) 1
  let lastObu ← obus[lastIndex]?
  let z := flagBit (0 < packet.firstObuOffset) 0b10000000
  let y := flagBit (lastObuOffset + packet.lastObuSize < lastObu.size) 0b01000000
  let w := if packet.numObuElements ≤ maxNumObusToOmitSize then
    UInt8.ofNat packet.numObuElements <<< 4 else 0
  let n := flagBit (packetIndex == 0 && startsSequence obus) 0b00001000
  return z ||| y ||| w ||| n

/-- One packet. -/
def payloadPacket (obus : List Obu) (packet : PacketMetadata) (packetIndex : Nat) :
    Option (List UInt8) := do
  let aggregationHeader ← getAggregationHeader obus packet packetIndex
  let n ← checkedSub packet.numObuElements 1
  let elements ← storeElements obus packet n packet.firstObuIndex packet.firstObuOffset
  return aggregationHeader :: elements

/-- The loop over the packets from number `packetIndex` on. -/
def payloadLoop (obus : List Obu) : Nat → List PacketMetadata → Option (List (List UInt8))
  | _, [] => some []
  | packetIndex, packet :: packets => do
    let out ← payloadPacket obus packet packetIndex
    let outs ← payloadLoop obus (packetIndex + 1) packets
    return out :: outs

/-- `Av1Payloader::payload`. -/
def payload (mtu : Nat) (bytes : List UInt8) : Except ParseError (List (List UInt8)) := do
  let obus ← parseObus bytes
  match payloadLoop obus 0 (packetize obus mtu) with
  | some payloads => .ok payloads
  | none => .error .panicked

/-! ## 2. Elements -/

theorem slice_eq (bytes : List UInt8) (start n : Nat) (h : start + n ≤ bytes.length) :
    slice bytes start (start + n) = some ((bytes.drop start).take n) := by
  rw [slice, if_pos ⟨by omega, h⟩, Nat.add_sub_cancel_left]

/-- What is left of the header byte from an offset on. -/
def headerFrom (obu : Obu) (offset : Nat) : List UInt8 :=
  if offset = 0 then [withoutSizeBit obu.header] else []

/-- What is left of the extension byte from an offset on. -/
def extensionFrom (obu : Obu) (offset : Nat) : List UInt8 :=
  if offset ≤ 1 ∧ obuHasExtension obu.header = true then [obu.extensionHeader] else []

/-- An OBU from an offset on is what is left of its header and of its payload. -/
theorem drop_bytes (obu : Obu) (offset : Nat) :
    obu.bytes.drop offset = headerFrom obu offset ++ extensionFrom obu offset
      ++ obu.payload.drop (payloadOffset obu offset) := by
  by_cases hext : obuHasExtension obu.header = true
  · -- the header, the extension, and the payload start at offsets 0, 1 and 2
    rcases offset with _ | _ | _ | n <;>
      simp [headerFrom, extensionFrom, Obu.bytes, Obu.extensionBytes, payloadOffset, headerSize,
        hext]
  · rcases offset with _ | _ | n <;>
      simp [headerFrom, extensionFrom, Obu.bytes, Obu.extensionBytes, payloadOffset, headerSize,
        hext]

theorem payloadOffset_le {obu : Obu} {offset : Nat} (h : offset ≤ obu.size) :
    payloadOffset obu offset ≤ obu.payload.length := by
  rw [obu.size_eq] at h
  unfold payloadOffset
  split <;> omega

theorem putObu_eq {obu : Obu} {offset : Nat} (h : offset ≤ obu.size) :
    putObu obu offset = some (obu.bytes.drop offset) := by
  have hle := payloadOffset_le h
  have hslice : slice obu.payload (payloadOffset obu offset)
      (payloadOffset obu offset + (obu.payload.length - payloadOffset obu offset))
        = some (obu.payload.drop (payloadOffset obu offset)) := by
    rw [slice_eq _ _ _ (by omega), List.take_of_length_le (by simp)]
  simp only [putObu, checkedSub, hle, if_true, Option.bind_eq_bind, Option.bind_some, hslice,
    drop_bytes]
  rfl

theorem take_short {bytes : List UInt8} (h : bytes.length ≤ 1) (len : Nat) :
    bytes.take len = (if 0 < len then bytes else [])
      ∧ len - (bytes.take len).length = len - bytes.length := by
  cases len with
  | zero => simp
  | succ len =>
    have hall : bytes.take (len + 1) = bytes := List.take_of_length_le (by omega)
    simp [hall]

theorem putLastObu_eq {obu : Obu} {offset len : Nat} (h : offset + len ≤ obu.size) :
    putLastObu obu offset len = some ((obu.bytes.drop offset).take len) := by
  have hheader : (headerFrom obu offset).length ≤ 1 := by
    unfold headerFrom
    split <;> simp
  have hextension : (extensionFrom obu offset).length ≤ 1 := by
    unfold extensionFrom
    split <;> simp
  -- header and extension byte are written as far as the fragment reaches
  have h1 : (if offset = 0 ∧ 0 < len then [withoutSizeBit obu.header] else [])
      = (headerFrom obu offset).take len := by
    rw [(take_short hheader len).1, headerFrom]
    by_cases h0 : offset = 0 <;> by_cases hpos : 0 < len <;> simp [h0, hpos]
  have h2 : ∀ m, (if offset ≤ 1 ∧ obuHasExtension obu.header = true ∧ 0 < m then
      [obu.extensionHeader] else []) = (extensionFrom obu offset).take m := by
    intro m
    rw [(take_short hextension m).1, extensionFrom]
    by_cases h0 : offset ≤ 1 <;> by_cases hext : obuHasExtension obu.header = true <;>
      by_cases hpos : 0 < m <;> simp [h0, hext, hpos]
  have hlength := congrArg List.length (drop_bytes obu offset)
  simp only [List.length_append, List.length_drop, obu.length_bytes] at hlength
  have hle := payloadOffset_le (show offset ≤ obu.size by omega)
  have hslice := slice_eq obu.payload (payloadOffset obu offset)
    (len - ((headerFrom obu offset).length + (extensionFrom obu offset).length)) (by omega)
  simp only [putLastObu, h1, (take_short hheader len).2, h2, (take_short hextension _).2,
    Nat.sub_sub, hslice, Option.bind_eq_bind, Option.bind_some, drop_bytes, List.take_append,
    List.length_append]
  rfl

/-! ## 3. Packets -/

section

variable {obus : List Obu} {mtu : Nat}

theorem getElem?_of_items (obus : List Obu) (i : Nat) (h : i < (obus.map Obu.bytes).length) :
    ∃ o ∈ obus, obus[i]? = some o ∧ (obus.map Obu.bytes).getD i [] = o.bytes := by
  rw [List.length_map] at h
  refine ⟨obus[i], List.getElem_mem h, List.getElem?_eq_getElem h, ?_⟩
  rw [List.getD_eq_getElem _ _ (by simpa using h), List.getElem_map]

/-- **The elements of a packet** are the pieces of its span. -/
theorem storeElements_eq (hlimit : ∀ o ∈ obus, o.size < 2 ^ 32) (p : PacketMetadata) :
    ∀ (n i offset : Nat), i + (n + 1) ≤ (obus.map Obu.bytes).length →
      offset ≤ ((obus.map Obu.bytes).getD i []).length →
      (if n = 0 then offset else 0) + p.lastObuSize
        ≤ ((obus.map Obu.bytes).getD (i + n) []).length →
      storeElements obus p n i offset
        = some (elementsBytes (mustWriteObuElementSize p.numObuElements)
            (piecesFrom (obus.map Obu.bytes) i offset (n + 1) p.lastObuSize))
  | 0, i, offset, hi, _, hend => by
    obtain ⟨o, ho, hget, hitem⟩ := getElem?_of_items obus i (by omega)
    have hlt := hlimit o ho
    simp only [if_true, Nat.add_zero, hitem, o.length_bytes] at hend
    have hlen : ((o.bytes.drop offset).take p.lastObuSize).length = p.lastObuSize := by
      rw [List.length_take, List.length_drop, o.length_bytes]
      omega
    simp only [storeElements, hget, Option.bind_eq_bind, Option.bind_some, putLastObu_eq hend,
      piecesFrom, hitem, elementsBytes, lastElement, mustWriteObuElementSize, decide_eq_true_eq]
    by_cases hmust : maxNumObusToOmitSize < p.numObuElements
    · simp only [hmust, if_true, sizedElement, hlen,
        putLeb128_eq (show p.lastObuSize < 2 ^ 32 by omega)]
      rfl
    · simp only [hmust, if_false]
      rfl
  | n + 1, i, offset, hi, hoff, hend => by
    obtain ⟨o, ho, hget, hitem⟩ := getElem?_of_items obus i (by omega)
    have hlt := hlimit o ho
    rw [hitem, o.length_bytes] at hoff
    have hrest := storeElements_eq hlimit p n (i + 1) 0 (by omega) (Nat.zero_le _) (by
      rw [show i + 1 + n = i + (n + 1) by omega]
      simpa using hend)
    have hlen : (o.bytes.drop offset).length = o.size - offset := by
      rw [List.length_drop, o.length_bytes]
    have hne : piecesFrom (obus.map Obu.bytes) (i + 1) 0 (n + 1) p.lastObuSize ≠ [] := by
      refine List.ne_nil_of_length_pos ?_
      rw [length_piecesFrom]
      omega
    simp only [storeElements, hget, Option.bind_eq_bind, Option.bind_some, checkedSub,
      hoff, if_true,
      putObu_eq hoff, hrest, piecesFrom, hitem, elementsBytes_cons hne, sizedElement, hlen,
      putLeb128_eq (show o.size - offset < 2 ^ 32 by omega)]
    rfl

/-- **The aggregation header** has the flags of the packet. -/
theorem getAggregationHeader_eq {p : PacketMetadata} (h : p.span.Valid (obus.map Obu.bytes))
    (packetIndex : Nat) :
    getAggregationHeader obus p packetIndex
      = some (aggregationByte (p.span.packet (obus.map Obu.bytes)).continued
          (p.span.packet (obus.map Obu.bytes)).unfinished (countField p.numObuElements)
          (packetIndex == 0 && startsSequence obus)) := by
  have hpos : 1 ≤ p.numObuElements := h.count_pos
  have hbound : p.firstObuIndex + p.numObuElements ≤ (obus.map Obu.bytes).length := h.bound
  obtain ⟨o, -, hget, hitem⟩ := getElem?_of_items obus
    (p.firstObuIndex + p.numObuElements - 1) (by omega)
  have hw : (if p.numObuElements ≤ maxNumObusToOmitSize then UInt8.ofNat p.numObuElements <<< 4
      else 0) = UInt8.ofNat (countField p.numObuElements).val <<< 4 := by
    by_cases hle : p.numObuElements ≤ maxNumObusToOmitSize
    · rw [if_pos hle, countField_of_le hle]
    · rw [if_neg hle, countField_of_gt (Nat.lt_of_not_le hle)]
      rfl
  have hlast : (obus.map Obu.bytes).getD p.span.last [] = o.bytes := hitem
  simp only [getAggregationHeader, checkedSub, show 1 ≤ p.firstObuIndex + p.numObuElements by omega,
    if_true, Option.bind_eq_bind, Option.bind_some, hget, hw, aggregationByte, Span.packet, hlast,
    o.length_bytes]
  rfl

/-- **A packet** is the wire format of its span. -/
theorem payloadPacket_eq (hlimit : ∀ o ∈ obus, o.size < 2 ^ 32) {p : PacketMetadata}
    (h : p.span.Valid (obus.map Obu.bytes)) (packetIndex : Nat) :
    payloadPacket obus p packetIndex
      = some (wire (packetIndex == 0 && startsSequence obus)
        (p.span.packet (obus.map Obu.bytes))) := by
  obtain ⟨n, hn⟩ : ∃ n, p.numObuElements = n + 1 :=
    ⟨p.numObuElements - 1, by have : 1 ≤ p.numObuElements := h.count_pos; omega⟩
  have hbound : p.firstObuIndex + p.numObuElements ≤ (obus.map Obu.bytes).length := h.bound
  have hoffset : p.firstObuOffset < ((obus.map Obu.bytes).getD p.firstObuIndex []).length :=
    h.offset_lt
  have hend := h.end_le
  have hlast : p.span.last = p.firstObuIndex + n := by simp [Span.last, PacketMetadata.span, hn]
  rw [hlast] at hend
  simp only [Span.endOffset, PacketMetadata.span, hn, Nat.add_eq_right] at hend
  have hstore := storeElements_eq hlimit p n p.firstObuIndex p.firstObuOffset (by omega) (by omega)
    hend
  have hcount : (p.span.packet (obus.map Obu.bytes)).pieces.length = p.numObuElements := by
    simp only [Span.packet, Span.pieces, length_piecesFrom, PacketMetadata.span]
  simp only [payloadPacket, getAggregationHeader_eq h, checkedSub, hn,
    show 1 ≤ n + 1 by omega, if_true, Nat.add_sub_cancel, Option.bind_eq_bind, Option.bind_some,
    hstore, wire, hcount]
  simp only [Span.packet, Span.pieces, PacketMetadata.span, hn, mustWriteObuElementSize,
    maxNumObusToOmitSize]
  rfl

theorem payloadLoop_eq (hlimit : ∀ o ∈ obus, o.size < 2 ^ 32) : ∀ (packets : List PacketMetadata)
    (packetIndex : Nat), 0 < packetIndex →
    (∀ p ∈ packets, p.span.Valid (obus.map Obu.bytes)) →
    payloadLoop obus packetIndex packets
      = some ((packets.map fun p => p.span.packet (obus.map Obu.bytes)).map (wire false))
  | [], _, _, _ => rfl
  | p :: packets, packetIndex, hpos, h => by
    have hindex : (packetIndex == 0) = false := by simpa using Nat.ne_of_gt hpos
    have hrest := payloadLoop_eq hlimit packets (packetIndex + 1) (Nat.succ_pos _)
      fun q hq => h q (List.mem_cons_of_mem p hq)
    simp only [payloadLoop, payloadPacket_eq hlimit (h p (by simp)), hindex, Bool.false_and,
      Option.bind_eq_bind, Option.bind_some, hrest]
    rfl

end

/-! ## 4. Frames -/

/-- The abstract packets of some OBUs. -/
def packetsOf (obus : List Obu) (mtu : Nat) : List (Packet UInt8) :=
  ((packetize obus mtu).map PacketMetadata.span).map (Span.packet (obus.map Obu.bytes))

/-- **The payloader never fails on a frame**, and it writes the wire format of the abstract
packets. -/
theorem payload_frame (f : Frame) {mtu : Nat} (hmtu : 3 ≤ mtu)
    (hlimit : ∀ o ∈ f.kept, o.size < 2 ^ 32) :
    payload mtu f.bytes = .ok (wires (startsSequence f.kept) (packetsOf f.kept mtu)) := by
  obtain ⟨hchain, -⟩ := packetize_spec f.kept hmtu hlimit
  have hvalid : ∀ p ∈ packetize f.kept mtu, p.span.Valid (f.kept.map Obu.bytes) := fun p hp =>
    hchain.valid p.span (List.mem_map.mpr ⟨p, hp, rfl⟩)
  have hloop : payloadLoop f.kept 0 (packetize f.kept mtu)
      = some (wires (startsSequence f.kept) (packetsOf f.kept mtu)) := by
    unfold packetsOf
    generalize packetize f.kept mtu = packets at hvalid ⊢
    cases packets with
    | nil => rfl
    | cons p packets =>
      have hrest := payloadLoop_eq hlimit packets 1 Nat.one_pos
        fun q hq => hvalid q (List.mem_cons_of_mem p hq)
      simp only [payloadLoop, payloadPacket_eq hlimit (hvalid p (by simp)), beq_self_eq_true,
        Bool.true_and, Option.bind_eq_bind, Option.bind_some, Nat.zero_add, hrest, List.map_map]
      simp only [wires, List.map_cons, List.map_map]
      rfl
  simp only [payload, parseObus_frame, bind, Except.bind, hloop]

/-- **Every packet fits the MTU.** -/
theorem wire_length_le {obus : List Obu} {mtu : Nat} (hmtu : 3 ≤ mtu)
    (hlimit : ∀ o ∈ obus, o.size < 2 ^ 32) (n : Bool) :
    ∀ bytes ∈ wires n (packetsOf obus mtu), bytes.length ≤ mtu := by
  obtain ⟨-, hfits⟩ := packetize_spec obus hmtu hlimit
  have hone : ∀ p ∈ packetsOf obus mtu, ∀ n, (wire n p).length ≤ mtu := by
    intro p hp n
    obtain ⟨sp, hsp, rfl⟩ := List.mem_map.mp hp
    obtain ⟨q, hq, rfl⟩ := List.mem_map.mp hsp
    obtain ⟨hsize, hle⟩ := hfits q hq
    have hcount : (q.span.packet (obus.map Obu.bytes)).pieces.length = q.numObuElements := by
      simp only [Span.packet, Span.pieces, length_piecesFrom, PacketMetadata.span]
    rw [wire, List.length_cons, hcount]
    change (elementsBytes (mustWriteObuElementSize q.numObuElements)
      (q.span.pieces (obus.map Obu.bytes))).length + 1 ≤ mtu
    omega
  intro bytes hbytes
  cases hps : packetsOf obus mtu with
  | nil =>
    rw [hps] at hbytes
    simp [wires] at hbytes
  | cons p ps =>
    rw [hps] at hbytes hone
    rcases List.mem_cons.mp hbytes with rfl | hbytes
    · exact hone p (by simp) n
    · obtain ⟨q, hq, rfl⟩ := List.mem_map.mp hbytes
      exact hone q (List.mem_cons_of_mem p hq) false

end WebrtcBridge.Av1
