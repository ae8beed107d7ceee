/-
# The header of an RTP packet

`Header::unmarshal` and `Header::marshal` of the `rtp` crate, with the header extension in its three
profiles: elements with a header of one byte, elements with a header of two bytes, and one opaque
block.

The extension is the difficult part.  Its length on the wire is counted in words of four bytes, so
zeros are added behind the elements, and the header REMEMBERS their number: `extensions_padding` is
counted when a header is parsed, it is carried along by `set_extension` and `del_extension`, and it
decides `marshal_size`.  What is written, however, is padded to the next word and no further.  The
two agree exactly if fewer than four bytes of padding are remembered, and `WellFormed` says so.

* §1  the header;
* §2  parsing, and that no sequence of bytes stops the parser;
* §3  writing;
* §4  the round trip: a well-formed header is written, in `marshal_size` bytes, and parsed back, and
  what follows it is left alone.

`Rtp.Extensions` is about the operations that change a header.
-/
import Mathlib.Algebra.Ring.Nat
import WebrtcBridge.Lib.BigEndian

namespace WebrtcBridge.Rtp

open Lib

/-! ## 1. Headers -/

/-- What goes wrong; `panic` is the stop of a buffer that is read beyond its end. -/
inductive Error where
  | errHeaderSizeInsufficient
  | errHeaderSizeInsufficientForExtension
  | errBufferTooSmall
  | headerExtensionPayloadNot32BitWords
  | errRfc3550headerIdrange
  | errRfc8285oneByteHeaderIdrange
  | errRfc8285oneByteHeaderSize
  | errRfc8285twoByteHeaderIdrange
  | errRfc8285twoByteHeaderSize
  | errHeaderExtensionNotFound
  | errHeaderExtensionsNotEnabled
  | errShortPacket
  | marshalSize (written expected : Nat)
  | panic
  deriving DecidableEq, Repr

structure Extension where
  id : UInt8
  payload : List UInt8
  deriving DecidableEq, Repr

structure Header where
  version : UInt8
  padding : Bool
  extension : Bool
  marker : Bool
  payloadType : UInt8
  sequenceNumber : UInt16
  timestamp : UInt32
  ssrc : UInt32
  csrc : List UInt32
  extensionProfile : UInt16
  extensions : List Extension
  extensionsPadding : Nat
  deriving DecidableEq, Repr

def EXTENSION_PROFILE_ONE_BYTE : UInt16 := 0xBEDE
def EXTENSION_PROFILE_TWO_BYTE : UInt16 := 0x1000
def EXTENSION_ID_RESERVED : UInt8 := 0xF
def HEADER_LENGTH : Nat := 4
def CSRC_OFFSET : Nat := 12
def CSRC_LENGTH : Nat := 4

/-! ## 2. Parsing -/

/-- What a loop over the elements finds: the elements, how many zeros, and what is left to read. -/
structure Elements where
  extensions : List Extension
  padding : Nat
  rest : List UInt8
  deriving DecidableEq, Repr

/-- The loop over elements with a header of one byte.  `left` is `end - curr_offset`; an element
that reaches beyond the end is read all the same. -/
def oneByteLoop (left : Nat) (raw : List UInt8) : Except Error Elements :=
  if _h : left = 0 then .ok ⟨[], 0, raw⟩
  else do
    let (b, raw) ← getU8 .panic raw
    if b = 0 then
      let found ← oneByteLoop (left - 1) raw
      return { found with padding := found.padding + 1 }
    else
      let extid := b >>> 4
      let len := (b &&& (0xFF ^^^ 0xF0)).toNat + 1
      if extid = EXTENSION_ID_RESERVED then return ⟨[], 0, raw⟩
      else if raw.length < len then throw .errHeaderSizeInsufficientForExtension
      else
        let (payload, raw) ← getBytes .panic len raw
        let found ← oneByteLoop (left - (1 + len)) raw
        return { found with extensions := ⟨extid, payload⟩ :: found.extensions }
termination_by left
decreasing_by all_goals omega

/-- The loop over elements with a header of two bytes. -/
def twoByteLoop (left : Nat) (raw : List UInt8) : Except Error Elements :=
  if _h : left = 0 then .ok ⟨[], 0, raw⟩
  else do
    let (b, raw) ← getU8 .panic raw
    if b = 0 then
      let found ← twoByteLoop (left - 1) raw
      return { found with padding := found.padding + 1 }
    else if left - 1 = 0 then throw .errHeaderSizeInsufficientForExtension
    else
      let (l, raw) ← getU8 .panic raw
      if raw.length < l.toNat then throw .errHeaderSizeInsufficientForExtension
      else
        let (payload, raw) ← getBytes .panic l.toNat raw
        let found ← twoByteLoop (left - (2 + l.toNat)) raw
        return { found with extensions := ⟨b, payload⟩ :: found.extensions }
termination_by left
decreasing_by all_goals omega

/-- The part of `unmarshal` behind the contributing sources: profile, elements, padding, rest.
`offset` is `curr_offset` and `len` is `raw_packet_len`. -/
def unmarshalExtension (offset len : Nat) (raw : List UInt8) :
    Except Error (UInt16 × Elements) :=
  if len < offset + 4 then .error .errHeaderSizeInsufficientForExtension
  else do
    let (profile, raw) ← getU16 .panic raw
    let (words, raw) ← getU16 .panic raw
    let extensionLength := words.toNat * 4
    if len < offset + 4 + extensionLength then throw .errHeaderSizeInsufficientForExtension
    else if profile = EXTENSION_PROFILE_ONE_BYTE then
      return (profile, ← oneByteLoop extensionLength raw)
    else if profile = EXTENSION_PROFILE_TWO_BYTE then
      return (profile, ← twoByteLoop extensionLength raw)
    else
      let (payload, raw) ← getBytes .panic extensionLength raw
      return (profile, ⟨[⟨0, payload⟩], 0, raw⟩)

/-- `Header::unmarshal`: the header and what follows it. -/
def Header.unmarshal (raw : List UInt8) : Except Error (Header × List UInt8) :=
  let len := raw.length
  if len < HEADER_LENGTH then .error .errHeaderSizeInsufficient
  else do
    let (b0, raw) ← getU8 .panic raw
    let version := b0 >>> 6 &&& 0x3
    let padding := decide ((b0 >>> 5 &&& 0x1) > 0)
    let extension := decide ((b0 >>> 4 &&& 0x1) > 0)
    let cc := (b0 &&& 0xF).toNat
    let offset := CSRC_OFFSET + cc * CSRC_LENGTH
    if len < offset then throw .errHeaderSizeInsufficient
    else
      let (b1, raw) ← getU8 .panic raw
      let marker := decide ((b1 >>> 7 &&& 0x1) > 0)
      let payloadType := b1 &&& 0x7F
      let (sequenceNumber, raw) ← getU16 .panic raw
      let (timestamp, raw) ← getU32 .panic raw
      let (ssrc, raw) ← getU32 .panic raw
      let (csrc, raw) ← getU32s .panic cc raw
      let (extensionProfile, found) ←
        if extension then unmarshalExtension offset len raw else pure (0, ⟨[], 0, raw⟩)
      return (⟨version, padding, extension, marker, payloadType, sequenceNumber,
        timestamp, ssrc, csrc, extensionProfile, found.extensions, found.padding⟩, found.rest)

/-! ### No bytes stop the parser -/

/-- A step that may throw is followed by the rest. -/
theorem bind_ne_panic {α β : Type} {x : Except Error α} {f : α → Except Error β}
    (hx : x ≠ .error .panic) (hf : ∀ a, x = .ok a → f a ≠ .error .panic) :
    (x >>= f) ≠ .error .panic := by
  cases x with
  | error e => exact fun h => hx (by injection h with h; rw [h])
  | ok a => exact hf a rfl

/-- The loops read only what the length field covers, or what they have measured. -/
theorem oneByteLoop_ne_panic (left : Nat) (raw : List UInt8) (h : left ≤ raw.length) :
    oneByteLoop left raw ≠ .error .panic := by
  induction left using Nat.strongRecOn generalizing raw with
  | ind left ih =>
    rw [oneByteLoop]
    split
    · simp
    · obtain ⟨b, rest, rfl, hb⟩ := getU8_ok Error.panic (by omega : 1 ≤ raw.length)
      rw [List.length_cons] at h
      simp only [hb, bind, Except.bind]
      split
      · exact bind_ne_panic (ih _ (by omega) rest (by omega)) (by simp [pure, Except.pure])
      · split
        · simp [pure, Except.pure]
        · split
          · simp [throw, throwThe, MonadExceptOf.throw]
          · next hlen =>
            rw [getBytes_ok _ (by omega)]
            refine bind_ne_panic (ih _ (by omega) _ ?_) (by simp [pure, Except.pure])
            rw [List.length_drop]
            omega

theorem twoByteLoop_ne_panic (left : Nat) (raw : List UInt8) (h : left ≤ raw.length) :
    twoByteLoop left raw ≠ .error .panic := by
  induction left using Nat.strongRecOn generalizing raw with
  | ind left ih =>
    rw [twoByteLoop]
    split
    · simp
    · obtain ⟨b, rest, rfl, hb⟩ := getU8_ok Error.panic (by omega : 1 ≤ raw.length)
      rw [List.length_cons] at h
      simp only [hb, bind, Except.bind]
      split
      · exact bind_ne_panic (ih _ (by omega) rest (by omega)) (by simp [pure, Except.pure])
      · split
        · simp [throw, throwThe, MonadExceptOf.throw]
        · obtain ⟨l, rest, rfl, hl⟩ := getU8_ok Error.panic (by omega : 1 ≤ rest.length)
          rw [List.length_cons] at h
          simp only [hl]
          split
          · simp [throw, throwThe, MonadExceptOf.throw]
          · next hlen =>
            rw [getBytes_ok _ (by omega)]
            refine bind_ne_panic (ih _ (by omega) _ ?_) (by simp [pure, Except.pure])
            rw [List.length_drop]
            omega

theorem unmarshalExtension_ne_panic (offset len : Nat) (raw : List UInt8)
    (h : len = offset + raw.length) : unmarshalExtension offset len raw ≠ .error .panic := by
  unfold unmarshalExtension
  split
  · simp
  · obtain ⟨profile, hprofile⟩ := getU16_ok Error.panic (by omega : 2 ≤ raw.length)
    have hrest : 2 ≤ (raw.drop 2).length := by rw [List.length_drop]; omega
    obtain ⟨words, hwords⟩ := getU16_ok Error.panic hrest
    simp only [hprofile, hwords, bind, Except.bind]
    split
    · simp [throw, throwThe, MonadExceptOf.throw]
    · have hleft : words.toNat * 4 ≤ ((raw.drop 2).drop 2).length := by
        rw [List.length_drop, List.length_drop]
        omega
      split
      · exact bind_ne_panic (oneByteLoop_ne_panic _ _ hleft) (by simp [pure, Except.pure])
      · split
        · exact bind_ne_panic (twoByteLoop_ne_panic _ _ hleft) (by simp [pure, Except.pure])
        · rw [getBytes_ok _ hleft]
          simp [pure, Except.pure]

/-- **Whatever the bytes, the parser returns**: with a header or with an error of its own. -/
theorem Header.unmarshal_ne_panic (raw : List UInt8) : Header.unmarshal raw ≠ .error .panic := by
  have hfour : HEADER_LENGTH = 4 := rfl
  unfold Header.unmarshal
  simp only
  by_cases hshort : raw.length < HEADER_LENGTH
  · rw [if_pos hshort]
    simp
  · obtain ⟨b0, raw1, rfl, hb0⟩ := getU8_ok Error.panic (by omega : 1 ≤ raw.length)
    rw [if_neg hshort]
    simp only [hb0, bind, Except.bind]
    by_cases hsources : (b0 :: raw1).length < CSRC_OFFSET + (b0 &&& 15).toNat * CSRC_LENGTH
    · rw [if_pos hsources]
      simp [throw, throwThe, MonadExceptOf.throw]
    · -- the fixed fields and the sources lie within what was measured
      rw [if_neg hsources]
      have hoff : CSRC_OFFSET + (b0 &&& 15).toNat * CSRC_LENGTH = 12 + (b0 &&& 15).toNat * 4 := rfl
      rw [List.length_cons] at hshort hsources
      obtain ⟨b1, raw2, rfl, hb1⟩ := getU8_ok Error.panic (by omega : 1 ≤ raw1.length)
      rw [List.length_cons] at hshort hsources
      obtain ⟨seq, hseq⟩ := getU16_ok Error.panic (by omega : 2 ≤ raw2.length)
      have h4 : 4 ≤ (raw2.drop 2).length := by rw [List.length_drop]; omega
      obtain ⟨ts, hts⟩ := getU32_ok Error.panic h4
      have h8 : 4 ≤ ((raw2.drop 2).drop 4).length := by
        rw [List.length_drop, List.length_drop]; omega
      obtain ⟨ssrc, hssrc⟩ := getU32_ok Error.panic h8
      have hcc : 4 * (b0 &&& 15).toNat ≤ (((raw2.drop 2).drop 4).drop 4).length := by
        rw [List.length_drop, List.length_drop, List.length_drop]
        omega
      obtain ⟨csrc, hcsrc⟩ := getU32s_ok Error.panic _ hcc
      simp only [hb1, hseq, hts, hssrc, hcsrc]
      split
      · refine bind_ne_panic (unmarshalExtension_ne_panic _ _ _ ?_) (by simp [pure, Except.pure])
        simp only [List.length_cons, List.length_drop, hoff]
        omega
      · simp [pure, Except.pure]

/-! ## 3. Writing -/

/-- Bytes in front of the payload of an element. -/
def elementHeaderLen (profile : UInt16) : Nat :=
  if profile = EXTENSION_PROFILE_ONE_BYTE then 1
  else if profile = EXTENSION_PROFILE_TWO_BYTE then 2
  else 0

namespace Header

def getExtensionPayloadLen (h : Header) : Nat :=
  (h.extensions.map fun e => e.payload.length).sum
    + h.extensions.length * elementHeaderLen h.extensionProfile

def marshalSizeFor (h : Header) (extensionPayloadLen : Nat) : Nat :=
  12 + h.csrc.length * CSRC_LENGTH
    + if h.extension then 4 + (extensionPayloadLen + h.extensionsPadding + 3) / 4 * 4 else 0

def marshalSize (h : Header) : Nat :=
  h.marshalSizeFor (if h.extension then h.getExtensionPayloadLen else 0)

/-- The elements as they are written. -/
def elementBytes (profile : UInt16) (e : Extension) : List UInt8 :=
  if profile = EXTENSION_PROFILE_ONE_BYTE then
    ((e.id <<< 4) ||| (UInt8.ofNat e.payload.length - 1)) :: e.payload
  else e.id :: UInt8.ofNat e.payload.length :: e.payload

def extensionBytes (h : Header) : Except Error (List UInt8) :=
  if h.extensionProfile = EXTENSION_PROFILE_ONE_BYTE
      ∨ h.extensionProfile = EXTENSION_PROFILE_TWO_BYTE then
    .ok (h.extensions.flatMap (elementBytes h.extensionProfile))
  else if h.extensions.length ≠ 1 then .error .errRfc3550headerIdrange
  else
    match h.extensions.head? with
    | some e =>
      if e.payload.length % 4 ≠ 0 then .error .headerExtensionPayloadNot32BitWords
      else .ok e.payload
    | none => .ok []

/-- The first byte. -/
def b0 (h : Header) : UInt8 :=
  let b := (h.version <<< 6) ||| UInt8.ofNat h.csrc.length
  let b := if h.padding then b ||| ((1 : UInt8) <<< 5) else b
  if h.extension then b ||| ((1 : UInt8) <<< 4) else b

/-- The second byte. -/
def b1 (h : Header) : UInt8 :=
  if h.marker then h.payloadType ||| ((1 : UInt8) <<< 7) else h.payloadType

/-- What is written up to the contributing sources. -/
def fixedBytes (h : Header) : List UInt8 :=
  h.b0 :: h.b1 :: (be16 h.sequenceNumber ++ be32 h.timestamp ++ be32 h.ssrc ++ h.csrc.flatMap be32)

/-- What `marshal_to` writes into a buffer with `remaining` bytes. -/
def marshalTo (h : Header) (remaining : Nat) : Except Error (List UInt8) :=
  let extensionPayloadLen := if h.extension then h.getExtensionPayloadLen else 0
  if remaining < h.marshalSizeFor extensionPayloadLen then .error .errBufferTooSmall
  else
    if h.extension then
      if h.extensionProfile ≠ EXTENSION_PROFILE_ONE_BYTE
          ∧ h.extensionProfile ≠ EXTENSION_PROFILE_TWO_BYTE ∧ extensionPayloadLen % 4 ≠ 0 then
        .error .headerExtensionPayloadNot32BitWords
      else do
        let extensionPayloadSize := (extensionPayloadLen % 2 ^ 16 + 3) / 4
        let elements ← h.extensionBytes
        return h.fixedBytes ++ be16 h.extensionProfile ++ be16 (UInt16.ofNat extensionPayloadSize)
          ++ elements
          ++ List.replicate (extensionPayloadSize * 4 - extensionPayloadLen) 0
    else .ok h.fixedBytes

/-- `marshal`: the buffer has `marshal_size` bytes and has to be filled. -/
def marshal (h : Header) : Except Error (List UInt8) := do
  let bytes ← h.marshalTo h.marshalSize
  if bytes.length ≠ h.marshalSize then throw (.marshalSize bytes.length h.marshalSize)
  else return bytes

end Header

/-! ## 4. The round trip -/

/-- An element that its profile can carry. -/
def Extension.Fits (profile : UInt16) (e : Extension) : Prop :=
  if profile = EXTENSION_PROFILE_ONE_BYTE then
    1 ≤ e.id.toNat ∧ e.id.toNat ≤ 14 ∧ 1 ≤ e.payload.length ∧ e.payload.length ≤ 16
  else 1 ≤ e.id.toNat ∧ e.payload.length ≤ 255

theorem oneByte_header {id : UInt8} {len : Nat} (h1 : 1 ≤ id.toNat) (h14 : id.toNat ≤ 14)
    (hpos : 1 ≤ len) (hlen : len ≤ 16) :
    let b := (id <<< 4) ||| (UInt8.ofNat len - 1)
    b ≠ 0 ∧ b >>> 4 = id ∧ (b &&& (0xFF ^^^ 0xF0)).toNat + 1 = len
      ∧ id ≠ EXTENSION_ID_RESERVED := by
  have hall : ∀ i : Fin 14, ∀ l : Fin 16,
      let id := UInt8.ofNat (i.val + 1)
      let b := (id <<< 4) ||| (UInt8.ofNat (l.val + 1) - 1)
      b ≠ 0 ∧ b >>> 4 = id ∧ (b &&& (0xFF ^^^ 0xF0)).toNat + 1 = l.val + 1
        ∧ id ≠ EXTENSION_ID_RESERVED := by decide +kernel
  have hid : UInt8.ofNat (id.toNat - 1 + 1) = id := by
    rw [Nat.sub_add_cancel h1, UInt8.ofNat_toNat]
  have hcase := hall ⟨id.toNat - 1, by omega⟩ ⟨len - 1, by omega⟩
  simp only [hid, Nat.sub_add_cancel hpos] at hcase
  exact hcase

/-- The zeros behind the elements. -/
theorem oneByteLoop_zeros (p : Nat) (rest : List UInt8) :
    oneByteLoop p (List.replicate p 0 ++ rest) = .ok ⟨[], p, rest⟩ := by
  induction p with
  | zero => rw [oneByteLoop]; rfl
  | succ p ih =>
    rw [oneByteLoop, dif_neg (Nat.succ_ne_zero p), List.replicate_succ, List.cons_append]
    simp only [getU8_cons, bind, Except.bind, if_true, Nat.add_sub_cancel, ih]
    rfl

theorem oneByteLoop_elements (es : List Extension) (p : Nat) (rest : List UInt8)
    (hfit : ∀ e ∈ es, e.Fits EXTENSION_PROFILE_ONE_BYTE) :
    oneByteLoop ((es.map fun e => e.payload.length).sum + es.length + p)
        (es.flatMap (Header.elementBytes EXTENSION_PROFILE_ONE_BYTE)
          ++ (List.replicate p 0 ++ rest))
      = .ok ⟨es, p, rest⟩ := by
  induction es with
  | nil => simpa using oneByteLoop_zeros p rest
  | cons e es ih =>
    have hrest := ih fun e' he' => hfit e' (List.mem_cons_of_mem e he')
    obtain ⟨h1, h14, hpos, hlen⟩ := hfit e List.mem_cons_self
    obtain ⟨hne, hid, hl, hres⟩ := oneByte_header h1 h14 hpos hlen
    have hbytes : Header.elementBytes EXTENSION_PROFILE_ONE_BYTE e
        = ((e.id <<< 4) ||| (UInt8.ofNat e.payload.length - 1)) :: e.payload := if_pos rfl
    have hleft : ((e :: es).map fun e => e.payload.length).sum + (e :: es).length + p
        - (1 + e.payload.length) = (es.map fun e => e.payload.length).sum + es.length + p := by
      simp only [List.map_cons, List.sum_cons, List.length_cons]
      omega
    rw [oneByteLoop, dif_neg (by simp only [List.length_cons]; omega), List.flatMap_cons, hbytes,
      List.cons_append, List.cons_append, List.append_assoc]
    simp only [getU8_cons, bind, Except.bind, hne, if_false, hid, hl, hres]
    rw [if_neg (by simp), getBytes_append _ _ e.payload rfl]
    simp only [hleft, hrest]
    rfl

theorem twoByteLoop_zeros (p : Nat) (rest : List UInt8) :
    twoByteLoop p (List.replicate p 0 ++ rest) = .ok ⟨[], p, rest⟩ := by
  induction p with
  | zero => rw [twoByteLoop]; rfl
  | succ p ih =>
    rw [twoByteLoop, dif_neg (Nat.succ_ne_zero p), List.replicate_succ, List.cons_append]
    simp only [getU8_cons, bind, Except.bind, if_true, Nat.add_sub_cancel, ih]
    rfl

theorem twoByteLoop_elements (es : List Extension) (p : Nat) (rest : List UInt8)
    (hfit : ∀ e ∈ es, e.Fits EXTENSION_PROFILE_TWO_BYTE) :
    twoByteLoop ((es.map fun e => e.payload.length).sum + es.length * 2 + p)
        (es.flatMap (Header.elementBytes EXTENSION_PROFILE_TWO_BYTE)
          ++ (List.replicate p 0 ++ rest))
      = .ok ⟨es, p, rest⟩ := by
  induction es with
  | nil => simpa using twoByteLoop_zeros p rest
  | cons e es ih =>
    have hrest := ih fun e' he' => hfit e' (List.mem_cons_of_mem e he')
    obtain ⟨h1, hlen⟩ := hfit e List.mem_cons_self
    have hne : e.id ≠ 0 := by
      rintro h0
      rw [h0] at h1
      exact absurd h1 (by decide)
    have hl : (UInt8.ofNat e.payload.length).toNat = e.payload.length := by
      rw [UInt8.toNat_ofNat']
      exact Nat.mod_eq_of_lt (by omega)
    have hbytes : Header.elementBytes EXTENSION_PROFILE_TWO_BYTE e
        = e.id :: UInt8.ofNat e.payload.length :: e.payload := if_neg (by decide)
    have hleft : ((e :: es).map fun e => e.payload.length).sum + (e :: es).length * 2 + p
        - (2 + e.payload.length) = (es.map fun e => e.payload.length).sum + es.length * 2 + p := by
      simp only [List.map_cons, List.sum_cons, List.length_cons]
      omega
    rw [twoByteLoop, dif_neg (by simp only [List.length_cons]; omega), List.flatMap_cons, hbytes,
      List.cons_append, List.cons_append, List.cons_append, List.cons_append, List.append_assoc]
    simp only [getU8_cons, bind, Except.bind, hne, if_false, hl]
    rw [if_neg (by simp only [List.length_cons]; omega), if_neg (by simp),
      getBytes_append _ _ e.payload rfl]
    simp only [hleft, hrest]
    rfl

namespace Header

/-- **Headers that can be written and read back.**  The number of zeros remembered is the one that
fills the last word. -/
structure WellFormed (h : Header) : Prop where
  version : h.version.toNat < 4
  payloadType : h.payloadType.toNat < 128
  csrc : h.csrc.length ≤ 15
  none : h.extension = false →
    h.extensionProfile = 0 ∧ h.extensions = [] ∧ h.extensionsPadding = 0
  some : h.extension = true →
    h.getExtensionPayloadLen < 2 ^ 16 ∧ (h.getExtensionPayloadLen + h.extensionsPadding) % 4 = 0
      ∧ h.extensionsPadding < 4
  elements : h.extensionProfile = EXTENSION_PROFILE_ONE_BYTE
      ∨ h.extensionProfile = EXTENSION_PROFILE_TWO_BYTE →
    ∀ e ∈ h.extensions, e.Fits h.extensionProfile
  block : h.extension = true → h.extensionProfile ≠ EXTENSION_PROFILE_ONE_BYTE →
    h.extensionProfile ≠ EXTENSION_PROFILE_TWO_BYTE →
    ∃ payload, h.extensions = [⟨0, payload⟩] ∧ payload.length % 4 = 0

/-- A header of version 2 without padding, sources and extension. -/
def plain (marker : Bool) (payloadType : UInt8) (sequenceNumber : UInt16)
    (timestamp ssrc : UInt32) :
    Header :=
  ⟨2, false, false, marker, payloadType, sequenceNumber, timestamp, ssrc, [], 0, [], 0⟩

theorem wellFormed_plain (marker : Bool) (sequenceNumber : UInt16) (timestamp ssrc : UInt32)
    {payloadType : UInt8} (hp : payloadType.toNat < 128) :
    (plain marker payloadType sequenceNumber timestamp ssrc).WellFormed where
  version := (by decide : (2 : UInt8).toNat < 4)
  payloadType := hp
  csrc := Nat.zero_le 15
  none := fun _ => ⟨rfl, rfl, rfl⟩
  some := fun hx => by cases hx
  elements := fun _ => by simp [plain]
  block := fun hx => by cases hx

theorem b0_fields {version cc : Nat} (hv : version < 4) (hc : cc ≤ 15) (padding extension : Bool) :
    let b := (UInt8.ofNat version <<< 6) ||| UInt8.ofNat cc
    let b := if padding then b ||| ((1 : UInt8) <<< 5) else b
    let b := if extension then b ||| ((1 : UInt8) <<< 4) else b
    b >>> 6 &&& 0x3 = UInt8.ofNat version ∧ decide ((b >>> 5 &&& 0x1) > 0) = padding
      ∧ decide ((b >>> 4 &&& 0x1) > 0) = extension ∧ (b &&& 0xF).toNat = cc := by
  have hall : ∀ (v : Fin 4) (c : Fin 16) (padding extension : Bool),
      let b := (UInt8.ofNat v.val <<< 6) ||| UInt8.ofNat c.val
      let b := if padding then b ||| ((1 : UInt8) <<< 5) else b
      let b := if extension then b ||| ((1 : UInt8) <<< 4) else b
      b >>> 6 &&& 0x3 = UInt8.ofNat v.val ∧ decide ((b >>> 5 &&& 0x1) > 0) = padding
        ∧ decide ((b >>> 4 &&& 0x1) > 0) = extension ∧ (b &&& 0xF).toNat = c.val := by
    decide +kernel
  exact hall ⟨version, hv⟩ ⟨cc, by omega⟩ padding extension

theorem b1_fields {payloadType : UInt8} (h : payloadType.toNat < 128) (marker : Bool) :
    let b := if marker then payloadType ||| ((1 : UInt8) <<< 7) else payloadType
    decide ((b >>> 7 &&& 0x1) > 0) = marker ∧ b &&& 0x7F = payloadType := by
  have hall : ∀ (p : Fin 128) (marker : Bool),
      let b := if marker then UInt8.ofNat p.val ||| ((1 : UInt8) <<< 7) else UInt8.ofNat p.val
      decide ((b >>> 7 &&& 0x1) > 0) = marker ∧ b &&& 0x7F = UInt8.ofNat p.val := by decide +kernel
  have hcase := hall ⟨payloadType.toNat, h⟩ marker
  simp only [UInt8.ofNat_toNat] at hcase
  exact hcase

variable {h : Header}

/-- The bytes of the extension, as they stand behind the contributing sources. -/
def extensionBlock (h : Header) (elements : List UInt8) : List UInt8 :=
  be16 h.extensionProfile
    ++ be16 (UInt16.ofNat ((h.getExtensionPayloadLen % 2 ^ 16 + 3) / 4)) ++ elements
    ++ List.replicate ((h.getExtensionPayloadLen % 2 ^ 16 + 3) / 4 * 4 - h.getExtensionPayloadLen) 0

/-- The length field counts the elements and the zeros. -/
theorem WellFormed.words (hw : h.WellFormed) (hx : h.extension = true) :
    (UInt16.ofNat ((h.getExtensionPayloadLen % 2 ^ 16 + 3) / 4)).toNat * 4
        = h.getExtensionPayloadLen + h.extensionsPadding
      ∧ (h.getExtensionPayloadLen % 2 ^ 16 + 3) / 4 * 4 - h.getExtensionPayloadLen
        = h.extensionsPadding := by
  obtain ⟨hlen, hmod, hpad⟩ := hw.some hx
  rw [UInt16.toNat_ofNat', Nat.mod_eq_of_lt hlen]
  omega

theorem length_elements (profile : UInt16) (es : List Extension)
    (hp : profile = EXTENSION_PROFILE_ONE_BYTE ∨ profile = EXTENSION_PROFILE_TWO_BYTE) :
    (es.flatMap (elementBytes profile)).length
      = (es.map fun e => e.payload.length).sum + es.length * elementHeaderLen profile := by
  induction es with
  | nil => simp
  | cons e es ih =>
    rw [List.flatMap_cons, List.length_append, ih, List.map_cons, List.sum_cons, List.length_cons,
      Nat.succ_mul]
    rcases hp with rfl | rfl
    · simp [elementBytes, elementHeaderLen]
      omega
    · have hne : EXTENSION_PROFILE_TWO_BYTE ≠ EXTENSION_PROFILE_ONE_BYTE := by decide
      simp [elementBytes, elementHeaderLen, hne]
      omega

/-- The two fields in front of the elements pass their checks. -/
theorem WellFormed.unmarshalExtension_fields (hw : h.WellFormed) (hx : h.extension = true)
    {elements : List UInt8} (hlen : elements.length = h.getExtensionPayloadLen)
    (offset : Nat) (rest : List UInt8) :
    Rtp.unmarshalExtension offset (offset + (h.extensionBlock elements ++ rest).length)
        (h.extensionBlock elements ++ rest)
      = (if h.extensionProfile = EXTENSION_PROFILE_ONE_BYTE then do
          return (h.extensionProfile,
            ← oneByteLoop (h.getExtensionPayloadLen + h.extensionsPadding)
              (elements ++ (List.replicate h.extensionsPadding 0 ++ rest)))
        else if h.extensionProfile = EXTENSION_PROFILE_TWO_BYTE then do
          return (h.extensionProfile,
            ← twoByteLoop (h.getExtensionPayloadLen + h.extensionsPadding)
              (elements ++ (List.replicate h.extensionsPadding 0 ++ rest)))
        else do
          let (payload, raw) ← getBytes .panic (h.getExtensionPayloadLen + h.extensionsPadding)
            (elements ++ (List.replicate h.extensionsPadding 0 ++ rest))
          return (h.extensionProfile, ⟨[⟨0, payload⟩], 0, raw⟩)) := by
  obtain ⟨hwords, hzeros⟩ := hw.words hx
  have hblock : h.extensionBlock elements ++ rest
      = be16 h.extensionProfile
        ++ (be16 (UInt16.ofNat ((h.getExtensionPayloadLen % 2 ^ 16 + 3) / 4))
          ++ (elements ++ (List.replicate h.extensionsPadding 0 ++ rest))) := by
    simp only [extensionBlock, hzeros, List.append_assoc]
  have hsize : (h.extensionBlock elements ++ rest).length
      = 4 + (h.getExtensionPayloadLen + h.extensionsPadding) + rest.length := by
    rw [hblock]
    simp only [List.length_append, length_be16, List.length_replicate, hlen]
    omega
  rw [Rtp.unmarshalExtension, hsize, if_neg (by omega), hblock]
  simp only [getU16_be16, bind, Except.bind, hwords]
  rw [if_neg (by omega)]

/-- **The extension is read back**, whatever its profile. -/
theorem WellFormed.unmarshalExtension (hw : h.WellFormed) (hx : h.extension = true)
    (offset : Nat) (rest : List UInt8) :
    ∃ elements, h.extensionBytes = .ok elements
      ∧ elements.length = h.getExtensionPayloadLen
      ∧ Rtp.unmarshalExtension offset (offset + (h.extensionBlock elements ++ rest).length)
          (h.extensionBlock elements ++ rest)
        = .ok (h.extensionProfile, ⟨h.extensions, h.extensionsPadding, rest⟩) := by
  by_cases hone : h.extensionProfile = EXTENSION_PROFILE_ONE_BYTE
  · have hlen := length_elements _ h.extensions (Or.inl hone)
    have hsum : h.getExtensionPayloadLen
        = (h.extensions.map fun e => e.payload.length).sum + h.extensions.length := by
      simp [getExtensionPayloadLen, hone, elementHeaderLen]
    have hloop := oneByteLoop_elements h.extensions h.extensionsPadding rest
      (hone ▸ hw.elements (Or.inl hone))
    refine ⟨_, if_pos (Or.inl hone), hlen, ?_⟩
    rw [hw.unmarshalExtension_fields hx hlen, if_pos hone, hone, hsum]
    simp only [bind, Except.bind, hloop]
    rfl
  · by_cases htwo : h.extensionProfile = EXTENSION_PROFILE_TWO_BYTE
    · have hlen := length_elements _ h.extensions (Or.inr htwo)
      have hne : EXTENSION_PROFILE_TWO_BYTE ≠ EXTENSION_PROFILE_ONE_BYTE := by decide
      have hsum : h.getExtensionPayloadLen
          = (h.extensions.map fun e => e.payload.length).sum + h.extensions.length * 2 := by
        simp [getExtensionPayloadLen, htwo, elementHeaderLen, hne]
      have hloop := twoByteLoop_elements h.extensions h.extensionsPadding rest
        (htwo ▸ hw.elements (Or.inr htwo))
      refine ⟨_, if_pos (Or.inr htwo), hlen, ?_⟩
      rw [hw.unmarshalExtension_fields hx hlen, if_neg hone, if_pos htwo, htwo, hsum]
      simp only [bind, Except.bind, hloop]
      rfl
    · -- one opaque block, which fills its words
      obtain ⟨payload, hes, hmul⟩ := hw.block hx hone htwo
      have hlen : payload.length = h.getExtensionPayloadLen := by
        simp [getExtensionPayloadLen, hes, elementHeaderLen, hone, htwo]
      have hpad : h.extensionsPadding = 0 := by
        have := hw.some hx
        omega
      refine ⟨payload, ?_, hlen, ?_⟩
      · rw [extensionBytes, if_neg (by simp [hone, htwo]), hes]
        simp [hmul]
      · rw [hw.unmarshalExtension_fields hx hlen, if_neg hone, if_neg htwo, hpad,
          Nat.add_zero, ← hlen, getBytes_append _ _ payload rfl, hes]
        rfl

theorem length_flatMap_be32 (xs : List UInt32) : (xs.flatMap be32).length = 4 * xs.length := by
  induction xs with
  | nil => rfl
  | cons x xs ih =>
    rw [List.flatMap_cons, List.length_append, ih, length_be32, List.length_cons]
    omega

theorem length_fixedBytes (h : Header) : h.fixedBytes.length = 12 + 4 * h.csrc.length := by
  simp only [fixedBytes, List.length_cons, List.length_append, length_be16, length_be32,
    length_flatMap_be32]
  omega

theorem marshal_of_length {bytes : List UInt8} (hto : h.marshalTo h.marshalSize = .ok bytes)
    (hlen : bytes.length = h.marshalSize) : h.marshal = .ok bytes := by
  simp only [Header.marshal, hto, bind, Except.bind, hlen, ne_eq, not_true_eq_false, if_false]
  rfl

/-- What `marshal` gives fits in every buffer that is long enough. -/
theorem marshalTo_of_marshal {bytes : List UInt8} {remaining : Nat} (hm : h.marshal = .ok bytes)
    (hr : h.marshalSize ≤ remaining) : h.marshalTo remaining = .ok bytes := by
  have hto : h.marshalTo h.marshalSize = .ok bytes := by
    cases hto : h.marshalTo h.marshalSize with
    | error e => simp [Header.marshal, hto, bind, Except.bind] at hm
    | ok bs =>
      by_cases hlen : bs.length = h.marshalSize
      · rw [marshal_of_length hto hlen] at hm
        exact hm
      · simp [Header.marshal, hto, bind, Except.bind, hlen, throw, throwThe,
          MonadExceptOf.throw] at hm
  rw [← hto]
  have hsize : h.marshalSizeFor (if h.extension then h.getExtensionPayloadLen else 0)
      = h.marshalSize :=
    rfl
  simp only [marshalTo, hsize, Nat.not_lt.mpr hr, Nat.lt_irrefl, if_false]

/-- Without an extension the header ends with the contributing sources. -/
theorem marshal_none (hx : h.extension = false) :
    h.marshal = .ok h.fixedBytes ∧ h.fixedBytes.length = h.marshalSize := by
  have hsize : h.fixedBytes.length = h.marshalSize := by
    rw [length_fixedBytes]
    simp [marshalSize, marshalSizeFor, hx, CSRC_LENGTH]
    omega
  refine ⟨marshal_of_length ?_ hsize, hsize⟩
  simp [marshalTo, marshalSize, hx]

/-- With one, its block follows. -/
theorem WellFormed.marshal_some (hw : h.WellFormed) (hx : h.extension = true)
    {elements : List UInt8}
    (hbytes : h.extensionBytes = .ok elements) (hlen : elements.length = h.getExtensionPayloadLen) :
    h.marshal = .ok (h.fixedBytes ++ h.extensionBlock elements)
      ∧ (h.fixedBytes ++ h.extensionBlock elements).length = h.marshalSize := by
  obtain ⟨hfit, hmod, hpad⟩ := hw.some hx
  obtain ⟨_, hzeros⟩ := hw.words hx
  have hsize : (h.fixedBytes ++ h.extensionBlock elements).length = h.marshalSize := by
    simp only [List.length_append, length_fixedBytes, extensionBlock, length_be16,
      List.length_replicate, hlen, hzeros, marshalSize, marshalSizeFor, hx, if_true, CSRC_LENGTH]
    omega
  have hwords : ¬ (h.extensionProfile ≠ EXTENSION_PROFILE_ONE_BYTE
      ∧ h.extensionProfile ≠ EXTENSION_PROFILE_TWO_BYTE ∧ h.getExtensionPayloadLen % 4 ≠ 0) := by
    rintro ⟨hone, htwo, hrem⟩
    obtain ⟨payload, hes, hmul⟩ := hw.block hx hone htwo
    simp [getExtensionPayloadLen, hes, elementHeaderLen, hone, htwo, hmul] at hrem
  refine ⟨marshal_of_length ?_ hsize, hsize⟩
  simp only [marshalTo, marshalSize, hx, if_true, Nat.lt_irrefl, if_false,
    if_neg hwords, hbytes, bind, Except.bind, extensionBlock, List.append_assoc]
  rfl

/-- The fixed part is read back, and the rest decides about the extension. -/
theorem WellFormed.unmarshal_fixed (hw : h.WellFormed) (rest : List UInt8) :
    Header.unmarshal (h.fixedBytes ++ rest)
      = (if h.extension then
          Rtp.unmarshalExtension (12 + 4 * h.csrc.length)
            (12 + 4 * h.csrc.length + rest.length) rest
        else .ok (0, ⟨[], 0, rest⟩)).map fun (profile, found) =>
          ({ h with extensionProfile := profile, extensions := found.extensions,
                    extensionsPadding := found.padding }, found.rest) := by
  obtain ⟨hversion, hpadding, hextension, hcc⟩ :=
    b0_fields hw.version hw.csrc h.padding h.extension
  obtain ⟨hmarker, htype⟩ := b1_fields hw.payloadType h.marker
  rw [UInt8.ofNat_toNat] at hversion hpadding hextension hcc
  have hlen : (h.fixedBytes ++ rest).length = 12 + 4 * h.csrc.length + rest.length := by
    rw [List.length_append, length_fixedBytes]
  have hoff : CSRC_OFFSET + h.csrc.length * CSRC_LENGTH = 12 + 4 * h.csrc.length := by
    simp only [CSRC_OFFSET, CSRC_LENGTH]
    omega
  rw [Header.unmarshal, hlen]
  simp only [HEADER_LENGTH]
  rw [if_neg (by omega), fixedBytes]
  simp only [List.cons_append, getU8_cons, bind, Except.bind, b0, hversion, hpadding,
    hextension, hcc, hoff, b1, hmarker, htype]
  rw [if_neg (by omega)]
  simp only [List.append_assoc, getU16_be16, getU32_be32, getU32s_be32]
  cases h.extension <;> rfl

/-- **A well-formed header is written and read back**, and what follows it stays. -/
theorem WellFormed.unmarshal_marshal (hw : h.WellFormed) (rest : List UInt8) :
    ∃ bytes, h.marshal = .ok bytes ∧ bytes.length = h.marshalSize
      ∧ Header.unmarshal (bytes ++ rest) = .ok (h, rest) := by
  cases hx : h.extension with
  | false =>
    obtain ⟨hbytes, hlen⟩ := marshal_none hx
    obtain ⟨hprofile, hes, hpad⟩ := hw.none hx
    refine ⟨_, hbytes, hlen, ?_⟩
    rw [hw.unmarshal_fixed, if_neg (by simp [hx]), Except.map, ← hprofile, ← hes, ← hpad]
  | true =>
    obtain ⟨elements, hbytes, helems, hread⟩ :=
      hw.unmarshalExtension hx (12 + 4 * h.csrc.length) rest
    obtain ⟨hmarshal, hlen⟩ := hw.marshal_some hx hbytes helems
    refine ⟨_, hmarshal, hlen, ?_⟩
    rw [List.append_assoc, hw.unmarshal_fixed, if_pos hx, hread, Except.map]

end Header

end WebrtcBridge.Rtp
