/-
# OBUs: `codec/av1/obu.rs`

An AV1 frame is a sequence of open bitstream units.  Each is a header byte, an extension byte if
the header says so, a LEB128 size field if the header says so, and the payload; a unit without a
size field reaches to the end of the frame, so only the last one can do without.

`parse_obus` walks over the bytes and keeps all units but temporal delimiters, tile lists and
padding.  A `Frame` is the other side: a list of units as an encoder writes them.
`parseObus_frame` says that the code reads back what was written.

Two ways of writing one unit are needed later: `Obu.bytes`, header without the size bit and no
size field, which is what travels in RTP packets, and `Obu.lowOverhead`, with size bit and size
field, which is what a file wants.
-/
import WebrtcBridge.Av1.Leb128

namespace WebrtcBridge.Av1

open Lib.Leb128

/-! ## 1. The header byte -/

/-- `obu_has_extension`: the bit `OBU_HAS_EXTENSION_BIT`. -/
def obuHasExtension (header : UInt8) : Bool := header &&& 0b00000100 != 0

/-- `obu_has_size`: the bit `OBU_HAS_SIZE_BIT`. -/
def obuHasSize (header : UInt8) : Bool := header &&& 0b00000010 != 0

/-- `obu_type`, with `OBU_TYPE_MASK`. -/
def obuType (header : UInt8) : UInt8 := (header &&& 0b01111000) >>> 3

/-- `should_ignore_obu_type`: temporal delimiter, tile list, padding. -/
def shouldIgnoreObuType (type : UInt8) : Bool := type == 2 || type == 8 || type == 15

/-- `header & !OBU_HAS_SIZE_BIT`. -/
def withoutSizeBit (header : UInt8) : UInt8 := header &&& ~~~0b00000010

/-- `header | OBU_HAS_SIZE_BIT`. -/
def withSizeBit (header : UInt8) : UInt8 := header ||| 0b00000010

/-- A fact about every byte is a fact about 256 bytes. -/
theorem forall_byte {p : UInt8 → Prop} (h : ∀ b : BitVec 8, p ⟨b⟩) (b : UInt8) : p b := h b.toBitVec

@[simp] theorem obuHasSize_withoutSizeBit (header : UInt8) :
    obuHasSize (withoutSizeBit header) = false := by
  revert header
  exact forall_byte (by decide +kernel)

@[simp] theorem obuHasExtension_withoutSizeBit (header : UInt8) :
    obuHasExtension (withoutSizeBit header) = obuHasExtension header := by
  revert header
  exact forall_byte (by decide +kernel)

@[simp] theorem obuType_withoutSizeBit (header : UInt8) :
    obuType (withoutSizeBit header) = obuType header := by
  revert header
  exact forall_byte (by decide +kernel)

@[simp] theorem withSizeBit_withoutSizeBit (header : UInt8) :
    withSizeBit (withoutSizeBit header) = withSizeBit header := by
  revert header
  exact forall_byte (by decide +kernel)

/-! ## 2. Parsed units -/

/-- `Obu::header_size`, from the header byte. -/
def headerSize (header : UInt8) : Nat := if obuHasExtension header then 2 else 1

/-- `Obu`: `size` is that of header and payload combined, and the only place that builds an
`Obu` sets it so. -/
structure Obu where
  header : UInt8
  extensionHeader : UInt8
  payload : List UInt8
  size : Nat
  size_eq : size = headerSize header + payload.length
  deriving DecidableEq

namespace Obu

variable (o : Obu)

/-- The extension byte, if there is one. -/
def extensionBytes : List UInt8 := if obuHasExtension o.header then [o.extensionHeader] else []

/-- The unit without a size field, as it is sent. -/
def bytes : List UInt8 := withoutSizeBit o.header :: o.extensionBytes ++ o.payload

/-- The unit in low-overhead form. -/
def lowOverhead : List UInt8 :=
  withSizeBit o.header :: o.extensionBytes ++ encode o.payload.length ++ o.payload

theorem length_extensionBytes : o.extensionBytes.length + 1 = headerSize o.header := by
  unfold extensionBytes headerSize
  split <;> rfl

theorem length_bytes : o.bytes.length = o.size := by
  have := o.length_extensionBytes
  simp only [bytes, List.length_append, List.length_cons, o.size_eq]
  omega

theorem size_pos : 1 ≤ o.size := by
  have := o.length_extensionBytes
  rw [o.size_eq]
  omega

theorem bytes_ne_nil : o.bytes ≠ [] := by simp [bytes]

theorem length_bytes_le : o.bytes.length ≤ o.lowOverhead.length := by
  simp only [bytes, lowOverhead, List.length_append, List.length_cons]
  omega

end Obu

/-! ## 3. `parse_obus` -/

/-- What `parse_obus` can end with besides a list: its two errors, or the panic of
`Bytes::slice` when a size field promises more bytes than there are. -/
inductive ParseError
  | errPayloadTooSmallForObuExtensionHeader
  | errPayloadTooSmallForObuPayloadSize
  | panicked
  deriving DecidableEq, Repr

/-- The extension byte; 0 if there is none. -/
def readExtension (header : UInt8) : List UInt8 → Except ParseError UInt8
  | [] =>
    if obuHasExtension header then .error .errPayloadTooSmallForObuExtensionHeader else .ok 0
  | b :: _ => .ok (if obuHasExtension header then b else 0)

/-- The payload and the length of the size field, from what follows the header.  A size field that
does not end reads as `(0, 0)`. -/
def readPayload (header : UInt8) (bytes : List UInt8) : Except ParseError (List UInt8 × Nat) :=
  if !obuHasSize header then .ok (bytes, 0)
  else if bytes.isEmpty then .error .errPayloadTooSmallForObuPayloadSize
  else
    let r := rustReadLeb128 bytes
    if r.2 + r.1 ≤ bytes.length then .ok ((bytes.drop r.2).take r.1, r.2) else .error .panicked

/-- The unit of one turn of the loop. -/
def mkObu (header extensionHeader : UInt8) (payload : List UInt8) : Obu :=
  ⟨header, extensionHeader, payload, headerSize header + payload.length, rfl⟩

/-- The loop of `parse_obus` over the bytes that remain.  Every turn takes the header byte at least,
so that many turns as there are bytes are enough. -/
def parseObusLoop : Nat → List UInt8 → Except ParseError (List Obu)
  | _, [] => .ok []
  | 0, _ :: _ => .ok []
  | fuel + 1, header :: rest => do
    let extensionHeader ← readExtension header rest
    let withoutHeader := rest.drop (headerSize header - 1)
    let r ← readPayload header withoutHeader
    let obus ← parseObusLoop fuel (withoutHeader.drop (r.2 + r.1.length))
    if shouldIgnoreObuType (obuType header) then return obus
    else return mkObu header extensionHeader r.1 :: obus

/-- `parse_obus`. -/
def parseObus (payload : List UInt8) : Except ParseError (List Obu) :=
  parseObusLoop payload.length payload

/-! ## 4. Frames -/

/-- A unit as an encoder writes it: a size field, where there is one, is a LEB128 field of up to
eight bytes of a 32-bit number, the payload's length. -/
structure FrameObu where
  header : UInt8
  extensionHeader : UInt8
  sizeField : List UInt8
  payload : List UInt8
  sized : obuHasSize header = true →
    Field sizeField ∧ sizeField.length ≤ 8 ∧ value sizeField = payload.length
      ∧ payload.length < 2 ^ 32

namespace FrameObu

variable (o : FrameObu)

def extensionBytes : List UInt8 := if obuHasExtension o.header then [o.extensionHeader] else []

def sizeBytes : List UInt8 := if obuHasSize o.header then o.sizeField else []

def bytes : List UInt8 := o.header :: o.extensionBytes ++ o.sizeBytes ++ o.payload

/-- The unit `parse_obus` should see. -/
def toObu : Obu :=
  mkObu o.header (if obuHasExtension o.header then o.extensionHeader else 0) o.payload

end FrameObu

/-- **A frame**: units one after another, all but the last with a size field. -/
structure Frame where
  obus : List FrameObu
  sized : ∀ o ∈ obus.dropLast, obuHasSize o.header = true

namespace Frame

variable (f : Frame)

def bytes : List UInt8 := f.obus.flatMap FrameObu.bytes

/-- The units that are not dropped. -/
def kept : List Obu :=
  (f.obus.filter fun o => !shouldIgnoreObuType (obuType o.header)).map FrameObu.toObu

/-- The kept units in low-overhead form. -/
def lowOverhead : List UInt8 := f.kept.flatMap Obu.lowOverhead

end Frame

/-! ## 5. Frames are read back -/

theorem readExtension_bytes (o : FrameObu) (rest : List UInt8) :
    readExtension o.header (o.extensionBytes ++ rest)
      = .ok (if obuHasExtension o.header then o.extensionHeader else 0) := by
  by_cases h : obuHasExtension o.header = true
  · simp [FrameObu.extensionBytes, readExtension, h]
  · cases rest <;> simp [FrameObu.extensionBytes, readExtension, h]

theorem drop_extensionBytes (o : FrameObu) (rest : List UInt8) :
    (o.extensionBytes ++ rest).drop (headerSize o.header - 1) = rest := by
  unfold FrameObu.extensionBytes headerSize
  split <;> rfl

theorem readPayload_bytes (o : FrameObu) (rest : List UInt8)
    (h : obuHasSize o.header = true ∨ rest = []) :
    readPayload o.header (o.sizeBytes ++ o.payload ++ rest)
      = .ok (o.payload, o.sizeBytes.length) := by
  by_cases hsize : obuHasSize o.header = true
  · obtain ⟨hfield, hlen, hvalue, hlt⟩ := o.sized hsize
    have hbytes : o.sizeBytes = o.sizeField := by simp [FrameObu.sizeBytes, hsize]
    have hread := rustReadLeb128_eq hfield hlen (o.payload ++ rest)
    rw [hvalue, Nat.mod_eq_of_lt hlt] at hread
    simp [readPayload, hsize, hbytes, List.append_assoc, hread, hfield.ne_nil]
  · have hrest : rest = [] := h.resolve_left hsize
    simp [readPayload, FrameObu.sizeBytes, hsize, hrest]

/-- **One unit**: a turn of the loop reads it and goes on behind it. -/
theorem parseObusLoop_cons (o : FrameObu) (rest : List UInt8) (fuel : Nat)
    (h : obuHasSize o.header = true ∨ rest = []) :
    parseObusLoop (fuel + 1) (o.bytes ++ rest)
      = (parseObusLoop fuel rest).map fun obus =>
          if shouldIgnoreObuType (obuType o.header) then obus else o.toObu :: obus := by
  have hsplit : o.bytes ++ rest
      = o.header :: (o.extensionBytes ++ (o.sizeBytes ++ o.payload ++ rest)) := by
    simp [FrameObu.bytes]
  have hrest : (o.sizeBytes ++ o.payload ++ rest).drop (o.sizeBytes.length + o.payload.length)
      = rest := by
    rw [← List.length_append, List.drop_left]
  rw [hsplit, parseObusLoop, readExtension_bytes]
  simp only [Except.bind, bind, drop_extensionBytes, readPayload_bytes o rest h, hrest]
  cases parseObusLoop fuel rest with
  | error e => rfl
  | ok obus =>
    simp only [Except.map, FrameObu.toObu]
    split <;> rfl

theorem parseObusLoop_frame : ∀ (obus : List FrameObu) (fuel : Nat),
    (∀ o ∈ obus.dropLast, obuHasSize o.header = true) →
    (obus.flatMap FrameObu.bytes).length ≤ fuel →
    parseObusLoop fuel (obus.flatMap FrameObu.bytes)
      = .ok ((obus.filter fun o => !shouldIgnoreObuType (obuType o.header)).map FrameObu.toObu)
  | [], fuel, _, _ => by
    cases fuel <;> rfl
  | o :: obus, fuel, hsized, hfuel => by
    have hpos : 0 < o.bytes.length := by simp [FrameObu.bytes]
    rw [List.flatMap_cons, List.length_append] at hfuel
    obtain ⟨fuel, rfl⟩ : ∃ k, fuel = k + 1 := ⟨fuel - 1, by omega⟩
    have hfirst : obuHasSize o.header = true ∨ obus.flatMap FrameObu.bytes = [] := by
      cases obus with
      | nil => exact .inr rfl
      | cons o' obus => exact .inl (hsized o (by simp))
    have hothers : ∀ o' ∈ obus.dropLast, obuHasSize o'.header = true := by
      intro o' ho'
      cases obus with
      | nil => simp at ho'
      | cons o'' obus => exact hsized o' (List.mem_cons_of_mem o ho')
    rw [List.flatMap_cons, parseObusLoop_cons o _ fuel hfirst,
      parseObusLoop_frame obus fuel hothers (by omega)]
    simp only [Except.map, List.filter_cons]
    cases shouldIgnoreObuType (obuType o.header) <;> rfl

/-- **`parse_obus` reads every frame** and keeps the units it should. -/
theorem parseObus_frame (f : Frame) : parseObus f.bytes = .ok f.kept :=
  parseObusLoop_frame f.obus f.bytes.length f.sized (Nat.le_refl _)

theorem Frame.kept_type (f : Frame) :
    ∀ o ∈ f.kept, shouldIgnoreObuType (obuType o.header) = false := by
  intro o ho
  obtain ⟨o', ho', rfl⟩ := List.mem_map.mp ho
  have htype := (List.mem_filter.mp ho').2
  simpa [FrameObu.toObu, mkObu] using htype

end WebrtcBridge.Av1
