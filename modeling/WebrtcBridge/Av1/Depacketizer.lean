/-
# From RTP payloads back to OBUs: `Av1Depacketizer.java`

The demo's depacketizer is a class with a buffer.  A call walks over the elements of one payload,
puts what the buffer holds in front of the first element if `Z` is set, writes every OBU it
completes to the result in low-overhead form and keeps an unfinished last one in the buffer.

The model covers EVERY payload, not only those a payloader makes: `int` arithmetic wraps, a length
field cut to 32 bits can be negative, copies can leave their arrays, and what has happened to the
buffer before an exception stays.  Allocating an array of any length an `int` can hold succeeds.

`depacketize_wire` is what the class is for: on a packet in wire format it does what the abstract
receiver `absorb` does, and throws nothing.
-/
import WebrtcBridge.Av1.Aggregation
import WebrtcBridge.Av1.Obu

namespace WebrtcBridge.Av1

open Lib Lib.Leb128

/-! ## 1. Java values -/

/-- A `byte[]`, or what a `ByteArrayOutputStream` holds. -/
structure JavaBytes where
  data : List UInt8
  length_lt : data.length < 2 ^ 31
  deriving DecidableEq

/-- What can be thrown. -/
inductive JavaError
  | io (message : String)
  | negativeArraySize
  | indexOutOfBounds
  | outOfMemory
  deriving DecidableEq, Repr

namespace JavaBytes

def empty : JavaBytes := ⟨[], by decide⟩

/-- No array is longer than an `int` can say. -/
def make (data : List UInt8) : Except JavaError JavaBytes :=
  if h : data.length < 2 ^ 31 then .ok ⟨data, h⟩ else .error .outOfMemory

end JavaBytes

/-- The low 32 bits as an `int`. -/
def toInt (x : Int) : Int := x.bmod (2 ^ 32)

/-- The low 64 bits as a `long`. -/
def toLong (x : Int) : Int := x.bmod (2 ^ 64)

/-! ## 2. The code -/

/-- `readLeb128(data, off)`: value and number of bytes.  A negative `off` is smaller than the
length, so that the loop reads there. -/
def readLeb128 (data : List UInt8) (off : Int) : Except JavaError (Int × Int) :=
  if off < 0 then .error .indexOutOfBounds
  else
    let r := javaReadLoop 0 0 0 (data.drop off.toNat)
    .ok (toLong r.1, r.2)

/-- Where an element starts, its length, and whether it is the last one (`isLast2`). -/
structure ElementHead where
  offset : Int
  lengthField : Int
  isLast : Bool
  deriving DecidableEq, Repr

/-- The head of the element number `obuOffset` at `offset`. -/
def readHead (payload : JavaBytes) (obuCount : Nat) (offset : Int) (obuOffset : Nat) :
    Except JavaError ElementHead :=
  let isLast := obuCount != 0 && obuOffset + 1 == obuCount
  if obuCount == 0 || !isLast then
    match readLeb128 payload.data offset with
    | .error e => .error e
    | .ok (len, n) =>
      if toInt n = 0 then .error (.io "short AV1 packet (leb128)")
      else
        let offset := toInt (offset + toInt n)
        let isLastW0 := obuCount == 0 && toInt (offset + toInt len) == payload.data.length
        .ok ⟨offset, toInt len, isLast || isLastW0⟩
  else .ok ⟨offset, toInt (payload.data.length - offset), true⟩

/-- A new array with `prev` and so many bytes of the payload: `new byte[..]` and the two calls of
`System.arraycopy`. -/
def copyElement (prev : List UInt8) (payload : JavaBytes) (offset lengthField : Int) :
    Except JavaError JavaBytes :=
  if toInt (prev.length + lengthField) < 0 then .error .negativeArraySize
  else if lengthField < 0 ∨ offset < 0 ∨ payload.data.length < offset + lengthField then
    .error .indexOutOfBounds
  else JavaBytes.make (prev ++ (payload.data.drop offset.toNat).take lengthField.toNat)

/-- A complete OBU is written to the result: as it is if it has a size field, which must be right,
and with one otherwise. -/
def writeObu (result : JavaBytes) (obuBuffer : List UInt8) (actualSize : Int) :
    Except JavaError JavaBytes :=
  let header := obuBuffer.headD 0
  if obuHasSize header then
    match readLeb128 obuBuffer (headerSize header) with
    | .error e => .error e
    | .ok (obuSize, lebSize) =>
      if toInt lebSize = 0 then .error (.io "short AV1 OBU size")
      else if actualSize ≠ toLong (headerSize header + toInt lebSize + obuSize) then
        .error (.io "AV1 OBU size mismatch")
      else JavaBytes.make (result.data ++ obuBuffer)
  else
    let extension :=
      if obuHasExtension header && decide (1 < obuBuffer.length) then [obuBuffer.getD 1 0] else []
    let payloadSize : Int := obuBuffer.length - headerSize header
    JavaBytes.make (result.data ++ (withSizeBit header :: extension ++ writeLeb128 payloadSize
      ++ obuBuffer.drop (headerSize header)))

/-- `OBU_TYPE_TEMPORAL_DELIMITER` or `OBU_TYPE_TILE_LIST`. -/
def isDropped (header : UInt8) : Bool := obuType header == 2 || obuType header == 8

/-- The variables of the loop, and the buffer of the object. -/
structure LoopState where
  offset : Int
  obuOffset : Nat
  result : JavaBytes
  buffer : JavaBytes
  deriving DecidableEq

/-- How a turn of the loop ends: at the loop head, behind the loop, or with an exception. -/
inductive Turn
  | next (s : LoopState)
  | stop (s : LoopState)
  | throw (buffer : JavaBytes) (e : JavaError)
  deriving DecidableEq

/-- `if (isLast2) break; obuOffset++; continue;` -/
def LoopState.goOn (s : LoopState) (isLast : Bool) : Turn :=
  if isLast then .stop s else .next { s with obuOffset := s.obuOffset + 1 }

section

variable (payload : JavaBytes) (obuZ obuY : Bool) (obuCount : Nat)

/-- The rest of a turn once the element is in `obuBuffer`. -/
def handleObu (s : LoopState) (isLast : Bool) (obuBuffer : JavaBytes) (actualSize : Int) : Turn :=
  if isLast && obuY then .stop { s with buffer := obuBuffer }
  else if obuBuffer.data.isEmpty || isDropped (obuBuffer.data.headD 0) then s.goOn isLast
  else
    match writeObu s.result obuBuffer.data actualSize with
    | .error e => .throw s.buffer e
    | .ok result => { s with result }.goOn isLast

/-- The rest of a turn once the head of the element is read. -/
def takeElement (s : LoopState) (h : ElementHead) : Turn :=
  let next := toInt (h.offset + h.lengthField)
  let continues := s.obuOffset == 0 && obuZ
  if payload.data.length < next then .throw s.buffer (.io "short AV1 packet (length field)")
  else if continues && s.buffer.data.isEmpty then
    -- the beginning of this OBU was never seen
    if h.isLast then .stop { s with offset := h.offset }
    else .next { s with offset := next, obuOffset := s.obuOffset + 1 }
  else
    match copyElement (if continues then s.buffer.data else []) payload h.offset h.lengthField with
    | .error e => .throw s.buffer e
    | .ok obuBuffer =>
      handleObu obuY
        { s with offset := next, buffer := if continues then .empty else s.buffer }
        h.isLast obuBuffer (if continues then obuBuffer.data.length else h.lengthField)

/-- A turn of the loop. -/
def turn (s : LoopState) : Turn :=
  match readHead payload obuCount s.offset s.obuOffset with
  | .error e => .throw s.buffer e
  | .ok h => takeElement payload obuZ obuY s h

/-- The loop; `next` at the end means that the turns allowed did not suffice. -/
def depacketizeLoop : Nat → LoopState → Turn
  | 0, s => .next s
  | fuel + 1, s =>
    if s.offset < payload.data.length then
      match turn payload obuZ obuY obuCount s with
      | .next s' => depacketizeLoop fuel s'
      | t => t
    else .stop s

end

/-- `Av1Depacketizer`. -/
structure Depacketizer where
  buffer : JavaBytes
  z : Bool
  y : Bool
  n : Bool
  deriving DecidableEq

/-- A fresh one. -/
def Depacketizer.fresh : Depacketizer := ⟨.empty, false, false, false⟩

/-- What a call ends with. -/
inductive Outcome
  | returned (bytes : JavaBytes)
  | thrown (e : JavaError)
  | running
  deriving DecidableEq

/-- `depacketize(payload)`. -/
def depacketize (d : Depacketizer) (payload : JavaBytes) : Depacketizer × Outcome :=
  if payload.data.length ≤ 1 then (d, .thrown (.io "short AV1 packet"))
  else
    let header := payload.data.headD 0
    let obuZ := header &&& 0b10000000 != 0
    let obuY := header &&& 0b01000000 != 0
    let obuCount := ((header &&& 0b00110000) >>> 4).toNat
    let obuN := header &&& 0b00001000 != 0
    let buffer := if obuN then .empty else d.buffer
    let buffer := if !obuZ && !buffer.data.isEmpty then .empty else buffer
    match depacketizeLoop payload obuZ obuY obuCount (payload.data.length + 2)
        ⟨1, 0, .empty, buffer⟩ with
    | .next s => (⟨s.buffer, obuZ, obuY, obuN⟩, .running)
    | .throw buffer e => (⟨buffer, obuZ, obuY, obuN⟩, .thrown e)
    | .stop s =>
      if obuCount != 0 && s.obuOffset + 1 != obuCount && !obuY then
        (⟨s.buffer, obuZ, obuY, obuN⟩, .thrown (.io "AV1 OBU count mismatch"))
      else (⟨s.buffer, obuZ, obuY, obuN⟩, .returned s.result)

/-- Payload after payload: the object at the end and what each call ended with. -/
def depacketizeAll (d : Depacketizer) : List JavaBytes → Depacketizer × List Outcome
  | [] => (d, [])
  | payload :: payloads =>
    let r := depacketize d payload
    let rs := depacketizeAll r.1 payloads
    (rs.1, r.2 :: rs.2)

/-! ## 3. Small facts -/

theorem toInt_eq {x : Int} (h0 : 0 ≤ x) (h1 : x < 2 ^ 31) : toInt x = x :=
  Int.bmod_eq_of_le (by omega) (by omega)

theorem toLong_eq {x : Int} (h0 : 0 ≤ x) (h1 : x < 2 ^ 63) : toLong x = x :=
  Int.bmod_eq_of_le (by omega) (by omega)

theorem JavaBytes.make_eq {data : List UInt8} (h : data.length < 2 ^ 31) :
    JavaBytes.make data = .ok ⟨data, h⟩ := dif_pos h

theorem length_encode_le_five {n : Nat} (h : n < 2 ^ 31) : (encode n).length ≤ 5 :=
  length_encode_le 4 n (Nat.lt_trans h (by decide))

/-- A length field is read where it stands. -/
theorem readLeb128_encode {pre rest : List UInt8} {n : Nat} (hn : n < 2 ^ 31) :
    readLeb128 (pre ++ (encode n ++ rest)) pre.length
      = .ok ((n : Int), ((encode n).length : Int)) := by
  have hlen := length_encode_le_five hn
  have hread := javaReadLoop_field (encode_field n) (by omega) rest
  rw [value_encode] at hread
  have hlong : toLong n = n := toLong_eq (by omega) (by omega)
  have hpos : ¬ (pre.length : Int) < 0 := by omega
  simp only [readLeb128, hpos, if_false, Int.toNat_natCast, List.drop_left, hread, hlong]

/-- **`readLeb128` undoes `writeLeb128`** for every `int` that is not negative: behind any prefix
and in front of any suffix it returns the number, and the bytes it counts are those that were
written. -/
theorem readLeb128_writeLeb128 (v : Int) (h0 : 0 ≤ v) (h1 : v < 2 ^ 31) (p s : List UInt8) :
    readLeb128 (p ++ (writeLeb128 v ++ s)) p.length = .ok (v, ((writeLeb128 v).length : Int))
      ∧ 1 ≤ (writeLeb128 v).length ∧ (writeLeb128 v).length ≤ 5 := by
  obtain ⟨n, rfl⟩ := Int.eq_ofNat_of_zero_le h0
  have hn : n < 2 ^ 31 := by omega
  have hwrite : writeLeb128 n = encode n := writeLeb128_eq (Nat.lt_trans hn (by decide))
  rw [hwrite]
  constructor
  · exact readLeb128_encode hn
  · exact ⟨(encode_field n).length_pos, length_encode_le_five hn⟩

/-- The largest `int`, between bytes that could be taken for parts of a field. -/
theorem readLeb128_writeLeb128_max :
    readLeb128 ([0x80, 0xff] ++ (writeLeb128 2147483647 ++ [0x80, 0x01])) 2 = .ok (2147483647, 5)
      ∧ writeLeb128 2147483647 = [0xff, 0xff, 0xff, 0xff, 0x07] := by
  have hbytes : writeLeb128 2147483647 = [0xff, 0xff, 0xff, 0xff, 0x07] := by decide
  have hread := (readLeb128_writeLeb128 2147483647 (by decide) (by decide) [0x80, 0xff]
    [0x80, 0x01]).1
  constructor
  · rw [hbytes] at hread ⊢
    exact hread
  · exact hbytes

/-! ## 4. Elements -/

section

variable {payload : JavaBytes} {obuZ obuY : Bool} {obuCount : Nat}

/-- **An element with a size field**, of which `rest` follows. -/
theorem readHead_sized {pre e rest : List UInt8} {obuOffset : Nat}
    (hdata : payload.data = pre ++ (encode e.length ++ (e ++ rest)))
    (hcount : obuCount ≠ 0 → obuOffset + 1 ≠ obuCount) :
    readHead payload obuCount pre.length obuOffset
      = .ok ⟨(pre ++ encode e.length).length, e.length, obuCount == 0 && rest.isEmpty⟩ := by
  have htotal := payload.length_lt
  have hlength := congrArg List.length hdata
  simp only [List.length_append] at hlength
  have hpos : 0 < (encode e.length).length := (encode_field e.length).length_pos
  have hnotLast : (obuCount != 0 && obuOffset + 1 == obuCount) = false := by
    simpa using hcount
  have hread : readLeb128 payload.data pre.length
      = .ok ((e.length : Int), ((encode e.length).length : Int)) := by
    rw [hdata]
    exact readLeb128_encode (by omega)
  have hn : toInt (encode e.length).length = (encode e.length).length :=
    toInt_eq (by omega) (by omega)
  have he : toInt e.length = e.length := toInt_eq (by omega) (by omega)
  have hoffset : toInt ((pre.length : Int) + (encode e.length).length)
      = (pre ++ encode e.length).length := by
    rw [toInt_eq (by omega) (by omega), List.length_append]
    omega
  have hend : (toInt (((pre ++ encode e.length).length : Int) + e.length) == payload.data.length)
      = rest.isEmpty := by
    rw [toInt_eq (by omega) (by simp only [List.length_append]; omega), Bool.eq_iff_iff]
    simp only [beq_iff_eq, List.isEmpty_iff, List.length_append, hlength, ← List.length_eq_zero_iff]
    omega
  have hne : ((encode e.length).length : Int) ≠ 0 := by omega
  simp only [readHead, hnotLast, Bool.not_false, Bool.or_true, if_true, hread, hn, he,
    hoffset, hend, hne, if_false, Bool.false_or]

/-- **The last of counted elements**, which has no size field. -/
theorem readHead_last {pre e : List UInt8} {obuOffset : Nat} (hdata : payload.data = pre ++ e)
    (hcount : obuOffset + 1 = obuCount) :
    readHead payload obuCount pre.length obuOffset = .ok ⟨pre.length, e.length, true⟩ := by
  have htotal := payload.length_lt
  have hlength := congrArg List.length hdata
  simp only [List.length_append] at hlength
  have hlast : (obuCount != 0 && obuOffset + 1 == obuCount) = true := by
    simp only [hcount, beq_self_eq_true, Bool.and_true, bne_iff_ne]
    omega
  have hzero : (obuCount == 0) = false := by
    simp only [beq_eq_false_iff_ne]
    omega
  have hrest : toInt ((payload.data.length : Int) - pre.length) = e.length := by
    rw [toInt_eq (by omega) (by omega)]
    omega
  simp only [readHead, hlast, hzero, Bool.not_true, Bool.or_self, Bool.false_eq_true,
    if_false, hrest]

/-- **The last element**, counted or not. -/
theorem readHead_final {pre e : List UInt8} {obuOffset : Nat}
    (hdata : payload.data = pre ++ lastElement (obuCount == 0) e)
    (hcount : obuCount ≠ 0 → obuOffset + 1 = obuCount) :
    ∃ pre', payload.data = pre' ++ (e ++ [])
      ∧ readHead payload obuCount pre.length obuOffset = .ok ⟨pre'.length, e.length, true⟩ := by
  by_cases hzero : obuCount = 0
  · have hsized : payload.data = pre ++ (encode e.length ++ (e ++ [])) := by
      simpa [hzero, lastElement, sizedElement] using hdata
    refine ⟨pre ++ encode e.length, by rw [hsized, List.append_assoc], ?_⟩
    rw [readHead_sized hsized fun hne => absurd hzero hne]
    simp [hzero]
  · have hplain : payload.data = pre ++ e := by simpa [hzero, lastElement] using hdata
    exact ⟨pre, by rw [hplain, List.append_nil], readHead_last hplain (hcount hzero)⟩

/-- The element is copied behind what was buffered. -/
theorem copyElement_eq (prev : List UInt8) {pre e rest : List UInt8}
    (hdata : payload.data = pre ++ (e ++ rest))
    (hlength : (prev ++ e).length < 2 ^ 31) :
    copyElement prev payload pre.length e.length = .ok ⟨prev ++ e, hlength⟩ := by
  have htotal := congrArg List.length hdata
  simp only [List.length_append] at htotal hlength
  have hnew : ¬ toInt ((prev.length : Int) + e.length) < 0 := by
    rw [toInt_eq (by omega) (by omega)]
    omega
  have hbounds : ¬ ((e.length : Int) < 0 ∨ (pre.length : Int) < 0
      ∨ (payload.data.length : Int) < pre.length + e.length) := by omega
  have hslice : (payload.data.drop (pre.length : Int).toNat).take (e.length : Int).toNat = e := by
    rw [Int.toNat_natCast, Int.toNat_natCast, hdata, List.drop_left, List.take_left]
  rw [copyElement, if_neg hnew, if_neg hbounds, hslice]
  exact JavaBytes.make_eq _

/-- **A complete OBU is written in low-overhead form.** -/
theorem writeObu_eq {result : JavaBytes} {o : Obu} (actualSize : Int)
    (hlength : (result.data ++ o.lowOverhead).length < 2 ^ 31) :
    writeObu result o.bytes actualSize = .ok ⟨result.data ++ o.lowOverhead, hlength⟩ := by
  have hsize : ((o.bytes.length : Int) - headerSize o.header) = o.payload.length := by
    rw [o.length_bytes, o.size_eq]
    omega
  have hsmall : o.payload.length < 2 ^ 32 := by
    simp only [Obu.lowOverhead, List.length_append] at hlength
    omega
  have hout : withSizeBit o.header :: (if (obuHasExtension o.header && decide (1 < o.bytes.length))
        then [o.bytes.getD 1 0] else []) ++ writeLeb128 o.payload.length
        ++ o.bytes.drop (headerSize o.header) = o.lowOverhead := by
    rw [writeLeb128_eq hsmall, Obu.lowOverhead]
    by_cases hext : obuHasExtension o.header = true
    · simp [Obu.bytes, Obu.extensionBytes, headerSize, hext]
    · simp [Obu.bytes, Obu.extensionBytes, headerSize, hext]
  have hhead : o.bytes.headD 0 = withoutSizeBit o.header := rfl
  have hheader : headerSize (withoutSizeBit o.header) = headerSize o.header := by simp [headerSize]
  simp only [writeObu, hhead, obuHasSize_withoutSizeBit, Bool.false_eq_true, if_false,
    obuHasExtension_withoutSizeBit, withSizeBit_withoutSizeBit, hheader, hsize, hout]
  exact JavaBytes.make_eq hlength

theorem JavaBytes.eq_empty {b : JavaBytes} (h : b.data = []) : b = .empty := by
  obtain ⟨data, _⟩ := b
  subst h
  rfl

/-- The element behind what was buffered, and an empty buffer. -/
theorem takeElement_eq {pre e rest : List UInt8} {s : LoopState} {isLast : Bool}
    (hdata : payload.data = pre ++ (e ++ rest))
    (hbuffer : (s.obuOffset = 0 ∧ obuZ = true) ↔ s.buffer.data ≠ [])
    (hlength : (s.buffer.data ++ e).length < 2 ^ 31) :
    ∃ actualSize, takeElement payload obuZ obuY s ⟨pre.length, e.length, isLast⟩
      = handleObu obuY { s with offset := (pre ++ e).length, buffer := .empty } isLast
          ⟨s.buffer.data ++ e, hlength⟩ actualSize := by
  have htotal := payload.length_lt
  have hsum := congrArg List.length hdata
  simp only [List.length_append] at hsum
  have hnext : toInt ((pre.length : Int) + e.length) = (pre ++ e).length := by
    rw [toInt_eq (by omega) (by omega), List.length_append]
    omega
  have hinside : ¬ (payload.data.length : Int) < (pre ++ e).length := by
    rw [List.length_append]
    omega
  by_cases hempty : s.buffer.data = []
  · have hcontinues : (s.obuOffset == 0 && obuZ) = false := by
      rw [Bool.eq_false_iff]
      intro hc
      simp only [Bool.and_eq_true, beq_iff_eq] at hc
      exact hbuffer.mp hc hempty
    have hcopy := copyElement_eq [] hdata (by simp only [List.nil_append]; omega)
    have hb : s.buffer = .empty := JavaBytes.eq_empty hempty
    refine ⟨e.length, ?_⟩
    simp only [takeElement, hnext, hinside, if_false, hcontinues, Bool.false_and,
      Bool.false_eq_true, hcopy, hb]
    rfl
  · have hcontinues : (s.obuOffset == 0 && obuZ) = true := by
      simpa using hbuffer.mpr hempty
    have hnotEmpty : s.buffer.data.isEmpty = false := by simpa using hempty
    have hcopy := copyElement_eq s.buffer.data hdata hlength
    exact ⟨(s.buffer.data ++ e).length, by
      simp only [takeElement, hnext, hinside, if_false, hcontinues, Bool.true_and, hnotEmpty,
        Bool.false_eq_true, if_true, hcopy]⟩

/-- **The last element of an unfinished packet is kept.** -/
theorem turn_hold {pre e rest : List UInt8} {s : LoopState}
    (hhead : readHead payload obuCount s.offset s.obuOffset = .ok ⟨pre.length, e.length, true⟩)
    (hdata : payload.data = pre ++ (e ++ rest))
    (hbuffer : (s.obuOffset = 0 ∧ obuZ = true) ↔ s.buffer.data ≠ [])
    (hlength : (s.buffer.data ++ e).length < 2 ^ 31) :
    turn payload obuZ true obuCount s
      = .stop ⟨(pre ++ e).length, s.obuOffset, s.result, ⟨s.buffer.data ++ e, hlength⟩⟩ := by
  obtain ⟨actualSize, htake⟩ := takeElement_eq hdata hbuffer hlength
  simp only [turn, hhead]
  rw [htake]
  rfl

/-- **Any other element completes an OBU**, which goes to the result. -/
theorem turn_complete {pre e rest : List UInt8} {s : LoopState} {isLast : Bool} {o : Obu}
    (hhead : readHead payload obuCount s.offset s.obuOffset = .ok ⟨pre.length, e.length, isLast⟩)
    (hdata : payload.data = pre ++ (e ++ rest))
    (hbuffer : (s.obuOffset = 0 ∧ obuZ = true) ↔ s.buffer.data ≠ [])
    (hobu : o.bytes = s.buffer.data ++ e) (hkeep : isDropped o.header = false)
    (hopen : (isLast && obuY) = false)
    (hlength : (s.result.data ++ o.lowOverhead).length < 2 ^ 31) :
    turn payload obuZ obuY obuCount s
      = LoopState.goOn ⟨(pre ++ e).length, s.obuOffset, ⟨s.result.data ++ o.lowOverhead, hlength⟩,
          .empty⟩ isLast := by
  have hlimit : (s.buffer.data ++ e).length < 2 ^ 31 := by
    have hle := o.length_bytes_le
    rw [List.length_append] at hlength
    rw [← hobu]
    omega
  obtain ⟨actualSize, htake⟩ := takeElement_eq hdata hbuffer hlimit
  have hempty : o.bytes.isEmpty = false := by simp [Obu.bytes]
  have hdropped : isDropped (o.bytes.headD 0) = false := by
    have hhead : o.bytes.headD 0 = withoutSizeBit o.header := rfl
    rw [hhead, isDropped, obuType_withoutSizeBit]
    exact hkeep
  simp only [turn, hhead]
  rw [htake]
  simp only [handleObu, hopen, Bool.false_eq_true, if_false, ← hobu, hempty, hdropped, Bool.or_self,
    writeObu_eq actualSize hlength]

/-! ## 5. The loop -/

theorem depacketizeLoop_next {s s' : LoopState} {fuel : Nat} (h : s.offset < payload.data.length)
    (hturn : turn payload obuZ obuY obuCount s = .next s') :
    depacketizeLoop payload obuZ obuY obuCount (fuel + 1) s
      = depacketizeLoop payload obuZ obuY obuCount fuel s' := by
  rw [depacketizeLoop, if_pos h, hturn]

theorem depacketizeLoop_stop {s s' : LoopState} {fuel : Nat} (h : s.offset < payload.data.length)
    (hturn : turn payload obuZ obuY obuCount s = .stop s') :
    depacketizeLoop payload obuZ obuY obuCount (fuel + 1) s = .stop s' := by
  rw [depacketizeLoop, if_pos h, hturn]

/-- What the loop has done when it stops after the elements `es`: `os` are complete, `buffer` is
kept. -/
def Finishes (payload : JavaBytes) (obuZ obuY : Bool) (obuCount fuel : Nat) (s : LoopState)
    (elements : Nat) (os : List Obu) (buffer : List UInt8) : Prop :=
  ∃ s', depacketizeLoop payload obuZ obuY obuCount fuel s = .stop s'
    ∧ s'.result.data = s.result.data ++ os.flatMap Obu.lowOverhead ∧ s'.buffer.data = buffer
    ∧ s'.obuOffset + 1 = s.obuOffset + elements

/-- The last element completes an OBU or is kept. -/
theorem loop_lastElement {pre e : List UInt8} {s : LoopState} {os : List Obu} {buffer : List UInt8}
    (fuel : Nat) (hdata : payload.data = pre ++ elementsBytes (obuCount == 0) [e])
    (hoffset : s.offset = pre.length) (hcount : obuCount ≠ 0 → s.obuOffset + 1 = obuCount)
    (hne : ∀ x ∈ [e], x ≠ []) (hbuffer : (s.obuOffset = 0 ∧ obuZ = true) ↔ s.buffer.data ≠ [])
    (habsorb : absorb s.buffer.data ⟨true, obuY, [e]⟩ = (os.map Obu.bytes, buffer))
    (hkeep : ∀ o ∈ os, isDropped o.header = false)
    (hresult : (s.result.data ++ os.flatMap Obu.lowOverhead).length < 2 ^ 31)
    (hlimit : buffer.length < 2 ^ 31) :
    Finishes payload obuZ obuY obuCount (fuel + 1) s 1 os buffer := by
  obtain ⟨pre', hdata', hhead⟩ := readHead_final hdata (by simpa using hcount)
  rw [← hoffset] at hhead
  have hinside : s.offset < payload.data.length := by
    have hpos := length_le_elementsBytes (obuCount == 0) [e] hne
    rw [List.length_singleton] at hpos
    rw [hoffset, hdata, List.length_append]
    omega
  cases obuY with
  | true =>
    simp only [absorb, joinFirst, if_true, List.dropLast_singleton, List.getLastD_cons,
      List.getLastD_nil, Prod.mk.injEq, List.nil_eq, List.map_eq_nil_iff] at habsorb
    obtain ⟨rfl, rfl⟩ := habsorb
    exact ⟨_, depacketizeLoop_stop hinside (turn_hold hhead hdata' hbuffer hlimit),
      by simp, rfl, rfl⟩
  | false =>
    simp only [absorb, joinFirst, if_true, Bool.false_eq_true, if_false, Prod.mk.injEq] at habsorb
    obtain ⟨hos, rfl⟩ := habsorb
    obtain ⟨o, rfl, ho⟩ := List.map_eq_singleton_iff.mp hos.symm
    rw [List.flatMap_singleton] at hresult
    have hturn := turn_complete hhead hdata' hbuffer ho (hkeep o (by simp)) rfl hresult
    exact ⟨_, depacketizeLoop_stop hinside hturn, by simp, rfl, rfl⟩

/-- **The elements of a packet**, by induction on them: all that precede the last complete an OBU,
the last does so or is kept. -/
theorem loop_elements : ∀ (es : List (List UInt8)) (pre e : List UInt8) (s : LoopState) (fuel : Nat)
    (os : List Obu) (buffer : List UInt8),
    payload.data = pre ++ elementsBytes (obuCount == 0) (e :: es) → s.offset = pre.length →
    (obuCount ≠ 0 → s.obuOffset + (es.length + 1) = obuCount) → (∀ x ∈ e :: es, x ≠ []) →
    ((s.obuOffset = 0 ∧ obuZ = true) ↔ s.buffer.data ≠ []) →
    absorb s.buffer.data ⟨true, obuY, e :: es⟩ = (os.map Obu.bytes, buffer) →
    (∀ o ∈ os, isDropped o.header = false) →
    (s.result.data ++ os.flatMap Obu.lowOverhead).length < 2 ^ 31 → buffer.length < 2 ^ 31 →
    es.length < fuel →
    Finishes payload obuZ obuY obuCount fuel s (es.length + 1) os buffer
  | [], pre, e, s, fuel + 1, os, buffer, hdata, hoffset, hcount, hne, hbuffer, habsorb,
    hkeep, hresult,
      hlimit, _ =>
    loop_lastElement fuel hdata hoffset hcount hne hbuffer habsorb hkeep hresult hlimit
  | e' :: es, pre, e, s, fuel + 1, os, buffer, hdata, hoffset, hcount, hne, hbuffer, habsorb, hkeep,
      hresult, hlimit, hfuel => by
    rw [elementsBytes_cons (by simp), sizedElement, List.append_assoc] at hdata
    have hpos := length_le_elementsBytes (obuCount == 0) (e' :: es)
      fun x hx => hne x (List.mem_cons_of_mem e hx)
    rw [List.length_cons] at hpos
    have hinside : s.offset < payload.data.length := by
      rw [hoffset, hdata]
      simp only [List.length_append]
      omega
    have hnotLast : obuCount ≠ 0 → s.obuOffset + 1 ≠ obuCount := by
      intro hc
      have hsum := hcount hc
      rw [List.length_cons] at hsum
      omega
    have hmore : (elementsBytes (obuCount == 0) (e' :: es)).isEmpty = false := by
      rw [List.isEmpty_eq_false_iff]
      exact List.ne_nil_of_length_pos (by omega)
    have hhead : readHead payload obuCount s.offset s.obuOffset
        = .ok ⟨(pre ++ encode e.length).length, e.length, false⟩ := by
      rw [hoffset, readHead_sized hdata hnotLast, hmore, Bool.and_false]
    rw [absorb_cons, Prod.mk.injEq] at habsorb
    obtain ⟨hos, hbuf⟩ := habsorb
    obtain ⟨o, os', rfl, ho, hos'⟩ := List.map_eq_cons_iff.mp hos.symm
    rw [List.flatMap_cons, ← List.append_assoc] at hresult
    have hwritten : (s.result.data ++ o.lowOverhead).length < 2 ^ 31 := by
      rw [List.length_append] at hresult
      omega
    rw [← List.append_assoc] at hdata
    have hturn :=
      turn_complete hhead hdata hbuffer ho (hkeep o (by simp)) (Bool.false_and obuY) hwritten
    rw [LoopState.goOn, if_neg Bool.false_ne_true] at hturn
    rw [← List.append_assoc] at hdata
    -- what remains is a packet again, with nothing buffered
    obtain ⟨s', hloop, hout, hkept, hindex⟩ := loop_elements es (pre ++ encode e.length ++ e) e'
      ⟨(pre ++ encode e.length ++ e).length, s.obuOffset + 1,
        ⟨s.result.data ++ o.lowOverhead, hwritten⟩, .empty⟩ fuel os' buffer hdata rfl
      (fun hc => by have hsum := hcount hc; rw [List.length_cons] at hsum; simp only; omega)
      (fun x hx => hne x (List.mem_cons_of_mem e hx))
      ⟨fun hfirst => absurd hfirst.1 (Nat.succ_ne_zero _), fun hempty => absurd rfl hempty⟩
      (Prod.ext hos'.symm hbuf) (fun o' ho' => hkeep o' (List.mem_cons_of_mem o ho')) hresult hlimit
      (Nat.lt_of_succ_lt_succ hfuel)
    refine ⟨s', (depacketizeLoop_next hinside hturn).trans hloop, ?_, hkept, ?_⟩
    · rw [hout, List.flatMap_cons, List.append_assoc]
    · rw [hindex, List.length_cons]
      simp only
      omega

end

/-! ## 6. A packet -/

/-- A packet that is no continuation finds nothing buffered. -/
theorem empty_of_not_continued {d : Depacketizer} {continued : Bool}
    (hcont : continued = true ↔ d.buffer.data ≠ []) (h : continued = false) :
    d.buffer = .empty := by
  refine JavaBytes.eq_empty (Classical.byContradiction fun hb => ?_)
  rw [hcont.mpr hb] at h
  cases h

/-- So nothing is thrown away at the start of a call. -/
theorem kept_at_start {d : Depacketizer} {continued n : Bool} (hn : n = true → continued = false)
    (hcont : continued = true ↔ d.buffer.data ≠ []) :
    (if n then JavaBytes.empty else d.buffer) = d.buffer
      ∧ (if !continued && !d.buffer.data.isEmpty then JavaBytes.empty else d.buffer)
        = d.buffer := by
  constructor
  · split
    · exact (empty_of_not_continued hcont (hn ‹_›)).symm
    · rfl
  · split
    · rename_i hif
      simp only [Bool.and_eq_true, Bool.not_eq_true'] at hif
      exact (empty_of_not_continued hcont hif.1).symm
    · rfl

/-- **The depacketizer does what the abstract receiver does** on a packet in wire format: it returns
the OBUs the packet completes, in low-overhead form, and keeps what the receiver keeps. -/
theorem depacketize_wire {d : Depacketizer} {payload : JavaBytes} {n : Bool} {p : Packet UInt8}
    {os : List Obu} {buffer : List UInt8} (hdata : payload.data = wire n p)
    (hn : n = true → p.continued = false) (hcont : p.continued = true ↔ d.buffer.data ≠ [])
    (hpieces : p.pieces ≠ []) (hne : ∀ e ∈ p.pieces, e ≠ [])
    (habsorb : absorb d.buffer.data p = (os.map Obu.bytes, buffer))
    (hkeep : ∀ o ∈ os, isDropped o.header = false)
    (hresult : (os.flatMap Obu.lowOverhead).length < 2 ^ 31) (hlimit : buffer.length < 2 ^ 31) :
    ∃ out, (depacketize d payload).2 = .returned out ∧ out.data = os.flatMap Obu.lowOverhead
      ∧ (depacketize d payload).1.buffer.data = buffer := by
  obtain ⟨continued, unfinished, pieces⟩ := p
  obtain ⟨e, es, rfl⟩ := List.exists_cons_of_ne_nil hpieces
  simp only at hn hcont hne hdata habsorb
  rw [wire] at hdata
  simp only at hdata
  obtain ⟨hz, hy, hw, hnf⟩ :=
    aggregationByte_fields continued unfinished (countField (e :: es).length) n
  -- the header byte is read back
  have hhead : payload.data.headD 0
      = aggregationByte continued unfinished (countField (e :: es).length) n := by rw [hdata]; rfl
  have hsized := countField_eq_zero_iff (List.length_pos_of_ne_nil hpieces)
  have hcounted : (countField (e :: es).length).val ≠ 0 →
      0 + (es.length + 1) = (countField (e :: es).length).val := by
    intro hcount
    rw [Nat.zero_add]
    exact countField_counts hcount
  simp only at hsized
  generalize (countField (e :: es).length).val = obuCount at hw hsized hcounted
  have hlong := length_le_elementsBytes (decide (3 < (e :: es).length)) (e :: es) hne
  have hcons : (e :: es).length = es.length + 1 := rfl
  have hlength := congrArg List.length hdata
  rw [List.length_cons] at hlength
  obtain ⟨hbuffer1, hbuffer2⟩ := kept_at_start hn hcont
  have habsorb' : absorb d.buffer.data ⟨true, unfinished, e :: es⟩
      = (os.map Obu.bytes, buffer) := by
    cases continued with
    | true => exact habsorb
    | false =>
      rw [empty_of_not_continued hcont rfl] at habsorb ⊢
      exact habsorb
  rw [← hsized] at hdata
  obtain ⟨s', hloop, hout, hkept, hindex⟩ := loop_elements es [payload.data.headD 0] e
    ⟨1, 0, .empty, d.buffer⟩ (payload.data.length + 2) os buffer (by rw [hhead, hdata]; rfl) rfl
    hcounted hne ⟨fun h => hcont.mp h.2, fun h => ⟨rfl, hcont.mpr h⟩⟩ habsorb' hkeep hresult hlimit
    (by omega)
  have hmatch : (obuCount != 0 && s'.obuOffset + 1 != obuCount && !unfinished) = false := by
    by_cases hne0 : obuCount = 0
    · simp [hne0]
    · rw [hindex, hcounted hne0]
      simp
  have hrun : depacketize d payload
      = (⟨s'.buffer, continued, unfinished, n⟩, .returned s'.result) := by
    simp only [depacketize, show ¬ payload.data.length ≤ 1 by omega, if_false, hhead,
      hz, hy, hw, hnf, hbuffer1, hbuffer2, hloop, hmatch, Bool.false_eq_true]
  rw [hrun]
  exact ⟨s'.result, rfl, hout, hkept⟩

end WebrtcBridge.Av1
