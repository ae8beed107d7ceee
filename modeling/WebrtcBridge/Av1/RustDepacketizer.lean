/-
# From RTP payloads back to OBUs: `codec/av1/depacketizer.rs`

The depacketizer of the engine, which the demo's Java class is a port of.  It has the same loop over
the elements of a payload and the same buffer for an unfinished OBU, in other integers: lengths are
`u32` widened to `usize`, so no sum of them wraps, and an unfinished LEB128 field reads as `(0, 0)`
and is an error.

Two things can PANIC, both for an OBU that is nothing but a header byte announcing an extension.
With a size bit, `slice` is called behind the end.  Without, `len() - header_size` underflows; a
build with overflow checks panics there, and one without goes on with the size `u32::MAX`.  The
model has both, `overflowChecks` says which.

The loop ends: every turn that goes on has read a length field (`turn_next_offset`), so there are no
more turns than bytes (`depacketize_ends`).
-/
import WebrtcBridge.Av1.Obu

namespace WebrtcBridge.Av1.Rust

open Lib Lib.Leb128

/-! ## 1. The code -/

/-- Where an element starts, its length, and whether it is the last one. -/
structure Head where
  offset : Nat
  lengthField : Nat
  isLast : Bool
  deriving DecidableEq, Repr

/-- An element has a length field, the last of counted elements apart. -/
def hasLengthField (obuCount obuOffset : Nat) : Bool :=
  obuCount == 0 || !(obuCount != 0 && obuOffset == obuCount - 1)

/-- The head of the element number `obuOffset` at `offset`; `none` is `ErrShortPacket`. -/
def readHead (payload : List UInt8) (obuCount offset obuOffset : Nat) : Option Head :=
  let isLast := obuCount != 0 && obuOffset == obuCount - 1
  if hasLengthField obuCount obuOffset then
    let (len, n) := rustReadLeb128 (payload.drop offset)
    if n = 0 then none
    else
      let offset := offset + n
      let isLastW0 := obuCount == 0 && offset + len == payload.length
      some ⟨offset, len, isLast || isLastW0⟩
  else some ⟨offset, payload.length - offset, true⟩

/-- `OBU_TYPE_TEMPORAL_DELIMITER` or `OBU_TYPE_TILE_LIST`. -/
def isDropped (header : UInt8) : Bool := obuType header == 2 || obuType header == 8

/-- What writing an OBU ends with. -/
inductive Write
  | done (result : List UInt8)
  | err
  | panicked
  deriving DecidableEq, Repr

/-- A complete OBU is written to the result.  `write_leb128` of this file is the loop of
`put_leb128`. -/
def writeObu (overflowChecks : Bool) (result obuBuffer : List UInt8) (actualSize : Nat) : Write :=
  let header := obuBuffer.headD 0
  if obuHasSize header then
    -- `obu_buffer.slice(header_size..)`
    if obuBuffer.length < headerSize header then .panicked
    else
      let (obuSize, lebSize) := rustReadLeb128 (obuBuffer.drop (headerSize header))
      if lebSize = 0 then .err
      else if actualSize ≠ headerSize header + lebSize + obuSize then .err
      else .done (result ++ obuBuffer)
  else
    let extension :=
      if obuHasExtension header && decide (1 < obuBuffer.length) then [obuBuffer.getD 1 0] else []
    -- `obu_buffer.len() - header_size`
    if overflowChecks && decide (obuBuffer.length < headerSize header) then .panicked
    else
      let payloadSize := (2 ^ 64 + obuBuffer.length - headerSize header) % 2 ^ 64
      .done (result ++ (withSizeBit header :: extension ++ putLeb128 payloadSize
        ++ obuBuffer.drop (headerSize header)))

/-- The variables of the loop, and the buffer of the object. -/
structure State where
  offset : Nat
  obuOffset : Nat
  result : List UInt8
  buffer : List UInt8
  deriving DecidableEq, Repr

/-- How a turn of the loop ends: at the loop head, behind the loop, with an error, or in a panic. -/
inductive Turn
  | next (s : State)
  | stop (s : State)
  | err (buffer : List UInt8)
  | panicked
  deriving DecidableEq, Repr

/-- `if is_last { break; } obu_offset += 1; continue;` -/
def State.goOn (s : State) (isLast : Bool) : Turn :=
  if isLast then .stop s else .next { s with obuOffset := s.obuOffset + 1 }

section

variable (overflowChecks : Bool) (payload : List UInt8) (obuZ obuY : Bool) (obuCount : Nat)

/-- The rest of a turn once the element is in `obu_buffer`. -/
def handleObu (s : State) (isLast : Bool) (obuBuffer : List UInt8) (actualSize : Nat) : Turn :=
  if isLast && obuY then .stop { s with buffer := obuBuffer }
  else if obuBuffer.isEmpty || isDropped (obuBuffer.headD 0) then s.goOn isLast
  else
    match writeObu overflowChecks s.result obuBuffer actualSize with
    | .panicked => .panicked
    | .err => .err s.buffer
    | .done result => { s with result }.goOn isLast

/-- The element is the continuation of what is in the buffer. -/
def continues (s : State) : Bool := s.obuOffset == 0 && obuZ

/-- `obu_buffer`. -/
def obuBuffer (s : State) (h : Head) : List UInt8 :=
  (if continues obuZ s then s.buffer else []) ++ (payload.drop h.offset).take h.lengthField

/-- The rest of a turn once the head of the element is read. -/
def takeElement (s : State) (h : Head) : Turn :=
  if payload.length < h.offset + h.lengthField then .err s.buffer
  else if continues obuZ s && s.buffer.isEmpty then
    -- lost first fragment
    if h.isLast then .stop { s with offset := h.offset }
    else .next { s with offset := h.offset + h.lengthField, obuOffset := s.obuOffset + 1 }
  else
    handleObu overflowChecks obuY
      { s with
        offset := h.offset + h.lengthField
        buffer := if continues obuZ s then [] else s.buffer }
      h.isLast (obuBuffer payload obuZ s h)
      (if continues obuZ s then (obuBuffer payload obuZ s h).length else h.lengthField)

/-- A turn of the loop. -/
def turn (s : State) : Turn :=
  match readHead payload obuCount s.offset s.obuOffset with
  | none => .err s.buffer
  | some h => takeElement overflowChecks payload obuZ obuY s h

/-- The loop; `next` at the end means that the turns allowed did not suffice. -/
def depacketizeLoop : Nat → State → Turn
  | 0, s => .next s
  | fuel + 1, s =>
    if s.offset < payload.length then
      match turn overflowChecks payload obuZ obuY obuCount s with
      | .next s' => depacketizeLoop fuel s'
      | t => t
    else .stop s

end

/-- `Av1Depacketizer`. -/
structure Depacketizer where
  buffer : List UInt8
  z : Bool
  y : Bool
  n : Bool
  deriving DecidableEq, Repr

/-- `Av1Depacketizer::new()`. -/
def Depacketizer.new : Depacketizer := ⟨[], false, false, false⟩

/-- What a call ends with. -/
inductive Outcome
  | ok (bytes : List UInt8)
  | errShortPacket
  | panicked
  | running
  deriving DecidableEq, Repr

/-- The fields of the aggregation header. -/
structure Header where
  z : Bool
  y : Bool
  count : Nat
  n : Bool
  deriving DecidableEq, Repr

def readHeader (payload : List UInt8) : Header :=
  let b := payload.headD 0
  ⟨b &&& 0b10000000 != 0, b &&& 0b01000000 != 0, ((b &&& 0b00110000) >>> 4).toNat,
    b &&& 0b00001000 != 0⟩

/-- The loop starts behind the header, with a buffer that is cleared on a new coded video sequence
and if the payload does not continue it. -/
def start (buffer : List UInt8) (h : Header) : State :=
  let buffer := if h.n then [] else buffer
  ⟨1, 0, [], if !h.z && !buffer.isEmpty then [] else buffer⟩

/-- `depacketize(&payload)`. -/
def depacketize (overflowChecks : Bool) (d : Depacketizer) (payload : List UInt8) :
    Depacketizer × Outcome :=
  if payload.length ≤ 1 then (d, .errShortPacket)
  else
    let h := readHeader payload
    match depacketizeLoop overflowChecks payload h.z h.y h.count payload.length
        (start d.buffer h) with
    | .next s => (⟨s.buffer, h.z, h.y, h.n⟩, .running)
    | .panicked => (⟨[], h.z, h.y, h.n⟩, .panicked)
    | .err buffer => (⟨buffer, h.z, h.y, h.n⟩, .errShortPacket)
    | .stop s =>
      if h.count != 0 && s.obuOffset != h.count - 1 && !h.y then
        (⟨s.buffer, h.z, h.y, h.n⟩, .errShortPacket)
      else (⟨s.buffer, h.z, h.y, h.n⟩, .ok s.result)

/-! ## 2. The loop ends -/

section

variable {overflowChecks : Bool} {payload : List UInt8} {obuZ obuY : Bool} {obuCount : Nat}

/-- Without a length field the element is the last one. -/
theorem readHead_offset {offset obuOffset : Nat} {h : Head}
    (hhead : readHead payload obuCount offset obuOffset = some h) :
    (h.isLast = true ∧ h.offset = offset) ∨ offset < h.offset := by
  unfold readHead at hhead
  dsimp only at hhead
  split at hhead
  · split at hhead
    · exact nomatch hhead
    · next hn =>
      cases hhead
      exact .inr (by dsimp only; omega)
  · cases hhead
    exact .inl ⟨rfl, rfl⟩

theorem goOn_next {s s' : State} {isLast : Bool} (h : s.goOn isLast = .next s') :
    isLast = false ∧ s' = { s with obuOffset := s.obuOffset + 1 } := by
  unfold State.goOn at h
  split at h
  · exact nomatch h
  · next hlast =>
    cases h
    exact ⟨by simpa using hlast, rfl⟩

/-- A turn that goes on is not at the last element and leaves the offset where the element ends. -/
theorem handleObu_next {s s' : State} {isLast : Bool} {obu : List UInt8} {actualSize : Nat}
    (h : handleObu overflowChecks obuY s isLast obu actualSize = .next s') :
    isLast = false ∧ s'.offset = s.offset := by
  unfold handleObu at h
  split at h
  · exact nomatch h
  · split at h
    · obtain ⟨hlast, rfl⟩ := goOn_next h
      exact ⟨hlast, rfl⟩
    · split at h
      · exact nomatch h
      · exact nomatch h
      · obtain ⟨hlast, rfl⟩ := goOn_next h
        exact ⟨hlast, rfl⟩

theorem takeElement_next {s s' : State} {h : Head}
    (hturn : takeElement overflowChecks payload obuZ obuY s h = .next s') :
    h.isLast = false ∧ s'.offset = h.offset + h.lengthField := by
  unfold takeElement at hturn
  split at hturn
  · exact nomatch hturn
  · split at hturn
    · split at hturn
      · exact nomatch hturn
      · next hlast =>
        cases hturn
        exact ⟨by simpa using hlast, rfl⟩
    · exact handleObu_next hturn

/-- **A turn that goes on has read something.** -/
theorem turn_next_offset {s s' : State}
    (h : turn overflowChecks payload obuZ obuY obuCount s = .next s') : s.offset < s'.offset := by
  unfold turn at h
  split at h
  · exact nomatch h
  · next hd hhead =>
    obtain ⟨hlast, hoffset⟩ := takeElement_next h
    rcases readHead_offset hhead with ⟨hlast', -⟩ | hlt
    · rw [hlast] at hlast'
      exact nomatch hlast'
    · omega

/-- There are enough turns, by induction on them: every turn that goes on leaves fewer bytes. -/
theorem depacketizeLoop_ends : ∀ (fuel : Nat) (s s' : State), 0 < fuel →
    payload.length < s.offset + fuel →
    depacketizeLoop overflowChecks payload obuZ obuY obuCount fuel s ≠ .next s'
  | fuel + 1, s, s', _, hfuel => by
    intro h
    rw [depacketizeLoop] at h
    split at h
    · next hinside =>
      rcases hturn : turn overflowChecks payload obuZ obuY obuCount s with s1 | s1 | b | -
      · have hlt := turn_next_offset hturn
        rw [hturn] at h
        exact depacketizeLoop_ends fuel s1 s' (by omega) (by omega) h
      · rw [hturn] at h
        exact nomatch h
      · rw [hturn] at h
        exact nomatch h
      · rw [hturn] at h
        exact nomatch h
    · exact nomatch h

end

/-- **Every call ends.** -/
theorem depacketize_ends (overflowChecks : Bool) (d : Depacketizer) (payload : List UInt8) :
    (depacketize overflowChecks d payload).2 ≠ .running := by
  unfold depacketize
  split
  · exact nofun
  · next hlength =>
    dsimp only
    split
    · next s hloop =>
      exact absurd hloop (depacketizeLoop_ends payload.length _ s (by omega)
        (by simp only [start]; omega))
    · exact nofun
    · exact nofun
    · split <;> exact nofun

end WebrtcBridge.Av1.Rust
