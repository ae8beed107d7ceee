/-
# Which OBU bytes go into which packet: `codec/av1/packetizer.rs`

`packetize` fills packets greedily.  Its state is the list of packets so far, of which the LAST one
may still take more, and the bytes that are free in it.  An OBU that does not fit is cut: a first
fragment into the last packet (or none, if that would be empty), middle fragments that fill a
packet each, and the rest into a new last packet.

What comes out is a list of spans over the OBUs (`Lib.Span`), and the invariant of the loop is that
they form a chain which ends at the OBU to be placed next (`Packed`).  One lemma says what filling
a packet can do (`fillPacket_cases`); that the chain grows by exactly this OBU and that no packet
exceeds the MTU are read off from it.

The branch for a last fragment larger than a packet is in the model as it is in the source.  It
would leave a packet with no element in it, but it is never taken: the loop before it runs until
the rest fits.
-/
import WebrtcBridge.Av1.Aggregation
import WebrtcBridge.Av1.Obu

namespace WebrtcBridge.Av1

open Lib Lib.Leb128

/-! ## 1. The code -/

/-- `PacketMetadata`. -/
structure PacketMetadata where
  firstObuIndex : Nat
  numObuElements : Nat
  firstObuOffset : Nat
  lastObuSize : Nat
  packetSize : Nat
  deriving DecidableEq, Repr

/-- `PacketMetadata::new`. -/
def PacketMetadata.new (firstObuIndex : Nat) : PacketMetadata := ⟨firstObuIndex, 0, 0, 0, 0⟩

/-- `MAX_NUM_OBUS_TO_OMIT_SIZE`. -/
def maxNumObusToOmitSize : Nat := 3

/-- `additional_bytes_for_previous_obu_element`. -/
def additionalBytesForPreviousObuElement (packet : PacketMetadata) : Nat :=
  if packet.packetSize = 0 ∨ maxNumObusToOmitSize < packet.numObuElements then 0
  else leb128Size packet.lastObuSize

/-- The loop of `max_fragment_size`. -/
def maxFragmentSizeLoop (remainingBytes : Nat) : Nat → Nat → Nat
  | 0, i => remainingBytes - i
  | fuel + 1, i =>
    if remainingBytes < (1 <<< (7 * i)) + i then remainingBytes - i
    else maxFragmentSizeLoop remainingBytes fuel (i + 1)

/-- `max_fragment_size`. -/
def maxFragmentSize (remainingBytes : Nat) : Nat :=
  if remainingBytes ≤ 1 then 0 else maxFragmentSizeLoop remainingBytes remainingBytes 1

/-- The state of `packetize`: all packets but the last, the last, and what is free in it. -/
structure Packing where
  closed : List PacketMetadata
  current : PacketMetadata
  packetRemainingBytes : Nat
  deriving DecidableEq, Repr

/-- Middle fragments that fill a packet each, and the offset behind them. -/
def middleFragments (maxPayloadSize obuIndex size : Nat) : Nat → Nat → List PacketMetadata × Nat
  | 0, obuOffset => ([], obuOffset)
  | fuel + 1, obuOffset =>
    if obuOffset + maxPayloadSize < size then
      let r := middleFragments maxPayloadSize obuIndex size fuel (obuOffset + maxPayloadSize)
      (⟨obuIndex, 1, obuOffset, maxPayloadSize, maxPayloadSize⟩ :: r.1, r.2)
    else ([], obuOffset)

/-- The fragments of an OBU behind the first `firstFragmentSize` bytes: all packets but the last,
and the last. -/
def laterFragments (maxPayloadSize obuIndex size : Nat) (isLastObu : Bool)
    (firstFragmentSize : Nat) : List PacketMetadata × PacketMetadata :=
  let m := middleFragments maxPayloadSize obuIndex size size firstFragmentSize
  let lastFragmentSize := size - m.2
  if isLastObu && decide (maxPayloadSize < lastFragmentSize) then
    let half := lastFragmentSize / 2
    let semiLastFragmentSize := if lastFragmentSize ≤ half then lastFragmentSize - 1 else half
    let lastFragmentSize := lastFragmentSize - semiLastFragmentSize
    (m.1 ++ [⟨obuIndex, 0, m.2, semiLastFragmentSize, semiLastFragmentSize⟩],
      ⟨obuIndex, 1, m.2 + semiLastFragmentSize, lastFragmentSize, lastFragmentSize⟩)
  else (m.1, ⟨obuIndex, 1, m.2, lastFragmentSize, lastFragmentSize⟩)

/-- `min_required_size`: an element of one byte, with a size field from the fourth on. -/
def minRequiredSize (packet : PacketMetadata) : Nat :=
  if maxNumObusToOmitSize ≤ packet.numObuElements then 2 else 1

/-- `must_write_obu_element_size`, for the element that makes it `numObuElements`. -/
def mustWriteObuElementSize (numObuElements : Nat) : Bool := maxNumObusToOmitSize < numObuElements

/-- The packet an OBU is put into: the last one, or a new one if too little is free.  Also what the
element before it will need for its size field. -/
def choosePacket (maxPayloadSize obuIndex : Nat) (s : Packing) : Packing × Nat :=
  let previousObuExtraSize := additionalBytesForPreviousObuElement s.current
  if s.packetRemainingBytes < previousObuExtraSize + minRequiredSize s.current then
    (⟨s.closed ++ [s.current], .new obuIndex, maxPayloadSize⟩, 0)
  else (s, previousObuExtraSize)

/-- An OBU into the packet chosen for it, whole or cut. -/
def fillPacket (maxPayloadSize obuIndex size : Nat) (isLastObu : Bool) (s : Packing)
    (previousObuExtraSize : Nat) : Packing :=
  let packet := { s.current with
    packetSize := s.current.packetSize + previousObuExtraSize
    numObuElements := s.current.numObuElements + 1 }
  let packetRemainingBytes := s.packetRemainingBytes - previousObuExtraSize
  let mustWrite := mustWriteObuElementSize packet.numObuElements
  let requiredBytes := size + if mustWrite then leb128Size size else 0
  if requiredBytes < packetRemainingBytes then
    -- the OBU goes into the packet unfragmented
    ⟨s.closed, { packet with lastObuSize := size, packetSize := packet.packetSize + requiredBytes },
      packetRemainingBytes - requiredBytes⟩
  else
    let maxFirstFragmentSize :=
      if mustWrite then maxFragmentSize packetRemainingBytes else packetRemainingBytes
    let firstFragmentSize := min (size - 1) maxFirstFragmentSize
    let packet :=
      if firstFragmentSize = 0 then
        -- rather than an empty element, take the OBU out of the packet again
        { packet with
          numObuElements := packet.numObuElements - 1
          packetSize := packet.packetSize - previousObuExtraSize }
      else
        { packet with
          packetSize := packet.packetSize + firstFragmentSize
            + if mustWrite then leb128Size firstFragmentSize else 0
          lastObuSize := firstFragmentSize }
    let later := laterFragments maxPayloadSize obuIndex size isLastObu firstFragmentSize
    ⟨s.closed ++ packet :: later.1, later.2, maxPayloadSize - later.2.lastObuSize⟩

/-- One turn of the loop of `packetize`. -/
def placeObu (maxPayloadSize obuIndex size : Nat) (isLastObu : Bool) (s : Packing) : Packing :=
  let r := choosePacket maxPayloadSize obuIndex s
  fillPacket maxPayloadSize obuIndex size isLastObu r.1 r.2

/-- The loop over the OBUs from number `obuIndex` on. -/
def packetizeLoop (maxPayloadSize : Nat) : Nat → List Obu → Packing → Packing
  | _, [], s => s
  | obuIndex, obu :: obus, s =>
    packetizeLoop maxPayloadSize (obuIndex + 1) obus
      (placeObu maxPayloadSize obuIndex obu.size obus.isEmpty s)

/-- `packetize`. -/
def packetize (obus : List Obu) (mtu : Nat) : List PacketMetadata :=
  if obus.isEmpty then []
  else if mtu < 3 then []
  else
    let maxPayloadSize := mtu - 1
    let s := packetizeLoop maxPayloadSize 0 obus ⟨[], .new 0, maxPayloadSize⟩
    s.closed ++ [s.current]

/-! ## 2. The helper functions -/

/-- What `max_fragment_size` promises: something fits, together with its size field. -/
theorem maxFragmentSizeLoop_spec (remainingBytes : Nat) : ∀ fuel i, 1 ≤ i →
    i + 1 ≤ remainingBytes → remainingBytes < i + fuel →
    ∃ j, 1 ≤ j ∧ j + 1 ≤ remainingBytes ∧ remainingBytes - j < 128 ^ j
      ∧ maxFragmentSizeLoop remainingBytes fuel i = remainingBytes - j
  | 0, i, _, _, _ => by omega
  | fuel + 1, i, hi, hle, hfuel => by
    have hpow : 1 <<< (7 * i) = 128 ^ i := by rw [Nat.one_shiftLeft, Nat.pow_mul]
    have hpos : 2 ≤ 128 ^ i := by
      calc 2 ≤ 128 ^ 1 := by decide
        _ ≤ 128 ^ i := Nat.pow_le_pow_right (by decide) hi
    rw [maxFragmentSizeLoop, hpow]
    by_cases hlt : remainingBytes < 128 ^ i + i
    · exact ⟨i, hi, hle, by omega, if_pos hlt⟩
    · rw [if_neg hlt]
      exact maxFragmentSizeLoop_spec remainingBytes fuel (i + 1) (by omega) (by omega) (by omega)

theorem leb128Size_le {j n : Nat} (hj : 1 ≤ j) (h : n < 128 ^ j) : leb128Size n ≤ j := by
  obtain ⟨k, rfl⟩ : ∃ k, j = k + 1 := ⟨j - 1, by omega⟩
  have hmod : n % 2 ^ 32 < 2 ^ 32 := Nat.mod_lt n (by decide)
  have hle : n % 2 ^ 32 < 128 ^ (k + 1) := Nat.lt_of_le_of_lt (Nat.mod_le n _) h
  rw [leb128Size, leb128SizeLoop_eq 5 _ (Nat.lt_trans hmod (by decide))]
  exact length_encode_le k _ hle

/-- **`max_fragment_size`**: at least one byte, and any fragment up to this size fits with its size
field. -/
theorem maxFragmentSize_spec {remainingBytes : Nat} (h : 2 ≤ remainingBytes) :
    1 ≤ maxFragmentSize remainingBytes
      ∧ ∀ len ≤ maxFragmentSize remainingBytes, len + leb128Size len ≤ remainingBytes := by
  obtain ⟨j, hj, hle, hlt, heq⟩ :=
    maxFragmentSizeLoop_spec remainingBytes remainingBytes 1 (Nat.le_refl 1) h (by omega)
  rw [maxFragmentSize, if_neg (by omega), heq]
  refine ⟨by omega, ?_⟩
  intro len hlen
  have hsize := leb128Size_le hj (Nat.lt_of_le_of_lt hlen hlt)
  omega

/-! ## 3. What placing an OBU does -/

/-- The part of the OBUs a packet covers. -/
def PacketMetadata.span (p : PacketMetadata) : Span :=
  ⟨p.firstObuIndex, p.firstObuOffset, p.numObuElements, p.lastObuSize⟩

/-- The bytes one more element of `len` bytes takes as the last one of a packet. -/
def elementCost (p : PacketMetadata) (len : Nat) : Nat :=
  len + if mustWriteObuElementSize (p.numObuElements + 1) then leb128Size len else 0

/-- The packet with one more element; `extra` bytes go to the size field of the one before. -/
def PacketMetadata.add (p : PacketMetadata) (extra len : Nat) : PacketMetadata :=
  ⟨p.firstObuIndex, p.numObuElements + 1, p.firstObuOffset, len,
    p.packetSize + extra + elementCost p len⟩

theorem PacketMetadata.span_add (p : PacketMetadata) (extra len : Nat) :
    (p.add extra len).span = p.span.add len := rfl

/-- A packet without elements has all its room. -/
def Ready (maxPayloadSize : Nat) (s : Packing) : Prop :=
  s.current.numObuElements = 0 →
    s.current.packetSize = 0 ∧ s.packetRemainingBytes = maxPayloadSize

/-- What is known when the packet for the next OBU has been chosen. -/
structure Chosen (maxPayloadSize obuIndex : Nat) (s c : Packing) (extra : Nat) : Prop where
  which : (c = s ∧ extra = additionalBytesForPreviousObuElement s.current)
    ∨ (c = ⟨s.closed ++ [s.current], .new obuIndex, maxPayloadSize⟩ ∧ extra = 0
        ∧ s.current.numObuElements ≠ 0)
  room : extra + minRequiredSize c.current ≤ c.packetRemainingBytes
  ready : c.current.numObuElements = 0 → extra = 0 ∧ c.packetRemainingBytes = maxPayloadSize

theorem choosePacket_chosen {maxPayloadSize : Nat} (obuIndex : Nat) {s : Packing}
    (hmax : 2 ≤ maxPayloadSize) (hs : Ready maxPayloadSize s) :
    Chosen maxPayloadSize obuIndex s (choosePacket maxPayloadSize obuIndex s).1
      (choosePacket maxPayloadSize obuIndex s).2 := by
  have hextra : s.current.numObuElements = 0 →
      additionalBytesForPreviousObuElement s.current = 0 := by
    intro hzero
    simp [additionalBytesForPreviousObuElement, (hs hzero).1]
  unfold choosePacket
  by_cases hlt : s.packetRemainingBytes
      < additionalBytesForPreviousObuElement s.current + minRequiredSize s.current
  · simp only [if_pos hlt]
    refine ⟨.inr ⟨rfl, rfl, ?_⟩, ?_, fun _ => ⟨rfl, rfl⟩⟩
    · intro hzero
      -- an empty packet has room for a byte
      rw [hextra hzero, (hs hzero).2, minRequiredSize, hzero, maxNumObusToOmitSize] at hlt
      simp only [Nat.reduceLeDiff, if_false] at hlt
      omega
    · simp only [minRequiredSize, PacketMetadata.new, maxNumObusToOmitSize, Nat.reduceLeDiff,
        if_false]
      omega
  · simp only [if_neg hlt]
    exact ⟨.inl ⟨rfl, rfl⟩, by omega, fun hzero => ⟨hextra hzero, (hs hzero).2⟩⟩

/-- The first fragment: at least a byte unless the OBU has only one, and it fits. -/
theorem firstFragment_spec (packet : PacketMetadata) (size room : Nat)
    (hroom : minRequiredSize packet ≤ room) :
    let mustWrite := mustWriteObuElementSize (packet.numObuElements + 1)
    let first := min (size - 1) (if mustWrite then maxFragmentSize room else room)
    (2 ≤ size → 1 ≤ first) ∧ elementCost packet first ≤ room := by
  intro mustWrite first
  by_cases hmust : maxNumObusToOmitSize ≤ packet.numObuElements
  · have hwrite : mustWriteObuElementSize (packet.numObuElements + 1) = true := by
      simp only [mustWriteObuElementSize, decide_eq_true_eq]
      omega
    have htwo : 2 ≤ room := by simpa [minRequiredSize, hmust] using hroom
    obtain ⟨hpos, hlen⟩ := maxFragmentSize_spec htwo
    simp only [first, mustWrite, elementCost, hwrite, if_true]
    exact ⟨fun _ => by omega, hlen _ (Nat.min_le_right _ _)⟩
  · have hwrite : mustWriteObuElementSize (packet.numObuElements + 1) = false := by
      simp only [mustWriteObuElementSize, decide_eq_false_iff_not]
      omega
    have hone : 1 ≤ room := by simpa [minRequiredSize, hmust] using hroom
    simp only [first, mustWrite, elementCost, hwrite, Bool.false_eq_true, if_false]
    exact ⟨fun _ => by omega, by omega⟩

/-- **The three things that can happen to an OBU**: it goes into the packet whole; its first
fragment does; or it has one byte, for which there is room only without a byte to spare, and goes
into a packet of its own. -/
theorem fillPacket_cases {maxPayloadSize obuIndex size : Nat} (isLastObu : Bool) {s c : Packing}
    {extra : Nat} (hmax : 2 ≤ maxPayloadSize) (hsize : 1 ≤ size)
    (hc : Chosen maxPayloadSize obuIndex s c extra) :
    let later := laterFragments maxPayloadSize obuIndex size isLastObu
    let result := fillPacket maxPayloadSize obuIndex size isLastObu c extra
    (extra + elementCost c.current size < c.packetRemainingBytes
      ∧ result = ⟨c.closed, c.current.add extra size,
          c.packetRemainingBytes - extra - elementCost c.current size⟩)
    ∨ (∃ first, 1 ≤ first ∧ first < size
        ∧ extra + elementCost c.current first ≤ c.packetRemainingBytes
        ∧ result = ⟨c.closed ++ c.current.add extra first :: (later first).1, (later first).2,
            maxPayloadSize - (later first).2.lastObuSize⟩)
    ∨ (c.current.numObuElements ≠ 0 ∧ size = 1
        ∧ result = ⟨c.closed ++ c.current :: (later 0).1, (later 0).2,
            maxPayloadSize - (later 0).2.lastObuSize⟩) := by
  intro later result
  have hroom := hc.room
  by_cases hfits : elementCost c.current size < c.packetRemainingBytes - extra
  · refine .inl ⟨by omega, ?_⟩
    exact if_pos hfits
  · obtain ⟨hpos, hcost⟩ := firstFragment_spec c.current size (c.packetRemainingBytes - extra)
      (by omega)
    generalize hfirst : min (size - 1)
      (if mustWriteObuElementSize (c.current.numObuElements + 1)
        then maxFragmentSize (c.packetRemainingBytes - extra)
        else c.packetRemainingBytes - extra) = first at hpos hcost
    have hresult : result = _ := if_neg hfits
    by_cases hzero : first = 0
    · have hone : size = 1 := by omega
      refine .inr (.inr ⟨?_, hone, ?_⟩)
      · -- an empty packet takes any OBU of one byte
        intro hempty
        obtain ⟨hextra, hall⟩ := hc.ready hempty
        simp only [elementCost, mustWriteObuElementSize, maxNumObusToOmitSize, hempty, hone, hextra,
          hall, Nat.zero_add, Nat.reduceLT, decide_false, Bool.false_eq_true, if_false] at hfits
        omega
      · rw [hresult]
        simp only [hfirst, hzero, if_true, Nat.add_sub_cancel]
        rfl
    · refine .inr (.inl ⟨first, by omega, by omega, by omega, ?_⟩)
      rw [hresult]
      simp only [hfirst, hzero, if_false, PacketMetadata.add, elementCost, Nat.add_assoc]
      rfl

/-! ## 4. The invariant -/

section

variable {items : List (List UInt8)} {maxPayloadSize : Nat}

/-- `packet_size` is the number of bytes of the packet's elements, and within the limit. -/
def Fits (items : List (List UInt8)) (maxPayloadSize : Nat) (p : PacketMetadata) : Prop :=
  p.packetSize
      = (elementsBytes (mustWriteObuElementSize p.numObuElements) (p.span.pieces items)).length
    ∧ p.packetSize ≤ maxPayloadSize

/-- **The invariant of the loop**: the packets form a chain that ends at OBU `k`, and what the state
says about sizes is true. -/
structure Packed (items : List (List UInt8)) (maxPayloadSize k : Nat) (s : Packing) : Prop where
  chain : ∃ c, Chain items ⟨0, 0⟩ (s.closed.map PacketMetadata.span) c
    ∧ s.current.span.first = c.item ∧ s.current.span.offset = c.offset
  ends : s.current.span.EndsAt items k
  fits : ∀ p ∈ s.closed ++ [s.current], Fits items maxPayloadSize p
  filled : s.current.packetSize + s.packetRemainingBytes = maxPayloadSize

theorem fits_new (k : Nat) : Fits items maxPayloadSize (.new k) :=
  ⟨rfl, Nat.zero_le maxPayloadSize⟩

theorem packed_start : Packed items maxPayloadSize 0 ⟨[], .new 0, maxPayloadSize⟩ where
  chain := ⟨⟨0, 0⟩, rfl, rfl, rfl⟩
  ends := .inl ⟨rfl, rfl, rfl⟩
  fits := by
    intro p hp
    rw [List.nil_append, List.mem_singleton] at hp
    rw [hp]
    exact fits_new 0
  filled := Nat.zero_add maxPayloadSize

theorem Packed.ready {k : Nat} {s : Packing} (h : Packed items maxPayloadSize k s) :
    Ready maxPayloadSize s := by
  intro hzero
  have hsize := (h.fits s.current (by simp)).1
  have hpieces : s.current.span.pieces items = [] := by
    simp [Span.pieces, PacketMetadata.span, hzero, piecesFrom]
  rw [hpieces] at hsize
  have hfilled := h.filled
  simp only [elementsBytes, List.length_nil] at hsize
  exact ⟨hsize, by omega⟩

/-- **One more element**, with the size field of the one before. -/
theorem Fits.add {p : PacketMetadata} {k len : Nat} (h : Fits items maxPayloadSize p)
    (hends : p.span.EndsAt items k) (hlen : len ≤ (items.getD k []).length)
    (hlast : p.numObuElements ≠ 0 → p.lastObuSize < 2 ^ 32) (hnew : len < 2 ^ 32)
    (hroom : p.packetSize + additionalBytesForPreviousObuElement p + elementCost p len
      ≤ maxPayloadSize) :
    Fits items maxPayloadSize (p.add (additionalBytesForPreviousObuElement p) len) := by
  refine ⟨?_, hroom⟩
  have hpiece : ((items.getD k []).take len).length = len := by
    rw [List.length_take]
    omega
  have hcost : (lastElement (mustWriteObuElementSize (p.numObuElements + 1))
      ((items.getD k []).take len)).length = elementCost p len := by
    rw [lastElement, elementCost]
    split
    · rw [sizedElement, List.length_append, hpiece, leb128Size_eq hnew, Nat.add_comm]
    · exact hpiece
  -- the elements so far, each with its size
  have hbefore : p.packetSize + additionalBytesForPreviousObuElement p
      = ((p.span.pieces items).flatMap sizedElement).length := by
    obtain ⟨-, hempty, hvalid⟩ := hends.cases
    have hsize := h.1
    by_cases hzero : p.numObuElements = 0
    · have hpieces : p.span.pieces items = [] := by
        simp [Span.pieces, PacketMetadata.span, hzero, piecesFrom]
      rw [hpieces] at hsize ⊢
      simp only [elementsBytes, List.length_nil] at hsize
      simp [additionalBytesForPreviousObuElement, hsize]
    · obtain ⟨es, e, hpieces, he⟩ := (hvalid hzero).pieces_concat
      have hpos := (hvalid hzero).lastSize_pos
      have he' : e.length = p.lastObuSize := he
      have hpos' : 1 ≤ p.lastObuSize := hpos
      rw [hpieces, elementsBytes_concat, lastElement] at hsize
      have hall : ((es ++ [e]).flatMap sizedElement).length
          = (es.flatMap sizedElement).length + ((encode e.length).length + e.length) := by
        simp [List.flatMap_append, sizedElement]
      have hleb : (encode e.length).length = leb128Size p.lastObuSize := by
        rw [he', leb128Size_eq (hlast hzero)]
      rw [hpieces, hall, hsize, hleb]
      by_cases hmust : maxNumObusToOmitSize < p.numObuElements
      · have hwrite : mustWriteObuElementSize p.numObuElements = true := by
          simpa [mustWriteObuElementSize] using hmust
        simp only [additionalBytesForPreviousObuElement, hmust, or_true, if_true, hwrite,
          sizedElement, List.length_append, hleb, Nat.add_zero]
      · have hwrite : mustWriteObuElementSize p.numObuElements = false := by
          simpa [mustWriteObuElementSize] using hmust
        simp only [hwrite, Bool.false_eq_true, if_false, List.length_append] at hsize
        have hne : p.packetSize ≠ 0 := by omega
        simp only [additionalBytesForPreviousObuElement, hmust, hne, or_self, if_false, hwrite,
          Bool.false_eq_true, List.length_append]
        omega
  rw [PacketMetadata.span_add, hends.pieces_add, elementsBytes_concat, List.length_append]
  simp only [PacketMetadata.add]
  rw [hcost, hbefore]

/-- A packet with one element. -/
theorem fits_single {k offset len : Nat} (hle : offset + len ≤ (items.getD k []).length)
    (hlen : len ≤ maxPayloadSize) : Fits items maxPayloadSize ⟨k, 1, offset, len, len⟩ := by
  refine ⟨?_, hlen⟩
  simp only [mustWriteObuElementSize, maxNumObusToOmitSize, Nat.reduceLT, decide_false,
    PacketMetadata.span, Span.pieces, piecesFrom, elementsBytes, lastElement, Bool.false_eq_true,
    if_false, List.length_take, List.length_drop]
  omega

/-! ## 5. Later fragments -/

theorem middleFragments_spec {k size : Nat} (hk : k < items.length)
    (hsize : (items.getD k []).length = size) (hmax : 1 ≤ maxPayloadSize) : ∀ fuel offset,
    offset < size → size ≤ offset + fuel →
    let r := middleFragments maxPayloadSize k size fuel offset
    Chain items ⟨k, offset⟩ (r.1.map PacketMetadata.span) ⟨k, r.2⟩ ∧ r.2 < size
      ∧ size - r.2 ≤ maxPayloadSize ∧ ∀ p ∈ r.1, Fits items maxPayloadSize p
  | 0, offset, hlt, hfuel => by omega
  | fuel + 1, offset, hlt, hfuel => by
    intro r
    by_cases hmore : offset + maxPayloadSize < size
    · have hr : r = (⟨k, 1, offset, maxPayloadSize, maxPayloadSize⟩ ::
          (middleFragments maxPayloadSize k size fuel (offset + maxPayloadSize)).1,
          (middleFragments maxPayloadSize k size fuel (offset + maxPayloadSize)).2) := if_pos hmore
      obtain ⟨hchain, hlt', hle, hfits⟩ :=
        middleFragments_spec hk hsize hmax fuel (offset + maxPayloadSize) hmore (by omega)
      obtain ⟨hvalid, hnext⟩ := Span.valid_single hk hmax
        (show offset + maxPayloadSize ≤ (items.getD k []).length by omega)
      rw [cursorAt, if_pos (by omega)] at hnext
      rw [hr]
      refine ⟨⟨⟨rfl, rfl⟩, hvalid, ?_⟩, hlt', hle, ?_⟩
      · simp only [PacketMetadata.span]
        rw [hnext]
        exact hchain
      · intro p hp
        rcases List.mem_cons.mp hp with rfl | hp
        · exact fits_single (by omega) (Nat.le_refl _)
        · exact hfits p hp
    · have hr : r = ([], offset) := if_neg hmore
      rw [hr]
      exact ⟨rfl, hlt, by simp only; omega, by simp⟩

/-- **Later fragments** take up the rest of the OBU, and the last one is of the usual form: the
branch for a last fragment that is too large is never taken. -/
theorem laterFragments_spec {k size first : Nat} (isLastObu : Bool) (hk : k < items.length)
    (hsize : (items.getD k []).length = size) (hmax : 1 ≤ maxPayloadSize) (hfirst : first < size) :
    let r := laterFragments maxPayloadSize k size isLastObu first
    ∃ offset, Chain items ⟨k, first⟩ (r.1.map PacketMetadata.span) ⟨k, offset⟩
      ∧ r.2 = ⟨k, 1, offset, size - offset, size - offset⟩ ∧ offset < size
      ∧ size - offset ≤ maxPayloadSize ∧ ∀ p ∈ r.1, Fits items maxPayloadSize p := by
  intro r
  obtain ⟨hchain, hlt, hle, hfits⟩ :=
    middleFragments_spec hk hsize hmax size first hfirst (by omega)
  have hr : r = ((middleFragments maxPayloadSize k size size first).1,
      ⟨k, 1, (middleFragments maxPayloadSize k size size first).2,
        size - (middleFragments maxPayloadSize k size size first).2,
        size - (middleFragments maxPayloadSize k size size first).2⟩) := by
    refine if_neg ?_
    simp only [Bool.and_eq_true, decide_eq_true_eq, not_and]
    intro _
    omega
  rw [hr]
  exact ⟨_, hchain, rfl, hlt, hle, hfits⟩

/-- The state after the later fragments of OBU `k`. -/
theorem packed_later {k size first : Nat} (isLastObu : Bool) {closed : List PacketMetadata}
    (hk : k < items.length) (hsize : (items.getD k []).length = size) (hmax : 1 ≤ maxPayloadSize)
    (hfirst : first < size)
    (hclosed : Chain items ⟨0, 0⟩ (closed.map PacketMetadata.span) ⟨k, first⟩)
    (hfits : ∀ p ∈ closed, Fits items maxPayloadSize p) :
    let later := laterFragments maxPayloadSize k size isLastObu first
    Packed items maxPayloadSize (k + 1)
        ⟨closed ++ later.1, later.2, maxPayloadSize - later.2.lastObuSize⟩
      ∧ later.2.numObuElements ≠ 0 := by
  intro later
  obtain ⟨offset, hchain, hlast, hlt, hle, hmiddle⟩ :=
    laterFragments_spec isLastObu hk hsize hmax hfirst
  change later.2 = _ at hlast
  have hend : offset + (size - offset) = size := by omega
  obtain ⟨hvalid, hnext⟩ := Span.valid_single hk (show 1 ≤ size - offset by omega)
    (show offset + (size - offset) ≤ (items.getD k []).length by omega)
  rw [cursorAt, if_neg (by omega)] at hnext
  rw [hlast]
  refine ⟨⟨⟨⟨k, offset⟩, ?_, rfl, rfl⟩, .inr ⟨hvalid, hnext⟩, ?_, ?_⟩, by simp⟩
  · rw [List.map_append]
    exact hclosed.append hchain
  · intro p hp
    rcases List.mem_append.mp hp with hp | hp
    · rcases List.mem_append.mp hp with hp | hp
      · exact hfits p hp
      · exact hmiddle p hp
    · rw [List.mem_singleton.mp hp]
      exact fits_single (by omega) hle
  · simp only
    omega

/-! ## 6. A turn of the loop, and the loop -/

/-- The packets with the last one closed, as it is or with one more element. -/
theorem Packed.close {k : Nat} {s : Packing} (h : Packed items maxPayloadSize k s)
    {p : PacketMetadata} (hfirst : p.span.first = s.current.span.first)
    (hoffset : p.span.offset = s.current.span.offset) (hvalid : p.span.Valid items) :
    Chain items ⟨0, 0⟩ ((s.closed ++ [p]).map PacketMetadata.span) (p.span.next items) := by
  obtain ⟨c, hchain, hitem, hoff⟩ := h.chain
  rw [List.map_append]
  exact hchain.append ⟨⟨hfirst.trans hitem, hoffset.trans hoff⟩, hvalid, rfl⟩

/-- The last element of a packet is no larger than the largest OBU. -/
theorem Packed.lastObuSize_lt {k limit : Nat} {s : Packing} (h : Packed items maxPayloadSize k s)
    (hlimit : ∀ k, (items.getD k []).length < limit) (hne : s.current.numObuElements ≠ 0) :
    s.current.lastObuSize < limit := by
  have hend := (h.ends.cases.2.2 hne).end_le
  have hlt := hlimit s.current.span.last
  have hle : s.current.lastObuSize ≤ s.current.span.endOffset := Nat.le_add_left _ _
  omega

/-- Choosing the packet keeps the invariant. -/
theorem Chosen.packed {k extra : Nat} {s c : Packing} (hc : Chosen maxPayloadSize k s c extra)
    (h : Packed items maxPayloadSize k s) :
    Packed items maxPayloadSize k c ∧ extra = additionalBytesForPreviousObuElement c.current := by
  rcases hc.which with ⟨rfl, hextra⟩ | ⟨rfl, hextra, hne⟩
  · exact ⟨h, hextra⟩
  · obtain ⟨hsum, -, hvalid⟩ := h.ends.cases
    have hnext : s.current.span.next items = ⟨k, 0⟩ := by
      rcases h.ends with ⟨hzero, -, -⟩ | ⟨-, hnext⟩
      · exact absurd hzero hne
      · exact hnext
    have hchain := h.close rfl rfl (hvalid hne)
    rw [hnext] at hchain
    refine ⟨⟨⟨⟨k, 0⟩, hchain, rfl, rfl⟩, .inl ⟨rfl, rfl, rfl⟩, ?_, Nat.zero_add _⟩, hextra⟩
    intro p hp
    rcases List.mem_append.mp hp with hp | hp
    · exact h.fits p hp
    · rw [List.mem_singleton.mp hp]
      exact fits_new k

/-- **A turn of the loop** places OBU `k`. -/
theorem placeObu_packed {k size : Nat} (isLastObu : Bool) {s : Packing} (hmax : 2 ≤ maxPayloadSize)
    (hk : k < items.length) (hsize : (items.getD k []).length = size) (hpos : 1 ≤ size)
    (hlimit : ∀ k, (items.getD k []).length < 2 ^ 32) (h : Packed items maxPayloadSize k s) :
    Packed items maxPayloadSize (k + 1) (placeObu maxPayloadSize k size isLastObu s)
      ∧ (placeObu maxPayloadSize k size isLastObu s).current.numObuElements ≠ 0 := by
  have hc := choosePacket_chosen k hmax h.ready
  simp only [placeObu]
  generalize (choosePacket maxPayloadSize k s).1 = c at hc ⊢
  generalize (choosePacket maxPayloadSize k s).2 = extra at hc ⊢
  obtain ⟨hcp, hextra⟩ := hc.packed h
  have hfilled := hcp.filled
  have hlt : size < 2 ^ 32 := hsize ▸ hlimit k
  have hclosed : ∀ p ∈ c.closed, Fits items maxPayloadSize p := fun p hp =>
    hcp.fits p (List.mem_append_left _ hp)
  -- the packet with an element more, which every case but the last closes or keeps
  have hadd : ∀ len, len ≤ size → extra + elementCost c.current len ≤ c.packetRemainingBytes →
      Fits items maxPayloadSize (c.current.add extra len) := by
    intro len hlen hcost
    rw [hextra] at hcost ⊢
    exact (hcp.fits c.current (by simp)).add hcp.ends (by omega) (hcp.lastObuSize_lt hlimit)
      (by omega) (by omega)
  rcases fillPacket_cases isLastObu hmax hpos hc with
    ⟨hcost, heq⟩ | ⟨first, hfirst, hlen, hcost, heq⟩ |
    ⟨hne, hone, heq⟩
  · obtain ⟨hvalid, hnext⟩ := hcp.ends.add hk hpos (le_of_eq hsize.symm)
    rw [cursorAt, if_neg (by omega)] at hnext
    rw [heq]
    refine ⟨⟨hcp.chain, .inr ⟨hvalid, hnext⟩, ?_, ?_⟩, Nat.succ_ne_zero _⟩
    · intro p hp
      rcases List.mem_append.mp hp with hp | hp
      · exact hclosed p hp
      · rw [List.mem_singleton.mp hp]
        exact hadd size (Nat.le_refl _) (Nat.le_of_lt hcost)
    · simp only [PacketMetadata.add]
      omega
  · obtain ⟨hvalid, hnext⟩ := hcp.ends.add hk hfirst (by omega)
    rw [cursorAt, if_pos (by omega)] at hnext
    have hchain := hcp.close (p := c.current.add extra first) rfl rfl hvalid
    rw [PacketMetadata.span_add, hnext] at hchain
    rw [heq, List.append_cons]
    refine packed_later isLastObu hk hsize (by omega) hlen hchain ?_
    intro p hp
    rcases List.mem_append.mp hp with hp | hp
    · exact hclosed p hp
    · rw [List.mem_singleton.mp hp]
      exact hadd first (by omega) hcost
  · have hnext : c.current.span.next items = ⟨k, 0⟩ := by
      rcases hcp.ends with ⟨hzero, -, -⟩ | ⟨-, hnext⟩
      · exact absurd hzero hne
      · exact hnext
    have hchain := hcp.close rfl rfl (hcp.ends.cases.2.2 hne)
    rw [hnext] at hchain
    rw [heq, List.append_cons]
    exact packed_later isLastObu hk hsize (by omega) (by omega) hchain hcp.fits

end

theorem packetizeLoop_packed {items : List (List UInt8)} {maxPayloadSize : Nat}
    (hmax : 2 ≤ maxPayloadSize) (hlimit : ∀ k, (items.getD k []).length < 2 ^ 32) :
    ∀ (obus : List Obu) (k : Nat) (s : Packing), items.drop k = obus.map Obu.bytes →
      Packed items maxPayloadSize k s → (obus = [] → s.current.numObuElements ≠ 0) →
      Packed items maxPayloadSize (k + obus.length) (packetizeLoop maxPayloadSize k obus s)
        ∧ (packetizeLoop maxPayloadSize k obus s).current.numObuElements ≠ 0
  | [], k, s, _, h, hne => ⟨h, hne rfl⟩
  | obu :: obus, k, s, hdrop, h, _ => by
    have hk : k < items.length := by
      have hlen := congrArg List.length hdrop
      simp only [List.length_drop, List.map_cons, List.length_cons] at hlen
      omega
    have hitem : items.getD k [] = obu.bytes := by
      rw [List.drop_eq_getElem_cons hk, List.map_cons] at hdrop
      rw [List.getD_eq_getElem _ _ hk]
      exact (List.cons.inj hdrop).1
    have hrest : items.drop (k + 1) = obus.map Obu.bytes := by
      rw [List.drop_eq_getElem_cons hk, List.map_cons] at hdrop
      exact (List.cons.inj hdrop).2
    obtain ⟨hstep, hne⟩ := placeObu_packed obus.isEmpty hmax hk
      (show (items.getD k []).length = obu.size by rw [hitem, obu.length_bytes])
      obu.size_pos hlimit h
    have hloop := packetizeLoop_packed hmax hlimit obus (k + 1) _ hrest hstep fun _ => hne
    rw [List.length_cons, show k + (obus.length + 1) = k + 1 + obus.length by omega]
    exact hloop

/-- **`packetize` covers the OBUs** from the first byte to the last, without gap or overlap, in
packets of at most the MTU. -/
theorem packetize_spec (obus : List Obu) {mtu : Nat} (hmtu : 3 ≤ mtu)
    (hlimit : ∀ o ∈ obus, o.size < 2 ^ 32) :
    let items := obus.map Obu.bytes
    Chain items ⟨0, 0⟩ ((packetize obus mtu).map PacketMetadata.span) ⟨obus.length, 0⟩
      ∧ ∀ p ∈ packetize obus mtu, Fits items (mtu - 1) p := by
  intro items
  have hitems : ∀ k, (items.getD k []).length < 2 ^ 32 := by
    intro k
    rcases Nat.lt_or_ge k items.length with hk | hk
    · rw [List.getD_eq_getElem _ _ hk]
      obtain ⟨o, ho, heq⟩ := List.mem_map.mp (List.getElem_mem hk)
      rw [← heq, o.length_bytes]
      exact hlimit o ho
    · rw [List.getD_eq_default _ _ hk]
      exact Nat.two_pow_pos 32
  cases obus with
  | nil => exact ⟨rfl, by simp [packetize]⟩
  | cons obu obus =>
    have hpackets : packetize (obu :: obus) mtu
        = (packetizeLoop (mtu - 1) 0 (obu :: obus) ⟨[], .new 0, mtu - 1⟩).closed
          ++ [(packetizeLoop (mtu - 1) 0 (obu :: obus) ⟨[], .new 0, mtu - 1⟩).current] := by
      simp [packetize, Nat.not_lt.mpr hmtu]
    obtain ⟨hpacked, hne⟩ := packetizeLoop_packed (show 2 ≤ mtu - 1 by omega) hitems (obu :: obus) 0
      ⟨[], .new 0, mtu - 1⟩ rfl packed_start (by simp)
    have hnext : (packetizeLoop (mtu - 1) 0 (obu :: obus) ⟨[], .new 0, mtu - 1⟩).current.span.next
        items = ⟨0 + (obu :: obus).length, 0⟩ := by
      rcases hpacked.ends with ⟨hzero, -, -⟩ | ⟨-, hnext⟩
      · exact absurd hzero hne
      · exact hnext
    rw [hpackets]
    refine ⟨?_, hpacked.fits⟩
    have hchain := hpacked.close rfl rfl (hpacked.ends.cases.2.2 hne)
    rw [hnext, Nat.zero_add] at hchain
    exact hchain

end WebrtcBridge.Av1
