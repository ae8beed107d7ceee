/-
# DATA chunks, and the messages they are pieces of

A data channel writes MESSAGES.  SCTP cuts a message into fragments, one DATA chunk for each,
numbers the chunks of an association one after the other (the TSN, 32 bits) and the ordered messages
of a stream one after the other (the SSN, 16 bits).  The receiver sees chunks in any order and
several times.

Both counters wrap, and the code compares them with the serial number arithmetic of `Lib.Serial`.
So the proofs speak of a chunk's PLACE, the count behind its TSN, and of a message's NUMBER, the
count behind its SSN.  §2 is that view: a `Placed` message occupies the places `first`, …, `first +
size - 1`, and `chunkAt` is the chunk at a place.  What makes the view usable is `Layout`: messages
do not overlap, so a place belongs to one message, and an ordered message is known by its stream and
its number.
-/
import Mathlib.Data.List.Basic
import WebrtcBridge.Lib.Serial

namespace WebrtcBridge.Sctp

open Lib

/-! ## 1. Chunks -/

/-- The errors of the modelled functions. -/
inductive Error where
  | shortBuffer
  deriving DecidableEq, Repr

/-- `Unknown` is also what the source's `default()` gives. -/
inductive PayloadProtocolIdentifier where
  | dcep
  | string
  | binary
  | stringEmpty
  | binaryEmpty
  | unknown
  deriving DecidableEq, Repr, Inhabited

/-- `ChunkPayloadData` as it comes off the wire; the source has fields for the sender's own use
beside these. -/
structure ChunkPayloadData where
  unordered : Bool := false
  beginningFragment : Bool := false
  endingFragment : Bool := false
  immediateSack : Bool := false
  tsn : UInt32 := 0
  streamIdentifier : UInt16 := 0
  streamSequenceNumber : UInt16 := 0
  payloadType : PayloadProtocolIdentifier := .unknown
  userData : List UInt8 := []
  deriving DecidableEq, Repr, Inhabited

def sna32lt (i1 i2 : UInt32) : Bool := serialLt (2 ^ 31) i1.toNat i2.toNat

def sna32lte (i1 i2 : UInt32) : Bool := i1 == i2 || sna32lt i1 i2

def sna16lt (i1 i2 : UInt16) : Bool := serialLt (2 ^ 15) i1.toNat i2.toNat

def sna16gt (i1 i2 : UInt16) : Bool := serialGt (2 ^ 15) i1.toNat i2.toNat

section Counts

variable {a b : Nat}

theorem sna32lt_ofNat (hab : a < b + 2 ^ 31) (hba : b < a + 2 ^ 31) :
    sna32lt (.ofNat a) (.ofNat b) = decide (a < b) := by
  rw [sna32lt, UInt32.toNat_ofNat', UInt32.toNat_ofNat']
  exact serialLt_mod hab hba

theorem ofNat32_inj (hab : a < b + 2 ^ 31) (hba : b < a + 2 ^ 31) :
    UInt32.ofNat a = .ofNat b ↔ a = b := by
  refine ⟨fun h => eq_of_mod_eq hab hba ?_, fun h => by rw [h]⟩
  have := congrArg UInt32.toNat h
  rwa [UInt32.toNat_ofNat', UInt32.toNat_ofNat'] at this

theorem ofNat_succ32 (a : Nat) : UInt32.ofNat (a + 1) = .ofNat a + 1 := by
  rw [UInt32.ofNat_add]
  rfl

theorem sna32lte_ofNat (hab : a < b + 2 ^ 31) (hba : b < a + 2 ^ 31) :
    sna32lte (.ofNat a) (.ofNat b) = decide (a ≤ b) := by
  rw [sna32lte, sna32lt_ofNat hab hba, Bool.eq_iff_iff, Bool.or_eq_true, beq_iff_eq,
    ofNat32_inj hab hba, decide_eq_true_eq, decide_eq_true_eq]
  omega

theorem sna16lt_ofNat (hab : a < b + 2 ^ 15) (hba : b < a + 2 ^ 15) :
    sna16lt (.ofNat a) (.ofNat b) = decide (a < b) := by
  rw [sna16lt, UInt16.toNat_ofNat', UInt16.toNat_ofNat']
  exact serialLt_mod hab hba

theorem sna16gt_ofNat (hab : a < b + 2 ^ 15) (hba : b < a + 2 ^ 15) :
    sna16gt (.ofNat a) (.ofNat b) = decide (b < a) := by
  rw [sna16gt, UInt16.toNat_ofNat', UInt16.toNat_ofNat']
  exact serialGt_mod hab hba

theorem ofNat16_inj (hab : a < b + 2 ^ 15) (hba : b < a + 2 ^ 15) :
    UInt16.ofNat a = .ofNat b ↔ a = b := by
  refine ⟨fun h => eq_of_mod_eq hab hba ?_, fun h => by rw [h]⟩
  have := congrArg UInt16.toNat h
  rwa [UInt16.toNat_ofNat', UInt16.toNat_ofNat'] at this

end Counts

/-! ## 2. Messages and places -/

/-- A message as it was handed to a stream: `number` counts the ordered messages before it on the
stream, and `pieces` are the contents of its fragments. -/
structure Message where
  si : UInt16
  unordered : Bool
  number : Nat
  ppi : PayloadProtocolIdentifier
  pieces : List (List UInt8)
  deriving DecidableEq, Repr

namespace Message

def size (m : Message) : Nat := m.pieces.length

def data (m : Message) : List UInt8 := m.pieces.flatten

/-- The chunk of fragment `i`, without a TSN. -/
def fragment (m : Message) (i : Nat) : ChunkPayloadData :=
  { streamIdentifier := m.si
    userData := m.pieces.getD i []
    unordered := m.unordered
    beginningFragment := i == 0
    endingFragment := i + 1 == m.size
    payloadType := m.ppi
    streamSequenceNumber := .ofNat m.number }

end Message

/-- A message and the place of its first fragment. -/
structure Placed where
  first : Nat
  message : Message
  deriving DecidableEq, Repr

namespace Placed

variable (p : Placed)

/-- The places of the message. -/
def places : List Nat := List.range' p.first p.message.size

/-- The chunk at a place of the message. -/
def chunk (a : Nat) : ChunkPayloadData :=
  { p.message.fragment (a - p.first) with tsn := .ofNat a }

theorem mem_places {p : Placed} {a : Nat} :
    a ∈ p.places ↔ p.first ≤ a ∧ a < p.first + p.message.size := by
  simp [places, List.mem_range'_1]

end Placed

/-- The chunk at a place. -/
def chunkAt (ps : List Placed) (a : Nat) : ChunkPayloadData :=
  match ps.find? fun p => a ∈ p.places with
  | some p => p.chunk a
  | none => {}

/-- **What can be on the wire.**  Messages have at least one fragment and do not overlap; an ordered
message is known by its stream and its number. -/
structure Layout (ps : List Placed) : Prop where
  size_pos : ∀ p ∈ ps, 0 < p.message.size
  size_le : ∀ p ∈ ps, p.message.size ≤ 2 ^ 30
  disjoint : ∀ p ∈ ps, ∀ p' ∈ ps, ∀ a, a ∈ p.places → a ∈ p'.places → p = p'
  numbered : ∀ p ∈ ps, ∀ p' ∈ ps, p.message.unordered = false → p'.message.unordered = false →
    p.message.si = p'.message.si → p.message.number = p'.message.number → p = p'

section ChunkAt

variable {ps : List Placed} {p : Placed} {a : Nat}

/-- The places of a message begin with the first. -/
theorem Layout.places_eq (hl : Layout ps) (hp : p ∈ ps) :
    p.places = p.first :: List.range' (p.first + 1) (p.message.size - 1) := by
  have hpos := hl.size_pos p hp
  rw [Placed.places, ← List.range'_succ]
  congr 1
  omega

theorem Layout.first_mem (hl : Layout ps) (hp : p ∈ ps) : p.first ∈ p.places := by
  rw [hl.places_eq hp]
  exact List.mem_cons_self

theorem chunkAt_eq (hl : Layout ps) (hp : p ∈ ps) (ha : a ∈ p.places) :
    chunkAt ps a = p.chunk a := by
  unfold chunkAt
  cases hfind : ps.find? fun p => a ∈ p.places with
  | none =>
    have := List.find?_eq_none.mp hfind p hp
    simp [ha] at this
  | some p' =>
    have hmem := List.mem_of_find?_eq_some hfind
    have hin : a ∈ p'.places := by simpa using List.find?_some hfind
    rw [hl.disjoint p hp p' hmem a ha hin]

@[simp] theorem tsn_chunk (p : Placed) (a : Nat) : (p.chunk a).tsn = .ofNat a := rfl

theorem tsn_chunkAt (hl : Layout ps) (hp : p ∈ ps) (ha : a ∈ p.places) :
    (chunkAt ps a).tsn = .ofNat a := by
  rw [chunkAt_eq hl hp ha, tsn_chunk]

theorem beginning_chunk (ha : a ∈ p.places) :
    (p.chunk a).beginningFragment = decide (a = p.first) := by
  rw [Placed.mem_places] at ha
  simp only [Placed.chunk, Message.fragment]
  rw [Bool.eq_iff_iff, beq_iff_eq, decide_eq_true_eq]
  omega

theorem ending_chunk (ha : a ∈ p.places) :
    (p.chunk a).endingFragment = decide (a + 1 = p.first + p.message.size) := by
  rw [Placed.mem_places] at ha
  simp only [Placed.chunk, Message.fragment]
  rw [Bool.eq_iff_iff, beq_iff_eq, decide_eq_true_eq]
  omega

/-- **The fragments of a message, one behind the other, are the message.** -/
theorem flatMap_userData_places (p : Placed) :
    (p.places.map p.chunk).flatMap (·.userData) = p.message.data := by
  have hpieces :
      (List.range p.message.size).map (p.message.pieces.getD · []) = p.message.pieces := by
    refine List.ext_getElem (by simp [Message.size]) fun i h1 h2 => ?_
    simp [List.getD_eq_getElem?_getD, List.getElem?_eq_getElem h2]
  have hdata : (p.places.map p.chunk).map (·.userData)
      = (List.range p.message.size).map (p.message.pieces.getD · []) := by
    rw [Placed.places, List.range'_eq_map_range, List.map_map, List.map_map]
    simp [Function.comp_def, Placed.chunk, Message.fragment]
  rw [List.flatMap_def, hdata, hpieces, Message.data]

end ChunkAt

end WebrtcBridge.Sctp
