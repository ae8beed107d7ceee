/-
# IVF files: `IvfWriter.java` and `IvfReader.java`

The demo writes what it receives with `IvfWriter` and the library reads such files with
`IvfReader`.  A file is a 32-byte header and then frame after frame, each behind its length and its
timestamp; nothing marks the end.  The two classes were written apart: one fills a little-endian
`ByteBuffer` and casts, the other reads byte by byte and ORs shifted bytes together, in `int` and
`long`.

`ivf_round_trip`: what was written is read back, in order and however the file is delivered, and
the next call finds no frame.  That last one is an `EOFException`: although the class comment loops
until `null`, `nextFrame` never returns it.
-/
import WebrtcBridge.Lib.ByteInput

namespace WebrtcBridge.Media

open Lib

/-! ## 1. The writer -/

/-- `putShort((short) x)`, little-endian. -/
def putShort (x : Int32) : List UInt8 := leBytes 2 x.toUInt32.toNat

/-- `putInt(x)`, little-endian. -/
def putInt (x : Int32) : List UInt8 := leBytes 4 x.toUInt32.toNat

/-- `putLong(x)`, little-endian. -/
def putLong (x : Int64) : List UInt8 := leBytes 8 x.toUInt64.toNat

/-- A frame: a `byte[]`, whose length is an `int`, and its timestamp. -/
structure IvfFrame where
  data : List UInt8
  timestamp : Int64
  length_le : data.length ≤ 2 ^ 31 - 1
  deriving DecidableEq

theorem IvfFrame.length_lt (f : IvfFrame) : f.data.length < 2 ^ 31 :=
  Nat.lt_of_le_pred (by decide) f.length_le

/-- What an `IvfWriter` has written, and its counter. -/
structure IvfWriter where
  out : List UInt8
  frameCount : Int32
  deriving DecidableEq

/-- The constructor: it writes the file header. -/
def IvfWriter.new (width height timebaseNumerator timebaseDenominator : Int32) : IvfWriter where
  out :=
    ascii "DKIF" ++ putShort 0 ++ putShort 32 ++ ascii "AV01" ++ putShort width ++ putShort height
      ++ putInt timebaseDenominator ++ putInt timebaseNumerator ++ putInt 0 ++ putInt 0
  frameCount := 0

/-- A frame entry: length, timestamp, payload. -/
def IvfFrame.entry (f : IvfFrame) : List UInt8 :=
  putInt (Int32.ofNat f.data.length) ++ putLong f.timestamp ++ f.data

def IvfWriter.writeFrame (w : IvfWriter) (f : IvfFrame) : IvfWriter where
  out := w.out ++ f.entry
  frameCount := w.frameCount + 1

/-- `close` flushes; the file is what was written. -/
def IvfWriter.close (w : IvfWriter) : List UInt8 := w.out

/-- One frame after another. -/
def IvfWriter.writeFrames (w : IvfWriter) (fs : List IvfFrame) : IvfWriter :=
  fs.foldl IvfWriter.writeFrame w

theorem IvfWriter.writeFrames_out : ∀ (fs : List IvfFrame) (w : IvfWriter),
    (w.writeFrames fs).out = w.out ++ fs.flatMap IvfFrame.entry
  | [], w => by simp [writeFrames]
  | f :: fs, w => by
    have ih := writeFrames_out fs (w.writeFrame f)
    simpa [writeFrames, writeFrame] using ih

/-! ## 2. The reader -/

/-- What the reader throws. -/
inductive IvfError
  | io (message : String)
  | eof (message : String)
  | negativeArraySize
  | outOfMemory
  deriving DecidableEq, Repr

abbrev IvfRead := Reader UInt8 IvfError

def readUnsignedByte : IvfRead UInt8 := readOne (.eof "Unexpected end of stream")

/-- So many calls of `readUnsignedByte`. -/
def readUnsignedBytes : Nat → IvfRead (List UInt8)
  | 0 => pure []
  | n + 1 => do
    let b ← readUnsignedByte
    let bs ← readUnsignedBytes n
    return b :: bs

def readU16Le : IvfRead Int32 := do
  return Int32.ofNat (orBytes 0 0 (← readUnsignedBytes 2))

def readU32Le : IvfRead Int64 := do
  return Int64.ofNat (orBytes 0 0 (← readUnsignedBytes 4))

def readU64Le : IvfRead Int64 := do
  return Int64.ofNat (orBytes 0 0 (← readUnsignedBytes 8))

/-- `readBytes(n)`: a new array, filled by a loop. -/
def readBytes (n : Int32) : IvfRead (List UInt8) :=
  if n < 0 then throw .negativeArraySize
  else readFully (.eof "Unexpected end of stream") n.toNatClampNeg

structure IvfFileHeader where
  width : Int32
  height : Int32
  timebaseDenominator : Int32
  timebaseNumerator : Int32
  numFrames : Int32
  deriving DecidableEq

/-- The constructor.  The loop over `skip` passes over at least one byte a turn, or finds the
end. -/
def ivfReader : IvfRead IvfFileHeader := do
  let sig ← readBytes 4
  if sig ≠ ascii "DKIF" then throw (.io "IVF signature mismatch")
  let version ← readU16Le
  let headerSize ← readU16Le
  if version ≠ 0 then throw (.io ("Unknown IVF version: " ++ toString version))
  let _ ← readBytes 4
  let width ← readU16Le
  let height ← readU16Le
  let timebaseDenominator ← readU32Le
  let timebaseNumerator ← readU32Le
  let numFrames ← readU32Le
  let _ ← readU32Le
  if 32 < headerSize then
    let _ ← readFully (.eof "Unexpected end of IVF header") (headerSize - 32).toNatClampNeg
  return {
    width, height
    timebaseDenominator := timebaseDenominator.toInt32
    timebaseNumerator := timebaseNumerator.toInt32
    numFrames := numFrames.toInt32 }

/-- `nextFrame()`.  The array has as many bytes as an `int` said, so the last branch is never
taken. -/
def nextFrame : IvfRead IvfFrame := do
  let frameSize ← readU32Le
  let timestamp ← readU64Le
  let data ← readBytes frameSize.toInt32
  if h : data.length ≤ 2 ^ 31 - 1 then return ⟨data, timestamp, h⟩ else throw .outOfMemory

/-- So many calls of `nextFrame`, up to the first that throws: the frames, and what was thrown. -/
def nextFrames : Nat → Input UInt8 → List IvfFrame × Option IvfError
  | 0, _ => ([], none)
  | calls + 1, i =>
    match nextFrame i with
    | .error e => ([], some e)
    | .ok (f, i') => (f :: (nextFrames calls i').1, (nextFrames calls i').2)

/-! ## 3. Numbers -/

theorem readUnsignedBytes_yields : ∀ (xs rest : List UInt8),
    Yields (readUnsignedBytes xs.length) (xs ++ rest) xs rest
  | [], rest => yields_pure [] rest
  | x :: xs, rest =>
    (readOne_yields _ x (xs ++ rest)).bind
      ((readUnsignedBytes_yields xs rest).bind (yields_pure (x :: xs) rest))

theorem readUnsignedBytes_leBytes (w n : Nat) (rest : List UInt8) :
    Yields (readUnsignedBytes w) (leBytes w n ++ rest) (leBytes w n) rest := by
  have h := readUnsignedBytes_yields (leBytes w n) rest
  rwa [leBytes_length] at h

theorem readU16Le_yields (x : Int32) (rest : List UInt8) :
    Yields readU16Le (putShort x ++ rest) (Int32.ofNat (x.toUInt32.toNat % 2 ^ 16)) rest := by
  have h := (readUnsignedBytes_leBytes 2 x.toUInt32.toNat rest).bind_pure
    fun bs => Int32.ofNat (orBytes 0 0 bs)
  rwa [orBytes_leBytes] at h

theorem readU32Le_yields (x : Int32) (rest : List UInt8) :
    Yields readU32Le (putInt x ++ rest) (Int64.ofNat x.toUInt32.toNat) rest := by
  have h := (readUnsignedBytes_leBytes 4 x.toUInt32.toNat rest).bind_pure
    fun bs => Int64.ofNat (orBytes 0 0 bs)
  have hlt : x.toUInt32.toNat < 256 ^ 4 := x.toUInt32.toNat_lt
  rwa [orBytes_leBytes, Nat.mod_eq_of_lt hlt] at h

theorem ofNat_toUInt64_toNat (x : Int64) : Int64.ofNat x.toUInt64.toNat = x := by
  simp [Int64.ofNat]

theorem readU64Le_yields (x : Int64) (rest : List UInt8) :
    Yields readU64Le (putLong x ++ rest) x rest := by
  have h := (readUnsignedBytes_leBytes 8 x.toUInt64.toNat rest).bind_pure
    fun bs => Int64.ofNat (orBytes 0 0 bs)
  have hlt : x.toUInt64.toNat < 256 ^ 8 := x.toUInt64.toNat_lt
  rwa [orBytes_leBytes, Nat.mod_eq_of_lt hlt, ofNat_toUInt64_toNat] at h

/-- `(int)` of an `int` that was read as a `long`, without its sign. -/
@[simp] theorem toInt32_ofNat_toUInt32 (x : Int32) :
    (Int64.ofNat x.toUInt32.toNat).toInt32 = x := by
  simp [Int32.ofNat]

/-- An `int` that fits 16 bits survives `(short)`. -/
theorem ofNat_toUInt32_mod {x : Int32} (h : 0 ≤ x ∧ x ≤ 65535) :
    Int32.ofNat (x.toUInt32.toNat % 2 ^ 16) = x := by
  have hle : x.toNatClampNeg ≤ 65535 := by
    have htoInt : x.toInt ≤ 65535 := Int32.le_iff_toInt_le.mp h.2
    rw [Int32.toNatClampNeg]
    omega
  rw [Int32.toNat_toUInt32_of_le h.1, Nat.mod_eq_of_lt (by omega), Int32.ofNat_toNatClampNeg x h.1]

theorem readU16Le_small {x : Int32} (h : 0 ≤ x ∧ x ≤ 65535) (rest : List UInt8) :
    Yields readU16Le (putShort x ++ rest) x rest := by
  have hread := readU16Le_yields x rest
  rwa [ofNat_toUInt32_mod h] at hread

theorem readBytes_yields {n : Int32} {xs : List UInt8} (rest : List UInt8) (h0 : 0 ≤ n)
    (hn : n.toNatClampNeg = xs.length) : Yields (readBytes n) (xs ++ rest) xs rest := by
  have hnot : ¬ n < 0 := Int32.not_lt.mpr h0
  rw [readBytes, if_neg hnot]
  exact readFully_yields _ rest hn.symm

/-! ## 4. Header and frames -/

theorem ivfReader_yields {width height : Int32} (num den : Int32) (rest : List UInt8)
    (hw : 0 ≤ width ∧ width ≤ 65535) (hh : 0 ≤ height ∧ height ≤ 65535) :
    Yields ivfReader ((IvfWriter.new width height num den).out ++ rest)
      ⟨width, height, den, num, 0⟩ rest := by
  simp only [IvfWriter.new, List.append_assoc]
  unfold ivfReader
  refine (readBytes_yields _ (by decide) (by decide)).bind ?_
  rw [if_neg (not_not.mpr rfl)]
  refine (readU16Le_small (by decide) _).bind ((readU16Le_small (by decide) _).bind ?_)
  rw [if_neg (by decide)]
  refine (readBytes_yields _ (by decide) (by decide)).bind ?_
  refine (readU16Le_small hw _).bind ((readU16Le_small hh _).bind ?_)
  refine (readU32Le_yields den _).bind ((readU32Le_yields num _).bind ?_)
  refine (readU32Le_yields 0 _).bind ((readU32Le_yields 0 _).bind ?_)
  rw [if_neg (by decide), toInt32_ofNat_toUInt32, toInt32_ofNat_toUInt32]
  exact yields_pure _ rest

theorem nextFrame_yields (f : IvfFrame) (rest : List UInt8) :
    Yields nextFrame (f.entry ++ rest) f rest := by
  have hlength : (Int32.ofNat f.data.length).toNatClampNeg = f.data.length :=
    Int32.toNatClampNeg_ofNat_of_lt f.length_lt
  have hpos : 0 ≤ Int32.ofNat f.data.length := by
    rw [Int32.le_iff_toInt_le, Int32.toInt_ofNat_of_lt f.length_lt]
    exact Int.natCast_nonneg _
  rw [IvfFrame.entry, List.append_assoc, List.append_assoc]
  unfold nextFrame
  refine (readU32Le_yields _ _).bind ((readU64Le_yields f.timestamp _).bind ?_)
  rw [toInt32_ofNat_toUInt32]
  refine (readBytes_yields rest hpos hlength).bind ?_
  rw [dif_pos f.length_le]
  exact yields_pure f rest

/-- At the end of the file the first byte is missing already. -/
theorem nextFrame_raises : Raises nextFrame [] (.eof "Unexpected end of stream") :=
  (((readOne_raises _).bind _).bind _).bind _

theorem nextFrames_frames : ∀ (fs : List IvfFrame) (i : Input UInt8),
    i.elems = fs.flatMap IvfFrame.entry →
    nextFrames (fs.length + 1) i = (fs, some (.eof "Unexpected end of stream"))
  | [], i, hi => by
    simp [nextFrames, nextFrame_raises i hi]
  | f :: fs, i, hi => by
    obtain ⟨i', hnext, hi'⟩ := nextFrame_yields f (fs.flatMap IvfFrame.entry) i
      (by rw [hi, List.flatMap_cons])
    rw [List.length_cons, nextFrames, hnext]
    simp only [nextFrames_frames fs i' hi']

/-! ## 5. There and back -/

/-- **An IVF file is read back**: header, every frame in order, and then no frame more. -/
theorem ivf_round_trip (width height timebaseNumerator timebaseDenominator : Int32)
    (frames : List IvfFrame) (file : Input UInt8)
    (hwidth : 0 ≤ width ∧ width ≤ 65535) (hheight : 0 ≤ height ∧ height ≤ 65535)
    (hfile : file.elems = ((IvfWriter.new width height timebaseNumerator
      timebaseDenominator).writeFrames frames).close) :
    ∃ header atFrames, ivfReader file = .ok (header, atFrames)
      ∧ header.width = width ∧ header.height = height
      ∧ header.timebaseNumerator = timebaseNumerator
      ∧ header.timebaseDenominator = timebaseDenominator
      ∧ nextFrames (frames.length + 1) atFrames
        = (frames, some (.eof "Unexpected end of stream")) := by
  rw [IvfWriter.close, IvfWriter.writeFrames_out] at hfile
  obtain ⟨atFrames, hheader, hrest⟩ :=
    ivfReader_yields timebaseNumerator timebaseDenominator _ hwidth hheight file hfile
  exact ⟨_, atFrames, hheader, rfl, rfl, rfl, rfl, nextFrames_frames frames atFrames hrest⟩

/-- A frame of three bytes, an empty one and one with a negative timestamp. -/
def sampleFrames : List IvfFrame :=
  [⟨[1, 2, 3], 7, by decide⟩, ⟨[], 0, by decide⟩, ⟨[0], -1, by decide⟩]

theorem ivf_round_trip_sample : ∃ header atFrames,
    ivfReader (.whole (((IvfWriter.new 65535 0 1 (-1)).writeFrames sampleFrames).close))
        = .ok (header, atFrames)
      ∧ header.width = 65535 ∧ header.height = 0 ∧ header.timebaseNumerator = 1
      ∧ header.timebaseDenominator = -1
      ∧ nextFrames (sampleFrames.length + 1) atFrames
        = (sampleFrames, some (.eof "Unexpected end of stream")) :=
  ivf_round_trip 65535 0 1 (-1) sampleFrames _ (by decide) (by decide) (Input.elems_whole _)

end WebrtcBridge.Media
