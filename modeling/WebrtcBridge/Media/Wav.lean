/-
# `WavReader`: the walk over the chunks, and the samples

A RIFF file is a list of chunks.  The constructor walks over them up to the data chunk, and
`nextSamples` then hands that out piece by piece.

    "RIFF" size "WAVE"   { id(4)  size(4)  body(size)  [pad] } ...

A body of odd length is followed by a pad byte that its size does not count.  The walk does not know
that: it goes on right behind the body.  And a size is an `int` to it, so that one from `2^31` on is
negative; then `skipFully` passes over nothing and `readFully` throws.  What it reads is a file of
BARE chunks.

* `riff_walk`: the constructor and `nextSamples` do what they are for exactly if the bytes, taken as
  bare chunks, show the same format and the same data.  They do if the chunks in front of the data
  have even sizes below `2^31`.
* `nextSamples_requests`: from there on nothing can go wrong.  The counter is a `long` that has been
  freed from its sign, and it is never asked for more than is left, so what comes out is cut off the
  data chunk request by request, whatever the sizes of the requests.
-/
import Mathlib.Algebra.Ring.Nat
import WebrtcBridge.Lib.InputStream

namespace WebrtcBridge.Media.Wav

open Lib Lib.InputStream

/-! ## 1. The reader -/

/-- What a reader throws. -/
inductive WavError
  | io (message : String)
  | eof (message : String)
  | negativeArraySize
  | indexOutOfBounds
  deriving DecidableEq, Repr

structure WavHeader where
  channels : Int32
  sampleRate : Int32
  bitsPerSample : Int32
  deriving DecidableEq, Repr

/-- The object, besides its input. -/
structure WavReader where
  header : WavHeader
  dataRemaining : Int64
  deriving DecidableEq, Repr

section Reader

variable {σ : Type} [InputStream σ UInt8]

def readFully (n : Int32) : EStateM WavError σ (List UInt8) :=
  if n < 0 then throw .negativeArraySize
  else InputStream.readFully (.eof "Unexpected end of stream") n.toNatClampNeg

/-- `skipFully(n)`: nothing, for a negative `n`. -/
def skipFully (n : Int64) : EStateM WavError σ Unit :=
  InputStream.skipFully (.eof "Unexpected end of stream") n.toNatClampNeg

/-- `b[off] | b[off + 1] << 8 | ...`, of so many bytes. -/
def readLE (count : Nat) (b : List UInt8) (off : Nat) : EStateM WavError σ Int32 :=
  if off + count ≤ b.length then pure (Int32.ofNat (orBytes 0 0 ((b.drop off).take count)))
  else throw .indexOutOfBounds

def readU16LE (b : List UInt8) (off : Nat) : EStateM WavError σ Int32 := readLE 2 b off

def readU32LE (b : List UInt8) (off : Nat) : EStateM WavError σ Int32 := readLE 4 b off

/-- The chunk `fmt `. -/
def readFmt (chunkSize : Int32) : EStateM WavError σ WavHeader := do
  let fmt ← readFully chunkSize
  let audioFormat ← readU16LE fmt 0
  if audioFormat ≠ 1 then
    throw (.io ("Unsupported audio format: " ++ toString audioFormat ++ " (only PCM supported)"))
  let channels ← readU16LE fmt 2
  let sampleRate ← readU32LE fmt 4
  let bitsPerSample ← readU16LE fmt 14
  return ⟨channels, sampleRate, bitsPerSample⟩

/-- What a turn of the loop in `parseHeader()` does with a chunk.  `foundFmt` says the same as that
there is a header. -/
def readChunk (header : Option WavHeader) (chunkId : List UInt8) (chunkSize : Int32) :
    EStateM WavError σ (Option WavHeader ⊕ (Option WavHeader × Int64)) := do
  if chunkId = ascii "fmt " then
    let header ← readFmt chunkSize
    return .inl (some header)
  else if chunkId = ascii "data" then
    if header.isNone then throw (.io "data chunk before fmt chunk")
    return .inr (header, chunkSize.toInt64 &&& 0xFFFFFFFF)
  else
    skipFully chunkSize.toInt64
    return .inl header

def chunkTurn (header : Option WavHeader) :
    EStateM WavError σ (Option WavHeader ⊕ (Option WavHeader × Int64)) := do
  let chunkHeader ← readFully 8
  let chunkSize ← readU32LE chunkHeader 4
  readChunk header (chunkHeader.take 4) chunkSize

theorem shrinks_readFully (n : Int32) : Shrinks (readFully n : EStateM WavError σ _) :=
  Shrinks.ite _ (shrinks_throw _) (InputStream.shrinks_readFully _ _)

theorem shrinks_readLE (count : Nat) (b : List UInt8) (off : Nat) :
    Shrinks (readLE count b off : EStateM WavError σ _) :=
  Shrinks.ite _ (shrinks_pure _) (shrinks_throw _)

theorem shrinks_readFmt (chunkSize : Int32) :
    Shrinks (readFmt chunkSize : EStateM WavError σ _) := by
  refine (shrinks_readFully _).bind fun fmt => (shrinks_readLE _ _ _).bind fun audioFormat => ?_
  refine Shrinks.check _ _ ((shrinks_readLE _ _ _).bind fun channels => ?_)
  refine (shrinks_readLE _ _ _).bind fun rate => (shrinks_readLE _ _ _).bind fun bits => ?_
  exact shrinks_pure _

theorem shrinks_readChunk (header : Option WavHeader) (chunkId : List UInt8) (chunkSize : Int32) :
    Shrinks (readChunk header chunkId chunkSize : EStateM WavError σ _) := by
  refine Shrinks.ite _ ((shrinks_readFmt _).bind fun _ => shrinks_pure _) ?_
  refine Shrinks.ite _ (Shrinks.check _ _ (shrinks_pure _)) ?_
  exact (shrinks_skipFully _ _).bind fun _ => shrinks_pure _

/-- Every turn reads the header of a chunk. -/
theorem takes_chunkTurn (header : Option WavHeader) :
    Takes (GoesOnOr fun _ => True) (chunkTurn header : EStateM WavError σ _) := by
  have hread : Takes (fun _ => True) (readFully 8 : EStateM WavError σ _) :=
    takes_readFully _ (by decide)
  refine hread.bind fun chunkHeader => (shrinks_readLE _ _ _).bind fun chunkSize => ?_
  exact shrinks_readChunk _ _ _

def parseHeader : EStateM WavError σ WavReader := do
  let buf ← readFully 12
  if buf.take 4 ≠ ascii "RIFF" then throw (.io "Invalid RIFF header")
  if buf.drop 8 ≠ ascii "WAVE" then throw (.io "Invalid WAVE format")
  let (header, dataRemaining) ← readingLoop chunkTurn takes_chunkTurn none
  match header with
  | none => throw (.io "No fmt chunk found")
  | some header => return ⟨header, dataRemaining⟩

/-- The constructor. -/
def wavReader (input : σ) : EStateM.Result WavError (Buffered σ UInt8) WavReader :=
  parseHeader (.ofInput input)

def nextSamples (numBytes : Int32) (r : WavReader) : EStateM WavError σ (List UInt8 × WavReader) :=
  if r.dataRemaining ≤ 0 then pure ([], r)
  else do
    let toRead := (min numBytes.toInt64 r.dataRemaining).toInt32
    let data ← readFully toRead
    return (data, { r with dataRemaining := r.dataRemaining - toRead.toInt64 })

/-- A call for each of the sizes; it ends at the first exception. -/
def requests : List Int32 → WavReader → EStateM WavError σ (List (List UInt8) × WavReader)
  | [], r => pure ([], r)
  | n :: ns, r => do
    let (data, r') ← nextSamples n r
    let (arrays, r'') ← requests ns r'
    return (data :: arrays, r'')

theorem actsAs_readFully (n : Int32) : ActsAs (readFully n : EStateM WavError σ _) (readFully n) :=
  ActsAs.ite _ (actsAs_throw _) (InputStream.actsAs_readFully _ _)

theorem actsAs_readLE (count : Nat) (b : List UInt8) (off : Nat) :
    ActsAs (readLE count b off : EStateM WavError σ _) (readLE count b off) :=
  ActsAs.ite _ (actsAs_pure _) (actsAs_throw _)

theorem actsAs_readFmt (chunkSize : Int32) :
    ActsAs (readFmt chunkSize : EStateM WavError σ _) (readFmt chunkSize) := by
  refine (actsAs_readFully _).bind fun fmt => (actsAs_readLE _ _ _).bind fun audioFormat => ?_
  refine ActsAs.check _ _ ((actsAs_readLE _ _ _).bind fun channels => ?_)
  refine (actsAs_readLE _ _ _).bind fun rate => (actsAs_readLE _ _ _).bind fun bits => ?_
  exact actsAs_pure _

theorem actsAs_chunkTurn (header : Option WavHeader) :
    ActsAs (chunkTurn header : EStateM WavError σ _) (chunkTurn header) := by
  refine (actsAs_readFully _).bind fun chunkHeader => (actsAs_readLE _ _ _).bind fun chunkSize => ?_
  unfold readChunk
  refine ActsAs.ite _ ((actsAs_readFmt _).bind fun _ => actsAs_pure _) ?_
  refine ActsAs.ite _ (ActsAs.check _ _ (actsAs_pure _)) ?_
  exact (actsAs_skipFully _ _).bind fun _ => actsAs_pure _

theorem actsAs_parseHeader : ActsAs (parseHeader : EStateM WavError σ _) parseHeader := by
  refine (actsAs_readFully _).bind fun buf => ActsAs.check _ _ (ActsAs.check _ _ ?_)
  refine ActsAs.bind (ActsAs.loop actsAs_chunkTurn _) fun v => ?_
  obtain ⟨header, dataRemaining⟩ := v
  cases header with
  | none => exact actsAs_throw _
  | some header => exact actsAs_pure _

theorem actsAs_nextSamples (numBytes : Int32) (r : WavReader) :
    ActsAs (nextSamples numBytes r : EStateM WavError σ _) (nextSamples numBytes r) :=
  ActsAs.ite _ (actsAs_pure _) ((actsAs_readFully _).bind fun _ => actsAs_pure _)

theorem actsAs_requests (sizes : List Int32) (r : WavReader) :
    ActsAs (requests sizes r : EStateM WavError σ _) (requests sizes r) := by
  induction sizes generalizing r with
  | nil => exact actsAs_pure _
  | cons n ns ih =>
    refine (actsAs_nextSamples n r).bind fun v => (ih v.2).bind fun w => ?_
    exact actsAs_pure _

end Reader

/-! ## 2. The samples -/

/-- A positive size is one of the numbers. -/
theorem exists_ofNat {k : Int32} (hk : 0 < k) :
    ∃ n, 0 < n ∧ n < 2 ^ 31 ∧ k = Int32.ofNat n ∧ k.toNatClampNeg = n := by
  have hpos : 0 < k.toInt := Int32.lt_iff_toInt_lt.mp hk
  have hlt := k.toInt_lt
  refine ⟨k.toInt.toNat, by omega, by omega, ?_, rfl⟩
  rw [← Int32.toInt_inj, Int32.toInt_ofNat_of_lt (by omega)]
  omega

/-- `(int) Math.min(numBytes, dataRemaining)` loses nothing. -/
theorem min_toInt32 {k n : Nat} (hk : k < 2 ^ 31) (hn : n < 2 ^ 32) :
    (min (Int32.ofNat k).toInt64 (Int64.ofNat n)).toInt32 = Int32.ofNat (min k n) := by
  have hk64 : (Int32.ofNat k).toInt64.toInt = k := by
    rw [Int32.toInt_toInt64, Int32.toInt_ofNat_of_lt hk]
  have hn64 : (Int64.ofNat n).toInt = n := Int64.toInt_ofNat_of_lt (by omega)
  rw [← Int32.toInt_inj, Int32.toInt_ofNat_of_lt (by omega), Int64.toInt_toInt32]
  change (if _ ≤ _ then _ else _ : Int64).toInt.bmod _ = _
  simp only [Int64.le_iff_toInt_le, hk64, hn64, Int.ofNat_le]
  split
  · rw [hk64, Int.bmod_eq_of_le (by omega) (by omega)]
    omega
  · rw [hn64, Int.bmod_eq_of_le (by omega) (by omega)]
    omega

theorem readFully_small {n : Nat} (hn : n < 2 ^ 31) (xs : List UInt8) :
    readFully (Int32.ofNat n) xs
      = InputStream.readFully (.eof "Unexpected end of stream") n xs := by
  rw [readFully, if_neg (ofNat_not_neg hn), Int32.toNatClampNeg_ofNat_of_lt hn]

theorem readFully_list {n : Nat} (hn : n < 2 ^ 31) {xs : List UInt8} (rest : List UInt8)
    (hxs : xs.length = n) : readFully (Int32.ofNat n) (xs ++ rest) = .ok xs rest := by
  rw [readFully_small hn, readFully_append _ rest hxs]

theorem toInt64_ofNat {n : Nat} (hn : n < 2 ^ 31) : (Int32.ofNat n).toInt64 = Int64.ofNat n := by
  rw [← Int64.toInt_inj, Int32.toInt_toInt64, Int32.toInt_ofNat_of_lt hn,
    Int64.toInt_ofNat_of_lt (by omega)]

theorem ofNat_not_nonpos {n : Nat} (hpos : 0 < n) (hn : n < 2 ^ 63) : ¬ Int64.ofNat n ≤ 0 := by
  rw [Int64.le_iff_toInt_le, Int64.toInt_ofNat_of_lt hn]
  simp
  omega

/-- **One call**: what is cut off is what was asked for, or what is left. -/
theorem nextSamples_list {r : WavReader} {n : Nat} (hr : r.dataRemaining = Int64.ofNat n)
    (hn : n < 2 ^ 32) {k : Int32} (hk : 0 < k) (xs : List UInt8)
    (hxs : min k.toNatClampNeg n ≤ xs.length) :
    nextSamples k r xs
      = .ok (xs.take (min k.toNatClampNeg n),
          { r with dataRemaining := Int64.ofNat (n - min k.toNatClampNeg n) })
          (xs.drop (min k.toNatClampNeg n)) := by
  obtain ⟨header, dataRemaining⟩ := r
  obtain rfl : dataRemaining = Int64.ofNat n := hr
  obtain ⟨m, -, hm, rfl, hclamp⟩ := exists_ofNat hk
  rw [hclamp] at hxs ⊢
  rw [nextSamples]
  rcases Nat.eq_zero_or_pos n with rfl | hpos
  · simp [pure, EStateM.pure]
  · have hnot : ¬ Int64.ofNat n ≤ 0 := ofNat_not_nonpos hpos (by omega)
    have hmin : min m n < 2 ^ 31 := by omega
    have htake : (xs.take (min m n)).length = min m n := List.length_take_of_le hxs
    have hread := readFully_list hmin (xs.drop (min m n)) htake
    rw [List.take_append_drop] at hread
    simp only [if_neg hnot, min_toInt32 hm hn]
    rw [bind_of_ok hread, toInt64_ofNat hmin, Int64.ofNat_sub n (min m n) (by omega)]
    rfl

/-- Less than that is left. -/
theorem nextSamples_short {r : WavReader} {n : Nat} (hr : r.dataRemaining = Int64.ofNat n)
    (hn : n < 2 ^ 32) {k : Int32} (hk : 0 < k) {xs : List UInt8}
    (hxs : xs.length < min k.toNatClampNeg n) :
    nextSamples k r xs = .error (.eof "Unexpected end of stream") [] := by
  obtain ⟨m, -, hm, rfl, hclamp⟩ := exists_ofNat hk
  rw [hclamp] at hxs
  have hmin : min m n < 2 ^ 31 := by omega
  have hnot : ¬ Int64.ofNat n ≤ 0 := ofNat_not_nonpos (by omega) (by omega)
  have hread : readFully (Int32.ofNat (min m n)) xs
      = .error (.eof "Unexpected end of stream") [] := by
    rw [readFully_small hmin, readFully_short _ hxs]
  rw [nextSamples, hr, if_neg hnot, min_toInt32 hm hn]
  exact bind_of_error hread

/-- Bytes cut off request by request. -/
def cut : List Nat → List UInt8 → List (List UInt8)
  | [], _ => []
  | k :: ks, xs => xs.take k :: cut ks (xs.drop k)

theorem cut_length (ks : List Nat) (xs : List UInt8) : (cut ks xs).length = ks.length := by
  induction ks generalizing xs with
  | nil => rfl
  | cons k ks ih => rw [cut, List.length_cons, List.length_cons, ih]

theorem cut_flatten (ks : List Nat) (xs : List UInt8) : (cut ks xs).flatten = xs.take ks.sum := by
  induction ks generalizing xs with
  | nil => simp [cut]
  | cons k ks ih => rw [cut, List.flatten_cons, ih, List.sum_cons, List.take_add]

theorem cut_getElem? (ks : List Nat) (xs : List UInt8) (i : Nat) :
    (cut ks xs)[i]? = ks[i]?.map fun k => (xs.drop (ks.take i).sum).take k := by
  induction ks generalizing xs i with
  | nil => simp [cut]
  | cons k ks ih =>
    cases i with
    | zero => simp [cut]
    | succ i => simp [cut, ih, List.drop_drop]

/-- What the sizes add up to. -/
def total (sizes : List Int32) : Nat := (sizes.map Int32.toNatClampNeg).sum

/-- What requests of these sizes get. -/
def served (sizes : List Int32) (chunk : List UInt8) : List (List UInt8) :=
  cut (sizes.map Int32.toNatClampNeg) chunk

theorem served_flatten (sizes : List Int32) (chunk : List UInt8) :
    (served sizes chunk).flatten = chunk.take (total sizes) := cut_flatten _ chunk

theorem served_length (sizes : List Int32) (chunk : List UInt8) :
    (served sizes chunk).length = sizes.length := by
  rw [served, cut_length, List.length_map]

/-- A request gets all it asks for while there is as much, and nothing behind the end. -/
theorem served_array {sizes : List Int32} {chunk array : List UInt8} {i : Nat} {k : Int32}
    (hk : sizes[i]? = some k) (harray : (served sizes chunk)[i]? = some array) :
    (total (sizes.take i) + k.toNatClampNeg ≤ chunk.length → array.length = k.toNatClampNeg)
      ∧ (chunk.length ≤ total (sizes.take i) → array = []) := by
  rw [served, cut_getElem?, List.getElem?_map, hk, ← List.map_take] at harray
  simp only [Option.map_some, Option.some.injEq] at harray
  subst harray
  constructor
  · intro hin
    rw [List.length_take_of_le]
    rw [List.length_drop]
    unfold total at hin
    omega
  · intro hout
    unfold total at hout
    rw [List.drop_of_length_le hout, List.take_nil]

/-- **All calls**: the data is cut by the requests, and what follows it stays. -/
theorem requests_list {sizes : List Int32} (hsizes : ∀ k ∈ sizes, 0 < k) {r : WavReader}
    (chunk : List UInt8) (hr : r.dataRemaining = Int64.ofNat chunk.length)
    (hlt : chunk.length < 2 ^ 32) (rest : List UInt8) :
    ∃ r', requests sizes r (chunk ++ rest)
      = .ok (served sizes chunk, r') (chunk.drop (total sizes) ++ rest) := by
  induction sizes generalizing r chunk with
  | nil => exact ⟨r, by simp [requests, served, total, cut, pure, EStateM.pure]⟩
  | cons k ks ih =>
    have hcall := nextSamples_list hr hlt (hsizes k List.mem_cons_self) (chunk ++ rest)
      (by rw [List.length_append]; omega)
    have hle : min k.toNatClampNeg chunk.length ≤ chunk.length := Nat.min_le_right _ _
    have htake : chunk.take (min k.toNatClampNeg chunk.length) = chunk.take k.toNatClampNeg := by
      rw [List.take_eq_take_iff]
      omega
    have hdrop : chunk.drop (min k.toNatClampNeg chunk.length) = chunk.drop k.toNatClampNeg := by
      rcases Nat.le_total k.toNatClampNeg chunk.length with h | h
      · rw [Nat.min_eq_left h]
      · rw [Nat.min_eq_right h, List.drop_of_length_le (Nat.le_refl _), List.drop_of_length_le h]
    rw [List.take_append_of_le_length hle, List.drop_append_of_le_length hle, htake, hdrop] at hcall
    have hleft : chunk.length - min k.toNatClampNeg chunk.length
        = (chunk.drop k.toNatClampNeg).length := by
      rw [List.length_drop]
      omega
    rw [hleft] at hcall
    obtain ⟨r', hrest⟩ := ih (fun k' hk' => hsizes k' (List.mem_cons_of_mem k hk'))
      (r := { r with dataRemaining := Int64.ofNat (chunk.drop k.toNatClampNeg).length })
      (chunk.drop k.toNatClampNeg) rfl (by rw [List.length_drop]; omega)
    refine ⟨r', (bind_of_ok hcall).trans ((bind_of_ok hrest).trans ?_)⟩
    simp [served, total, cut, pure, EStateM.pure]

/-- Calls that return have found what they asked for. -/
theorem requests_ok {sizes : List Int32} (hsizes : ∀ k ∈ sizes, 0 < k) {r r' : WavReader} {n : Nat}
    (hr : r.dataRemaining = Int64.ofNat n) (hn : n < 2 ^ 32) {xs rest : List UInt8}
    {arrays : List (List UInt8)} (h : requests sizes r xs = .ok (arrays, r') rest) :
    min (total sizes) n ≤ xs.length ∧ arrays.flatten = xs.take (min (total sizes) n) := by
  induction sizes generalizing r n xs arrays with
  | nil =>
    cases h
    simp [total]
  | cons k ks ih =>
    have hk := hsizes k List.mem_cons_self
    obtain ⟨⟨data, r₁⟩, t, hcall, h⟩ := bind_eq_ok h
    obtain ⟨⟨arrays', r₂⟩, t', hcalls, h⟩ := bind_eq_ok h
    cases h
    have hle : min k.toNatClampNeg n ≤ xs.length := by
      by_contra hshort
      rw [nextSamples_short hr hn hk (by omega)] at hcall
      cases hcall
    rw [nextSamples_list hr hn hk xs hle] at hcall
    cases hcall
    obtain ⟨hrest, hflatten⟩ := ih (fun k' hk' => hsizes k' (List.mem_cons_of_mem k hk')) rfl
      (by omega) hcalls
    have hsum : min (total (k :: ks)) n
        = min k.toNatClampNeg n + min (total ks) (n - min k.toNatClampNeg n) := by
      simp only [total, List.map_cons, List.sum_cons]
      omega
    rw [List.length_drop] at hrest
    rw [List.flatten_cons, hflatten, hsum, List.take_add]
    exact ⟨by omega, rfl⟩

/-- The mask takes the sign away. -/
theorem unsigned_ofNat {n : Nat} (hn : n < 2 ^ 32) :
    (Int32.ofNat n).toInt64 &&& 0xFFFFFFFF = Int64.ofNat n := by
  have hmask : (0xFFFFFFFF : Int64).toBitVec.toNat = 2 ^ 32 - 1 := rfl
  rw [← Int64.toBitVec_inj, ← BitVec.toNat_inj, Int64.toBitVec_and, BitVec.toNat_and, hmask,
    Nat.and_two_pow_sub_one_eq_mod]
  simp only [Int32.toBitVec_toInt64, BitVec.toNat_signExtend]
  simp
  split <;> omega

/-! ## 3. The walk -/

/-- The contents of a `fmt ` chunk for PCM. -/
structure Format where
  channels : UInt16
  sampleRate : UInt32
  byteRate : UInt32
  blockAlign : UInt16
  bitsPerSample : UInt16
  /-- A chunk may be longer than sixteen bytes. -/
  extra : List UInt8
  length_lt : 16 + extra.length < 2 ^ 32

def Format.body (f : Format) : List UInt8 :=
  leBytes 2 1 ++ leBytes 2 f.channels.toNat ++ leBytes 4 f.sampleRate.toNat
    ++ leBytes 4 f.byteRate.toNat ++ leBytes 2 f.blockAlign.toNat
    ++ leBytes 2 f.bitsPerSample.toNat ++ f.extra

@[simp] theorem Format.body_length (f : Format) : f.body.length = 16 + f.extra.length := by
  simp only [Format.body, List.length_append, leBytes_length]

/-- The header a reader makes of the format. -/
def Format.header (f : Format) : WavHeader :=
  ⟨Int32.ofNat f.channels.toNat, Int32.ofNat f.sampleRate.toNat, Int32.ofNat f.bitsPerSample.toNat⟩

/-- A chunk as the walk sees it: there is no pad byte, and a size from `2^31` on is negative, so
that nothing is passed over. -/
structure BareChunk where
  id : List UInt8
  size : Nat
  body : List UInt8
  id_length : id.length = 4
  size_lt : size < 2 ^ 32
  body_length : body.length = if size < 2 ^ 31 then size else 0

namespace BareChunk

def bytes (c : BareChunk) : List UInt8 := c.id ++ leBytes 4 c.size ++ c.body

/-- It is passed over. -/
def IsOther (c : BareChunk) : Prop := c.id ≠ ascii "fmt " ∧ c.id ≠ ascii "data"

/-- It gives a header. -/
def Holds (c : BareChunk) (format : Format) : Prop := c.id = ascii "fmt " ∧ c.body = format.body

/-- The walk goes on behind it. -/
def Passed (c : BareChunk) : Prop := c.IsOther ∨ ∃ format, c.Holds format

theorem Holds.size_eq {c : BareChunk} {format : Format} (h : c.Holds format) :
    c.size = format.body.length ∧ format.body.length < 2 ^ 31 := by
  have hlength := c.body_length
  rw [h.2, Format.body_length] at hlength
  rw [Format.body_length]
  split at hlength <;> omega

end BareChunk

theorem readLE_field {σ : Type} (w n : Nat) (hn : n < 256 ^ w) (pre : List UInt8)
    {b rest : List UInt8} (hb : b = pre ++ (leBytes w n ++ rest)) {off : Nat}
    (hoff : pre.length = off) (s : σ) : readLE w b off s = .ok (Int32.ofNat n) s := by
  subst hb hoff
  rw [readLE, if_pos (by simp), List.drop_left, List.take_left' (leBytes_length w n),
    orBytes_leBytes, Nat.mod_eq_of_lt hn]
  rfl

/-- A turn reads the header of the next chunk. -/
theorem chunkTurn_list (header : Option WavHeader) {id : List UInt8} (hid : id.length = 4) {n : Nat}
    (hn : n < 2 ^ 32) (rest : List UInt8) :
    chunkTurn header (id ++ leBytes 4 n ++ rest) = readChunk header id (Int32.ofNat n) rest := by
  have hread : readFully 8 (id ++ leBytes 4 n ++ rest) = .ok (id ++ leBytes 4 n) rest :=
    readFully_list (by decide) rest (by simp [hid])
  have hsize : readU32LE (id ++ leBytes 4 n) 4 rest = .ok (Int32.ofNat n) rest :=
    readLE_field 4 n hn id (by rw [List.append_nil]) hid rest
  rw [chunkTurn, bind_of_ok hread]
  refine (bind_of_ok hsize).trans ?_
  rw [List.take_left' hid]

/-- A field that is read is the number of its bytes. -/
theorem readLE_ok {σ : Type} {count : Nat} {b : List UInt8} {off : Nat} {x : Int32} {s s' : σ}
    (h : readLE count b off s = .ok x s') :
    s' = s ∧ off + count ≤ b.length ∧ x = Int32.ofNat (leValue ((b.drop off).take count)) := by
  unfold readLE at h
  split at h
  · next hle =>
    cases h
    exact ⟨rfl, hle, by rw [orBytes_leValue]⟩
  · cases h

theorem readFmt_list (f : Format) (hlt : f.body.length < 2 ^ 31) (rest : List UInt8) :
    readFmt (Int32.ofNat f.body.length) (f.body ++ rest) = .ok f.header rest := by
  have hformat : readU16LE f.body 0 rest = .ok 1 rest :=
    readLE_field 2 1 (by decide) [] (by simp [Format.body]; rfl) rfl rest
  have hchannels : readU16LE f.body 2 rest = .ok (Int32.ofNat f.channels.toNat) rest :=
    readLE_field 2 _ f.channels.toNat_lt (leBytes 2 1) (by simp [Format.body]; rfl) (by simp) rest
  have hrate : readU32LE f.body 4 rest = .ok (Int32.ofNat f.sampleRate.toNat) rest :=
    readLE_field 4 _ f.sampleRate.toNat_lt (leBytes 2 1 ++ leBytes 2 f.channels.toNat)
      (by simp [Format.body]; rfl) (by simp) rest
  have hbits : readU16LE f.body 14 rest = .ok (Int32.ofNat f.bitsPerSample.toNat) rest :=
    readLE_field 2 _ f.bitsPerSample.toNat_lt
      (leBytes 2 1 ++ leBytes 2 f.channels.toNat ++ leBytes 4 f.sampleRate.toNat
        ++ leBytes 4 f.byteRate.toNat ++ leBytes 2 f.blockAlign.toNat)
      (by simp [Format.body]; rfl) (by simp) rest
  rw [readFmt, bind_of_ok (readFully_list hlt rest rfl)]
  refine (bind_of_ok hformat).trans ?_
  rw [if_neg (by simp)]
  refine (bind_of_ok hchannels).trans ((bind_of_ok hrate).trans ((bind_of_ok hbits).trans rfl))

/-- The length of what `skipFully` passes over. -/
theorem toNatClampNeg_size {n : Nat} (hn : n < 2 ^ 32) :
    (Int32.ofNat n).toInt64.toNatClampNeg = if n < 2 ^ 31 then n else 0 := by
  rw [Int64.toNatClampNeg, Int32.toInt_toInt64]
  split
  · next hlt =>
    rw [Int32.toInt_ofNat_of_lt hlt]
    rfl
  · next hge =>
    have hneg := Int32.lt_iff_toInt_lt.mp (ofNat_neg (Nat.not_lt.mp hge) hn)
    exact Int.toNat_of_nonpos (Int.le_of_lt hneg)

/-- **The walk goes past a chunk that is none of its business.** -/
theorem chunkTurn_other (header : Option WavHeader) {c : BareChunk} (hother : c.IsOther)
    (rest : List UInt8) : chunkTurn header (c.bytes ++ rest) = .ok (.inl header) rest := by
  have hskip : skipFully (Int32.ofNat c.size).toInt64 (c.body ++ rest) = .ok () rest := by
    rw [skipFully, toNatClampNeg_size c.size_lt, ← c.body_length, skipFully_append _ rest rfl]
  rw [BareChunk.bytes, List.append_assoc, chunkTurn_list header c.id_length c.size_lt, readChunk,
    if_neg hother.1, if_neg hother.2, bind_of_ok hskip]
  rfl

theorem chunkTurn_format (header : Option WavHeader) {c : BareChunk} {format : Format}
    (h : c.Holds format) (rest : List UInt8) :
    chunkTurn header (c.bytes ++ rest) = .ok (.inl (some format.header)) rest := by
  obtain ⟨hsize, hlt⟩ := h.size_eq
  rw [BareChunk.bytes, List.append_assoc, chunkTurn_list header c.id_length c.size_lt, readChunk,
    if_pos h.1, h.2, hsize]
  exact (bind_of_ok (readFmt_list format hlt rest)).trans rfl

theorem chunkTurn_data (header : WavHeader) {n : Nat} (hn : n < 2 ^ 32) (rest : List UInt8) :
    chunkTurn (some header) (ascii "data" ++ leBytes 4 n ++ rest)
      = .ok (.inr (some header, Int64.ofNat n)) rest := by
  rw [chunkTurn_list _ rfl hn, readChunk, if_neg (by decide), if_pos rfl, if_neg (by simp),
    unsigned_ofNat hn]
  rfl

/-- **The walk goes past all such chunks.** -/
theorem chunkLoop_others (header : Option WavHeader) {cs : List BareChunk}
    (hother : ∀ c ∈ cs, c.IsOther) (rest : List UInt8) :
    readingLoop chunkTurn takes_chunkTurn header (cs.flatMap BareChunk.bytes ++ rest)
      = readingLoop chunkTurn takes_chunkTurn header rest := by
  induction cs with
  | nil => rfl
  | cons c cs ih =>
    have hturn := chunkTurn_other header (hother c List.mem_cons_self)
      (cs.flatMap BareChunk.bytes ++ rest)
    rw [List.flatMap_cons, List.append_assoc]
    exact (loop_next hturn).trans (ih fun c' hc' => hother c' (List.mem_cons_of_mem c hc'))

theorem chunkLoop_passed (header : Option WavHeader) {cs : List BareChunk}
    (hpassed : ∀ c ∈ cs, c.Passed) (rest : List UInt8) :
    ∃ header', readingLoop chunkTurn takes_chunkTurn header (cs.flatMap BareChunk.bytes ++ rest)
      = readingLoop chunkTurn takes_chunkTurn header' rest := by
  induction cs generalizing header with
  | nil => exact ⟨header, rfl⟩
  | cons c cs ih =>
    have hcs := fun c' hc' => hpassed c' (List.mem_cons_of_mem c hc')
    rw [List.flatMap_cons, List.append_assoc]
    rcases hpassed c List.mem_cons_self with hother | ⟨format, hholds⟩
    · obtain ⟨header', hrest⟩ := ih header hcs
      exact ⟨header', (loop_next (chunkTurn_other header hother _)).trans hrest⟩
    · obtain ⟨header', hrest⟩ := ih (some format.header) hcs
      exact ⟨header', (loop_next (chunkTurn_format header hholds _)).trans hrest⟩

theorem chunkTurn_ok {header : Option WavHeader} {v : Option WavHeader ⊕ (Option WavHeader × Int64)}
    {xs rest : List UInt8} (h : chunkTurn header xs = .ok v rest) :
    ∃ id size t, id.length = 4 ∧ size < 2 ^ 32 ∧ xs = id ++ leBytes 4 size ++ t
      ∧ readChunk header id (Int32.ofNat size) t = .ok v rest := by
  obtain ⟨chunkHeader, t, hread, h⟩ := bind_eq_ok h
  obtain ⟨chunkSize, t', hsize, h⟩ := bind_eq_ok h
  obtain ⟨rfl, -, rfl⟩ := readLE_ok hsize
  obtain ⟨happ, hlength⟩ := readFully_ok hread
  simp only [elems_list] at happ
  obtain ⟨hfour, htake⟩ : (chunkHeader.drop 4).length = 4 ∧ (chunkHeader.take 4).length = 4 := by
    rw [List.length_drop, List.length_take, hlength]
    decide
  have hlt := leValue_lt (chunkHeader.drop 4)
  have hback := leBytes_leValue (chunkHeader.drop 4)
  rw [hfour] at hlt hback
  rw [List.take_of_length_le (Nat.le_of_eq hfour)] at h
  refine ⟨_, _, t', htake, hlt, ?_, h⟩
  rw [hback, List.take_append_drop, happ]

/-- The turn that breaks has read the header of a data chunk. -/
theorem chunkTurn_break {header header' : Option WavHeader} {d : Int64} {xs rest : List UInt8}
    (h : chunkTurn header xs = .ok (.inr (header', d)) rest) :
    ∃ size, size < 2 ^ 32 ∧ d = Int64.ofNat size ∧ header' = header
      ∧ xs = ascii "data" ++ leBytes 4 size ++ rest := by
  obtain ⟨id, size, t, -, hlt, rfl, hchunk⟩ := chunkTurn_ok h
  clear h
  unfold readChunk at hchunk
  split at hchunk
  · obtain ⟨header, t', -, hpure⟩ := bind_eq_ok hchunk
    cases hpure
  split at hchunk
  · next hid =>
    obtain ⟨-, hpure⟩ := check_eq_ok hchunk
    cases hpure
    exact ⟨size, hlt, unsigned_ofNat hlt, rfl, by rw [hid]⟩
  · obtain ⟨_, t', -, hpure⟩ := bind_eq_ok hchunk
    cases hpure

theorem leBytes_field (xs : List UInt8) (off w : Nat) (h : off + w ≤ xs.length) :
    leBytes w (leValue ((xs.drop off).take w)) ++ xs.drop (off + w) = xs.drop off
      ∧ leValue ((xs.drop off).take w) < 256 ^ w := by
  have hlength : ((xs.drop off).take w).length = w := by
    rw [List.length_take, List.length_drop]
    omega
  have hback := leBytes_leValue ((xs.drop off).take w)
  have hlt := leValue_lt ((xs.drop off).take w)
  rw [hlength] at hback hlt
  rw [hback, ← List.drop_drop, List.take_append_drop]
  exact ⟨rfl, hlt⟩

/-- An array with the number 1 and sixteen bytes is the body of a `fmt ` chunk. -/
theorem exists_format {fmt : List UInt8} (hlength : 16 ≤ fmt.length) (hlt : fmt.length < 2 ^ 31)
    (hpcm : leValue (fmt.take 2) = 1) :
    ∃ format : Format, format.body = fmt
      ∧ format.header = ⟨Int32.ofNat (leValue ((fmt.drop 2).take 2)),
          Int32.ofNat (leValue ((fmt.drop 4).take 4)),
            Int32.ofNat (leValue ((fmt.drop 14).take 2))⟩ := by
  obtain ⟨hone, -⟩ := leBytes_field fmt 0 2 (by omega)
  obtain ⟨hchannels, hchannels_lt⟩ := leBytes_field fmt 2 2 (by omega)
  obtain ⟨hrate, hrate_lt⟩ := leBytes_field fmt 4 4 (by omega)
  obtain ⟨hbyteRate, hbyteRate_lt⟩ := leBytes_field fmt 8 4 (by omega)
  obtain ⟨halign, halign_lt⟩ := leBytes_field fmt 12 2 (by omega)
  obtain ⟨hbits, hbits_lt⟩ := leBytes_field fmt 14 2 (by omega)
  rw [List.drop_zero, hpcm] at hone
  refine ⟨⟨.ofNat (leValue ((fmt.drop 2).take 2)), .ofNat (leValue ((fmt.drop 4).take 4)),
    .ofNat (leValue ((fmt.drop 8).take 4)), .ofNat (leValue ((fmt.drop 12).take 2)),
    .ofNat (leValue ((fmt.drop 14).take 2)), fmt.drop 16, by rw [List.length_drop]; omega⟩, ?_, ?_⟩
  · simp only [Format.body, UInt16.toNat_ofNat_of_lt' hchannels_lt,
      UInt32.toNat_ofNat_of_lt' hrate_lt,
      UInt32.toNat_ofNat_of_lt' hbyteRate_lt, UInt16.toNat_ofNat_of_lt' halign_lt,
      UInt16.toNat_ofNat_of_lt' hbits_lt, List.append_assoc]
    rw [hbits, halign, hbyteRate, hrate, hchannels, hone]
  · simp only [Format.header, UInt16.toNat_ofNat_of_lt' hchannels_lt,
      UInt32.toNat_ofNat_of_lt' hrate_lt, UInt16.toNat_ofNat_of_lt' hbits_lt]

theorem ofNat_eq_one {n : Nat} (h : n < 2 ^ 16) : Int32.ofNat n = 1 ↔ n = 1 := by
  rw [← Int32.toInt_inj, Int32.toInt_ofNat_of_lt (by omega)]
  exact Int.ofNat_inj

/-- A `fmt ` chunk that is read has a format. -/
theorem readFmt_ok {n : Nat} (hn : n < 2 ^ 32) {header : WavHeader} {xs rest : List UInt8}
    (h : readFmt (Int32.ofNat n) xs = .ok header rest) :
    ∃ format : Format, n < 2 ^ 31 ∧ format.body.length = n ∧ xs = format.body ++ rest
      ∧ header = format.header := by
  obtain ⟨fmt, t, hread, h⟩ := bind_eq_ok h
  obtain ⟨audioFormat, t₁, hformat, h⟩ := bind_eq_ok h
  obtain ⟨hpcm, h⟩ := check_eq_ok h
  obtain ⟨channels, t₂, hchannels, h⟩ := bind_eq_ok h
  obtain ⟨rate, t₃, hrate, h⟩ := bind_eq_ok h
  obtain ⟨bits, t₄, hbits, h⟩ := bind_eq_ok h
  obtain ⟨rfl, htwo, rfl⟩ := readLE_ok hformat
  obtain ⟨rfl, -, rfl⟩ := readLE_ok hchannels
  obtain ⟨rfl, -, rfl⟩ := readLE_ok hrate
  obtain ⟨rfl, hlength, rfl⟩ := readLE_ok hbits
  cases h
  unfold readFully at hread
  split at hread
  · cases hread
  next hneg =>
    have hlt : n < 2 ^ 31 := Nat.lt_of_not_le fun hge => hneg (ofNat_neg hge hn)
    rw [Int32.toNatClampNeg_ofNat_of_lt hlt] at hread
    obtain ⟨happ, hfmt⟩ := readFully_ok hread
    obtain ⟨format, hbody, hheader⟩ := exists_format hlength (by omega)
      ((ofNat_eq_one (leValue_take_lt 2 fmt)).mp (not_not.mp hpcm))
    rw [← hbody] at happ hfmt
    exact ⟨format, hlt, hfmt, happ, hheader.symm⟩

/-- A turn that goes on has passed a chunk. -/
theorem chunkTurn_next {header header' : Option WavHeader} {xs rest : List UInt8}
    (h : chunkTurn header xs = .ok (.inl header') rest) :
    ∃ c : BareChunk, xs = c.bytes ++ rest
      ∧ (c.IsOther ∧ header' = header
        ∨ ∃ format, c.Holds format ∧ header' = some format.header) := by
  obtain ⟨id, size, t, hid, hlt, rfl, hchunk⟩ := chunkTurn_ok h
  clear h
  unfold readChunk at hchunk
  split at hchunk
  · next hfmt =>
    obtain ⟨header, t', hread, hpure⟩ := bind_eq_ok hchunk
    cases hpure
    obtain ⟨format, hsmall, hlength, rfl, rfl⟩ := readFmt_ok hlt hread
    refine ⟨⟨id, size, format.body, hid, hlt, by rw [if_pos hsmall, hlength]⟩, ?_, ?_⟩
    · simp [BareChunk.bytes]
    · exact .inr ⟨format, ⟨hfmt, rfl⟩, rfl⟩
  next hfmt =>
  split at hchunk
  · obtain ⟨-, hpure⟩ := check_eq_ok hchunk
    cases hpure
  · next hdata =>
    obtain ⟨_, t', hskip, hpure⟩ := bind_eq_ok hchunk
    cases hpure
    rw [skipFully, toNatClampNeg_size hlt] at hskip
    obtain ⟨body, hbody, rfl⟩ := skipFully_ok hskip
    refine ⟨⟨id, size, body, hid, hlt, hbody⟩, ?_, .inl ⟨⟨hfmt, hdata⟩, rfl⟩⟩
    simp [BareChunk.bytes]

/-- What a walk over these chunks makes of a header: none of them is a `fmt `, or the last one
counts. -/
def Shows (header : Option WavHeader) (cs : List BareChunk) (header' : Option WavHeader) : Prop :=
  header' = header ∧ (∀ c ∈ cs, c.IsOther)
    ∨ ∃ front fmt between format, cs = front ++ fmt :: between ∧ (∀ c ∈ front, BareChunk.Passed c)
      ∧ BareChunk.Holds fmt format ∧ (∀ c ∈ between, c.IsOther) ∧ header' = some format.header

theorem Shows.cons {header header' header'' : Option WavHeader} {c : BareChunk}
    {cs : List BareChunk}
    (hc : c.IsOther ∧ header' = header ∨ ∃ format, c.Holds format ∧ header' = some format.header)
    (h : Shows header' cs header'') : Shows header (c :: cs) header'' := by
  have hpassed : c.Passed := by
    rcases hc with ⟨hother, -⟩ | ⟨format, hholds, -⟩
    · exact .inl hother
    · exact .inr ⟨format, hholds⟩
  rcases h with ⟨rfl, hothers⟩ | ⟨front, fmt, between, format, rfl, hfront, hfmt, hbetween, rfl⟩
  · rcases hc with ⟨hother, rfl⟩ | ⟨format, hholds, rfl⟩
    · exact .inl ⟨rfl, List.forall_mem_cons.mpr ⟨hother, hothers⟩⟩
    · exact .inr ⟨[], c, cs, format, rfl, by simp, hholds, hothers, rfl⟩
  · exact .inr ⟨c :: front, fmt, between, format, rfl, List.forall_mem_cons.mpr ⟨hpassed, hfront⟩,
      hfmt, hbetween, rfl⟩

/-- **Where the walk ends**: behind bare chunks and the header of a data chunk. -/
theorem chunkLoop_ok {header header' : Option WavHeader} {d : Int64} {xs rest : List UInt8}
    (h : readingLoop chunkTurn takes_chunkTurn header xs = .ok (header', d) rest) :
    ∃ cs size, size < 2 ^ 32 ∧ d = Int64.ofNat size ∧ Shows header cs header'
      ∧ xs = cs.flatMap BareChunk.bytes ++ (ascii "data" ++ leBytes 4 size ++ rest) := by
  unfold readingLoop at h
  -- on the bytes that are left: every turn takes some of them
  induction hn : xs.length using Nat.strongRecOn generalizing header xs with
  | ind n ih =>
    cases hturn : chunkTurn header xs with
    | error e t =>
      rw [loop_error hturn] at h
      cases h
    | ok v t =>
      cases v with
      | inl header'' =>
        have hlt := takes_chunkTurn header xs _ t hturn trivial
        obtain ⟨c, rfl, hc⟩ := chunkTurn_next hturn
        rw [loop_next hturn] at h
        obtain ⟨cs, size, hsize, hd, hshows, hxs⟩ := ih t.length (hn ▸ hlt) h rfl
        exact ⟨c :: cs, size, hsize, hd, hshows.cons hc,
          by rw [List.flatMap_cons, List.append_assoc, hxs]⟩
      | inr v =>
        rw [loop_break hturn] at h
        cases h
        obtain ⟨size, hsize, hd, rfl, hxs⟩ := chunkTurn_break hturn
        exact ⟨[], size, hsize, hd, .inl ⟨rfl, by simp⟩, hxs⟩

/-- An open reader stands in front of the data. -/
theorem parseHeader_ok {r : WavReader} {xs rest : List UInt8} (h : parseHeader xs = .ok r rest) :
    ∃ before cs size, before.length = 12 ∧ size < 2 ^ 32 ∧ r.dataRemaining = Int64.ofNat size
      ∧ Shows none cs (some r.header)
      ∧ xs = before
        ++ (cs.flatMap BareChunk.bytes ++ (ascii "data" ++ leBytes 4 size ++ rest)) := by
  obtain ⟨buf, t, hread, h⟩ := bind_eq_ok h
  obtain ⟨happ, hlength⟩ := readFully_ok hread
  obtain ⟨-, h⟩ := check_eq_ok h
  obtain ⟨-, h⟩ := check_eq_ok h
  obtain ⟨⟨header, d⟩, t', hloop, h⟩ := bind_eq_ok h
  obtain ⟨cs, size, hsize, hd, hshows, rfl⟩ := chunkLoop_ok hloop
  cases header with
  | none => cases h
  | some header =>
    cases h
    exact ⟨buf, cs, size, hlength, hsize, hd, hshows, happ⟩

/-- **Whatever the sizes of the requests, they get the data chunk and nothing else.** -/
theorem nextSamples_requests {σ : Type} [InputStream σ UInt8] {input : σ} {r : WavReader}
    {s : Buffered σ UInt8} (hopen : wavReader input = .ok r s)
    (hcomplete : r.dataRemaining.toInt ≤ (elems s).length) (sizes : List Int32)
    (hsizes : ∀ k ∈ sizes, 0 < k) :
    ∃ before chunk rest,
      elems input = before ++ (ascii "data" ++ leBytes 4 chunk.length ++ (chunk ++ rest))
      ∧ chunk.length < 2 ^ 32 ∧ r.dataRemaining = Int64.ofNat chunk.length
      ∧ elems s = chunk ++ rest
      ∧ ∃ arrays r' s', requests sizes r s = .ok (arrays, r') s'
        ∧ arrays.flatten = chunk.take (min (total sizes) chunk.length)
        ∧ elems s' = chunk.drop (min (total sizes) chunk.length) ++ rest
        ∧ arrays.length = sizes.length
        ∧ ∀ i k array, sizes[i]? = some k → arrays[i]? = some array →
            (total (sizes.take i) + k.toNatClampNeg ≤ chunk.length → array.length = k.toNatClampNeg)
            ∧ (chunk.length ≤ total (sizes.take i) → array = []) := by
  have hparse := actsAs_parseHeader (.ofInput input : Buffered σ UInt8)
  rw [show parseHeader (.ofInput input) = .ok r s from hopen, overElems_ok,
    Buffered.elems_ofInput] at hparse
  obtain ⟨head, cs, size, -, hsize, hr, -, hinput⟩ := parseHeader_ok hparse.symm
  have hle : size ≤ (elems s).length := by
    rw [hr, Int64.toInt_ofNat_of_lt (by omega)] at hcomplete
    omega
  have hlength : ((elems s).take size).length = size := List.length_take_of_le hle
  have hsplit := List.take_append_drop size (elems s)
  generalize (elems s).take size = chunk at hlength hsplit
  generalize (elems s).drop size = rest at hsplit
  subst hlength
  refine ⟨head ++ cs.flatMap BareChunk.bytes, chunk, rest,
    by rw [hsplit, hinput, ← List.append_assoc head], hsize, hr, hsplit.symm, ?_⟩
  obtain ⟨r', hlist⟩ := requests_list hsizes chunk hr hsize rest
  have hrun := actsAs_requests sizes r s
  rw [← hsplit, hlist] at hrun
  obtain ⟨s', hok, hrest⟩ := overElems_eq_ok hrun
  refine ⟨_, r', s', hok, ?_, ?_, served_length sizes chunk, fun i k array => served_array⟩
  · rw [served_flatten, List.take_eq_take_iff]
    omega
  · rw [hrest]
    rcases Nat.le_total (total sizes) chunk.length with h | h
    · rw [Nat.min_eq_left h]
    · rw [Nat.min_eq_right h, List.drop_of_length_le h, List.drop_of_length_le (Nat.le_refl _)]

/-! ## 4. The files -/

structure RiffChunk where
  id : List UInt8
  body : List UInt8
  /-- Written behind a body of odd length. -/
  pad : UInt8
  id_length : id.length = 4
  length_lt : body.length < 2 ^ 32

namespace RiffChunk

def padding (c : RiffChunk) : List UInt8 := if c.body.length % 2 = 1 then [c.pad] else []

def bytes (c : RiffChunk) : List UInt8 :=
  c.id ++ leBytes 4 c.body.length ++ (c.body ++ c.padding)

/-- Neither of the two chunks that every file has. -/
def IsOther (c : RiffChunk) : Prop := c.id ≠ ascii "fmt " ∧ c.id ≠ ascii "data"

/-- The walk sees it as it is. -/
def Plain (c : RiffChunk) : Prop := c.body.length % 2 = 0 ∧ c.body.length < 2 ^ 31

instance (c : RiffChunk) : Decidable c.IsOther := inferInstanceAs (Decidable (_ ∧ _))

instance (c : RiffChunk) : Decidable c.Plain := inferInstanceAs (Decidable (_ ∧ _))

def bare (c : RiffChunk) (h : c.Plain) : BareChunk :=
  ⟨c.id, c.body.length, c.body, c.id_length, c.length_lt, (if_pos h.2).symm⟩

theorem bytes_bare {c : RiffChunk} (h : c.Plain) : (c.bare h).bytes = c.bytes := by
  have hpadding : c.padding = [] := by
    rw [padding, if_neg (by have := h.1; omega)]
  simp [bytes, hpadding, BareChunk.bytes, bare]

/-- Chunks in front of the data that are plain. -/
theorem exists_bare {cs : List RiffChunk} (hother : ∀ c ∈ cs, c.IsOther)
    (hplain : ∀ c ∈ cs, c.Plain) :
    ∃ bs : List BareChunk, (∀ b ∈ bs, b.IsOther)
      ∧ bs.flatMap BareChunk.bytes = cs.flatMap RiffChunk.bytes := by
  induction cs with
  | nil => exact ⟨[], by simp, rfl⟩
  | cons c cs ih =>
    obtain ⟨bs, hbs, hbytes⟩ := ih (fun c' hc' => hother c' (List.mem_cons_of_mem c hc'))
      fun c' hc' => hplain c' (List.mem_cons_of_mem c hc')
    refine ⟨c.bare (hplain c List.mem_cons_self) :: bs, ?_, ?_⟩
    · exact List.forall_mem_cons.mpr ⟨hother c List.mem_cons_self, hbs⟩
    · rw [List.flatMap_cons, List.flatMap_cons, bytes_bare, hbytes]

end RiffChunk

/-- A well-formed file. -/
structure WavFile where
  before : List RiffChunk
  format : Format
  formatPad : UInt8
  between : List RiffChunk
  data : List UInt8
  dataPad : UInt8
  after : List RiffChunk
  before_other : ∀ c ∈ before, c.IsOther
  between_other : ∀ c ∈ between, c.IsOther
  after_other : ∀ c ∈ after, c.IsOther
  data_length_lt : data.length < 2 ^ 32

namespace WavFile

variable (f : WavFile)

def formatChunk : RiffChunk :=
  ⟨ascii "fmt ", f.format.body, f.formatPad, rfl, by simpa using f.format.length_lt⟩

def dataChunk : RiffChunk := ⟨ascii "data", f.data, f.dataPad, rfl, f.data_length_lt⟩

/-- The chunks in front of the data. -/
def front : List RiffChunk := f.before ++ f.formatChunk :: f.between

def chunkBytes : List UInt8 := (f.front ++ f.dataChunk :: f.after).flatMap RiffChunk.bytes

def bytes : List UInt8 :=
  ascii "RIFF" ++ leBytes 4 (4 + f.chunkBytes.length) ++ ascii "WAVE" ++ f.chunkBytes

/-- **What a reader is for.** -/
def ReadFrom {σ : Type} [InputStream σ UInt8] (input : σ) : Prop :=
  ∃ r s, wavReader input = .ok r s
    ∧ r.header.channels.toInt = f.format.channels.toNat
    -- an `int` has 32 bits, and a sign that a sample rate has not
    ∧ r.header.sampleRate.toUInt32 = f.format.sampleRate
    ∧ r.header.bitsPerSample.toInt = f.format.bitsPerSample.toNat
    ∧ ∀ sizes : List Int32, (∀ k ∈ sizes, 0 < k) → f.data.length ≤ total sizes →
        ∃ arrays r' s', requests sizes r s = .ok (arrays, r') s' ∧ arrays.flatten = f.data

/-- The bytes can be taken as bare chunks: this is the last format in front of the first data chunk,
and that has the data of the file. -/
def SeenAs (format : Format) (rest : List UInt8) : Prop :=
  ∃ (front : List BareChunk) (fmt : BareChunk) (between : List BareChunk),
    f.chunkBytes = front.flatMap BareChunk.bytes ++ (fmt.bytes ++ (between.flatMap BareChunk.bytes
      ++ (ascii "data" ++ leBytes 4 f.data.length ++ (f.data ++ rest))))
    ∧ (∀ c ∈ front, c.Passed) ∧ fmt.Holds format ∧ ∀ c ∈ between, c.IsOther

/-- **Taken as bare chunks, the bytes show the same.** -/
def SeenRight : Prop :=
  ∃ format rest, f.SeenAs format rest ∧ format.channels = f.format.channels
    ∧ format.sampleRate = f.format.sampleRate ∧ format.bitsPerSample = f.format.bitsPerSample

end WavFile

theorem readFully_head (f : WavFile) :
    readFully 12 f.bytes
      = .ok (ascii "RIFF" ++ leBytes 4 (4 + f.chunkBytes.length) ++ ascii "WAVE") f.chunkBytes :=
  readFully_list (by decide) _ (by simp [ascii])

/-- Plain chunks are seen as they are. -/
theorem seenAs_of_plain {f : WavFile} (hplain : ∀ c ∈ f.front, c.Plain) :
    f.SeenAs f.format (f.dataChunk.padding ++ f.after.flatMap RiffChunk.bytes) := by
  have hformat : f.formatChunk.Plain := hplain _ (by simp [WavFile.front])
  obtain ⟨front, hfront, hfront_bytes⟩ := RiffChunk.exists_bare f.before_other
    fun c hc => hplain c (by simp [WavFile.front, hc])
  obtain ⟨between, hbetween, hbetween_bytes⟩ := RiffChunk.exists_bare f.between_other
    fun c hc => hplain c (by simp [WavFile.front, hc])
  refine ⟨front, f.formatChunk.bare hformat, between, ?_,
    fun c hc => .inl (hfront c hc), ⟨rfl, rfl⟩, hbetween⟩
  rw [hfront_bytes, hbetween_bytes, RiffChunk.bytes_bare]
  simp [WavFile.chunkBytes, WavFile.front, RiffChunk.bytes, WavFile.dataChunk]

theorem parseHeader_list {f : WavFile} {format : Format} {rest : List UInt8}
    (h : f.SeenAs format rest) :
    parseHeader f.bytes = .ok ⟨format.header, Int64.ofNat f.data.length⟩ (f.data ++ rest) := by
  obtain ⟨front, fmt, between, hchunks, hfront, hfmt, hbetween⟩ := h
  have hwalk : readingLoop chunkTurn takes_chunkTurn none f.chunkBytes
      = .ok (some format.header, Int64.ofNat f.data.length) (f.data ++ rest) := by
    obtain ⟨header, hpassed⟩ := chunkLoop_passed none hfront (fmt.bytes
      ++ (between.flatMap BareChunk.bytes
        ++ (ascii "data" ++ leBytes 4 f.data.length ++ (f.data ++ rest))))
    rw [hchunks, hpassed]
    refine (loop_next (chunkTurn_format header hfmt _)).trans ?_
    refine (chunkLoop_others _ hbetween _).trans ?_
    exact loop_break (chunkTurn_data _ f.data_length_lt _)
  rw [parseHeader, bind_of_ok (readFully_head f), if_neg (by simp [ascii]),
    if_neg (by simp [ascii])]
  exact (bind_of_ok hwalk).trans rfl

theorem Format.header_toInt (f : Format) :
    f.header.channels.toInt = f.channels.toNat ∧ f.header.sampleRate.toUInt32 = f.sampleRate
      ∧ f.header.bitsPerSample.toInt = f.bitsPerSample.toNat := by
  have hchannels := f.channels.toNat_lt
  have hbits := f.bitsPerSample.toNat_lt
  exact ⟨Int32.toInt_ofNat_of_lt (by omega), by simp [Format.header, Int32.ofNat],
    Int32.toInt_ofNat_of_lt (by omega)⟩

theorem readFrom_of_seen {f : WavFile} (h : f.SeenRight) {σ : Type}
    [InputStream σ UInt8] (input : σ) (hinput : elems input = f.bytes) : f.ReadFrom input := by
  obtain ⟨format, rest, hseen, hchannels, hrate, hbits⟩ := h
  obtain ⟨hchannels', hrate', hbits'⟩ := format.header_toInt
  have hparse := actsAs_parseHeader (.ofInput input : Buffered σ UInt8)
  rw [Buffered.elems_ofInput, hinput, parseHeader_list hseen] at hparse
  obtain ⟨s, hopen, hs⟩ := overElems_eq_ok hparse
  refine ⟨_, s, hopen, ?_, ?_, ?_, ?_⟩
  · rw [← hchannels, hchannels']
  · rw [← hrate, hrate']
  · rw [← hbits, hbits']
  · intro sizes hsizes htotal
    obtain ⟨r', hlist⟩ := requests_list hsizes f.data
      (r := ⟨format.header, Int64.ofNat f.data.length⟩) rfl f.data_length_lt rest
    have hrun := actsAs_requests sizes ⟨format.header, Int64.ofNat f.data.length⟩ s
    rw [hs, hlist] at hrun
    obtain ⟨s', hok, -⟩ := overElems_eq_ok hrun
    exact ⟨_, r', s', hok, by rw [served_flatten, List.take_of_length_le htotal]⟩

/-- A byte at a time. -/
theorem total_ones (n : Nat) : total (List.replicate n 1) = n := by
  simp [total, show Int32.toNatClampNeg 1 = 1 from rfl]

theorem seen_of_readFrom {f : WavFile} {σ : Type} [InputStream σ UInt8] {input : σ}
    (hinput : elems input = f.bytes) (h : f.ReadFrom input) : f.SeenRight := by
  obtain ⟨r, s, hopen, hchannels, hrate, hbits, hsamples⟩ := h
  have hparse := actsAs_parseHeader (.ofInput input : Buffered σ UInt8)
  rw [show parseHeader (.ofInput input) = .ok r s from hopen, overElems_ok,
    Buffered.elems_ofInput, hinput] at hparse
  obtain ⟨head, cs, size, hhead, hsize, hr, hshows, hbytes⟩ := parseHeader_ok hparse.symm
  -- the samples, byte by byte and further than the data and the counter go
  obtain ⟨arrays, r', s', hrun, hdata⟩ := hsamples (List.replicate (f.data.length + size) 1)
    (by simp [List.mem_replicate]) (by rw [total_ones]; omega)
  have hlist := actsAs_requests (List.replicate (f.data.length + size) 1) r s
  rw [hrun, overElems_ok] at hlist
  obtain ⟨hle, hflatten⟩ := requests_ok (by simp [List.mem_replicate]) hr hsize hlist.symm
  rw [total_ones, Nat.min_eq_right (by omega)] at hle hflatten
  obtain rfl : size = f.data.length := by
    rw [← hdata, hflatten, List.length_take_of_le hle]
  have hsplit := List.take_append_drop f.data.length (elems s)
  rw [← hflatten, hdata] at hsplit
  -- the bytes behind the first twelve
  have hchunks : f.chunkBytes
      = cs.flatMap BareChunk.bytes ++ (ascii "data" ++ leBytes 4 f.data.length ++ elems s) :=
    (List.append_inj hbytes (by simp [hhead, ascii])).2
  rcases hshows with
    ⟨hnone, -⟩ | ⟨front, fmt, between, format, rfl, hfront, hfmt, hbetween, hheader⟩
  · cases hnone
  obtain ⟨hchannels', hrate', hbits'⟩ := format.header_toInt
  rw [Option.some.inj hheader] at hchannels hrate hbits
  refine ⟨format, (elems s).drop f.data.length, ⟨front, fmt, between, ?_, hfront, hfmt, hbetween⟩,
    ?_, ?_, ?_⟩
  · rw [hchunks, hsplit]
    simp only [List.flatMap_append, List.flatMap_cons, List.append_assoc]
  · exact UInt16.toNat_inj.mp (Int.ofNat.inj (hchannels'.symm.trans hchannels))
  · exact hrate'.symm.trans hrate
  · exact UInt16.toNat_inj.mp (Int.ofNat.inj (hbits'.symm.trans hbits))

/-- **The chunk walk.**  The file is read as it should be exactly if its bytes, taken as bare
chunks, show the same format and the same data.  No padded chunk and none longer than an `int` can
say in front of the data is enough for that. -/
theorem riff_walk (f : WavFile) {σ : Type} [InputStream σ UInt8] (input : σ)
    (hinput : elems input = f.bytes) :
    (f.ReadFrom input ↔ f.SeenRight) ∧ ((∀ c ∈ f.front, c.Plain) → f.SeenRight) := by
  refine ⟨⟨seen_of_readFrom hinput, fun h => readFrom_of_seen h input hinput⟩, ?_⟩
  intro hplain
  exact ⟨f.format, _, seenAs_of_plain hplain, rfl, rfl, rfl⟩

def sampleFormat : Format := ⟨1, 8000, 16000, 2, 16, [], by decide⟩

/-- Two samples, behind a chunk of text. -/
def sampleFile : WavFile where
  before := [⟨ascii "LIST", [97, 98], 0, rfl, by decide⟩]
  format := sampleFormat
  formatPad := 0
  between := []
  data := [1, 0, 2, 0]
  dataPad := 0
  after := []
  before_other := by decide
  between_other := by decide
  after_other := by decide
  data_length_lt := by decide

theorem sampleFile_front_plain : ∀ c ∈ sampleFile.front, c.Plain := by decide

theorem riff_walk_sample : sampleFile.ReadFrom sampleFile.bytes := by
  obtain ⟨hiff, hplain⟩ := riff_walk sampleFile sampleFile.bytes rfl
  exact hiff.mpr (hplain sampleFile_front_plain)

theorem nextSamples_requests_sample : ∃ r s, wavReader sampleFile.bytes = .ok r s
    ∧ ∃ arrays r' s', requests [3, 5, 1] r s = .ok (arrays, r') s'
      ∧ arrays.flatten = [1, 0, 2, 0] ∧ elems s' = [] := by
  have hparse := actsAs_parseHeader (.ofInput sampleFile.bytes : Buffered _ UInt8)
  rw [Buffered.elems_ofInput, elems_list,
    parseHeader_list (seenAs_of_plain sampleFile_front_plain)] at hparse
  obtain ⟨s, hopen, hs⟩ := overElems_eq_ok hparse
  have hcomplete : (Int64.ofNat 4).toInt ≤ (elems s).length := by
    rw [hs]
    exact Int.le_of_eq (by decide)
  have hsizes : ∀ k ∈ ([3, 5, 1] : List Int32), 0 < k := by
    intro k hk
    simp only [List.mem_cons, List.not_mem_nil, or_false] at hk
    rcases hk with rfl | rfl | rfl <;> decide
  obtain ⟨-, chunk, rest, -, hlt, hr, hsplit, arrays, r', s', hok, hflatten, hleft, -⟩ :=
    nextSamples_requests hopen hcomplete [3, 5, 1] hsizes
  have hlength : chunk.length = 4 := by
    have h := congrArg Int64.toInt hr
    rw [Int64.toInt_ofNat_of_lt (by decide), Int64.toInt_ofNat_of_lt (by omega)] at h
    exact (Int.ofNat.inj h).symm
  obtain ⟨rfl, rfl⟩ := List.append_inj (hsplit.symm.trans hs) hlength
  exact ⟨_, s, hopen, arrays, r', s', hok, hflatten, hleft⟩

/-- The same with one letter less: the pad byte is taken for the first byte of a chunk. -/
def oddFile : WavFile where
  before := [⟨ascii "LIST", [97], 0, rfl, by decide⟩]
  format := sampleFormat
  formatPad := 0
  between := []
  data := [1, 0, 2, 0]
  dataPad := 0
  after := []
  before_other := by decide
  between_other := by decide
  after_other := by decide
  data_length_lt := by decide

/-- Whether the constructor returned. -/
def opens {σ : Type} [InputStream σ UInt8] (input : σ) : Bool :=
  match wavReader input with
  | .ok _ _ => true
  | .error _ _ => false

theorem riff_walk_odd : ¬ oddFile.ReadFrom oddFile.bytes := by
  rintro ⟨r, s, hopen, -⟩
  have hopens : opens oddFile.bytes = false := by decide +kernel
  rw [opens, hopen] at hopens
  cases hopens

end WebrtcBridge.Media.Wav
