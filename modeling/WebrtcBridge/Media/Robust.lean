/-
# What bytes can make `IvfReader` and `WavReader` throw

Both readers take lengths from the file as `int`s and use them as lengths of arrays.  A length from
`2^31` on is negative then, and `new byte[n]` throws a `NegativeArraySizeException`, which is no
`IOException`.  `WavReader` also takes the fields of a `fmt ` chunk out of an array that is as long
as the file says, so that a short one leads to an `ArrayIndexOutOfBoundsException`.

Which streams do that?  It is a question about the places that a WALK over the bytes comes to:

* from frame to frame in an IVF file (`NextFrame`), and a frame is SANE if its size is below `2^31`;
* from chunk to chunk in a WAV file (`NextChunk`), and a `fmt ` chunk is sane if its size is below
  `2^31` and, if all of it is there, it has the bytes that are looked at.

`ivf_wav_io_only_iff`: the readers throw nothing but `IOException`s if and only if all places that
the walk reaches are sane.  One lemma per reader says what a turn does at a place and where it goes
on (`nextFrame_cases`, `chunkTurn_cases`); the rest is induction.  A call at the end of the stream
leaves nothing, so that what an object does after an exception needs no extra treatment.
-/
import Mathlib.Logic.Relation
import WebrtcBridge.Lib.Outcomes
import WebrtcBridge.Media.Framing
import WebrtcBridge.Media.Splitting

namespace WebrtcBridge.Media

open Lib Lib.InputStream Relation Framing

/-! ## 1. Places of a walk -/

section Walk

variable {α : Type} {next : α → α → Prop} {S : α → Prop}

/-- All places that can be reached are of the kind `S`. -/
def AllReached (next : α → α → Prop) (S : α → Prop) (x : α) : Prop :=
  ∀ y, ReflTransGen next x y → S y

theorem allReached_iff (x : α) :
    AllReached next S x ↔ S x ∧ ∀ y, next x y → AllReached next S y := by
  constructor
  · intro h
    constructor
    · exact h x .refl
    · intro y hxy z hyz
      exact h z (.head hxy hyz)
  · rintro ⟨hx, hnext⟩ z hxz
    rcases ReflTransGen.cases_head_iff.mp hxz with rfl | ⟨y, hxy, hyz⟩
    · exact hx
    · exact hnext y hxy z hyz

/-- A place from which nothing is reached. -/
theorem allReached_of_last {x : α} (hx : S x) (hlast : ∀ y, ¬ next x y) : AllReached next S x :=
  (allReached_iff x).mpr ⟨hx, fun y hy => absurd hy (hlast y)⟩

/-- What is handed on from place to place and makes each of them sane. -/
theorem allReached_of_invariant (I : α → Prop)
    (h : ∀ x, I x → S x ∧ ∀ y, next x y → I y) {x : α} (hx : I x) : AllReached next S x := by
  intro y hxy
  induction hxy using ReflTransGen.head_induction_on with
  | refl => exact (h _ hx).1
  | head hstep _ ih => exact ih ((h _ hx).2 _ hstep)

end Walk

/-! ## 2. `IvfReader` -/

/-- An `IOException`, which an `EOFException` is. -/
def IvfError.IsIo : IvfError → Prop
  | .io _ => True
  | .eof _ => True
  | _ => False

namespace IvfStream

/-- The size that the frame in front says. -/
def frameSize (xs : List UInt8) : Nat := leValue (xs.take 4)

/-- The frame in front is complete, and `ys` is what follows it. -/
def NextFrame (xs ys : List UInt8) : Prop :=
  12 + frameSize xs ≤ xs.length ∧ ys = xs.drop (12 + frameSize xs)

/-- The header of a frame, if there is one, has a size below `2^31`. -/
def FrameSane (xs : List UInt8) : Prop := 12 ≤ xs.length → frameSize xs < 2 ^ 31

theorem readUnsignedBytes_short (n : Nat) (xs : List UInt8) (h : xs.length < n) :
    readUnsignedBytes n xs = .error (.eof "Unexpected end of stream") [] := by
  induction n generalizing xs with
  | zero => exact absurd h (Nat.not_lt_zero _)
  | succ n ih =>
    cases xs with
    | nil => rfl
    | cons b xs =>
      have hbyte : readUnsignedByte (b :: xs) = .ok b xs := rfl
      have hrest := ih xs (Nat.lt_of_succ_lt_succ h)
      rw [readUnsignedBytes, bind_of_ok hbyte, bind_of_error hrest]

theorem nextFrame_short {xs : List UInt8} (h : xs.length < 12) :
    nextFrame xs = .error (.eof "Unexpected end of stream") [] := by
  rcases Nat.lt_or_ge xs.length 4 with hfour | hfour
  · have hread : readU32Le xs = .error (.eof "Unexpected end of stream") [] := by
      rw [readU32Le, bind_of_error (readUnsignedBytes_short 4 xs hfour)]
    rw [nextFrame, bind_of_error hread]
  · have hsize := readU32Le_list (leValue_take_lt 4 xs) (xs.drop 4)
    rw [leBytes_take hfour] at hsize
    have hread : readU64Le (xs.drop 4) = .error (.eof "Unexpected end of stream") [] := by
      rw [readU64Le, bind_of_error (readUnsignedBytes_short 8 _ (by rw [List.length_drop]; omega))]
    rw [nextFrame, bind_of_ok hsize, bind_of_error hread]

theorem nextFrame_data {xs : List UInt8} (h : 12 ≤ xs.length) :
    ∃ timestamp, nextFrame xs = readData (Int64.ofNat (frameSize xs)) timestamp (xs.drop 12) := by
  have hsize := readU32Le_list (leValue_take_lt 4 xs) (xs.drop 4)
  rw [leBytes_take (by omega)] at hsize
  have htime := readU64Le_list (leValue_take_lt 8 (xs.drop 4)) ((xs.drop 4).drop 8)
  rw [leBytes_take (by rw [List.length_drop]; omega), List.drop_drop] at htime
  refine ⟨Int64.ofNat (leValue ((xs.drop 4).take 8)), ?_⟩
  rw [nextFrame, bind_of_ok hsize]
  exact bind_of_ok htime

/-- `new byte[frameSize]` of a size that is negative. -/
theorem nextFrame_negative {xs : List UInt8} (h : 12 ≤ xs.length) (hbig : 2 ^ 31 ≤ frameSize xs) :
    nextFrame xs = .error .negativeArraySize (xs.drop 12) := by
  obtain ⟨timestamp, hdata⟩ := nextFrame_data h
  have hneg : Int32.ofNat (frameSize xs) < 0 := ofNat_neg hbig (leValue_take_lt 4 xs)
  have hread : readBytes (Int32.ofNat (frameSize xs)) (xs.drop 12)
      = .error .negativeArraySize (xs.drop 12) := by
    rw [readBytes, if_pos hneg]
    rfl
  rw [hdata, readData, toInt32_ofNat, bind_of_error hread]

/-- **What a call does at a place.** -/
theorem nextFrame_cases (xs : List UInt8) :
    (∃ e, nextFrame xs = .error e [] ∧ e.IsIo ∧ FrameSane xs ∧ ∀ ys, ¬ NextFrame xs ys)
      ∨ (∃ rest, nextFrame xs = .error .negativeArraySize rest ∧ ¬ FrameSane xs)
      ∨ ∃ frame ys, nextFrame xs = .ok frame ys ∧ FrameSane xs
        ∧ ∀ zs, NextFrame xs zs ↔ zs = ys := by
  rcases Nat.lt_or_ge xs.length 12 with hshort | hlong
  · left
    refine ⟨_, nextFrame_short hshort, trivial, ?_, ?_⟩
    · intro hlong
      omega
    · intro ys hnext
      have := hnext.1
      omega
  rcases Nat.lt_or_ge (frameSize xs) (2 ^ 31) with hsmall | hbig
  · obtain ⟨timestamp, hdata⟩ := nextFrame_data hlong
    rw [hdata, readData, toInt32_ofNat]
    have hread : readBytes (Int32.ofNat (frameSize xs)) (xs.drop 12)
        = InputStream.readFully (.eof "Unexpected end of stream") (frameSize xs) (xs.drop 12) := by
      rw [readBytes, if_neg (ofNat_not_neg hsmall), Int32.toNatClampNeg_ofNat_of_lt hsmall]
    rcases Nat.lt_or_ge (xs.drop 12).length (frameSize xs) with hcut | hwhole
    · -- the data ends before the stream does
      left
      rw [readFully_short _ hcut] at hread
      refine ⟨_, bind_of_error hread, trivial, fun _ => hsmall, ?_⟩
      intro ys hnext
      have := hnext.1
      rw [List.length_drop] at hcut
      omega
    · right
      right
      rw [readFully_take _ hwhole] at hread
      have hle : ((xs.drop 12).take (frameSize xs)).length ≤ 2 ^ 31 - 1 := by
        rw [List.length_take_of_le hwhole]
        omega
      refine ⟨⟨(xs.drop 12).take (frameSize xs), timestamp, hle⟩, (xs.drop 12).drop (frameSize xs),
        ?_, fun _ => hsmall, ?_⟩
      · rw [bind_of_ok hread, dif_pos hle]
        rfl
      · intro zs
        rw [List.length_drop] at hwhole
        rw [NextFrame, List.drop_drop]
        exact and_iff_right (by omega)
  · right
    left
    refine ⟨_, nextFrame_negative hlong hbig, ?_⟩
    intro hsane
    exact absurd (hsane hlong) (Nat.not_lt.mpr hbig)

/-- The call of a session. -/
def frameCall (_ : Unit) (fileHeader : IvfFileHeader) :
    EStateM IvfError (List UInt8) (IvfFrame × IvfFileHeader) := do
  return (← nextFrame, fileHeader)

theorem frameSane_nil : AllReached NextFrame FrameSane [] := by
  refine allReached_of_last ?_ ?_
  · intro h
    cases h
  · intro ys hnext
    exact absurd hnext.1 (by simp)

/-- All places sane, all calls fine: by induction on the calls. -/
theorem answers_frames (calls : List Unit) (fileHeader : IvfFileHeader) (xs : List UInt8)
    (h : AllReached NextFrame FrameSane xs) :
    ∀ x ∈ answers frameCall calls fileHeader xs, AllowedAnswer IvfError.IsIo Anything x := by
  induction calls generalizing xs with
  | nil =>
    intro x hx
    cases hx
  | cons call calls ih =>
    intro x hx
    rw [answers] at hx
    rcases nextFrame_cases xs with
      ⟨e, hcall, hio, -⟩ | ⟨rest, -, hinsane⟩ | ⟨frame, ys, hcall, hsane, hnext⟩
    · have hframe : frameCall call fileHeader xs = .error e [] := bind_of_error hcall
      rw [hframe] at hx
      rcases List.mem_cons.mp hx with rfl | hx
      · exact hio
      · -- nothing is left, and it stays so
        exact ih [] frameSane_nil x hx
    · exact absurd ((allReached_iff xs).mp h).1 hinsane
    · have hframe : frameCall call fileHeader xs = .ok (frame, fileHeader) ys := bind_of_ok hcall
      rw [hframe] at hx
      rcases List.mem_cons.mp hx with rfl | hx
      · trivial
      · exact ih ys (((allReached_iff xs).mp h).2 ys ((hnext ys).mpr rfl)) x hx

/-- What all calls tell of the place in front of them, and of the next one. -/
theorem frameSane_of_answers (fileHeader : IvfFileHeader) (xs : List UInt8)
    (h : ∀ calls, ∀ x ∈ answers frameCall calls fileHeader xs,
      AllowedAnswer IvfError.IsIo Anything x) :
    FrameSane xs ∧ ∀ ys, NextFrame xs ys → ∀ calls, ∀ x ∈ answers frameCall calls fileHeader ys,
      AllowedAnswer IvfError.IsIo Anything x := by
  rcases nextFrame_cases xs with
    ⟨e, -, -, hsane, hlast⟩ | ⟨rest, hcall, -⟩ | ⟨frame, ys, hcall, hsane, hnext⟩
  · exact ⟨hsane, fun ys hys => absurd hys (hlast ys)⟩
  · have hframe : frameCall () fileHeader xs = .error .negativeArraySize rest := bind_of_error hcall
    have hone := h [()]
    rw [answers, hframe] at hone
    exact absurd (hone _ List.mem_cons_self) id
  · have hframe : frameCall () fileHeader xs = .ok (frame, fileHeader) ys := bind_of_ok hcall
    refine ⟨hsane, ?_⟩
    intro zs hzs calls x hx
    obtain rfl := (hnext zs).mp hzs
    have hmore := h (() :: calls)
    rw [answers, hframe] at hmore
    exact hmore x (List.mem_cons_of_mem _ hx)

/-- **All calls on a stream of frames**: so many that every place is reached. -/
theorem frames_io_only_iff (fileHeader : IvfFileHeader) (xs : List UInt8) :
    (∀ calls, ∀ x ∈ answers frameCall calls fileHeader xs, AllowedAnswer IvfError.IsIo Anything x)
      ↔ AllReached NextFrame FrameSane xs := by
  constructor
  · intro h
    exact allReached_of_invariant _ (frameSane_of_answers fileHeader) h
  · intro h calls
    exact answers_frames calls fileHeader xs h

theorem meets_readUnsignedBytes {σ : Type} [InputStream σ UInt8] (n : Nat) :
    Meets IvfError.IsIo Anything (readUnsignedBytes n : EStateM IvfError σ _) := by
  induction n with
  | zero => exact meets_pure trivial
  | succ n ih =>
    refine (meets_readOne trivial).bind fun _ _ => ih.bind fun _ _ => ?_
    exact meets_pure trivial

/-- **The constructor throws `IOException`s only.** -/
theorem meets_ivfReader {σ : Type} [InputStream σ UInt8] :
    Meets IvfError.IsIo Anything (ivfReader : EStateM IvfError σ _) := by
  have hbytes : Meets IvfError.IsIo Anything (readBytes 4 : EStateM IvfError σ _) := by
    refine Meets.ite _ (fun h => absurd h (by decide)) fun _ => ?_
    exact (meets_readFully trivial _).mono (fun _ he => he) fun _ _ => trivial
  have h16 : Meets IvfError.IsIo Anything (readU16Le : EStateM IvfError σ _) :=
    (meets_readUnsignedBytes 2).bind fun _ _ => meets_pure trivial
  have h32 : Meets IvfError.IsIo Anything (readU32Le : EStateM IvfError σ _) :=
    (meets_readUnsignedBytes 4).bind fun _ _ => meets_pure trivial
  refine hbytes.bind fun _ _ => Meets.check _ trivial fun _ => ?_
  refine h16.bind fun _ _ => h16.bind fun _ _ => Meets.check _ trivial fun _ => ?_
  refine hbytes.bind fun _ _ => h16.bind fun _ _ => h16.bind fun _ _ => ?_
  refine h32.bind fun _ _ => h32.bind fun _ _ => h32.bind fun _ _ => h32.bind fun _ _ => ?_
  refine Meets.ite _ (fun _ => ?_) fun _ => meets_pure trivial
  exact (meets_skipFully trivial _).bind fun _ _ => meets_pure trivial

end IvfStream

/-- **A sane IVF stream**: behind a header that the constructor accepts, the walk from frame to
frame meets no size from `2^31` on. -/
def IvfSane (xs : List UInt8) : Prop :=
  ∀ fileHeader rest, IvfStream.ivfReader xs = .ok fileHeader rest →
    AllReached IvfStream.NextFrame IvfStream.FrameSane rest

theorem ivf_orderly_iff {σ : Type} [InputStream σ UInt8] (input : σ) :
    (∀ calls, Orderly IvfError.IsIo Anything calls.length (ivfSession calls input))
      ↔ IvfSane (elems input) := by
  have hsession : ∀ calls, ivfSession calls input
      = session IvfStream.ivfReader IvfStream.frameCall calls (elems input) := by
    intro calls
    exact ivfSession_eq calls input
  simp only [hsession, session]
  cases hopen : IvfStream.ivfReader (elems input) with
  | error e rest =>
    have hio : e.IsIo := IvfStream.meets_ivfReader.of_error hopen
    constructor
    · intro _ fileHeader rest' h
      cases hopen.symm.trans h
    · intro _ calls
      exact hio
  | ok fileHeader rest =>
    have hframes := IvfStream.frames_io_only_iff fileHeader rest
    constructor
    · intro h fileHeader' rest' hopen'
      cases hopen.symm.trans hopen'
      exact hframes.mp fun calls => (h calls).2
    · intro h calls
      constructor
      · exact answers_length _ calls fileHeader rest
      · exact hframes.mpr (h fileHeader rest hopen) calls

/-! ## 3. `WavReader` -/

namespace Wav

/-- An `IOException`, which an `EOFException` is. -/
def WavError.IsIo : WavError → Prop
  | .io _ => True
  | .eof _ => True
  | _ => False

def chunkId (xs : List UInt8) : List UInt8 := xs.take 4

def chunkSize (xs : List UInt8) : Nat := leValue ((xs.drop 4).take 4)

/-- The first field of a `fmt ` chunk. -/
def audioFormat (xs : List UInt8) : Nat := leValue ((xs.drop 8).take 2)

/-- What `skipFully` takes a size for. -/
def bodyLength (xs : List UInt8) : Nat := if chunkSize xs < 2 ^ 31 then chunkSize xs else 0

/-- A `fmt ` chunk has a size below `2^31`; if it is complete, the format can be read, and for PCM
the other fields can. -/
def FmtSane (xs : List UInt8) : Prop :=
  8 ≤ xs.length → chunkId xs = ascii "fmt " →
    chunkSize xs < 2 ^ 31
      ∧ (8 + chunkSize xs ≤ xs.length → 2 ≤ chunkSize xs ∧ (audioFormat xs = 1 → 16 ≤ chunkSize xs))

/-- The walk gets past the chunk in front, and `ys` is what follows. -/
def NextChunk (xs ys : List UInt8) : Prop :=
  8 + bodyLength xs ≤ xs.length ∧ chunkId xs ≠ ascii "data"
    ∧ (chunkId xs = ascii "fmt " →
        chunkSize xs < 2 ^ 31 ∧ 16 ≤ chunkSize xs ∧ audioFormat xs = 1)
    ∧ ys = xs.drop (8 + bodyLength xs)

theorem chunkSize_lt (xs : List UInt8) : chunkSize xs < 2 ^ 32 := leValue_take_lt 4 (xs.drop 4)

theorem readLE_list {σ : Type} {count off : Nat} {b : List UInt8}
    (h : off + count ≤ b.length) (s : σ) :
    readLE count b off s = .ok (Int32.ofNat (leValue ((b.drop off).take count))) s := by
  rw [readLE, if_pos h, orBytes_leValue]
  rfl

theorem readLE_short {σ : Type} {count off : Nat} {b : List UInt8} (h : b.length < off + count)
    (s : σ) : readLE count b off s = .error .indexOutOfBounds s := by
  rw [readLE, if_neg (Nat.not_le.mpr h)]
  rfl

/-- `readFmt` behind the first line. -/
def readFields (fmt : List UInt8) : EStateM WavError (List UInt8) WavHeader := do
  let audioFormat ← readU16LE fmt 0
  if audioFormat ≠ 1 then
    throw (.io ("Unsupported audio format: " ++ toString audioFormat ++ " (only PCM supported)"))
  let channels ← readU16LE fmt 2
  let sampleRate ← readU32LE fmt 4
  let bitsPerSample ← readU16LE fmt 14
  return ⟨channels, sampleRate, bitsPerSample⟩

theorem readFmt_eq (n : Int32) :
    (readFmt n : EStateM WavError (List UInt8) _) = readFully n >>= readFields := rfl

/-- The last field is at bytes 14 and 15. -/
theorem readFields_pcm {fmt : List UInt8} (hpcm : leValue (fmt.take 2) = 1) (htwo : 2 ≤ fmt.length)
    (s : List UInt8) :
    (fmt.length < 16 ∧ readFields fmt s = .error .indexOutOfBounds s)
      ∨ 16 ≤ fmt.length ∧ ∃ header, readFields fmt s = .ok header s := by
  have hformat : readU16LE fmt 0 s = .ok 1 s := by
    refine (readLE_list (by omega) s).trans ?_
    rw [List.drop_zero, hpcm]
    rfl
  rw [readFields, bind_of_ok hformat, if_neg (by simp)]
  beta_reduce
  rcases Nat.lt_or_ge fmt.length 4 with hfour | hfour
  · left
    exact ⟨by omega, bind_of_error (readLE_short hfour s)⟩
  rw [readU16LE, bind_of_ok (readLE_list hfour s)]
  rcases Nat.lt_or_ge fmt.length 8 with height | height
  · left
    exact ⟨by omega, bind_of_error (readLE_short height s)⟩
  rw [readU32LE, bind_of_ok (readLE_list height s)]
  rcases Nat.lt_or_ge fmt.length 16 with hlast | hlast
  · left
    exact ⟨hlast, bind_of_error (readLE_short hlast s)⟩
  · right
    exact ⟨hlast, _, bind_of_ok (readLE_list hlast s)⟩

/-- **What the reader does with the array of a `fmt ` chunk.** -/
theorem readFields_cases (fmt s : List UInt8) :
    (∃ e, readFields fmt s = .error e s ∧ e.IsIo ∧ 2 ≤ fmt.length ∧ leValue (fmt.take 2) ≠ 1)
      ∨ (∃ e, readFields fmt s = .error e s ∧ ¬ e.IsIo
        ∧ (2 ≤ fmt.length → leValue (fmt.take 2) = 1 ∧ fmt.length < 16))
      ∨ ∃ header, readFields fmt s = .ok header s ∧ leValue (fmt.take 2) = 1 ∧ 16 ≤ fmt.length := by
  rcases Nat.lt_or_ge fmt.length 2 with hshort | htwo
  · right
    left
    refine ⟨_, bind_of_error (readLE_short hshort s), id, ?_⟩
    intro htwo
    omega
  by_cases hpcm : leValue (fmt.take 2) = 1
  · right
    rcases readFields_pcm hpcm htwo s with ⟨hlt, hfields⟩ | ⟨hle, header, hfields⟩
    · exact .inl ⟨_, hfields, id, fun _ => ⟨hpcm, hlt⟩⟩
    · exact .inr ⟨header, hfields, hpcm, hle⟩
  · left
    have hformat : readU16LE fmt 0 s = .ok (Int32.ofNat (leValue (fmt.take 2))) s :=
      readLE_list (by omega) s
    have hne : Int32.ofNat (leValue (fmt.take 2)) ≠ 1 := by
      intro heq
      exact hpcm ((ofNat_eq_one (leValue_take_lt 2 fmt)).mp heq)
    have hfields : ∃ message, readFields fmt s = .error (.io message) s := by
      rw [readFields, bind_of_ok hformat, if_pos hne]
      exact ⟨_, rfl⟩
    obtain ⟨message, hfields⟩ := hfields
    exact ⟨_, hfields, trivial, htwo, hpcm⟩

/-- **What the reader does with a `fmt ` chunk** of the size `n` and with what follows. -/
theorem readFmt_cases {n : Nat} (hn : n < 2 ^ 32) (xs : List UInt8) :
    (∃ e rest, readFmt (Int32.ofNat n) xs = .error e rest ∧ e.IsIo
        ∧ n < 2 ^ 31 ∧ (n ≤ xs.length → 2 ≤ n ∧ leValue (xs.take 2) ≠ 1))
      ∨ (∃ e rest, readFmt (Int32.ofNat n) xs = .error e rest ∧ ¬ e.IsIo
        ∧ (n < 2 ^ 31 → n ≤ xs.length ∧ (2 ≤ n → leValue (xs.take 2) = 1 ∧ n < 16)))
      ∨ ∃ header, readFmt (Int32.ofNat n) xs = .ok header (xs.drop n)
        ∧ n < 2 ^ 31 ∧ n ≤ xs.length ∧ leValue (xs.take 2) = 1 ∧ 16 ≤ n := by
  rw [readFmt_eq]
  rcases Nat.lt_or_ge n (2 ^ 31) with hsmall | hbig
  swap
  · have hread : readFully (Int32.ofNat n) xs = .error .negativeArraySize xs := by
      rw [readFully, if_pos (ofNat_neg hbig hn)]
      rfl
    right
    left
    refine ⟨_, _, bind_of_error hread, id, ?_⟩
    intro hsmall
    omega
  have hread := readFully_small hsmall xs
  rcases Nat.lt_or_ge xs.length n with hcut | hwhole
  · left
    rw [readFully_short _ hcut] at hread
    refine ⟨_, _, bind_of_error hread, trivial, hsmall, ?_⟩
    intro hwhole
    omega
  rw [readFully_take _ hwhole] at hread
  have hlength : (xs.take n).length = n := List.length_take_of_le hwhole
  -- the array has the same first bytes as the stream, if it has two at all
  have htake : 2 ≤ n → (xs.take n).take 2 = xs.take 2 := by
    intro htwo
    rw [List.take_take, Nat.min_eq_left htwo]
  have hfields := readFields_cases (xs.take n) (xs.drop n)
  rw [hlength] at hfields
  rcases hfields with ⟨e, hfields, hio, htwo, hpcm⟩ | ⟨e, hfields, hio, hwhy⟩ |
    ⟨header, hfields, hpcm, hle⟩
  · rw [htake htwo] at hpcm
    exact .inl ⟨e, _, (bind_of_ok hread).trans hfields, hio, hsmall, fun _ => ⟨htwo, hpcm⟩⟩
  · refine .inr (.inl ⟨e, _, (bind_of_ok hread).trans hfields, hio, fun _ => ⟨hwhole, ?_⟩⟩)
    intro htwo
    have hboth := hwhy htwo
    rwa [htake htwo] at hboth
  · rw [htake (by omega)] at hpcm
    exact .inr (.inr ⟨header, (bind_of_ok hread).trans hfields, hsmall, hwhole, hpcm, hle⟩)

theorem chunkTurn_header (header : Option WavHeader) {xs : List UInt8} (h : 8 ≤ xs.length) :
    chunkTurn header xs
      = readChunk header (chunkId xs) (Int32.ofNat (chunkSize xs)) (xs.drop 8) := by
  have hid : (chunkId xs).length = 4 := List.length_take_of_le (by omega)
  have hturn := chunkTurn_list header hid (chunkSize_lt xs) (xs.drop 8)
  have hrest : leBytes 4 (chunkSize xs) ++ (xs.drop 4).drop 4 = xs.drop 4 :=
    leBytes_take (by rw [List.length_drop]; omega)
  rw [List.drop_drop] at hrest
  rw [List.append_assoc, hrest, chunkId, List.take_append_drop] at hturn
  exact hturn

theorem skipFully_size (xs ys : List UInt8) :
    skipFully (Int32.ofNat (chunkSize xs)).toInt64 ys
      = InputStream.skipFully (.eof "Unexpected end of stream") (bodyLength xs) ys := by
  rw [skipFully, toNatClampNeg_size (chunkSize_lt xs), bodyLength]

/-- How a turn at `xs` may end. -/
inductive TurnAt (xs : List UInt8) :
    EStateM.Result WavError (List UInt8) (Option WavHeader ⊕ (Option WavHeader × Int64)) → Prop
  | stops {e rest} (hio : e.IsIo) (hsane : FmtSane xs) (hlast : ∀ ys, ¬ NextChunk xs ys) :
    TurnAt xs (.error e rest)
  | fails {e rest} (hio : ¬ e.IsIo) (hinsane : ¬ FmtSane xs) : TurnAt xs (.error e rest)
  | breaks {v rest} (hsane : FmtSane xs) (hlast : ∀ ys, ¬ NextChunk xs ys) :
    TurnAt xs (.ok (.inr v) rest)
  | goesOn {header ys} (hsane : FmtSane xs) (hnext : ∀ zs, NextChunk xs zs ↔ zs = ys) :
    TurnAt xs (.ok (.inl header) ys)

theorem turnAt_fmt (header : Option WavHeader) {xs : List UInt8} (h : 8 ≤ xs.length)
    (hid : chunkId xs = ascii "fmt ") : TurnAt xs (chunkTurn header xs) := by
  rw [chunkTurn_header header h, readChunk, if_pos hid]
  have hlength : (xs.drop 8).length = xs.length - 8 := List.length_drop
  have hbody : chunkSize xs < 2 ^ 31 → bodyLength xs = chunkSize xs := fun hsmall => if_pos hsmall
  rcases readFmt_cases (chunkSize_lt xs) (xs.drop 8) with
    ⟨e, rest, hfmt, hio, hsmall, hwhy⟩ | ⟨e, rest, hfmt, hio, hwhy⟩ |
    ⟨fmt, hfmt, hsmall, hwhole, hpcm, hle⟩
  · rw [bind_of_error hfmt]
    refine .stops hio ?_ ?_
    · intro _ _
      refine ⟨hsmall, fun hwhole => ?_⟩
      obtain ⟨htwo, hpcm⟩ := hwhy (by omega)
      exact ⟨htwo, fun heq => absurd heq hpcm⟩
    · rintro ys ⟨hin, -, hnext, -⟩
      rw [hbody hsmall] at hin
      exact (hwhy (by omega)).2 (hnext hid).2.2
  · rw [bind_of_error hfmt]
    refine .fails hio ?_
    intro hsane
    obtain ⟨hsmall, hfields⟩ := hsane h hid
    obtain ⟨hwhole, hrest⟩ := hwhy hsmall
    obtain ⟨htwo, hsixteen⟩ := hfields (by omega)
    obtain ⟨hpcm, hlt⟩ := hrest htwo
    have := hsixteen hpcm
    omega
  · rw [bind_of_ok hfmt]
    refine .goesOn ?_ ?_
    · intro _ _
      exact ⟨hsmall, fun _ => ⟨by omega, fun _ => hle⟩⟩
    · intro zs
      rw [NextChunk, hbody hsmall, List.drop_drop, hid]
      constructor
      · exact fun hnext => hnext.2.2.2
      · intro heq
        exact ⟨by omega, by decide, fun _ => ⟨hsmall, hle, hpcm⟩, heq⟩

/-- **What a turn does at a place.** -/
theorem chunkTurn_cases (header : Option WavHeader) (xs : List UInt8) :
    TurnAt xs (chunkTurn header xs) := by
  rcases Nat.lt_or_ge xs.length 8 with hshort | hlong
  · have hread : readFully 8 xs = .error (.eof "Unexpected end of stream") [] :=
      readFully_short _ hshort
    rw [chunkTurn, bind_of_error hread]
    refine .stops trivial ?_ ?_
    · intro hlong
      omega
    · rintro ys ⟨hin, -⟩
      omega
  by_cases hfmt : chunkId xs = ascii "fmt "
  · exact turnAt_fmt header hlong hfmt
  have hsane : FmtSane xs := fun _ hid => absurd hid hfmt
  rw [chunkTurn_header header hlong, readChunk, if_neg hfmt]
  split
  · next hdata =>
    have hlast : ∀ ys, ¬ NextChunk xs ys := fun ys hnext => hnext.2.1 hdata
    split
    · exact .stops trivial hsane hlast
    · exact .breaks hsane hlast
  · next hdata =>
    have hskip := skipFully_size xs (xs.drop 8)
    rcases Nat.lt_or_ge (xs.drop 8).length (bodyLength xs) with hcut | hwhole
    · rw [skipFully_short _ hcut] at hskip
      rw [bind_of_error hskip]
      refine .stops trivial hsane ?_
      rintro ys ⟨hin, -⟩
      rw [List.length_drop] at hcut
      omega
    · rw [skipFully_drop _ hwhole] at hskip
      rw [bind_of_ok hskip]
      refine .goesOn hsane ?_
      intro zs
      rw [List.length_drop] at hwhole
      rw [NextChunk, List.drop_drop]
      constructor
      · exact fun hnext => hnext.2.2.2
      · intro heq
        exact ⟨by omega, hdata, fun hid => absurd hid hfmt, heq⟩

/-- What the loop tells of the place in front of it, and of the next one. -/
theorem fmtSane_of_loop (xs : List UInt8)
    (h : ∃ header,
      Allowed WavError.IsIo Anything (readingLoop chunkTurn takes_chunkTurn header xs)) :
    FmtSane xs ∧ ∀ ys, NextChunk xs ys →
      ∃ header, Allowed WavError.IsIo Anything
        (readingLoop chunkTurn takes_chunkTurn header ys) := by
  obtain ⟨header, h⟩ := h
  have hturn := chunkTurn_cases header xs
  cases hs : chunkTurn header xs with
  | error e rest =>
    rw [hs] at hturn
    rw [readingLoop, loop_error hs] at h
    cases hturn with
    | stops _ hsane hlast => exact ⟨hsane, fun ys hys => absurd hys (hlast ys)⟩
    | fails hio _ => exact absurd h hio
  | ok v rest =>
    rw [hs] at hturn
    cases hturn with
    | breaks hsane hlast => exact ⟨hsane, fun ys hys => absurd hys (hlast ys)⟩
    | goesOn hsane hnext =>
      rw [readingLoop, loop_next hs] at h
      refine ⟨hsane, ?_⟩
      intro ys hys
      obtain rfl := (hnext ys).mp hys
      exact ⟨_, h⟩

/-- **The walk over the chunks**, on the bytes that are left: every turn takes some of them. -/
theorem chunkLoop_io_only_iff (header : Option WavHeader) (xs : List UInt8) :
    Allowed WavError.IsIo Anything (readingLoop chunkTurn takes_chunkTurn header xs)
      ↔ AllReached NextChunk FmtSane xs := by
  constructor
  · intro h
    exact allReached_of_invariant _ fmtSane_of_loop ⟨header, h⟩
  · intro h
    induction hn : xs.length using Nat.strongRecOn generalizing header xs with
    | ind n ih =>
      have hturn := chunkTurn_cases header xs
      cases hs : chunkTurn header xs with
      | error e rest =>
        rw [hs] at hturn
        rw [readingLoop, loop_error hs]
        cases hturn with
        | stops hio _ _ => exact hio
        | fails _ hinsane => exact absurd ((allReached_iff xs).mp h).1 hinsane
      | ok v rest =>
        rw [hs] at hturn
        cases hturn with
        | breaks _ _ =>
          rw [readingLoop, loop_break hs]
          trivial
        | goesOn _ hnext =>
          have hlt : rest.length < n := hn ▸ takes_chunkTurn header xs _ rest hs trivial
          have hrest := ((allReached_iff xs).mp h).2 rest ((hnext rest).mpr rfl)
          rw [readingLoop, loop_next hs]
          exact ih rest.length hlt _ rest hrest rfl

/-- **A sane WAV stream**: behind the header of the file, the walk from chunk to chunk meets sane
`fmt ` chunks only. -/
def WavSane (xs : List UInt8) : Prop :=
  xs.take 4 = ascii "RIFF" → (xs.drop 8).take 4 = ascii "WAVE" →
    AllReached NextChunk FmtSane (xs.drop 12)

theorem parseHeader_io_only_iff (xs : List UInt8) :
    Allowed WavError.IsIo Anything (parseHeader xs) ↔ WavSane xs := by
  rcases Nat.lt_or_ge xs.length 12 with hshort | hlong
  · have hread : readFully 12 xs = .error (.eof "Unexpected end of stream") [] :=
      readFully_short _ hshort
    rw [parseHeader, bind_of_error hread]
    refine iff_of_true trivial ?_
    intro _ hwave
    have hlength := congrArg List.length hwave
    rw [List.length_take, List.length_drop] at hlength
    have hfour : (ascii "WAVE").length = 4 := rfl
    omega
  have hread : readFully 12 xs = .ok (xs.take 12) (xs.drop 12) := readFully_take _ hlong
  have hriff : (xs.take 12).take 4 = xs.take 4 := by rw [List.take_take]; rfl
  have hwave : (xs.take 12).drop 8 = (xs.drop 8).take 4 := by rw [List.drop_take]
  rw [parseHeader, bind_of_ok hread, hriff, hwave]
  by_cases h1 : xs.take 4 = ascii "RIFF"
  swap
  · rw [if_pos h1]
    exact iff_of_true trivial fun h => absurd h h1
  by_cases h2 : (xs.drop 8).take 4 = ascii "WAVE"
  swap
  · rw [if_neg (not_not.mpr h1), if_pos h2]
    exact iff_of_true trivial fun _ h => absurd h h2
  rw [if_neg (not_not.mpr h1), if_neg (not_not.mpr h2)]
  beta_reduce
  have hsane : WavSane xs ↔ AllReached NextChunk FmtSane (xs.drop 12) :=
    ⟨fun h => h h1 h2, fun h _ _ => h⟩
  rw [hsane, ← chunkLoop_io_only_iff none]
  cases hloop : readingLoop chunkTurn takes_chunkTurn none (xs.drop 12) with
  | error e rest =>
    rw [bind_of_error hloop]
    exact Iff.rfl
  | ok v rest =>
    rw [bind_of_ok hloop]
    obtain ⟨header, dataRemaining⟩ := v
    cases header with
    | none | some header => exact iff_of_true trivial trivial

/-- The counter of an open reader. -/
def Counts (r : WavReader) : Prop := ∃ n, n < 2 ^ 32 ∧ r.dataRemaining = Int64.ofNat n

/-- **Samples**: what is asked for is never negative. -/
theorem meets_nextSamples {k : Int32} (hk : 0 < k) {r : WavReader} (hr : Counts r) :
    Meets WavError.IsIo (fun v => Anything v.1 ∧ Counts v.2)
      (nextSamples k r : EStateM WavError (List UInt8) _) := by
  obtain ⟨n, hn, hr⟩ := hr
  obtain ⟨m, -, hm, rfl, -⟩ := exists_ofNat hk
  refine Meets.ite _ (fun _ => ?_) fun _ => ?_
  · exact meets_pure ⟨trivial, n, hn, hr⟩
  have hmin : min m n < 2 ^ 31 := by omega
  rw [hr, min_toInt32 hm hn]
  have hread : Meets WavError.IsIo Anything
      (readFully (Int32.ofNat (min m n)) : EStateM WavError (List UInt8) _) := by
    refine Meets.ite _ (fun hneg => absurd hneg (ofNat_not_neg hmin)) fun _ => ?_
    exact (meets_readFully trivial _).mono (fun _ he => he) fun _ _ => trivial
  refine hread.bind fun data _ => meets_pure ⟨trivial, n - min m n, by omega, ?_⟩
  rw [toInt64_ofNat hmin, Int64.ofNat_sub n (min m n) (by omega)]

theorem wav_orderly_iff {σ : Type} [InputStream σ UInt8] (input : σ) :
    (∀ calls, (∀ n ∈ calls, 0 < n) →
        Orderly WavError.IsIo Anything calls.length (wavSession calls input))
      ↔ WavSane (elems input) := by
  simp only [wavSession_eq]
  rw [← parseHeader_io_only_iff]
  constructor
  · intro h
    have hnone := h [] fun _ hmem => absurd hmem List.not_mem_nil
    rw [session] at hnone
    cases hopen : parseHeader (elems input) with
    | error e rest =>
      rw [hopen] at hnone
      exact hnone
    | ok r rest => trivial
  · intro h calls hcalls
    rw [session]
    cases hopen : parseHeader (elems input) with
    | error e rest =>
      rw [hopen] at h
      exact h
    | ok r rest =>
      obtain ⟨-, -, size, -, hsize, hr, -⟩ := parseHeader_ok hopen
      constructor
      · exact answers_length _ calls r rest
      · exact answers_meet (fun k => 0 < k) Counts (fun k r hk hr => meets_nextSamples hk hr) calls
          hcalls r ⟨size, hsize, hr⟩ rest

end Wav

/-! ## 4. Both -/

/-- **The readers throw `IOException`s only if and only if the bytes are sane.** -/
theorem ivf_wav_io_only_iff {σ : Type} [InputStream σ UInt8] (input : σ) :
    ((∀ calls, Orderly IvfError.IsIo Anything calls.length (ivfSession calls input))
        ↔ IvfSane (elems input))
      ∧ ((∀ calls, (∀ n ∈ calls, 0 < n) →
            Orderly Wav.WavError.IsIo Anything calls.length (wavSession calls input))
          ↔ Wav.WavSane (elems input)) :=
  ⟨ivf_orderly_iff input, Wav.wav_orderly_iff input⟩

/-- A head, and a frame that says it has `2^31` bytes. -/
def hugeFrame : List UInt8 := sampleIvfHead.bytes ++ [0, 0, 0, 0x80, 0, 0, 0, 0, 0, 0, 0, 0]

/-- A file with an empty `fmt ` chunk. -/
def emptyFmt : List UInt8 :=
  ascii "RIFF" ++ leBytes 4 12 ++ ascii "WAVE" ++ (ascii "fmt " ++ leBytes 4 0)

theorem ivf_wav_other_exceptions :
    ivfSession [()] hugeFrame = .ok (sampleIvfHead.header, [.error .negativeArraySize])
      ∧ wavSession [] emptyFmt = .error .indexOutOfBounds := by
  constructor
  · have hcall : IvfStream.nextFrame [0, 0, 0, 0x80, 0, 0, 0, 0, 0, 0, 0, 0]
        = .error .negativeArraySize [] := IvfStream.nextFrame_negative (by decide) (by decide)
    rw [ivfSession_eq, elems_list, session, hugeFrame, ivfReader_list]
    simp only [answers, bind_of_error hcall]
  · have hread : Wav.readFully 12 emptyFmt = .ok (emptyFmt.take 12) (emptyFmt.drop 12) :=
      readFully_take _ (by decide)
    have hfmt : Wav.readFmt 0 [] = .error .indexOutOfBounds [] := by
      have hempty : Wav.readFully 0 ([] : List UInt8) = .ok [] [] := readFully_take _ (by decide)
      rw [Wav.readFmt, bind_of_ok hempty, Wav.readU16LE,
        bind_of_error (Wav.readLE_short (by decide) [])]
    have hturn : Wav.chunkTurn none (emptyFmt.drop 12) = .error .indexOutOfBounds [] := by
      rw [Wav.chunkTurn_header none (by decide), Wav.readChunk, if_pos (by decide)]
      exact bind_of_error hfmt
    have hloop : readingLoop Wav.chunkTurn Wav.takes_chunkTurn none (emptyFmt.drop 12)
        = .error .indexOutOfBounds [] := loop_error hturn
    have hparse : Wav.parseHeader emptyFmt = .error .indexOutOfBounds [] := by
      rw [Wav.parseHeader, bind_of_ok hread, if_neg (by decide), if_neg (by decide)]
      exact bind_of_error hloop
    rw [wavSession_eq, elems_list, session, hparse]

end WebrtcBridge.Media
