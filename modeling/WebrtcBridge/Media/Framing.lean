/-
# `IvfReader` and `OggReader`: where a unit ends, and where a file does

Both formats are a head and then unit after unit, frames or pages, each of which says how long it
is.

* `ogg_framing`: pages are read as they are written, and the reader stands behind the last one.
* `end_of_stream_iff`: what a reader makes of the end.  The documentation has the loop
  `while ((x = reader.next...()) != null)`.  But no call ever returns `null`: at the end of the file
  the first read of the next unit throws the same `EOFException` as in the middle of one.  So a
  truncated file ends as it should and a complete one never does.

A frame of an IVF file may have a size from `2^31` on.  That is a negative `int`, and the array for
it throws something else; so the exact condition asks for the sizes, too.
-/
import WebrtcBridge.Lib.ExactReader
import WebrtcBridge.Media.AnyStream

namespace WebrtcBridge.Media.Framing

open Lib Lib.InputStream Media.Ogg

/-- A proper beginning of something. -/
structure Beginning (bytes : List UInt8) where
  part : List UInt8
  more : List UInt8
  eq : bytes = part ++ more
  more_ne : more ≠ []

/-! ## 1. Ogg pages -/

/-- The packet `OpusHead`. -/
structure OpusHead where
  version : UInt8
  channels : UInt8
  preSkip : UInt16
  sampleRate : UInt32
  /-- Output gain, mapping family and mapping table. -/
  rest : List UInt8
  version_le : version = 0 ∨ version = 1
  rest_length : 3 ≤ rest.length

def OpusHead.bytes (h : OpusHead) : List UInt8 :=
  ascii "OpusHead" ++ h.version :: h.channels :: (leBytes 2 h.preSkip.toNat
    ++ (leBytes 4 h.sampleRate.toNat ++ h.rest))

/-- A page that holds it. -/
structure HeadPage where
  page : Page
  head : OpusHead
  payload_eq : page.payload = head.bytes

/-- The header is the one of the packet. -/
def OpusHead.Is (h : OpusHead) (header : OggHeader) : Prop :=
  header.channels.toInt = h.channels.toNat ∧ header.preSkip.toInt = h.preSkip.toNat
    ∧ header.sampleRate.toUInt32 = h.sampleRate

/-- `nextPage()` has returned the page. -/
def IsPage (p : Page) (out : OggPage) : Prop :=
  out.data = p.payload ∧ out.granulePosition.toUInt64 = p.granulePosition
    ∧ out.serial.toUInt32 = p.serial

/-- So many calls; they end at the first exception. -/
def nextPages {σ : Type} [InputStream σ UInt8] (r : OggReader) :
    Nat → EStateM OggError σ (List OggPage)
  | 0 => pure []
  | n + 1 => do
    let page ← OggStream.nextPage r
    let pages ← nextPages r n
    return page :: pages

theorem actsAs_nextPages {σ : Type} [InputStream σ UInt8] (r : OggReader) (n : Nat) :
    ActsAs (nextPages r n : EStateM OggError σ _) (nextPages r n) := by
  induction n with
  | zero => exact actsAs_pure []
  | succ n ih =>
    exact (OggStream.actsAs_nextPage r).bind fun page => ih.bind fun pages => actsAs_pure _

theorem isPage_read (p : Page) : IsPage p p.read := by
  refine ⟨rfl, ?_, ?_⟩
  · simp [Page.read, Int64.ofNat]
  · simp [Page.read, Int32.ofNat]

theorem readRawPage_list (p : Page) (rest : List UInt8) :
    OggStream.readRawPage (p.bytes ++ rest) = .ok p.read rest :=
  OggStream.matches_readRawPage.of_yields (readRawPage_yields p rest)

theorem oggReader_list (h : HeadPage) (rest : List UInt8) :
    OggStream.oggReader (h.page.bytes ++ rest) = .ok ⟨opusHeader h.head.bytes, true⟩ rest := by
  have hdata : h.page.read.data = h.head.bytes := h.payload_eq
  have hlength : ¬ h.head.bytes.length < 19 := by
    have hrest := h.head.rest_length
    simp [OpusHead.bytes, ascii]
    omega
  have hmagic : ¬ h.head.bytes.take 8 ≠ ascii "OpusHead" := not_not.mpr rfl
  have hversion : ¬ 1 < h.head.bytes.getD 8 0 := by
    have hget : h.head.bytes.getD 8 0 = h.head.version := rfl
    rw [hget]
    rcases h.head.version_le with hv | hv <;> rw [hv] <;> decide
  rw [OggStream.oggReader, bind_of_ok (readRawPage_list h.page rest), hdata, if_neg hlength,
    if_neg hmagic, if_neg hversion]
  rfl

theorem opusHead_is (h : OpusHead) : h.Is (opusHeader h.bytes) := by
  have hpre : h.preSkip.toNat < 256 ^ 2 := h.preSkip.toNat_lt
  have hrate : h.sampleRate.toNat < 256 ^ 4 := h.sampleRate.toNat_lt
  have hdrop10 : h.bytes.drop 10
      = leBytes 2 h.preSkip.toNat ++ (leBytes 4 h.sampleRate.toNat ++ h.rest) := rfl
  have hdrop12 : h.bytes.drop 12 = leBytes 4 h.sampleRate.toNat ++ h.rest := rfl
  refine ⟨?_, ?_, ?_⟩
  · change (Int32.ofNat h.channels.toNat).toInt = _
    exact Int32.toInt_ofNat_of_lt (by have := h.channels.toNat_lt; omega)
  · change (readLE h.bytes 10 2).toInt = _
    rw [readLE, hdrop10, List.take_left' (leBytes_length 2 _), orBytes_leBytes,
      Nat.mod_eq_of_lt hpre]
    exact Int32.toInt_ofNat_of_lt (by omega)
  · change (readLE h.bytes 12 4).toUInt32 = _
    rw [readLE, hdrop12, List.take_left' (leBytes_length 4 _), orBytes_leBytes,
      Nat.mod_eq_of_lt hrate]
    simp [Int32.ofNat]

theorem nextPages_list (header : OggHeader) (pages : List Page) (rest : List UInt8) :
    nextPages ⟨header, true⟩ pages.length (pages.flatMap Page.bytes ++ rest)
      = .ok (pages.map Page.read) rest := by
  induction pages with
  | nil => rfl
  | cons p pages ih =>
    have hpage : OggStream.nextPage ⟨header, true⟩ (p.bytes ++ (pages.flatMap Page.bytes ++ rest))
        = .ok p.read (pages.flatMap Page.bytes ++ rest) := readRawPage_list p _
    rw [List.flatMap_cons, List.append_assoc, List.length_cons, nextPages, bind_of_ok hpage,
      bind_of_ok ih]
    rfl

/-- **Pages are read back**, and what follows them is not touched. -/
theorem ogg_framing {σ : Type} [InputStream σ UInt8] (h : HeadPage) (pages : List Page)
    (rest : List UInt8) (input : σ)
    (hinput : elems input = h.page.bytes ++ (pages.flatMap Page.bytes ++ rest)) :
    ∃ r s outs s', OggStream.oggReader (OggStream.buffered input) = .ok r s
      ∧ h.head.Is r.header
      ∧ nextPages r pages.length s = .ok outs s'
      ∧ List.Forall₂ IsPage pages outs
      ∧ elems s' = rest := by
  have hopen := OggStream.actsAs_oggReader (OggStream.buffered input)
  rw [OggStream.elems_buffered, hinput, oggReader_list] at hopen
  obtain ⟨s, hopen, hs⟩ := overElems_eq_ok hopen
  have hpages := actsAs_nextPages ⟨opusHeader h.head.bytes, true⟩ pages.length s
  rw [hs, nextPages_list] at hpages
  obtain ⟨s', hpages, hs'⟩ := overElems_eq_ok hpages
  refine ⟨_, s, _, s', hopen, opusHead_is h.head, hpages, ?_, hs'⟩
  rw [List.forall₂_map_right_iff, List.forall₂_same]
  exact fun p _ => isPage_read p

/-- `OpusHead` of version 0 for two channels at 48 kHz. -/
def sampleOpusHead : HeadPage where
  page := ⟨2, 0, 9, 0, 0, [ascii "OpusHead" ++ [0, 2, 0x38, 1, 0x80, 0xbb, 0, 0, 0, 0, 0]],
    by decide, by decide⟩
  head := ⟨0, 2, 0x138, 48000, [0, 0, 0], .inl rfl, by decide⟩
  payload_eq := by decide

/-- A page without segments and one with two. -/
def samplePages : List Page :=
  [⟨0, 0, 9, 1, 0, [], by decide, by decide⟩,
    ⟨4, 1920, 9, 2, 7, [[1], [2, 3]], by decide, by decide⟩]

theorem ogg_framing_sample : ∃ r s outs s',
    OggStream.oggReader (OggStream.buffered (sampleOpusHead.page.bytes
      ++ (samplePages.flatMap Page.bytes ++ [5]))) = .ok r s
      ∧ sampleOpusHead.head.Is r.header ∧ nextPages r 2 s = .ok outs s'
      ∧ List.Forall₂ IsPage samplePages outs ∧ elems s' = [5] :=
  ogg_framing sampleOpusHead samplePages [5] _ rfl

/-! ## 2. IVF frames -/

/-- The head of a file.  It says how long it is itself. -/
structure IvfHead where
  fourcc : List UInt8
  width : UInt16
  height : UInt16
  timebaseDenominator : UInt32
  timebaseNumerator : UInt32
  numFrames : UInt32
  unused : UInt32
  extra : List UInt8
  fourcc_length : fourcc.length = 4
  length_lt : 32 + extra.length < 2 ^ 16

def IvfHead.bytes (h : IvfHead) : List UInt8 :=
  ascii "DKIF" ++ (leBytes 2 0 ++ (leBytes 2 (32 + h.extra.length) ++ (h.fourcc
    ++ (leBytes 2 h.width.toNat ++ (leBytes 2 h.height.toNat
    ++ (leBytes 4 h.timebaseDenominator.toNat ++ (leBytes 4 h.timebaseNumerator.toNat
    ++ (leBytes 4 h.numFrames.toNat ++ (leBytes 4 h.unused.toNat ++ h.extra)))))))))

/-- The header a reader makes of it. -/
def IvfHead.header (h : IvfHead) : IvfFileHeader where
  width := Int32.ofNat h.width.toNat
  height := Int32.ofNat h.height.toNat
  timebaseDenominator := (Int64.ofNat h.timebaseDenominator.toNat).toInt32
  timebaseNumerator := (Int64.ofNat h.timebaseNumerator.toNat).toInt32
  numFrames := (Int64.ofNat h.numFrames.toNat).toInt32

/-- A frame, of any size that its header can say. -/
structure IvfUnit where
  data : List UInt8
  timestamp : UInt64
  length_lt : data.length < 2 ^ 32

namespace IvfUnit

variable (u : IvfUnit)

def header : List UInt8 := leBytes 4 u.data.length ++ leBytes 8 u.timestamp.toNat

def bytes : List UInt8 := u.header ++ u.data

@[simp] theorem header_length : u.header.length = 12 := by
  simp [header]

/-- An array of that size can be made. -/
def Small : Prop := u.data.length < 2 ^ 31

instance : Decidable u.Small := inferInstanceAs (Decidable (_ < _))

theorem nil_length_le : ([] : List UInt8).length ≤ 2 ^ 31 - 1 := Nat.zero_le _

/-- What `nextFrame()` makes of a small one. -/
def read : IvfFrame :=
  if h : u.data.length ≤ 2 ^ 31 - 1 then ⟨u.data, Int64.ofNat u.timestamp.toNat, h⟩
  else ⟨[], 0, nil_length_le⟩

end IvfUnit

theorem readUnsignedBytes_list (xs rest : List UInt8) :
    IvfStream.readUnsignedBytes xs.length (xs ++ rest) = .ok xs rest := by
  induction xs with
  | nil => rfl
  | cons b xs ih =>
    have hbyte : IvfStream.readUnsignedByte (b :: (xs ++ rest)) = .ok b (xs ++ rest) := rfl
    rw [List.length_cons, IvfStream.readUnsignedBytes, List.cons_append, bind_of_ok hbyte,
      bind_of_ok ih]
    rfl

theorem readUnsignedBytes_number (w n : Nat) (rest : List UInt8) :
    IvfStream.readUnsignedBytes w (leBytes w n ++ rest) = .ok (leBytes w n) rest := by
  have h := readUnsignedBytes_list (leBytes w n) rest
  rwa [leBytes_length] at h

theorem readU16Le_list {n : Nat} (hn : n < 256 ^ 2) (rest : List UInt8) :
    IvfStream.readU16Le (leBytes 2 n ++ rest) = .ok (Int32.ofNat n) rest := by
  rw [IvfStream.readU16Le, bind_of_ok (readUnsignedBytes_number 2 n rest), orBytes_leBytes,
    Nat.mod_eq_of_lt hn]
  rfl

theorem readU32Le_list {n : Nat} (hn : n < 256 ^ 4) (rest : List UInt8) :
    IvfStream.readU32Le (leBytes 4 n ++ rest) = .ok (Int64.ofNat n) rest := by
  rw [IvfStream.readU32Le, bind_of_ok (readUnsignedBytes_number 4 n rest), orBytes_leBytes,
    Nat.mod_eq_of_lt hn]
  rfl

theorem readU64Le_list {n : Nat} (hn : n < 256 ^ 8) (rest : List UInt8) :
    IvfStream.readU64Le (leBytes 8 n ++ rest) = .ok (Int64.ofNat n) rest := by
  rw [IvfStream.readU64Le, bind_of_ok (readUnsignedBytes_number 8 n rest), orBytes_leBytes,
    Nat.mod_eq_of_lt hn]
  rfl

theorem readBytes_list {n : Nat} (hn : n < 2 ^ 31) {xs : List UInt8} (rest : List UInt8)
    (hxs : xs.length = n) : IvfStream.readBytes (Int32.ofNat n) (xs ++ rest) = .ok xs rest := by
  rw [IvfStream.readBytes, if_neg (ofNat_not_neg hn), Int32.toNatClampNeg_ofNat_of_lt hn,
    readFully_append _ rest hxs]

theorem ivfReader_list (h : IvfHead) (rest : List UInt8) :
    IvfStream.ivfReader (h.bytes ++ rest) = .ok h.header rest := by
  have hlt := h.length_lt
  simp only [IvfHead.bytes, List.append_assoc]
  unfold IvfStream.ivfReader
  refine (bind_of_ok (readBytes_list (n := 4) (by decide) _ rfl)).trans ?_
  rw [if_neg (not_not.mpr rfl)]
  refine (bind_of_ok (readU16Le_list (by decide) _)).trans ?_
  refine (bind_of_ok (readU16Le_list hlt _)).trans ?_
  rw [if_neg (show ¬ Int32.ofNat 0 ≠ 0 by decide)]
  refine (bind_of_ok (readBytes_list (n := 4) (by decide) _ h.fourcc_length)).trans ?_
  refine (bind_of_ok (readU16Le_list h.width.toNat_lt _)).trans ?_
  refine (bind_of_ok (readU16Le_list h.height.toNat_lt _)).trans ?_
  refine (bind_of_ok (readU32Le_list h.timebaseDenominator.toNat_lt _)).trans ?_
  refine (bind_of_ok (readU32Le_list h.timebaseNumerator.toNat_lt _)).trans ?_
  refine (bind_of_ok (readU32Le_list h.numFrames.toNat_lt _)).trans ?_
  refine (bind_of_ok (readU32Le_list h.unused.toNat_lt _)).trans ?_
  -- what the head says about its length is how much of it is left
  have hsize : (Int32.ofNat (32 + h.extra.length) - 32) = Int32.ofNat h.extra.length := by
    rw [← Int32.toInt_inj, Int32.toInt_sub, Int32.toInt_ofNat_of_lt (by omega),
      Int32.toInt_ofNat_of_lt (by omega)]
    have h32 : (32 : Int32).toInt = 32 := rfl
    rw [h32, Int.bmod_eq_of_le (by omega) (by omega)]
    omega
  by_cases hextra : (32 : Int32) < Int32.ofNat (32 + h.extra.length)
  · have hskip : skipFully (IvfError.eof "Unexpected end of IVF header")
        (Int32.ofNat (32 + h.extra.length) - 32).toNatClampNeg (h.extra ++ rest) = .ok () rest := by
      rw [hsize, Int32.toNatClampNeg_ofNat_of_lt (by omega), skipFully_append _ rest rfl]
    rw [if_pos hextra]
    exact (bind_of_ok hskip).trans rfl
  · have hnil : h.extra = [] := by
      rw [Int32.lt_iff_toInt_lt, Int32.toInt_ofNat_of_lt (by omega)] at hextra
      have hzero : h.extra.length = 0 := by
        have h32 : (32 : Int32).toInt = 32 := rfl
        omega
      exact List.length_eq_zero_iff.mp hzero
    rw [if_neg hextra, hnil]
    rfl

/-- What `nextFrame()` reads before the data. -/
def readSizeAndTimestamp : EStateM IvfError (List UInt8) (Int64 × Int64) := do
  let frameSize ← IvfStream.readU32Le
  let timestamp ← IvfStream.readU64Le
  return (frameSize, timestamp)

/-- And then. -/
def readData (frameSize timestamp : Int64) : EStateM IvfError (List UInt8) IvfFrame := do
  let data ← IvfStream.readBytes frameSize.toInt32
  if h : data.length ≤ 2 ^ 31 - 1 then return ⟨data, timestamp, h⟩ else throw .outOfMemory

theorem nextFrame_eq :
    IvfStream.nextFrame = readSizeAndTimestamp >>= fun v => readData v.1 v.2 := by
  simp only [readSizeAndTimestamp, bind_assoc, pure_bind]
  rfl

theorem readSizeAndTimestamp_list (u : IvfUnit) (rest : List UInt8) :
    readSizeAndTimestamp (u.header ++ rest)
      = .ok (Int64.ofNat u.data.length, Int64.ofNat u.timestamp.toNat) rest := by
  rw [IvfUnit.header, List.append_assoc]
  refine (bind_of_ok (readU32Le_list u.length_lt _)).trans ?_
  exact (bind_of_ok (readU64Le_list u.timestamp.toNat_lt _)).trans rfl

theorem nextFrame_header (u : IvfUnit) (rest : List UInt8) :
    IvfStream.nextFrame (u.header ++ rest)
      = readData (Int64.ofNat u.data.length) (Int64.ofNat u.timestamp.toNat) rest := by
  rw [nextFrame_eq, bind_of_ok (readSizeAndTimestamp_list u _)]

theorem toInt32_ofNat (n : Nat) : (Int64.ofNat n).toInt32 = Int32.ofNat n := by
  simp [Int32.ofNat]

/-- **A frame is read as a whole.** -/
theorem nextFrame_small {u : IvfUnit} (h : u.Small) (rest : List UInt8) :
    IvfStream.nextFrame (u.bytes ++ rest) = .ok u.read rest := by
  have hle : u.data.length ≤ 2 ^ 31 - 1 := Nat.le_sub_one_of_lt h
  rw [IvfUnit.bytes, List.append_assoc, nextFrame_header, readData, toInt32_ofNat,
    bind_of_ok (readBytes_list h rest rfl), dif_pos hle, IvfUnit.read, dif_pos hle]
  rfl

/-- Its size is negative otherwise. -/
theorem nextFrame_big {u : IvfUnit} (h : ¬ u.Small) (rest : List UInt8) :
    IvfStream.nextFrame (u.header ++ rest) = .error .negativeArraySize rest := by
  have hlt : Int32.ofNat u.data.length < 0 := ofNat_neg (Nat.le_of_not_lt h) u.length_lt
  have hread : IvfStream.readBytes (Int32.ofNat u.data.length) rest
      = .error .negativeArraySize rest := by
    rw [IvfStream.readBytes, if_pos hlt]
    rfl
  rw [nextFrame_header, readData, toInt32_ofNat, bind_of_error hread]

/-! ## 3. The readers need what they read -/

def IvfEof (e : IvfError) : Prop := ∃ message, e = .eof message

theorem not_ivfEof : ¬ IvfEof .negativeArraySize := by
  rintro ⟨message, h⟩
  cases h

theorem readsExactly_readUnsignedBytes (n : Nat) :
    ReadsExactly IvfEof (IvfStream.readUnsignedBytes n) := by
  induction n with
  | zero => exact readsExactly_pure []
  | succ n ih =>
    refine (readsExactly_readOne ⟨_, rfl⟩).bind fun b => ?_
    exact ih.bind fun bs => readsExactly_pure _

theorem readsExactly_readU16Le : ReadsExactly IvfEof IvfStream.readU16Le :=
  (readsExactly_readUnsignedBytes 2).bind fun _ => readsExactly_pure _

theorem readsExactly_readU32Le : ReadsExactly IvfEof IvfStream.readU32Le :=
  (readsExactly_readUnsignedBytes 4).bind fun _ => readsExactly_pure _

theorem readsExactly_readU64Le : ReadsExactly IvfEof IvfStream.readU64Le :=
  (readsExactly_readUnsignedBytes 8).bind fun _ => readsExactly_pure _

theorem readsExactly_readBytes (n : Int32) : ReadsExactly IvfEof (IvfStream.readBytes n) :=
  ReadsExactly.ite _ (readsExactly_throw _) (readsExactly_readFully ⟨_, rfl⟩ _)

theorem readsExactly_ivfReader : ReadsExactly IvfEof IvfStream.ivfReader := by
  refine (readsExactly_readBytes 4).bind fun sig => ReadsExactly.check _ _ ?_
  refine readsExactly_readU16Le.bind fun version => readsExactly_readU16Le.bind fun headerSize => ?_
  refine ReadsExactly.check _ _ ((readsExactly_readBytes 4).bind fun _ => ?_)
  refine readsExactly_readU16Le.bind fun width => readsExactly_readU16Le.bind fun height => ?_
  refine readsExactly_readU32Le.bind fun den => readsExactly_readU32Le.bind fun num => ?_
  refine readsExactly_readU32Le.bind fun numFrames => readsExactly_readU32Le.bind fun _ => ?_
  refine ReadsExactly.ite _ ?_ (readsExactly_pure _)
  exact (readsExactly_skipFully ⟨_, rfl⟩ _).bind fun _ => readsExactly_pure _

theorem readsExactly_nextFrame : ReadsExactly IvfEof IvfStream.nextFrame := by
  refine readsExactly_readU32Le.bind fun size => readsExactly_readU64Le.bind fun timestamp => ?_
  refine (readsExactly_readBytes _).bind fun data => ?_
  split
  · exact readsExactly_pure _
  · exact readsExactly_throw _

/-- A cut in there is seen whatever the size. -/
theorem nextFrame_short {u : IvfUnit} (b : Beginning u.bytes) (hshort : b.part.length < 12) :
    ∃ e ys, IvfEof e ∧ IvfStream.nextFrame b.part = .error e ys := by
  have hexact : ReadsExactly IvfEof readSizeAndTimestamp :=
    readsExactly_readU32Le.bind fun _ => readsExactly_readU64Le.bind fun _ => readsExactly_pure _
  have hread := readSizeAndTimestamp_list u u.data
  obtain ⟨more, hheader, hmore⟩ : ∃ more, u.header = b.part ++ more ∧ more ≠ [] := by
    rcases List.append_eq_append_iff.mp b.eq with ⟨as, hpart, -⟩ | ⟨more, hheader, -⟩
    · rw [hpart, List.length_append, u.header_length] at hshort
      omega
    · refine ⟨more, hheader, ?_⟩
      rintro rfl
      have hlength := u.header_length
      rw [hheader, List.append_nil] at hlength
      omega
  rw [hheader] at hread
  obtain ⟨e, ys, he, herror⟩ := hexact.cut hread hmore
  exact ⟨e, ys, he, by rw [nextFrame_eq, bind_of_error herror]⟩

/-- A frame that can be read is missed when it is cut. -/
theorem nextFrame_cut {u : IvfUnit} (hsmall : u.Small) (b : Beginning u.bytes) :
    ∃ e ys, IvfEof e ∧ IvfStream.nextFrame b.part = .error e ys := by
  have hread := nextFrame_small hsmall []
  rw [b.eq] at hread
  exact readsExactly_nextFrame.cut hread b.more_ne

def OggEof (e : OggError) : Prop := e = .eof

theorem oggEof : OggEof .eof := rfl

theorem readsExactly_readSegmentSizes (n total : Nat) :
    ReadsExactly OggEof (OggStream.readSegmentSizes n total) := by
  induction n generalizing total with
  | zero => exact readsExactly_pure total
  | succ n ih =>
    have hbyte : ReadsExactly OggEof OggStream.readByte := readsExactly_readOne oggEof
    exact hbyte.bind fun size => ih (total + size.toNat)

theorem readsExactly_readRawPage : ReadsExactly OggEof OggStream.readRawPage := by
  have hbytes (n : Nat) : ReadsExactly OggEof (OggStream.readBytes n) :=
    readsExactly_readFully oggEof n
  have hbyte : ReadsExactly OggEof OggStream.readByte := readsExactly_readOne oggEof
  have h32 : ReadsExactly OggEof OggStream.readU32 :=
    (hbytes 4).bind fun _ => readsExactly_pure _
  have h64 : ReadsExactly OggEof OggStream.readU64 :=
    (hbytes 8).bind fun _ => readsExactly_pure _
  refine (hbytes 4).bind fun capture => ReadsExactly.check _ _ ?_
  refine hbyte.bind fun version => ReadsExactly.check _ _ ?_
  refine hbyte.bind fun _ => h64.bind fun granulePosition => h32.bind fun serial => ?_
  refine h32.bind fun _ => h32.bind fun _ => hbyte.bind fun numSegments => ?_
  refine (readsExactly_readSegmentSizes _ _).bind fun totalPayloadSize => ?_
  exact (hbytes _).bind fun payload => readsExactly_pure _

theorem readRawPage_cut {p : Page} (b : Beginning p.bytes) :
    ∃ ys, OggStream.readRawPage b.part = .error .eof ys := by
  have hread := readRawPage_list p []
  rw [b.eq] at hread
  obtain ⟨e, ys, rfl, hcut⟩ := readsExactly_readRawPage.cut hread b.more_ne
  exact ⟨ys, hcut⟩

/-! ## 4. The end of the stream -/

/-- A file up to some point: in its head, or in one more unit than it has complete ones.  A complete
file is one of which that unit has no byte yet. -/
inductive Source
  | ivfHead (head : IvfHead) (b : Beginning head.bytes)
  | ivf (head : IvfHead) (frames : List IvfUnit) (next : IvfUnit) (b : Beginning next.bytes)
  | oggHead (head : HeadPage) (b : Beginning head.page.bytes)
  | ogg (head : HeadPage) (pages : List Page) (next : Page) (b : Beginning next.bytes)

def Source.bytes : Source → List UInt8
  | .ivfHead _ b => b.part
  | .ivf head frames _ b => head.bytes ++ (frames.flatMap IvfUnit.bytes ++ b.part)
  | .oggHead _ b => b.part
  | .ogg head pages _ b => head.page.bytes ++ (pages.flatMap Page.bytes ++ b.part)

/-- How the loop is to end: with a `null` behind the last complete unit, and with an exception in
the middle of one. -/
def Ends {ε : Type} (isEof : ε → Prop) (part : List UInt8) : LoopEnd ε → Prop
  | .ended => part = []
  | .threw e => part ≠ [] ∧ isEof e
  | .running => False

theorem Ends.ne_running {ε : Type} {isEof : ε → Prop} {part : List UInt8} {ending : LoopEnd ε}
    (h : Ends isEof part ending) : ending ≠ .running := by
  rintro rfl
  exact h

section Loops

variable {σ : Type} [InputStream σ UInt8]

/-- A call, as the loop sees it: `nextFrame()` returns a new object, never `null`. -/
def ivfNext : EStateM IvfError σ (Option IvfFrame) := do
  let frame ← IvfStream.nextFrame
  return some frame

/-- And so does `nextPage()`. -/
def oggNext (r : OggReader) : EStateM OggError σ (Option OggPage) := do
  let page ← OggStream.nextPage r
  return some page

/-- **What the documentation says of the end.** -/
def Source.EndsRight (input : σ) : Source → Prop
  | .ivfHead _ _ => ∃ e s,
      IvfStream.ivfReader (.ofInput input : Buffered σ UInt8) = .error e s ∧ IvfEof e
  | .ivf _ frames _ b => ∃ header s,
      IvfStream.ivfReader (.ofInput input : Buffered σ UInt8) = .ok header s
        ∧ ∃ turns outs ending, whileNext ivfNext turns s = (outs, ending)
          ∧ outs.map (fun f => (f.data, f.timestamp.toUInt64))
            = frames.map (fun u => (u.data, u.timestamp))
          ∧ Ends IvfEof b.part ending
  | .oggHead _ _ => ∃ e s,
      OggStream.oggReader (OggStream.buffered input) = .error e s ∧ OggEof e
  | .ogg _ pages _ b => ∃ r s,
      OggStream.oggReader (OggStream.buffered input) = .ok r s
        ∧ ∃ turns outs ending, whileNext (oggNext r) turns s = (outs, ending)
          ∧ List.Forall₂ IsPage pages outs
          ∧ Ends OggEof b.part ending

theorem actsAs_ivfNext : ActsAs (ivfNext : EStateM IvfError σ _) ivfNext :=
  IvfStream.actsAs_nextFrame.bind fun _ => actsAs_pure _

theorem actsAs_oggNext (r : OggReader) : ActsAs (oggNext r : EStateM OggError σ _) (oggNext r) :=
  (OggStream.actsAs_nextPage r).bind fun _ => actsAs_pure _

end Loops

/-- The condition. -/
def Source.IsCut : Source → Prop
  | .ivfHead _ _ => True
  | .ivf _ frames next b =>
      b.part ≠ [] ∧ (∀ u ∈ frames, u.Small) ∧ (next.Small ∨ b.part.length < 12)
  | .oggHead _ _ => True
  | .ogg _ _ _ b => b.part ≠ []

/-- A call in front of an incomplete frame. -/
theorem nextFrame_beginning {u : IvfUnit} (b : Beginning u.bytes) :
    ∃ e ys, IvfStream.nextFrame b.part = .error e ys
      ∧ (IvfEof e ↔ u.Small ∨ b.part.length < 12) := by
  by_cases hsmall : u.Small
  · obtain ⟨e, ys, he, herror⟩ := nextFrame_cut hsmall b
    exact ⟨e, ys, herror, iff_of_true he (.inl hsmall)⟩
  by_cases hshort : b.part.length < 12
  · obtain ⟨e, ys, he, herror⟩ := nextFrame_short b hshort
    exact ⟨e, ys, herror, iff_of_true he (.inr hshort)⟩
  · -- the size has been read, and that is all it takes
    obtain ⟨data, hpart⟩ : ∃ data, b.part = u.header ++ data := by
      rcases List.append_eq_append_iff.mp b.eq with ⟨data, hpart, -⟩ | ⟨more, hheader, -⟩
      · exact ⟨data, hpart⟩
      · have hlength := congrArg List.length hheader
        rw [List.length_append, u.header_length] at hlength
        obtain rfl : more = [] := List.length_eq_zero_iff.mp (by omega)
        exact ⟨[], by rw [hheader, List.append_nil, List.append_nil]⟩
    refine ⟨_, _, hpart ▸ nextFrame_big hsmall data, iff_of_false not_ivfEof ?_⟩
    rintro (h | h)
    · exact hsmall h
    · exact hshort h

/-- **The loop never gets a `null`.**  It ends with an exception, and unless that is an
`EOFException` not even all complete frames have come. -/
theorem ivf_loop {next : IvfUnit} (b : Beginning next.bytes) (frames : List IvfUnit) :
    ∃ turns outs e,
      whileNext ivfNext turns (frames.flatMap IvfUnit.bytes ++ b.part) = (outs, .threw e)
        ∧ (IvfEof e ↔ (∀ u ∈ frames, u.Small) ∧ (next.Small ∨ b.part.length < 12))
        ∧ (IvfEof e → outs = frames.map IvfUnit.read) := by
  induction frames with
  | nil =>
    obtain ⟨e, ys, herror, hiff⟩ := nextFrame_beginning b
    refine ⟨1, [], e, ?_, by simpa using hiff, fun _ => rfl⟩
    rw [List.flatMap_nil, List.nil_append, whileNext, ivfNext, bind_of_error herror]
  | cons u us ih =>
    rw [List.flatMap_cons, List.append_assoc]
    by_cases hsmall : u.Small
    · obtain ⟨turns, outs, e, hrun, hiff, houts⟩ := ih
      have hnext : ivfNext (u.bytes ++ (us.flatMap IvfUnit.bytes ++ b.part))
          = .ok (some u.read) (us.flatMap IvfUnit.bytes ++ b.part) :=
        (bind_of_ok (nextFrame_small hsmall _)).trans rfl
      refine ⟨turns + 1, u.read :: outs, e, ?_, ?_, ?_⟩
      · rw [whileNext, hnext]
        simp only [hrun]
      · simp [hiff, hsmall]
      · intro he
        rw [houts he, List.map_cons]
    · have herror := nextFrame_big hsmall (u.data ++ (us.flatMap IvfUnit.bytes ++ b.part))
      rw [← List.append_assoc] at herror
      refine ⟨1, [], .negativeArraySize, ?_, iff_of_false not_ivfEof ?_,
        fun he => absurd he not_ivfEof⟩
      · rw [whileNext, ivfNext, IvfUnit.bytes, bind_of_error herror]
      · exact fun h => hsmall (h.1 u List.mem_cons_self)

theorem ogg_loop {next : Page} (b : Beginning next.bytes) (header : OggHeader) (pages : List Page) :
    whileNext (oggNext ⟨header, true⟩) (pages.length + 1) (pages.flatMap Page.bytes ++ b.part)
      = (pages.map Page.read, .threw .eof) := by
  have hunits := whileNext_units (oggNext ⟨header, true⟩) Page.bytes Page.read pages b.part
    (fun p _ ys => (bind_of_ok (readRawPage_list p ys)).trans rfl) 1
  obtain ⟨ys, hcut⟩ := readRawPage_cut b
  have hend : whileNext (oggNext ⟨header, true⟩) 1 b.part = ([], .threw .eof) := by
    have hnext : oggNext ⟨header, true⟩ b.part = .error .eof ys := bind_of_error hcut
    rw [whileNext, hnext]
  rw [hunits, hend, List.append_nil]

/-- What comes out is what stands in the file. -/
theorem IvfUnit.Small.read_eq {u : IvfUnit} (h : u.Small) :
    (u.read.data, u.read.timestamp.toUInt64) = (u.data, u.timestamp) := by
  rw [IvfUnit.read, dif_pos (Nat.le_sub_one_of_lt h)]
  simp [Int64.ofNat]

section EndOfStream

variable {σ : Type} [InputStream σ UInt8]

theorem ivf_endsRight_iff (head : IvfHead) (frames : List IvfUnit) (next : IvfUnit)
    (b : Beginning next.bytes) (input : σ)
    (hinput : elems input = (Source.ivf head frames next b).bytes) :
    (Source.ivf head frames next b).EndsRight input ↔ (Source.ivf head frames next b).IsCut := by
  have hopen := IvfStream.actsAs_ivfReader (.ofInput input : Buffered σ UInt8)
  rw [Buffered.elems_ofInput, hinput, Source.bytes, ivfReader_list] at hopen
  obtain ⟨s, hopen, hs⟩ := overElems_eq_ok hopen
  obtain ⟨turns, outs, e, hrun, hiff, houts⟩ := ivf_loop b frames
  rw [← hs, ← whileNext_eq actsAs_ivfNext] at hrun
  constructor
  · rintro ⟨header, s', hopen', turns', outs', ending, hrun', -, hends⟩
    rw [hopen] at hopen'
    cases hopen'
    -- the loop is over in one way only, and that is not with a `null`
    obtain ⟨-, rfl⟩ := whileNext_unique hrun' hrun hends.ne_running (by simp)
    exact ⟨hends.1, hiff.mp hends.2⟩
  · rintro ⟨hpart, hsmall, hnext⟩
    have he := hiff.mpr ⟨hsmall, hnext⟩
    refine ⟨_, s, hopen, turns, outs, .threw e, hrun, ?_, hpart, he⟩
    rw [houts he, List.map_map]
    exact List.map_congr_left fun u hu => (hsmall u hu).read_eq

theorem ogg_endsRight_iff (head : HeadPage) (pages : List Page) (next : Page)
    (b : Beginning next.bytes) (input : σ)
    (hinput : elems input = (Source.ogg head pages next b).bytes) :
    (Source.ogg head pages next b).EndsRight input ↔ (Source.ogg head pages next b).IsCut := by
  have hopen := OggStream.actsAs_oggReader (OggStream.buffered input)
  rw [OggStream.elems_buffered, hinput, Source.bytes, oggReader_list] at hopen
  obtain ⟨s, hopen, hs⟩ := overElems_eq_ok hopen
  have hrun := ogg_loop b (opusHeader head.head.bytes) pages
  rw [← hs, ← whileNext_eq (actsAs_oggNext _)] at hrun
  constructor
  · rintro ⟨r, s', hopen', turns', outs', ending, hrun', -, hends⟩
    rw [hopen] at hopen'
    cases hopen'
    obtain ⟨-, rfl⟩ := whileNext_unique hrun' hrun hends.ne_running (by simp)
    exact hends.1
  · intro hpart
    refine ⟨_, s, hopen, _, _, .threw .eof, hrun, ?_, hpart, oggEof⟩
    rw [List.forall₂_map_right_iff, List.forall₂_same]
    exact fun p _ => isPage_read p

/-- **The end of a stream.**  A truncated file ends as documented, if no frame is too big; a
complete one never does. -/
theorem end_of_stream_iff (src : Source) (input : σ) (hinput : elems input = src.bytes) :
    src.EndsRight input ↔ src.IsCut := by
  cases src with
  | ivfHead head b =>
    refine iff_of_true ?_ trivial
    have hread := ivfReader_list head []
    rw [b.eq] at hread
    obtain ⟨e, ys, he, hcut⟩ := readsExactly_ivfReader.cut hread b.more_ne
    have hopen := IvfStream.actsAs_ivfReader (.ofInput input : Buffered σ UInt8)
    rw [Buffered.elems_ofInput, hinput, Source.bytes, hcut] at hopen
    obtain ⟨s, hopen, -⟩ := overElems_eq_error hopen
    exact ⟨e, s, hopen, he⟩
  | ivf head frames next b => exact ivf_endsRight_iff head frames next b input hinput
  | oggHead head b =>
    refine iff_of_true ?_ trivial
    obtain ⟨ys, hcut⟩ := readRawPage_cut b
    have hreader : OggStream.oggReader b.part = .error .eof ys := bind_of_error hcut
    have hopen := OggStream.actsAs_oggReader (OggStream.buffered input)
    rw [OggStream.elems_buffered, hinput, Source.bytes, hreader] at hopen
    obtain ⟨s, hopen, -⟩ := overElems_eq_error hopen
    exact ⟨.eof, s, hopen, oggEof⟩
  | ogg head pages next b => exact ogg_endsRight_iff head pages next b input hinput

end EndOfStream

def sampleIvfHead : IvfHead :=
  ⟨ascii "AV01", 640, 480, 30, 1, 1, 0, [], by decide, by decide⟩

def sampleUnit : IvfUnit := ⟨[1, 2, 3], 7, by decide⟩

/-- A file of one frame, and one byte of another. -/
def cutSource : Source :=
  .ivf sampleIvfHead [sampleUnit] sampleUnit
    ⟨[3], [0, 0, 0, 7, 0, 0, 0, 0, 0, 0, 0, 1, 2, 3], by decide, by decide⟩

theorem end_of_stream_iff_cut : cutSource.IsCut ∧ cutSource.EndsRight cutSource.bytes := by
  have hcut : cutSource.IsCut := ⟨by decide, by decide, .inl (by decide)⟩
  exact ⟨hcut, (end_of_stream_iff cutSource cutSource.bytes rfl).mpr hcut⟩

/-- The same file without that byte. -/
def completeSource : Source :=
  .ivf sampleIvfHead [sampleUnit] sampleUnit ⟨[], sampleUnit.bytes, rfl, by decide⟩

/-- It is complete, and the loop gets an exception. -/
theorem complete_file_throws : ¬ completeSource.EndsRight completeSource.bytes := by
  intro h
  exact ((ivf_endsRight_iff _ _ _ _ completeSource.bytes rfl).mp h).1 rfl

end WebrtcBridge.Media.Framing
