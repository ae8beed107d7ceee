/-
# Ogg Opus files: `OggReader.java`

An Ogg file is a sequence of PAGES and carries a sequence of PACKETS, and the two borders have
nothing to do with each other.  A packet is cut into segments of 255 bytes and a last one that is
shorter, maybe empty; a page holds up to 255 segments, and the table in its header gives their
lengths.  So where a packet ends is known from that table only.  An Ogg Opus file has the packet
`OpusHead` on its first page, the packet `OpusTags` on pages of its own, and then audio.

`OggReader` promises "individual Opus frames".  It adds the lengths of the table up and returns
whole pages (`nextPages_pages`); and it means to pass over `OpusTags` before the first page, but the
flag that guards this, `headerParsed`, has been set by the constructor.  The second slip alone
decides the matter: the bytes of `OpusTags` come out as audio, so for NO well-formed file is what
comes out the audio packets (`ogg_never_packets`).
-/
import Mathlib.Algebra.BigOperators.Group.List.Basic
import WebrtcBridge.Lib.ByteInput

namespace WebrtcBridge.Media.Ogg

open Lib

/-! ## 1. The format -/

/-- The segments of a packet: 255 bytes each and a shorter last one. -/
def laceLoop : Nat → List UInt8 → List (List UInt8)
  | 0, packet => [packet]
  | turns + 1, packet =>
    if packet.length < 255 then [packet] else packet.take 255 :: laceLoop turns (packet.drop 255)

def lace (packet : List UInt8) : List (List UInt8) := laceLoop (packet.length / 255) packet

/-- A page, its payload cut into segments.  The checksum is any number: the reader does not look at
it. -/
structure Page where
  headerType : UInt8
  granulePosition : UInt64
  serial : UInt32
  sequence : UInt32
  checksum : UInt32
  segments : List (List UInt8)
  count_le : segments.length ≤ 255
  length_le : ∀ s ∈ segments, s.length ≤ 255
  deriving DecidableEq

namespace Page

variable (p : Page)

def payload : List UInt8 := p.segments.flatten

/-- The page as it stands in the file. -/
def bytes : List UInt8 :=
  ascii "OggS" ++ 0 :: p.headerType :: (leBytes 8 p.granulePosition.toNat
    ++ leBytes 4 p.serial.toNat ++ leBytes 4 p.sequence.toNat ++ leBytes 4 p.checksum.toNat
    ++ UInt8.ofNat p.segments.length :: p.segments.map (fun s => UInt8.ofNat s.length)
    ++ p.payload)

end Page

/-- Flags of the page number `n` of `last`: the first page starts the stream, the last one ends it,
and a page that starts within a packet says so. -/
def pageFlags (n last : Nat) (continued : Bool) : UInt8 :=
  (if continued then 1 else 0) ||| (if n = 0 then 2 else 0) ||| (if n = last then 4 else 0)

/-- The segment before a page border was full, so its packet goes on. -/
def goesOn (segments : List (List UInt8)) : Bool := segments.getLast?.any fun s => s.length == 255

/-- Serial number, numbering and flags of the pages from number `n` on. -/
def Numbered (serial : UInt32) (last : Nat) : Nat → Bool → List Page → Prop
  | _, _, [] => True
  | n, continued, p :: ps =>
    p.serial = serial ∧ p.sequence = UInt32.ofNat n ∧ p.headerType = pageFlags n last continued
      ∧ Numbered serial last (n + 1)
          (if p.segments.isEmpty then continued else goesOn p.segments) ps

/-- The packet `OpusHead`, version 1. -/
def IsOpusHead (packet : List UInt8) : Prop :=
  ∃ channels preSkip0 preSkip1 rest, packet = ascii "OpusHead"
    ++ 1 :: channels :: preSkip0 :: preSkip1 :: rest ∧ 7 ≤ rest.length

/-- **A well-formed Ogg Opus file** with its packets. -/
structure OggOpusFile where
  serial : UInt32
  head : List UInt8
  tags : List UInt8
  packets : List (List UInt8)
  headPage : Page
  tagsPages : List Page
  audioPages : List Page
  isHead : IsOpusHead head
  isTags : ascii "OpusTags" <+: tags
  head_laced : headPage.segments = lace head
  tags_laced : tagsPages.flatMap (·.segments) = lace tags
  audio_laced : audioPages.flatMap (·.segments) = packets.flatMap lace
  numbered : Numbered serial (tagsPages.length + audioPages.length) 0 false
    (headPage :: (tagsPages ++ audioPages))

/-- The pages behind the first one. -/
def OggOpusFile.pages (f : OggOpusFile) : List Page := f.tagsPages ++ f.audioPages

def OggOpusFile.bytes (f : OggOpusFile) : List UInt8 :=
  f.headPage.bytes ++ f.pages.flatMap Page.bytes

/-! ## 2. The reader -/

inductive OggError
  | io (message : String)
  | eof
  deriving DecidableEq, Repr

abbrev OggRead := Reader UInt8 OggError

structure OggHeader where
  channels : Int32
  sampleRate : Int32
  preSkip : Int32
  deriving DecidableEq

structure OggPage where
  data : List UInt8
  granulePosition : Int64
  serial : Int32
  deriving DecidableEq

/-- `OggReader`, besides its input. -/
structure OggReader where
  header : OggHeader
  headerParsed : Bool
  deriving DecidableEq

def readByte : OggRead UInt8 := readOne .eof

def readBytes (count : Nat) : OggRead (List UInt8) := readFully .eof count

def readU32 : OggRead Int32 := do
  return Int32.ofNat (orBytes 0 0 (← readBytes 4))

def readU64 : OggRead Int64 := do
  return Int64.ofNat (orBytes 0 0 (← readBytes 8))

/-- The loop that reads the table and adds it up. -/
def readSegmentSizes : Nat → Nat → OggRead Nat
  | 0, totalPayloadSize => pure totalPayloadSize
  | n + 1, totalPayloadSize => do
    let size ← readByte
    readSegmentSizes n (totalPayloadSize + size.toNat)

/-- `readRawPage()`, and what `nextPage()` does once the tags are dealt with: the two bodies are the
same. -/
def readRawPage : OggRead OggPage := do
  let capture ← readBytes 4
  if capture ≠ ascii "OggS" then throw (.io "Invalid OGG capture pattern")
  let version ← readByte
  if version ≠ 0 then throw (.io ("Unsupported OGG version: " ++ toString version))
  let _ ← readByte
  let granulePosition ← readU64
  let serial ← readU32
  let _ ← readU32
  let _ ← readU32
  let numSegments ← readByte
  let totalPayloadSize ← readSegmentSizes numSegments.toNat 0
  let payload ← readBytes totalPayloadSize
  return ⟨payload, granulePosition, serial⟩

/-- Bytes of an array, lowest first. -/
def readLE (data : List UInt8) (offset count : Nat) : Int32 :=
  Int32.ofNat (orBytes 0 0 ((data.drop offset).take count))

/-- The fields of `OpusHead`. -/
def opusHeader (data : List UInt8) : OggHeader where
  channels := Int32.ofNat (data.getD 9 0).toNat
  sampleRate := readLE data 12 4
  preSkip := readLE data 10 2

/-- The constructor, that is `readOpusHeader()`. -/
def oggReader : OggRead OggReader := do
  let firstPage ← readRawPage
  let data := firstPage.data
  if data.length < 19 then throw (.io "OpusHead packet too short")
  if data.take 8 ≠ ascii "OpusHead" then throw (.io "Invalid OpusHead magic")
  let version := data.getD 8 0
  if 1 < version then throw (.io ("Unsupported OpusHead version: " ++ toString version))
  return ⟨opusHeader data, true⟩

def skipOpusTags : OggRead Unit := do
  let _ ← readRawPage

def OggReader.nextPage (r : OggReader) : OggRead OggPage := do
  if !r.headerParsed then skipOpusTags
  readRawPage

/-- So many calls of `nextPage`, up to the first that throws: the pages, and what was thrown. -/
def OggReader.nextPages (r : OggReader) : Nat → Input UInt8 → List OggPage × Option OggError
  | 0, _ => ([], none)
  | calls + 1, i =>
    match r.nextPage i with
    | .error e => ([], some e)
    | .ok (p, i') => (p :: (r.nextPages calls i').1, (r.nextPages calls i').2)

/-! ## 3. What a call returns -/

/-- The page as the reader gives it. -/
def Page.read (p : Page) : OggPage :=
  ⟨p.payload, Int64.ofNat p.granulePosition.toNat, Int32.ofNat p.serial.toNat⟩

theorem readU32_yields (x : UInt32) (rest : List UInt8) :
    Yields readU32 (leBytes 4 x.toNat ++ rest) (Int32.ofNat x.toNat) rest := by
  have h := (readFully_yields OggError.eof rest (leBytes_length 4 x.toNat)).bind_pure
    fun bs => Int32.ofNat (orBytes 0 0 bs)
  have hlt : x.toNat < 256 ^ 4 := x.toNat_lt
  rwa [orBytes_leBytes, Nat.mod_eq_of_lt hlt] at h

theorem readU64_yields (x : UInt64) (rest : List UInt8) :
    Yields readU64 (leBytes 8 x.toNat ++ rest) (Int64.ofNat x.toNat) rest := by
  have h := (readFully_yields OggError.eof rest (leBytes_length 8 x.toNat)).bind_pure
    fun bs => Int64.ofNat (orBytes 0 0 bs)
  have hlt : x.toNat < 256 ^ 8 := x.toNat_lt
  rwa [orBytes_leBytes, Nat.mod_eq_of_lt hlt] at h

/-- The table adds up to the length of the payload. -/
theorem readSegmentSizes_yields :
    ∀ (segments : List (List UInt8)) (total : Nat) (rest : List UInt8),
    (∀ s ∈ segments, s.length ≤ 255) →
    Yields (readSegmentSizes segments.length total)
      (segments.map (fun s => UInt8.ofNat s.length) ++ rest) (total + segments.flatten.length) rest
  | [], total, rest, _ => by
    simpa [readSegmentSizes] using yields_pure total rest
  | s :: segments, total, rest, h => by
    have hs : (UInt8.ofNat s.length).toNat = s.length :=
      UInt8.toNat_ofNat_of_lt' (by have := h s List.mem_cons_self; exact Nat.lt_succ_of_le this)
    have ih := readSegmentSizes_yields segments (total + s.length) rest
      fun t ht => h t (List.mem_cons_of_mem s ht)
    rw [List.flatten_cons, List.length_append, ← Nat.add_assoc]
    refine (readOne_yields _ _ _).bind ?_
    rw [hs]
    exact ih

/-- **A page is read as a whole.** -/
theorem readRawPage_yields (p : Page) (rest : List UInt8) :
    Yields readRawPage (p.bytes ++ rest) p.read rest := by
  have hcount : (UInt8.ofNat p.segments.length).toNat = p.segments.length :=
    UInt8.toNat_ofNat_of_lt' (Nat.lt_succ_of_le p.count_le)
  simp only [Page.bytes, List.append_assoc, List.cons_append]
  unfold readRawPage
  refine (readFully_yields _ _ (by decide)).bind ?_
  rw [if_neg (not_not.mpr rfl)]
  refine (readOne_yields _ _ _).bind ?_
  rw [if_neg (not_not.mpr rfl)]
  refine (readOne_yields _ _ _).bind ((readU64_yields _ _).bind ?_)
  refine (readU32_yields _ _).bind ((readU32_yields _ _).bind ((readU32_yields _ _).bind ?_))
  refine (readOne_yields _ _ _).bind ?_
  rw [hcount]
  refine (readSegmentSizes_yields _ _ _ p.length_le).bind ?_
  rw [Nat.zero_add]
  exact (readFully_yields _ rest rfl).bind (yields_pure _ rest)

theorem readRawPage_raises : Raises readRawPage [] .eof :=
  (readFully_raises OggError.eof (by decide)).bind _

theorem laceLoop_flatten : ∀ (turns : Nat) (packet : List UInt8),
    (laceLoop turns packet).flatten = packet
  | 0, packet => by simp [laceLoop]
  | turns + 1, packet => by
    rw [laceLoop]
    split
    · simp
    · rw [List.flatten_cons, laceLoop_flatten turns, List.take_append_drop]

theorem lace_flatten (packet : List UInt8) : (lace packet).flatten = packet :=
  laceLoop_flatten _ packet

/-- The first page is accepted, and the flag is set. -/
theorem oggReader_yields (f : OggOpusFile) (rest : List UInt8) :
    Yields oggReader (f.headPage.bytes ++ rest) ⟨opusHeader f.head, true⟩ rest := by
  have hdata : f.headPage.read.data = f.head := by
    rw [Page.read, Page.payload, f.head_laced, lace_flatten]
  obtain ⟨channels, preSkip0, preSkip1, tail, hhead, htail⟩ := f.isHead
  have hlength : ¬ f.head.length < 19 := by
    rw [hhead]
    simp [ascii]
    omega
  have hmagic : ¬ f.head.take 8 ≠ ascii "OpusHead" := by
    rw [hhead]
    exact not_not.mpr rfl
  have hversion : f.head.getD 8 0 = 1 := by
    rw [hhead]
    rfl
  refine (readRawPage_yields f.headPage rest).bind ?_
  rw [hdata, if_neg hlength, if_neg hmagic, hversion, if_neg (by decide)]
  exact yields_pure _ rest

/-- **Pages come out as pages.**  With the flag set, calling `nextPage` until it throws gives the
payload of every page that is left, and then the end of the file. -/
theorem nextPages_pages (header : OggHeader) : ∀ (pages : List Page) (i : Input UInt8),
    i.elems = pages.flatMap Page.bytes →
    OggReader.nextPages ⟨header, true⟩ (pages.length + 1) i = (pages.map Page.read, some .eof)
  | [], i, hi => by
    have hnext : OggReader.nextPage ⟨header, true⟩ i = .error .eof := readRawPage_raises i hi
    simp [OggReader.nextPages, hnext]
  | p :: pages, i, hi => by
    obtain ⟨i', hread, hi'⟩ := readRawPage_yields p (pages.flatMap Page.bytes) i
      (by rw [hi, List.flatMap_cons])
    have hnext : OggReader.nextPage ⟨header, true⟩ i = .ok (p.read, i') := hread
    rw [List.length_cons, OggReader.nextPages, hnext]
    simp only [nextPages_pages header pages i' hi', List.map_cons]

/-- However often it is called: once it has thrown, more calls change nothing. -/
theorem nextPages_stop (r : OggReader) : ∀ (calls calls' : Nat) (i : Input UInt8) {e e' : OggError},
    (r.nextPages calls i).2 = some e → (r.nextPages calls' i).2 = some e' →
    r.nextPages calls i = r.nextPages calls' i
  | calls + 1, calls' + 1, i, e, e', h, h' => by
    rw [OggReader.nextPages] at h h' ⊢
    rw [OggReader.nextPages]
    cases hnext : r.nextPage i with
    | error e => rfl
    | ok v =>
      rw [hnext] at h h'
      simp only [nextPages_stop r calls calls' v.2 h h']

/-! ## 4. Pages are not packets -/

/-- What the reader is for: the constructor accepts the file, and calling `nextPage` up to the end
of the stream gives the audio packets in order, none of them `OpusTags`. -/
def DeliversPackets (f : OggOpusFile) (i : Input UInt8) : Prop :=
  ∃ r atPages calls, oggReader i = .ok (r, atPages) ∧ (r.nextPages calls atPages).2 = some .eof
    ∧ (r.nextPages calls atPages).1.map (·.data) = f.packets
    ∧ f.tags ∉ (r.nextPages calls atPages).1.map (·.data)

theorem flatten_payloads (pages : List Page) :
    ((pages.map Page.read).map (·.data)).flatten = (pages.flatMap (·.segments)).flatten := by
  induction pages with
  | nil => rfl
  | cons p pages ih =>
    simp only [List.map_cons, List.flatten_cons, List.flatMap_cons, List.flatten_append, ih]
    rfl

theorem flatten_flatMap_lace (packets : List (List UInt8)) :
    (packets.flatMap lace).flatten = packets.flatten := by
  induction packets with
  | nil => rfl
  | cons packet packets ih =>
    rw [List.flatMap_cons, List.flatten_append, lace_flatten, ih, List.flatten_cons]

/-- The pages behind the first carry the bytes of `OpusTags` and of the audio. -/
theorem OggOpusFile.flatten_pages (f : OggOpusFile) :
    ((f.pages.map Page.read).map (·.data)).flatten = f.tags ++ f.packets.flatten := by
  rw [flatten_payloads, OggOpusFile.pages, List.flatMap_append, List.flatten_append, f.tags_laced,
    f.audio_laced, lace_flatten, flatten_flatMap_lace]

/-- What comes out is longer than the audio. -/
theorem OggOpusFile.pages_ne_packets (f : OggOpusFile) :
    (f.pages.map Page.read).map (·.data) ≠ f.packets := by
  intro heq
  have htags : f.tags.length ≠ 0 := by
    have hle := f.isTags.length_le
    simp [ascii] at hle
    omega
  have hbytes := congrArg List.length f.flatten_pages
  rw [heq, List.length_append] at hbytes
  omega

/-- What the reader delivers of a well-formed file. -/
theorem delivered_eq {f : OggOpusFile} {i atPages : Input UInt8} {r : OggReader} {calls : Nat}
    (hi : i.elems = f.bytes) (hr : oggReader i = .ok (r, atPages))
    (heof : (r.nextPages calls atPages).2 = some .eof) :
    (r.nextPages calls atPages).1 = f.pages.map Page.read := by
  obtain ⟨atPages', hr', hrest⟩ := oggReader_yields f (f.pages.flatMap Page.bytes) i hi
  rw [hr] at hr'
  cases hr'
  have hpages := nextPages_pages (opusHeader f.head) f.pages atPages hrest
  rw [nextPages_stop _ calls _ atPages heof (by rw [hpages]), hpages]

/-- **For no well-formed file, however it is delivered, are the audio packets what comes out.** -/
theorem ogg_never_packets (f : OggOpusFile) (i : Input UInt8) (hi : i.elems = f.bytes) :
    ¬ DeliversPackets f i := by
  rintro ⟨r, atPages, calls, hr, heof, hdata, -⟩
  rw [delivered_eq hi hr heof] at hdata
  exact f.pages_ne_packets hdata

/-- `OpusHead` for one channel at 48 kHz. -/
def sampleHead : List UInt8 :=
  ascii "OpusHead" ++ [1, 1, 0x38, 1, 0x80, 0xbb, 0, 0, 0, 0, 0]

/-- `OpusTags` without a vendor and without comments. -/
def sampleTags : List UInt8 := ascii "OpusTags" ++ [0, 0, 0, 0, 0, 0, 0, 0]

/-- Two packets on one page of audio. -/
def sampleFile : OggOpusFile where
  serial := 9
  head := sampleHead
  tags := sampleTags
  packets := [[0xf8, 1], [0xf8, 2, 3]]
  headPage := ⟨2, 0, 9, 0, 0, [sampleHead], by decide, by decide⟩
  tagsPages := [⟨0, 0, 9, 1, 0, [sampleTags], by decide, by decide⟩]
  audioPages := [⟨4, 1920, 9, 2, 0, [[0xf8, 1], [0xf8, 2, 3]], by decide, by decide⟩]
  isHead := ⟨1, 0x38, 1, _, rfl, by decide⟩
  isTags := ⟨_, rfl⟩
  head_laced := by decide
  tags_laced := by decide
  audio_laced := by decide
  numbered := by simp [Numbered, pageFlags, goesOn, sampleHead, sampleTags, ascii]

theorem ogg_never_packets_sample : ¬ DeliversPackets sampleFile (.whole sampleFile.bytes) :=
  ogg_never_packets sampleFile _ (Input.elems_whole _)

/-- **What comes out are the tags, and then the two packets of the page as one array.** -/
theorem ogg_tags_as_audio :
    (∃ r atPages, oggReader (.whole sampleFile.bytes) = .ok (r, atPages)
      ∧ (r.nextPages 3 atPages).1.map (·.data) = [sampleTags, [0xf8, 1, 0xf8, 2, 3]]
      ∧ (r.nextPages 3 atPages).2 = some .eof)
      ∧ ¬ DeliversPackets sampleFile (.whole sampleFile.bytes) := by
  constructor
  · obtain ⟨atPages, hr, hrest⟩ := oggReader_yields sampleFile (sampleFile.pages.flatMap Page.bytes)
      (.whole sampleFile.bytes) (Input.elems_whole _)
    have hpages : OggReader.nextPages ⟨opusHeader sampleFile.head, true⟩ 3 atPages
        = (sampleFile.pages.map Page.read, some .eof) :=
          nextPages_pages _ sampleFile.pages atPages hrest
    refine ⟨_, atPages, hr, ?_, ?_⟩
    · rw [hpages]
      decide
    · rw [hpages]
  · rintro ⟨r, atPages, calls, hr, heof, -, htags⟩
    rw [delivered_eq (Input.elems_whole _) hr heof] at htags
    exact htags (by decide)

end WebrtcBridge.Media.Ogg
