/-
# Handshake messages in fragments

A handshake message may be longer than a datagram.  `fragment_handshake` cuts it, each piece behind
a header that says where it belongs; `FragmentBuffer` collects the pieces and gives the messages
back in the order of their numbers.

The buffer is told nothing about the network: pieces come in any order, several times, and between
pieces of other messages.  What it needs is stated in §3: every piece of the message has come, and
all that has come under its number are pieces of it.

* §1  headers, and the sender's `fragment_handshake`;
* §2  `push`: a record with one fragment adds that fragment;
* §3  `pop`: the message comes back, whatever the order of arrival.

The map from message numbers to fragments is kept as one list in the order of arrival.  An entry of
the map is never empty, so a number is in the map exactly if a fragment with that number is in the
list.
-/
import Mathlib.Data.List.Count
import Mathlib.Algebra.Ring.Nat
import Mathlib.Data.List.Nodup
import Mathlib.Data.List.Perm.Subperm
import WebrtcBridge.Lib.Runs
import WebrtcBridge.Dtls.Record

namespace WebrtcBridge.Dtls

open Lib

/-! ## 1. Fragments -/

def HANDSHAKE_HEADER_LENGTH : Nat := 12
def FRAGMENT_BUFFER_MAX_SIZE : Nat := 2000000

inductive HandshakeType where
  | helloRequest
  | clientHello
  | serverHello
  | helloVerifyRequest
  | certificate
  | serverKeyExchange
  | certificateRequest
  | serverHelloDone
  | certificateVerify
  | clientKeyExchange
  | finished
  | invalid
  deriving DecidableEq, Repr

def HandshakeType.toUInt8 : HandshakeType → UInt8
  | .helloRequest => 0
  | .clientHello => 1
  | .serverHello => 2
  | .helloVerifyRequest => 3
  | .certificate => 11
  | .serverKeyExchange => 12
  | .certificateRequest => 13
  | .serverHelloDone => 14
  | .certificateVerify => 15
  | .clientKeyExchange => 16
  | .finished => 20
  | .invalid => 21

def HandshakeType.ofUInt8 (val : UInt8) : HandshakeType :=
  if val = 0 then .helloRequest
  else if val = 1 then .clientHello
  else if val = 2 then .serverHello
  else if val = 3 then .helloVerifyRequest
  else if val = 11 then .certificate
  else if val = 12 then .serverKeyExchange
  else if val = 13 then .certificateRequest
  else if val = 14 then .serverHelloDone
  else if val = 15 then .certificateVerify
  else if val = 16 then .clientKeyExchange
  else if val = 20 then .finished
  else .invalid

@[simp] theorem HandshakeType.ofUInt8_toUInt8 (t : HandshakeType) : .ofUInt8 t.toUInt8 = t := by
  cases t <;> rfl

/-- `HandshakeHeader`; length, offset and fragment length have 24 bits on the wire. -/
structure HandshakeHeader where
  handshakeType : HandshakeType
  length : Nat
  messageSequence : UInt16
  fragmentOffset : Nat
  fragmentLength : Nat
  deriving DecidableEq, Repr

namespace HandshakeHeader

/-- What `marshal` writes. -/
def bytes (h : HandshakeHeader) : List UInt8 :=
  [h.handshakeType.toUInt8] ++ (beBytes 3 h.length ++ (be16 h.messageSequence
    ++ (beBytes 3 h.fragmentOffset ++ beBytes 3 h.fragmentLength)))

def unmarshal (reader : List UInt8) : Except Error (HandshakeHeader × List UInt8) := do
  let (handshakeType, reader) ← getU8 Error.unexpectedEof reader
  let (length, reader) ← getUint Error.unexpectedEof 3 reader
  let (messageSequence, reader) ← getU16 Error.unexpectedEof reader
  let (fragmentOffset, reader) ← getUint Error.unexpectedEof 3 reader
  let (fragmentLength, reader) ← getUint Error.unexpectedEof 3 reader
  return (⟨.ofUInt8 handshakeType, length, messageSequence, fragmentOffset, fragmentLength⟩, reader)

/-- The header of the message put together again. -/
def whole (h : HandshakeHeader) : HandshakeHeader :=
  { h with fragmentOffset := 0, fragmentLength := h.length }

structure Fits (h : HandshakeHeader) : Prop where
  length : h.length < 2 ^ 24
  fragmentOffset : h.fragmentOffset < 2 ^ 24
  fragmentLength : h.fragmentLength < 2 ^ 24

variable {h : HandshakeHeader}

@[simp] theorem length_bytes (h : HandshakeHeader) : h.bytes.length = HANDSHAKE_HEADER_LENGTH := by
  simp [bytes, HANDSHAKE_HEADER_LENGTH]

theorem Fits.unmarshal (hf : h.Fits) (rest : List UInt8) :
    HandshakeHeader.unmarshal (h.bytes ++ rest) = .ok (h, rest) := by
  have hlength : h.length < 256 ^ 3 := hf.length
  have hoffset : h.fragmentOffset < 256 ^ 3 := hf.fragmentOffset
  have hfragment : h.fragmentLength < 256 ^ 3 := hf.fragmentLength
  simp only [HandshakeHeader.unmarshal, bytes, List.cons_append, List.nil_append, List.append_assoc,
    getU8_cons, getUint_beBytes _ _ hlength, getU16_be16, getUint_beBytes _ _ hoffset,
    getUint_beBytes _ _ hfragment, bind, Except.bind, pure, Except.pure,
      HandshakeType.ofUInt8_toUInt8]

end HandshakeHeader

/-- `split_bytes`: the piece at every multiple of the length. -/
def splitBytes (bytes : List UInt8) (splitLen : Nat) : List (List UInt8) :=
  (List.range ((bytes.length + splitLen - 1) / splitLen)).map fun i =>
    (bytes.drop (i * splitLen)).take splitLen

/-- The loop of `fragment_handshake`: each piece with its header. -/
def fragmentLoop (h : HandshakeHeader) :
    Nat → List (List UInt8) → List (HandshakeHeader × List UInt8)
  | _, [] => []
  | offset, piece :: pieces =>
    ({ h with fragmentOffset := offset, fragmentLength := piece.length }, piece)
      :: fragmentLoop h (offset + piece.length) pieces

/-- The pieces of a message; an empty message has one, which is empty. -/
def contentFragments (maximumTransmissionUnit : Nat) (content : List UInt8) : List (List UInt8) :=
  let pieces := splitBytes content maximumTransmissionUnit
  if pieces = [] then [[]] else pieces

/-- `fragment_handshake`, before header and piece are written one behind the other. -/
def fragmentHandshake (maximumTransmissionUnit : Nat) (h : HandshakeHeader) (content : List UInt8) :
    List (HandshakeHeader × List UInt8) :=
  fragmentLoop h 0 (contentFragments maximumTransmissionUnit content)

section Split

variable {bytes : List UInt8} {k : Nat}

/-- The pieces of a split, with what is in front of them left out. -/
theorem splitBytes_eq (hk : 0 < k) (hne : bytes ≠ []) :
    splitBytes bytes k = bytes.take k :: splitBytes (bytes.drop k) k := by
  have hpos : 0 < bytes.length := List.length_pos_iff.mpr hne
  have hcount : (bytes.length + k - 1) / k = ((bytes.drop k).length + k - 1) / k + 1 := by
    rw [List.length_drop]
    rcases Nat.le_total bytes.length k with hle | hle
    · have h0 : (bytes.length - k + k - 1) / k = 0 := Nat.div_eq_of_lt (by omega)
      rw [h0, show bytes.length + k - 1 = (bytes.length - 1) + k by omega, Nat.add_div_right _ hk,
        Nat.div_eq_of_lt (by omega)]
    · rw [show bytes.length + k - 1 = (bytes.length - k + k - 1) + k by omega,
        Nat.add_div_right _ hk]
  unfold splitBytes
  rw [hcount, List.range_succ_eq_map, List.map_cons, List.map_map]
  congr 1
  · simp
  · refine List.map_congr_left fun i _ => ?_
    simp only [Function.comp_apply, List.drop_drop]
    rw [show k + i * k = (i + 1) * k by rw [Nat.add_mul, Nat.one_mul, Nat.add_comm]]

/-- **Nothing is lost in a split**, and no piece is empty. -/
theorem splitBytes_flatten (hk : 0 < k) (bytes : List UInt8) :
    (splitBytes bytes k).flatten = bytes ∧ ∀ p ∈ splitBytes bytes k, p ≠ [] := by
  induction hn : bytes.length using Nat.strongRecOn generalizing bytes with
  | ind n ih =>
    by_cases hne : bytes = []
    · subst hne
      have h0 : splitBytes [] k = [] := by
        unfold splitBytes
        rw [List.length_nil, Nat.div_eq_of_lt (by omega)]
        rfl
      rw [h0]
      exact ⟨rfl, by simp⟩
    · have hpos : 0 < bytes.length := List.length_pos_iff.mpr hne
      have hshort : (bytes.drop k).length < n := by
        rw [List.length_drop]
        omega
      obtain ⟨hflat, hpieces⟩ := ih _ hshort (bytes.drop k) rfl
      rw [splitBytes_eq hk hne]
      constructor
      · rw [List.flatten_cons, hflat, List.take_append_drop]
      · intro p hp
        rcases List.mem_cons.mp hp with rfl | hp
        · intro hnil
          have := congrArg List.length hnil
          rw [List.length_take, List.length_nil] at this
          omega
        · exact hpieces p hp

theorem contentFragments_flatten (hk : 0 < k) (content : List UInt8) :
    (contentFragments k content).flatten = content
      ∧ contentFragments k content ≠ []
      ∧ (contentFragments k content = [[]] ∨ ∀ p ∈ contentFragments k content, p ≠ []) := by
  obtain ⟨hflat, hpieces⟩ := splitBytes_flatten hk content
  unfold contentFragments
  simp only
  split
  · next hnil =>
    rw [hnil] at hflat
    exact ⟨hflat, by simp, Or.inl rfl⟩
  · next hne => exact ⟨hflat, hne, Or.inr hpieces⟩

end Split

/-! ## 2. Collecting fragments -/

structure Fragment where
  recordLayerHeader : RecordLayerHeader
  handshakeHeader : HandshakeHeader
  data : List UInt8
  deriving DecidableEq, Repr

/-- The buffer.  `current_message_sequence_number` is a `u16` that counts the messages given out;
the count itself is kept, and the number is its low 16 bits. -/
structure FragmentBuffer where
  cache : List Fragment
  messages : Nat
  deriving DecidableEq, Repr

namespace FragmentBuffer

def currentMessageSequenceNumber (b : FragmentBuffer) : UInt16 := UInt16.ofNat b.messages

def new : FragmentBuffer := ⟨[], 0⟩

def size (b : FragmentBuffer) : Nat := (b.cache.map fun f => f.data.length).sum

/-- The entry of the map under a message number. -/
def entry (b : FragmentBuffer) (number : UInt16) : List Fragment :=
  b.cache.filter fun f => f.handshakeHeader.messageSequence = number

/-- The loop of `push`.  A message that is longer than what is left of the record takes all of it;
the fuel is the length of what is left.  Fragments read before an error stay. -/
def pushLoop (h : RecordLayerHeader) :
    Nat → List UInt8 → List Fragment → Except Error Unit × List Fragment
  | 0, _, cache => (.ok (), cache)
  | fuel + 1, buf, cache =>
    if buf = [] then (.ok (), cache)
    else
      match HandshakeHeader.unmarshal buf with
      | .error e => (.error e, cache)
      | .ok (hh, _) =>
        let stop := min (HANDSHAKE_HEADER_LENGTH + hh.length) buf.length
        pushLoop h fuel (buf.drop stop)
          (cache ++ [⟨h, hh, (buf.take stop).drop HANDSHAKE_HEADER_LENGTH⟩])

/-- `push`: `true` if the record was a handshake record. -/
def push (b : FragmentBuffer) (buf : List UInt8) : Except Error Bool × FragmentBuffer :=
  if FRAGMENT_BUFFER_MAX_SIZE ≤ b.size + buf.length then
    (.error (.fragmentBufferOverflow (b.size + buf.length) FRAGMENT_BUFFER_MAX_SIZE), b)
  else
    match RecordLayerHeader.unmarshal buf with
    | .error e => (.error e, b)
    | .ok (h, _) =>
      if h.contentType ≠ .handshake then (.ok false, b)
      else
        let rest := buf.drop RECORD_LAYER_HEADER_SIZE
        let (result, cache) := pushLoop h rest.length rest b.cache
        (result.map fun _ => true, { b with cache := cache })

/-- `append_message`, from an offset to the end.  Every call that finds a fragment goes on behind
it, so that there are at most as many calls as fragments, and one that finds none. -/
def appendMessage (frags : List Fragment) : Nat → Nat → Option (List UInt8)
  | 0, _ => none
  | fuel + 1, targetOffset =>
    match frags.find? fun f => f.handshakeHeader.fragmentOffset = targetOffset with
    | none => none
    | some f =>
      let fragmentEnd := f.handshakeHeader.fragmentOffset + f.handshakeHeader.fragmentLength
      if fragmentEnd ≠ f.handshakeHeader.length ∧ f.handshakeHeader.fragmentLength ≠ 0 then
        (appendMessage frags fuel fragmentEnd).map (f.data ++ ·)
      else some f.data

/-- `pop`: the message whose turn it is, behind a header for the whole of it, and its epoch. -/
def pop (b : FragmentBuffer) : Except Error (List UInt8 × UInt16) × FragmentBuffer :=
  let frags := b.entry b.currentMessageSequenceNumber
  match frags with
  | [] => (.error .emptyFragment, b)
  | first :: _ =>
    match appendMessage frags frags.length 0 with
    | none => (.error .emptyFragment, b)
    | some rawMessage =>
      (.ok (first.handshakeHeader.whole.bytes ++ rawMessage, first.recordLayerHeader.epoch),
        { cache := b.cache.filter fun f =>
            f.handshakeHeader.messageSequence ≠ b.currentMessageSequenceNumber
          messages := b.messages + 1 })

theorem countP_lt_countP {α : Type} {p q : α → Bool} {l : List α} {x : α} (hx : x ∈ l)
    (himp : ∀ y ∈ l, p y = true → q y = true) (hq : q x = true) (hp : p x = false) :
    l.countP p < l.countP q := by
  have hinside : l.countP p = (l.filter q).countP p := by
    rw [List.countP_filter]
    refine List.countP_congr ?_
    intro y hy
    simpa using himp y hy
  rw [hinside, List.countP_eq_length_filter (p := q)]
  exact List.countP_lt_length_iff.mpr ⟨x, List.mem_filter.mpr ⟨hx, hq⟩, hp⟩

/-- **The bound on the calls is exact**: with one more nothing changes, since the fragments at or
behind the offset become fewer from call to call. -/
theorem appendMessage_fuel {frags : List Fragment} {fuel target : Nat}
    (h : frags.countP (fun f => target ≤ f.handshakeHeader.fragmentOffset) ≤ fuel) :
    appendMessage frags (fuel + 1) target = appendMessage frags fuel target := by
  induction fuel generalizing target with
  | zero =>
    have hnone : frags.find? (fun f => f.handshakeHeader.fragmentOffset = target) = none := by
      rw [List.find?_eq_none]
      intro f hf heq
      have hzero := List.countP_eq_zero.mp (Nat.le_zero.mp h) f hf
      simp only [decide_eq_true_eq] at heq hzero
      omega
    show (match frags.find? (fun f => f.handshakeHeader.fragmentOffset = target) with
      | none => none
      | some f => _) = none
    rw [hnone]
  | succ fuel ih =>
    rw [appendMessage, appendMessage]
    cases hfind : frags.find? (fun f => f.handshakeHeader.fragmentOffset = target) with
    | none => rfl
    | some f =>
      simp only
      split
      · next hmore =>
        have hoffset : f.handshakeHeader.fragmentOffset = target := by
          simpa using List.find?_some hfind
        rw [ih]
        -- the fragment found is at the offset, and not behind its own end
        have hfewer := countP_lt_countP
          (p := fun g : Fragment => f.handshakeHeader.fragmentOffset
            + f.handshakeHeader.fragmentLength ≤ g.handshakeHeader.fragmentOffset)
          (q := fun g : Fragment => target ≤ g.handshakeHeader.fragmentOffset)
          (List.mem_of_find?_eq_some hfind)
          (fun g _ hg => by simp only [decide_eq_true_eq] at hg ⊢; omega)
          (decide_eq_true (by omega)) (decide_eq_false (by omega))
        omega
      · rfl

end FragmentBuffer

/-- The record that carries one fragment and nothing else. -/
def Fragment.record (f : Fragment) : List UInt8 :=
  f.recordLayerHeader.bytes ++ (f.handshakeHeader.bytes ++ f.data)

/-- A fragment that a sender can make: no longer than its message. -/
structure Fragment.Sound (f : Fragment) : Prop where
  header : f.recordLayerHeader.WellFormed
  handshake : f.recordLayerHeader.contentType = .handshake
  fits : f.handshakeHeader.Fits
  data : f.data.length ≤ f.handshakeHeader.length

namespace FragmentBuffer

variable {b : FragmentBuffer} {f : Fragment}

theorem size_append (cache : List Fragment) (messages : Nat) (f : Fragment) :
    size ⟨cache ++ [f], messages⟩ = size ⟨cache, messages⟩ + f.data.length := by
  simp [size]

theorem length_record (f : Fragment) :
    f.record.length = RECORD_LAYER_HEADER_SIZE + (HANDSHAKE_HEADER_LENGTH + f.data.length) := by
  rw [Fragment.record, List.length_append, List.length_append, f.recordLayerHeader.length_bytes,
    f.handshakeHeader.length_bytes]

/-- **One record, one fragment.** -/
theorem push_record (hf : f.Sound) (hroom : b.size + f.record.length < FRAGMENT_BUFFER_MAX_SIZE) :
    b.push f.record = (.ok true, { b with cache := b.cache ++ [f] }) := by
  obtain ⟨h, hh, data⟩ := f
  have hread : RecordLayerHeader.unmarshal (Fragment.record ⟨h, hh, data⟩)
      = .ok (h, hh.bytes ++ data) := hf.header.unmarshal _
  have hrest :
      (Fragment.record ⟨h, hh, data⟩).drop RECORD_LAYER_HEADER_SIZE = hh.bytes ++ data := by
    rw [Fragment.record, ← h.length_bytes, List.drop_left]
  have hlen : (hh.bytes ++ data).length = HANDSHAKE_HEADER_LENGTH + data.length := by
    rw [List.length_append, hh.length_bytes]
  have hne : hh.bytes ++ data ≠ [] := fun hnil => by
    rw [hnil, List.length_nil, HANDSHAKE_HEADER_LENGTH] at hlen
    omega
  have hstop : min (HANDSHAKE_HEADER_LENGTH + hh.length) (hh.bytes ++ data).length
      = (hh.bytes ++ data).length := by
    have hle : data.length ≤ hh.length := hf.data
    omega
  have hloop : pushLoop h (hh.bytes ++ data).length (hh.bytes ++ data) b.cache
      = (.ok (), b.cache ++ [⟨h, hh, data⟩]) := by
    obtain ⟨k, hk⟩ : ∃ k, (hh.bytes ++ data).length = k + 1 :=
      ⟨(hh.bytes ++ data).length - 1, by rw [hlen]; unfold HANDSHAKE_HEADER_LENGTH; omega⟩
    rw [hk, pushLoop, if_neg hne, hf.fits.unmarshal]
    simp only [hstop]
    rw [List.drop_length, List.take_length, ← hh.length_bytes, List.drop_left]
    cases k <;> rfl
  have hhandshake : h.contentType = .handshake := hf.handshake
  rw [push, if_neg (Nat.not_le.mpr hroom), hread]
  simp only [hhandshake, ne_eq, not_true_eq_false, if_false, hrest, hloop]
  rfl

/-- **Records, in whatever order they come**, add their fragments in that order. -/
theorem run_push_records {arrivals : List Fragment} (hsound : ∀ f ∈ arrivals, f.Sound)
    (hroom : b.size + (arrivals.map fun f => f.record.length).sum < FRAGMENT_BUFFER_MAX_SIZE) :
    run (fun b r => (b.push r).2) b (arrivals.map Fragment.record)
      = { b with cache := b.cache ++ arrivals } := by
  induction arrivals generalizing b with
  | nil => simp
  | cons f arrivals ih =>
    rw [List.map_cons, List.sum_cons] at hroom
    have hstep := push_record (b := b) (hsound f List.mem_cons_self) (by omega)
    have hlen := length_record f
    rw [List.map_cons, run_cons, hstep]
    simp only
    rw [ih (fun g hg => hsound g (List.mem_cons_of_mem _ hg)) ?_, List.append_assoc]
    · rfl
    · rw [size_append]
      have hsame : size ⟨b.cache, b.messages⟩ = b.size := rfl
      omega

end FragmentBuffer

/-! ## 3. Messages come back -/

/-- What is under a message number is made of the fragments of one message, and each of them is
there. -/
structure Complete (frags : List Fragment) (pairs : List (HandshakeHeader × List UInt8)) :
    Prop where
  only : ∀ f ∈ frags, (f.handshakeHeader, f.data) ∈ pairs
  all : ∀ p ∈ pairs, ∃ f ∈ frags, (f.handshakeHeader, f.data) = p

section Reassembly

variable {h : HandshakeHeader}

theorem offset_of_mem_fragmentLoop {pieces : List (List UInt8)} {offset : Nat}
    {p : HandshakeHeader × List UInt8} (hp : p ∈ fragmentLoop h offset pieces) :
    offset ≤ p.1.fragmentOffset ∧ p.1.whole = h.whole
      ∧ p.1.messageSequence = h.messageSequence := by
  induction pieces generalizing offset with
  | nil => simp [fragmentLoop] at hp
  | cons piece pieces ih =>
    rw [fragmentLoop] at hp
    rcases List.mem_cons.mp hp with rfl | hp
    · exact ⟨Nat.le_refl _, rfl, rfl⟩
    · obtain ⟨hle, hrest⟩ := ih hp
      exact ⟨by omega, hrest⟩

/-- **From an offset to the end.**  The induction is over the pieces that are left; `front` are
those that have been passed, all of them in front of the offset. -/
theorem appendMessage_complete {frags : List Fragment} (front : List (HandshakeHeader × List UInt8))
    {pieces : List (List UInt8)} {offset fuel : Nat}
    (hcomplete : Complete frags (front ++ fragmentLoop h offset pieces))
    (hfront : ∀ p ∈ front, p.1.fragmentOffset < offset) (hne : pieces ≠ [])
    (hpieces : pieces = [[]] ∨ ∀ p ∈ pieces, p ≠ [])
    (hlength : offset + pieces.flatten.length = h.length) (hfuel : pieces.length ≤ fuel) :
    FragmentBuffer.appendMessage frags fuel offset = some pieces.flatten := by
  induction pieces generalizing front offset fuel with
  | nil => exact absurd rfl hne
  | cons piece pieces ih =>
    obtain ⟨fuel, rfl⟩ : ∃ k, fuel = k + 1 := ⟨fuel - 1, by rw [List.length_cons] at hfuel; omega⟩
    rw [FragmentBuffer.appendMessage]
    -- the first fragment at the offset is the one for this piece
    obtain ⟨f, hf⟩ : ∃ f, frags.find? (fun f => f.handshakeHeader.fragmentOffset = offset)
      = some f := by
      obtain ⟨f, hmem, hpair⟩ := hcomplete.all
        ({ h with fragmentOffset := offset, fragmentLength := piece.length }, piece)
        (List.mem_append_right _ (by rw [fragmentLoop]; exact List.mem_cons_self))
      refine Option.isSome_iff_exists.mp (List.find?_isSome.mpr ⟨f, hmem, ?_⟩)
      rw [(Prod.mk.inj hpair).1]
      exact decide_eq_true rfl
    have hat : f.handshakeHeader.fragmentOffset = offset := by simpa using List.find?_some hf
    have hnotLater : pieces = [] ∨ 0 < piece.length := by
      rcases hpieces with heq | hall
      · exact Or.inl (List.cons.inj heq).2
      · exact Or.inr (List.length_pos_iff.mpr (hall piece List.mem_cons_self))
    have hpair : (f.handshakeHeader, f.data)
        = ({ h with fragmentOffset := offset, fragmentLength := piece.length }, piece) := by
      rcases List.mem_append.mp (hcomplete.only f (List.mem_of_find?_eq_some hf)) with hin | hin
      · have := hfront _ hin
        simp only at this
        omega
      · rw [fragmentLoop] at hin
        rcases List.mem_cons.mp hin with heq | hin
        · exact heq
        · have hle := (offset_of_mem_fragmentLoop hin).1
          rcases hnotLater with rfl | hpos
          · simp [fragmentLoop] at hin
          · simp only at hle
            omega
    obtain ⟨hheader, hdata⟩ := Prod.mk.inj hpair
    rw [hf]
    simp only [hheader, hdata]
    rw [List.flatten_cons, List.length_append] at hlength
    cases pieces with
    | nil =>
      rw [if_neg (fun hmore => hmore.1 (by simpa using hlength))]
      simp
    | cons next pieces =>
      have hall : ∀ p ∈ piece :: next :: pieces, p ≠ [] := by
        rcases hpieces with heq | hall
        · simp at heq
        · exact hall
      have hpos : 0 < piece.length := List.length_pos_iff.mpr (hall piece List.mem_cons_self)
      have hnext : 0 < next.length :=
        List.length_pos_iff.mpr (hall next (List.mem_cons_of_mem _ List.mem_cons_self))
      rw [List.flatten_cons, List.length_append] at hlength
      rw [if_pos ⟨by omega, by omega⟩]
      rw [ih (front
        ++ [({ h with fragmentOffset := offset, fragmentLength := piece.length }, piece)])
        (by rw [List.append_assoc]; exact hcomplete) ?_ (by simp)
        (Or.inr fun p hp => hall p (List.mem_cons_of_mem _ hp))
        (by rw [List.flatten_cons, List.length_append]; omega)
        (by rw [List.length_cons] at hfuel; omega)]
      · rfl
      · intro p hp
        rcases List.mem_append.mp hp with hp | hp
        · have := hfront p hp
          omega
        · rw [List.mem_singleton.mp hp]
          simp only
          omega

theorem length_fragmentLoop (offset : Nat) (pieces : List (List UInt8)) :
    (fragmentLoop h offset pieces).length = pieces.length := by
  induction pieces generalizing offset with
  | nil => rfl
  | cons piece pieces ih => rw [fragmentLoop, List.length_cons, ih, List.length_cons]

/-- No two fragments of a message are the same. -/
theorem fragmentLoop_nodup {offset : Nat} {pieces : List (List UInt8)}
    (hpieces : pieces = [[]] ∨ ∀ p ∈ pieces, p ≠ []) : (fragmentLoop h offset pieces).Nodup := by
  induction pieces generalizing offset with
  | nil => exact List.nodup_nil
  | cons piece pieces ih =>
    rw [fragmentLoop]
    cases pieces with
    | nil => exact List.nodup_singleton _
    | cons next pieces =>
      have hall : ∀ p ∈ piece :: next :: pieces, p ≠ [] := by
        rcases hpieces with heq | hall
        · simp at heq
        · exact hall
      have hpos : 0 < piece.length := List.length_pos_iff.mpr (hall piece List.mem_cons_self)
      refine List.nodup_cons.mpr
        ⟨fun hin => ?_, ih (Or.inr fun p hp => hall p (List.mem_cons_of_mem _ hp))⟩
      have hle := (offset_of_mem_fragmentLoop hin).1
      simp only at hle
      omega

/-- **A fragmented message comes back whole.**  It is its turn and nothing of it has come before.
Then records come with its fragments, in any order and any number of times, between fragments of
other messages: as soon as each fragment has come, `pop` gives the message. -/
theorem fragments_reassemble {mtu : Nat} (hmtu : 0 < mtu) {content : List UInt8}
    (hlength : content.length = h.length) {b : FragmentBuffer}
    (hturn : b.currentMessageSequenceNumber = h.messageSequence)
    (hnothing : b.entry h.messageSequence = []) (arrivals : List Fragment)
    (hsound : ∀ f ∈ arrivals, f.Sound)
    (hroom : b.size + (arrivals.map fun f => f.record.length).sum < FRAGMENT_BUFFER_MAX_SIZE)
    (honly : ∀ f ∈ arrivals, f.handshakeHeader.messageSequence = h.messageSequence →
      (f.handshakeHeader, f.data) ∈ fragmentHandshake mtu h content)
    (hall : ∀ p ∈ fragmentHandshake mtu h content,
      ∃ f ∈ arrivals, (f.handshakeHeader, f.data) = p) :
    ∃ epoch, (run (fun b r => (b.push r).2) b (arrivals.map Fragment.record)).pop.1
      = .ok (h.whole.bytes ++ content, epoch) := by
  obtain ⟨hflat, hne, hpieces⟩ := contentFragments_flatten hmtu content
  rw [FragmentBuffer.run_push_records hsound hroom]
  have hentry : FragmentBuffer.entry ⟨b.cache ++ arrivals, b.messages⟩ h.messageSequence
      = arrivals.filter fun f => f.handshakeHeader.messageSequence = h.messageSequence := by
    unfold FragmentBuffer.entry at hnothing ⊢
    rw [List.filter_append, hnothing, List.nil_append]
  have hcomplete : Complete (arrivals.filter fun f =>
      f.handshakeHeader.messageSequence = h.messageSequence) (fragmentHandshake mtu h content) := by
    constructor
    · intro f hf
      obtain ⟨hmem, hnum⟩ := List.mem_filter.mp hf
      exact honly f hmem (of_decide_eq_true hnum)
    · intro p hp
      obtain ⟨f, hmem, hpair⟩ := hall p hp
      refine ⟨f, List.mem_filter.mpr ⟨hmem, decide_eq_true ?_⟩, hpair⟩
      rw [← hpair] at hp
      exact (offset_of_mem_fragmentLoop hp).2.2
  -- there are at least as many fragments as pieces, so that the calls are enough
  have hfuel : (contentFragments mtu content).length ≤ (arrivals.filter fun f =>
      f.handshakeHeader.messageSequence = h.messageSequence).length := by
    have hsub : fragmentHandshake mtu h content ⊆ (arrivals.filter fun f =>
        f.handshakeHeader.messageSequence = h.messageSequence).map fun f =>
          (f.handshakeHeader, f.data) := by
      intro p hp
      obtain ⟨f, hmem, hpair⟩ := hcomplete.all p hp
      exact List.mem_map.mpr ⟨f, hmem, hpair⟩
    have := (List.subperm_of_subset (fragmentLoop_nodup hpieces) hsub).length_le
    rwa [length_fragmentLoop, List.length_map] at this
  have hmessage := appendMessage_complete [] hcomplete (by simp) hne hpieces
    (by rw [hflat]; omega) hfuel
  have hnumber : FragmentBuffer.currentMessageSequenceNumber ⟨b.cache ++ arrivals, b.messages⟩
      = h.messageSequence := hturn
  unfold FragmentBuffer.pop
  simp only [hnumber, hentry]
  cases hfrags : arrivals.filter fun f => f.handshakeHeader.messageSequence = h.messageSequence with
  | nil =>
    rw [hfrags, List.length_nil, Nat.le_zero, List.length_eq_zero_iff] at hfuel
    exact absurd hfuel hne
  | cons first rest =>
    rw [hfrags] at hmessage hcomplete
    have hwhole := (offset_of_mem_fragmentLoop (hcomplete.only first List.mem_cons_self)).2.1
    simp only [hmessage, hflat]
    exact ⟨_, by rw [hwhole]⟩

/-- A fragment of message `number` that belongs at an offset. -/
def fragmentAt (number : UInt16) (offset : Nat) (data : List UInt8) : Fragment :=
  ⟨⟨.handshake, PROTOCOL_VERSION1_2, 0, 7, 0⟩, ⟨.finished, 3, number, offset, data.length⟩, data⟩

theorem fragmentAt_sound {number : UInt16} {offset : Nat} {data : List UInt8} (ho : offset < 2 ^ 24)
    (hd : data.length ≤ 3) : (fragmentAt number offset data).Sound where
  header := ⟨Or.inr rfl, (by decide : 7 ≤ MAX_SEQUENCE_NUMBER)⟩
  handshake := rfl
  fits := ⟨(by decide : 3 < 2 ^ 24), ho, Nat.lt_of_le_of_lt hd (by decide)⟩
  data := hd

/-- The second half first and twice, and a fragment of the next message between them. -/
theorem fragments_reassemble_swapped :
    ∃ epoch, (run (fun b r => (FragmentBuffer.push b r).2) ⟨[], 5⟩
        ([fragmentAt 5 2 [3], fragmentAt 6 0 [9], fragmentAt 5 0 [1, 2], fragmentAt 5 2 [3]].map
          Fragment.record)).pop.1
      = .ok (HandshakeHeader.bytes ⟨.finished, 3, 5, 0, 3⟩ ++ [1, 2, 3], epoch) := by
  refine fragments_reassemble (h := ⟨.finished, 3, 5, 0, 3⟩) (by decide : 0 < 2) rfl rfl rfl _ ?_
    (by decide) (by decide) (by decide)
  intro f hf
  simp only [List.mem_cons, List.not_mem_nil, or_false] at hf
  rcases hf with rfl | rfl | rfl | rfl <;> exact fragmentAt_sound (by decide) (by decide)

end Reassembly

end WebrtcBridge.Dtls
