/-
# SRTP: rollover counters and replays

An RTP packet carries only the low 16 bits of its number.  Sender and receiver of SRTP count the
wraps themselves: the INDEX of a packet is `roc * 2^16 + seq`, the rollover counter goes into the
key stream and the authentication tag but not onto the wire, and the receiver guesses it from the
packet it accepted LAST.  Beside the guess it asks the replay detector, which works on the 16 bits
alone and measures the distance from the HIGHEST number accepted.

Each of the two is right about a packet that is close to the others, and for packets that are far
away they fail in different ways.  The argument that no packet is decrypted twice needs both: a
packet whose guess is wrong does not authenticate, so that whatever authenticates lies within `2^15`
of the last packet accepted (`nextRolloverCount_spec`), and for such a packet the detector's
distance is the real one unless it lies just behind the far edge of the half circle.  The packets in
that band are the ones that `Calm` excludes, and `Srtp.Path` shows that it must.

* §1  the rollover counter: what `next_rollover_count` guesses;
* §2  `Context`, with the cipher as a parameter;
* §3  the state of one SSRC and the indices accepted for it: what a step keeps;
* §4  whole runs, against a network that delivers, drops, repeats, reorders and invents packets.
-/
import Mathlib.Data.List.MinMax
import WebrtcBridge.Rtp.Packet
import WebrtcBridge.Srtp.ReplayDetector

namespace WebrtcBridge.Srtp

open Lib Rtp
open FixedBigInt (ExactMask)

/-! ## 1. The rollover counter -/

/-- The detector of an SSRC: that of `srtp_replay_protection`, or none. -/
inductive ReplayDetector (n : Nat) where
  | noOp
  | wrapped (d : WrappedSlidingWindowDetector n)

namespace ReplayDetector

variable {n : Nat}

def check : ReplayDetector n → Nat → Bool × ReplayDetector n
  | .noOp, _ => (true, .noOp)
  | .wrapped d, seq => ((d.check seq).1, .wrapped (d.check seq).2)

def accept : ReplayDetector n → Option (ReplayDetector n)
  | .noOp => some .noOp
  | .wrapped d => d.accept.map .wrapped

end ReplayDetector

def MAX_SEQUENCE_NUMBER : Nat := 65535
def SEQ_NUM_MEDIAN : Nat := 2 ^ 15

/-- `srtp_replay_protection`. -/
def srtpReplayProtection (n : Nat) : ReplayDetector n :=
  .wrapped (.new n MAX_SEQUENCE_NUMBER)

structure SrtpSsrcState (n : Nat) where
  index : Nat
  rolloverHasProcessed : Bool
  replayDetector : ReplayDetector n

namespace SrtpSsrcState

variable {n : Nat}

/-- `next_rollover_count`: the counter guessed, how far the index moves, and whether the counter is
used up. -/
def nextRolloverCount (s : SrtpSsrcState n) (sequenceNumber : Nat) : Nat × Int × Bool :=
  let localRoc : Nat := s.index / 2 ^ 16 % 2 ^ 32
  let localSeq : Nat := s.index % 2 ^ 16
  let (guessRoc, diff) : Nat × Int :=
    if s.rolloverHasProcessed then
      let seq : Int := sequenceNumber - localSeq
      if SEQ_NUM_MEDIAN < s.index then
        if localSeq < SEQ_NUM_MEDIAN then
          if (SEQ_NUM_MEDIAN : Int) < seq then ((localRoc + 2 ^ 32 - 1) % 2 ^ 32, seq - 2 ^ 16)
          else (localRoc, seq)
        else if sequenceNumber < localSeq - SEQ_NUM_MEDIAN then
          ((localRoc + 1) % 2 ^ 32, seq + 2 ^ 16)
        else (localRoc, seq)
      else (localRoc, seq)
    else (localRoc, 0)
  (guessRoc, diff, decide (guessRoc = 0 ∧ localRoc = 2 ^ 32 - 1))

/-- `update_rollover_count`. -/
def updateRolloverCount (s : SrtpSsrcState n) (sequenceNumber : Nat) (diff : Int) :
    SrtpSsrcState n :=
  if s.rolloverHasProcessed then { s with index := (((s.index : Int) + diff) % 2 ^ 64).toNat }
  else { s with index := s.index ||| sequenceNumber, rolloverHasProcessed := true }

variable {s : SrtpSsrcState n} {seq : Nat}

/-- **What is guessed** has the low bits of the packet and lies within half a circle of the index,
but for an index in the very first half circle, which looks no further than the first wrap. -/
theorem nextRolloverCount_spec (hp : s.rolloverHasProcessed = true) (hs : s.index + 2 ^ 16 < 2 ^ 48)
    (hseq : seq < 2 ^ 16) :
    (((s.nextRolloverCount seq).1 * 2 ^ 16 + seq : Nat) : Int)
        = s.index + (s.nextRolloverCount seq).2.1
      ∧ -2 ^ 15 ≤ (s.nextRolloverCount seq).2.1
      ∧ (2 ^ 15 < s.index → (s.nextRolloverCount seq).2.1 ≤ 2 ^ 15)
      ∧ (s.index ≤ 2 ^ 15 → (s.nextRolloverCount seq).1 = 0) := by
  have hmedian : SEQ_NUM_MEDIAN = 2 ^ 15 := rfl
  have hroc : s.index / 2 ^ 16 % 2 ^ 32 = s.index / 2 ^ 16 := Nat.mod_eq_of_lt (by omega)
  simp only [nextRolloverCount, hp, if_true, hroc, hmedian]
  by_cases hindex : 2 ^ 15 < s.index
  · rw [if_pos hindex]
    by_cases hlow : s.index % 2 ^ 16 < 2 ^ 15
    · rw [if_pos hlow]
      split
      · -- one counter back: there is one, since the index is beyond the first half circle
        have hback : (s.index / 2 ^ 16 + 2 ^ 32 - 1) % 2 ^ 32 = s.index / 2 ^ 16 - 1 := by omega
        simp only [hback]
        omega
      · simp only
        omega
    · rw [if_neg hlow]
      split
      · have hnext : (s.index / 2 ^ 16 + 1) % 2 ^ 32 = s.index / 2 ^ 16 + 1 :=
          Nat.mod_eq_of_lt (by omega)
        simp only [hnext]
        omega
      · simp only
        omega
  · rw [if_neg hindex]
    simp only
    omega

/-- **The guess is right** for a packet within half a circle: no other index there has its low
bits. -/
theorem nextRolloverCount_near (hp : s.rolloverHasProcessed = true) {g : Nat}
    (hs : s.index + 2 ^ 16 < 2 ^ 48) (hlow : s.index < g + 2 ^ 15) (hhigh : g < s.index + 2 ^ 15) :
    (s.nextRolloverCount (g % 2 ^ 16)).1 = g / 2 ^ 16
      ∧ (s.nextRolloverCount (g % 2 ^ 16)).2.1 = (g : Int) - s.index := by
  obtain ⟨hvalue, hge, hle, hfirst⟩ :=
    nextRolloverCount_spec hp hs (Nat.mod_lt g (by omega : 0 < 2 ^ 16))
  omega

/-- So it is for the packet half a circle behind an index in the upper half of its circle. -/
theorem nextRolloverCount_half (hp : s.rolloverHasProcessed = true) {g : Nat}
    (hindex : s.index = g + 2 ^ 15) (hs : s.index + 2 ^ 16 < 2 ^ 48)
    (hupper : g % 2 ^ 16 < 2 ^ 15) :
    (s.nextRolloverCount (g % 2 ^ 16)).1 = g / 2 ^ 16 := by
  have hmedian : SEQ_NUM_MEDIAN = 2 ^ 15 := rfl
  have hroc : s.index / 2 ^ 16 % 2 ^ 32 = g / 2 ^ 16 := by omega
  have hlow : ¬ s.index % 2 ^ 16 < 2 ^ 15 := by omega
  have hnext : ¬ g % 2 ^ 16 < s.index % 2 ^ 16 - 2 ^ 15 := by omega
  simp only [nextRolloverCount, hp, if_true, hroc, hmedian, hlow, hnext, if_false]
  split <;> rfl

/-- The counter is used up only where it wraps. -/
theorem nextRolloverCount_ovf (hs : s.index + 2 ^ 16 < 2 ^ 48) :
    (s.nextRolloverCount seq).2.2 = false := by
  have hroc : s.index / 2 ^ 16 % 2 ^ 32 ≠ 2 ^ 32 - 1 := by omega
  exact decide_eq_false fun h => hroc h.2

/-- The index moves to what was guessed. -/
theorem updateRolloverCount_index (hp : s.rolloverHasProcessed = true) {g : Nat} (hg : g < 2 ^ 48)
    {diff : Int} (hdiff : (g : Int) = s.index + diff) :
    s.updateRolloverCount seq diff = { s with index := g } := by
  rw [updateRolloverCount, if_pos hp, ← hdiff]
  have : (((g : Int)) % 2 ^ 64).toNat = g := by omega
  rw [this]

/-- The first packet: counter zero, and the index is its number. -/
theorem nextRolloverCount_first (seq : Nat) (hp : s.rolloverHasProcessed = false)
    (hi : s.index = 0) :
    (s.nextRolloverCount seq).1 = 0 := by
  simp [nextRolloverCount, hp, hi]

theorem updateRolloverCount_first (hp : s.rolloverHasProcessed = false) (hi : s.index = 0)
    (diff : Int) :
    s.updateRolloverCount seq diff = { s with index := seq, rolloverHasProcessed := true } := by
  simp [updateRolloverCount, hp, hi]

end SrtpSsrcState

/-! ## 2. Contexts -/

inductive SrtpError where
  | errTooShortRtp
  | srtpSsrcDuplicated (ssrc : UInt32) (sequenceNumber : UInt16)
  | errExceededMaxPackets
  | header (e : Rtp.Error)
  | cipher
  | panic
  deriving DecidableEq, Repr

/-- The part of the trait `Cipher` that RTP needs; the number is the rollover counter. -/
structure Cipher where
  rtpAuthTagLen : Nat
  encryptRtp : List UInt8 → Header → Nat → Option (List UInt8)
  decryptRtp : List UInt8 → Header → Nat → Option (List UInt8)

/-- A context.  An SSRC that is not in the map gets a state of its own when it is first asked
for. -/
structure Context (n : Nat) where
  cipher : Cipher
  srtpSsrcStates : UInt32 → Option (SrtpSsrcState n)
  newSrtpReplayDetector : ReplayDetector n

namespace Context

variable {n : Nat}

def new (cipher : Cipher) (detector : ReplayDetector n) : Context n :=
  ⟨cipher, fun _ => none, detector⟩

def getSrtpSsrcState (c : Context n) (ssrc : UInt32) : SrtpSsrcState n :=
  (c.srtpSsrcStates ssrc).getD ⟨0, false, c.newSrtpReplayDetector⟩

def setSrtpSsrcState (c : Context n) (ssrc : UInt32) (s : SrtpSsrcState n) : Context n :=
  { c with srtpSsrcStates := Function.update c.srtpSsrcStates ssrc (some s) }

/-- `decrypt_rtp_with_header`.  The state of the detector after `check` stays even if the packet is
then refused. -/
def decryptRtpWithHeader (c : Context n) (encrypted : List UInt8) (h : Header) :
    Except SrtpError (List UInt8) × Context n :=
  if encrypted.length < h.marshalSize + c.cipher.rtpAuthTagLen then (.error .errTooShortRtp, c)
  else
    let seq := h.sequenceNumber.toNat
    let state := c.getSrtpSsrcState h.ssrc
    let (roc, diff, _) := state.nextRolloverCount seq
    let (ok, detector) := state.replayDetector.check seq
    let c := c.setSrtpSsrcState h.ssrc { state with replayDetector := detector }
    if !ok then (.error (.srtpSsrcDuplicated h.ssrc h.sequenceNumber), c)
    else
      match c.cipher.decryptRtp encrypted h roc with
      | none => (.error .cipher, c)
      | some dst =>
        match detector.accept with
        | none => (.error .panic, c)
        | some detector =>
          (.ok dst, c.setSrtpSsrcState h.ssrc
            (SrtpSsrcState.updateRolloverCount { state with replayDetector := detector } seq diff))

/-- `decrypt_rtp`. -/
def decryptRtp (c : Context n) (encrypted : List UInt8) :
    Except SrtpError (List UInt8) × Context n :=
  match Header.unmarshal encrypted with
  | .error e => (.error (.header e), c)
  | .ok (h, _) => c.decryptRtpWithHeader encrypted h

/-- `encrypt_rtp_with_header`. -/
def encryptRtpWithHeader (c : Context n) (plaintext : List UInt8) (h : Header) :
    Except SrtpError (List UInt8) × Context n :=
  let seq := h.sequenceNumber.toNat
  let state := c.getSrtpSsrcState h.ssrc
  let c := c.setSrtpSsrcState h.ssrc state
  let (roc, diff, ovf) := state.nextRolloverCount seq
  if ovf then (.error .errExceededMaxPackets, c)
  else
    match c.cipher.encryptRtp plaintext h roc with
    | none => (.error .cipher, c)
    | some dst => (.ok dst, c.setSrtpSsrcState h.ssrc (state.updateRolloverCount seq diff))

/-- `encrypt_rtp`. -/
def encryptRtp (c : Context n) (plaintext : List UInt8) :
    Except SrtpError (List UInt8) × Context n :=
  match Header.unmarshal plaintext with
  | .error e => (.error (.header e), c)
  | .ok (h, _) => c.encryptRtpWithHeader plaintext h

@[simp] theorem getSrtpSsrcState_set (c : Context n) (ssrc ssrc' : UInt32) (s : SrtpSsrcState n) :
    (c.setSrtpSsrcState ssrc s).getSrtpSsrcState ssrc'
      = if ssrc' = ssrc then s else c.getSrtpSsrcState ssrc' := by
  by_cases h : ssrc' = ssrc
  · subst h
    simp [getSrtpSsrcState, setSrtpSsrcState]
  · simp [getSrtpSsrcState, setSrtpSsrcState, h]

end Context

/-! ## 3. One SSRC -/

open WrappedSlidingWindowDetector (wrapDiff)

/-- The distance that the detector computes is the real one, for numbers on one half of the
circle. -/
theorem wrapDiff_near {head : Int} {latest g : Nat} (hlatest : (latest : Int) = head % (65535 + 1))
    (hlow : -2 ^ 15 ≤ head - g) (hhigh : head - g < 2 ^ 15)
    (hlt : wrapDiff 65535 latest (g % (65535 + 1)) < 2 ^ 15) :
    wrapDiff 65535 latest (g % (65535 + 1)) = head - g := by
  unfold wrapDiff at *
  simp only at *
  split at hlt
  · rw [if_pos (by assumption)]
    omega
  · rw [if_neg (by assumption)]
    split at hlt
    · rw [if_pos (by assumption)]
      omega
    · rw [if_neg (by assumption)]
      omega

/-- A little further inside there is only one distance it can compute. -/
theorem wrapDiff_inside {head : Int} {latest g : Nat}
    (hlatest : (latest : Int) = head % (65535 + 1))
    (hlow : -2 ^ 15 + 1 < head - g) (hhigh : head - g < 2 ^ 15) :
    wrapDiff 65535 latest (g % (65535 + 1)) = head - g := by
  unfold wrapDiff
  simp only
  split
  · omega
  · split <;> omega

/-- Before the first packet: a detector without a set bit. -/
structure Fresh {n : Nat} (s : SrtpSsrcState n) : Prop where
  index : s.index = 0
  processed : s.rolloverHasProcessed = false
  detector : ∃ d, s.replayDetector = .wrapped d ∧ d.maxSeq = 65535
    ∧ (∀ j, d.mask.bit j = false) ∧ d.latestSeq ≤ 65535

/-- **After it**: the detector tracks the indices accepted, the index is that of the last one, and
it lies within the window.  The head is one of the indices accepted, or close to the first. -/
structure Locked {n : Nat} (s : SrtpSsrcState n) (log : List Nat) : Prop where
  processed : s.rolloverHasProcessed = true
  last : log.getLast? = some s.index
  small : s.index + 2 ^ 16 < 2 ^ 48
  detector : ∃ d head, s.replayDetector = .wrapped d ∧ d.Tracks 65535 head log
    ∧ head < s.index + n ∧ ((∃ a ∈ log, head = (a : Int)) ∨ ∃ a, log.head? = some a ∧ head < a + n)

section Ssrc

variable {n : Nat} {s : SrtpSsrcState n} {log : List Nat} {seq : Nat}

/-- The detector started for a number, its head unwrapped around that number. -/
theorem start_tracks {d : WrappedSlidingWindowDetector n} (hmax : d.maxSeq = 65535)
    (hbits : ∀ j, d.mask.bit j = false) (hlatest : d.latestSeq ≤ 65535) (hseq : seq < 2 ^ 16) :
    (d.start seq).Tracks 65535 (seq + wrapDiff 65535 (d.start seq).latestSeq seq) [] := by
  have hle : (d.start seq).latestSeq ≤ 65535 := by
    have := d.start_latestSeq_le (by omega) (by omega : seq ≤ d.maxSeq)
    omega
  refine ⟨by rw [d.start_maxSeq, hmax], d.start_started seq, ?_, Window.empty n _ fun j _ => ?_⟩
  · unfold wrapDiff
    simp only
    split
    · omega
    · split <;> omega
  · rw [d.start_mask]
    exact hbits j

/-- A packet that is refused before the first one. -/
theorem Fresh.check (h : Fresh s) (hseq : seq < 2 ^ 16) :
    Fresh { s with replayDetector := (s.replayDetector.check seq).2 } := by
  obtain ⟨d, hd, hmax, hbits, hlatest⟩ := h.detector
  have hle : seq ≤ d.maxSeq := by omega
  obtain ⟨accepted, noted, hstate⟩ := d.check_state hle
  refine ⟨h.index, h.processed, (d.check seq).2, by rw [hd]; rfl, ?_⟩
  rw [hstate]
  refine ⟨by rw [← hmax]; exact d.start_maxSeq seq, fun j => ?_, ?_⟩
  · simp only [d.start_mask]
    exact hbits j
  · have := d.start_latestSeq_le (by omega) hle
    simp only
    omega

/-- **The first packet accepted.** -/
theorem Fresh.accept (h : Fresh s) (hpos : 0 < n) (hexact : ExactMask n) (hseq : seq < 2 ^ 16)
    (hnew : (s.replayDetector.check seq).1 = true) (diff : Int) :
    ∃ detector, (s.replayDetector.check seq).2.accept = some detector
      ∧ Locked (SrtpSsrcState.updateRolloverCount { s with replayDetector := detector } seq diff)
        [seq] := by
  obtain ⟨d, hd, hmax, hbits, hlatest⟩ := h.detector
  rw [hd] at hnew ⊢
  simp only [ReplayDetector.check] at hnew ⊢
  have hstart := start_tracks hmax hbits hlatest hseq
  have hmod : seq % (65535 + 1) = seq := Nat.mod_eq_of_lt (by omega)
  rw [d.check_start (by omega)] at hnew ⊢
  have hlt : wrapDiff 65535 (d.start seq).latestSeq seq < n := by
    have := ((WrappedSlidingWindowDetector.check_eq hstart.init seq).mp hnew).2.1
    rwa [hstart.max] at this
  obtain ⟨d', hd', htracks⟩ := hstart.accept (g := seq) hexact (by rw [hmod]; omega) (by rwa [hmod])
  rw [hmod] at hd'
  refine ⟨.wrapped d', by rw [ReplayDetector.accept, hd']; rfl, ?_⟩
  rw [SrtpSsrcState.updateRolloverCount_first (s := { s with replayDetector := .wrapped d' })
    h.processed h.index]
  refine ⟨rfl, rfl, by simp only; omega, d', _, rfl, htracks, ?_, Or.inr ⟨seq, rfl, ?_⟩⟩
  · simp only
    omega
  · omega

theorem Locked.check (h : Locked s log) (hseq : seq < 2 ^ 16) :
    Locked { s with replayDetector := (s.replayDetector.check seq).2 } log := by
  obtain ⟨d, head, hd, htracks, hnear, hhead⟩ := h.detector
  refine ⟨h.processed, h.last, h.small, (d.check seq).2, head, by rw [hd]; rfl, ?_, hnear, hhead⟩
  exact htracks.check (by omega)

/-- What `Calm` asks of a packet: it is not too far ahead of the newest index, and not in the band
behind it in which the detector takes old for new. -/
def InReach (n newest g : Nat) : Prop :=
  g ≤ newest + 2 ^ 15 ∧ (newest + n < g + 2 ^ 15 ∨ g + 2 ^ 15 + n ≤ newest)

instance (n newest g : Nat) : Decidable (InReach n newest g) := inferInstanceAs (Decidable (_ ∧ _))

/-- **A later packet accepted.**  The guess puts the index within half a circle of the last one, and
there the detector's distance is the real one. -/
theorem Locked.accept (h : Locked s log) (hpos : 0 < n) (hn : n ≤ 2 ^ 15) (hexact : ExactMask n)
    (hseq : seq < 2 ^ 16) (hnew : (s.replayDetector.check seq).1 = true) {g newest : Nat}
    (hg : g = (s.nextRolloverCount seq).1 * 2 ^ 16 + seq) (hsmall : g + 2 ^ 16 < 2 ^ 48)
    (hnewest : newest ∈ log) (hmax : ∀ a ∈ log, a ≤ newest) (hreach : InReach n newest g) :
    ∃ detector, (s.replayDetector.check seq).2.accept = some detector
      ∧ Locked (SrtpSsrcState.updateRolloverCount { s with replayDetector := detector } seq
          (s.nextRolloverCount seq).2.1) (log ++ [g]) := by
  obtain ⟨d, head, hd, htracks, hnear, hhead⟩ := h.detector
  rw [hd] at hnew ⊢
  simp only [ReplayDetector.check] at hnew ⊢
  obtain ⟨hvalue, hge, _, _⟩ := SrtpSsrcState.nextRolloverCount_spec h.processed h.small hseq
  rw [← hg] at hvalue
  have hlast : s.index ≤ newest := hmax _ (List.mem_of_getLast? h.last)
  have hle : (newest : Int) ≤ head := htracks.window.le_head _ (List.mem_map_of_mem hnewest)
  have hmod : seq = g % (65535 + 1) := by omega
  -- the guess is no more than half a circle behind, so the band is all that `InReach` has to
  -- exclude
  have hbehind : head - (g : Int) < 2 ^ 15 := by
    rcases hreach.2 with hclose | hfar <;> omega
  have hahead : -2 ^ 15 ≤ head - (g : Int) := by
    have := hreach.1
    omega
  have hlt : wrapDiff 65535 d.latestSeq seq < n := by
    have := ((WrappedSlidingWindowDetector.check_eq htracks.init seq).mp hnew).2.1
    rwa [htracks.max] at this
  rw [hmod] at hlt hnew ⊢
  have hdiff := wrapDiff_near htracks.latest hahead hbehind (by omega)
  obtain ⟨d', hd', htracks'⟩ := htracks.accept hexact hdiff hnew
  refine ⟨.wrapped d', by rw [ReplayDetector.accept, hd']; rfl, ?_⟩
  rw [← hmod, SrtpSsrcState.updateRolloverCount_index
    (s := { s with replayDetector := .wrapped d' })
    h.processed (by omega) hvalue]
  refine ⟨h.processed, List.getLast?_concat, hsmall, d', _, rfl, htracks', ?_, ?_⟩
  · simp only
    omega
  · by_cases hfront : head ≤ g
    · exact Or.inl ⟨g, by simp, max_eq_right hfront⟩
    · rw [max_eq_left (by omega)]
      rcases hhead with ⟨a, ha, hheada⟩ | ⟨a, ha, hheada⟩
      · exact Or.inl ⟨a, List.mem_append_left _ ha, hheada⟩
      · refine Or.inr ⟨a, ?_, hheada⟩
        rw [List.head?_append, ha]
        rfl

end Ssrc

/-- The state of an SSRC and the indices accepted for it. -/
def SsrcInv {n : Nat} (s : SrtpSsrcState n) (log : List Nat) : Prop :=
  (log = [] ∧ Fresh s) ∨ Locked s log

theorem SsrcInv.check {n : Nat} {s : SrtpSsrcState n} {log : List Nat} {seq : Nat}
    (h : SsrcInv s log)
    (hseq : seq < 2 ^ 16) :
    SsrcInv { s with replayDetector := (s.replayDetector.check seq).2 } log :=
  h.imp (fun hf => ⟨hf.1, hf.2.check hseq⟩) fun hl => hl.check hseq

/-- Either way of accepting a packet, from what is known of the indices so far. -/
theorem SsrcInv.accept {n : Nat} {s : SrtpSsrcState n} {log : List Nat} {seq g : Nat}
    (h : SsrcInv s log) (hpos : 0 < n) (hn : n ≤ 2 ^ 15) (hexact : ExactMask n)
    (hseq : seq < 2 ^ 16) (hnew : (s.replayDetector.check seq).1 = true)
    (hg : g = (s.nextRolloverCount seq).1 * 2 ^ 16 + seq) (hsmall : g + 2 ^ 16 < 2 ^ 48)
    (hreach : ∀ newest, log.max? = some newest → InReach n newest g) :
    ∃ detector, (s.replayDetector.check seq).2.accept = some detector
      ∧ Locked (SrtpSsrcState.updateRolloverCount { s with replayDetector := detector } seq
          (s.nextRolloverCount seq).2.1) (log ++ [g]) := by
  rcases h with ⟨rfl, hfresh⟩ | hlocked
  · rw [SrtpSsrcState.nextRolloverCount_first seq hfresh.processed hfresh.index, Nat.zero_mul,
      Nat.zero_add] at hg
    rw [hg]
    exact hfresh.accept hpos hexact hseq hnew _
  · have hne : log ≠ [] := by
      rintro rfl
      have := hlocked.last
      simp at this
    obtain ⟨newest, hnewest⟩ : ∃ newest, log.max? = some newest :=
      Option.isSome_iff_exists.mp (by simpa [List.isSome_max?_iff] using hne)
    obtain ⟨hmem, hmax⟩ := List.max?_eq_some_iff.mp hnewest
    exact hlocked.accept hpos hn hexact hseq hnew hg hsmall hmem hmax (hreach newest hnewest)

theorem SsrcInv.nodup {n : Nat} {s : SrtpSsrcState n} {log : List Nat} (h : SsrcInv s log) :
    log.Nodup := by
  rcases h with ⟨rfl, _⟩ | hlocked
  · exact List.nodup_nil
  · obtain ⟨_, _, _, htracks, _⟩ := hlocked.detector
    exact htracks.nodup

/-! ## 4. Receiving from a network -/

/-- A packet that the far side has encrypted, and under which counter. -/
structure Sent where
  header : Header
  roc : Nat
  plain : List UInt8
  bytes : List UInt8
  deriving DecidableEq, Repr

def Sent.index (g : Sent) : Nat := g.roc * 2 ^ 16 + g.header.sequenceNumber.toNat

/-- A packet that `decrypt_rtp` has given back, with the index it was decrypted under. -/
structure Delivery where
  ssrc : UInt32
  index : Nat
  plain : List UInt8
  deriving DecidableEq, Repr

def Sent.delivery (g : Sent) : Delivery := ⟨g.header.ssrc, g.index, g.plain⟩

/-- The index that the receiver takes a packet for. -/
def Context.guessedIndex {n : Nat} (c : Context n) (h : Header) : Nat :=
  ((c.getSrtpSsrcState h.ssrc).nextRolloverCount h.sequenceNumber.toNat).1 * 2 ^ 16
    + h.sequenceNumber.toNat

/-- The receiving side and all it has given back. -/
structure Receiver (n : Nat) where
  ctx : Context n
  out : List Delivery

namespace Receiver

variable {n : Nat}

def new (cipher : Cipher) (n : Nat) : Receiver n := ⟨.new cipher (srtpReplayProtection n), []⟩

/-- A packet arrives. -/
def receive (r : Receiver n) (bytes : List UInt8) : Receiver n :=
  match Header.unmarshal bytes, r.ctx.decryptRtp bytes with
  | .ok (h, _), (.ok dst, ctx) => ⟨ctx, r.out ++ [⟨h.ssrc, r.ctx.guessedIndex h, dst⟩]⟩
  | _, (_, ctx) => { r with ctx := ctx }

/-- The indices accepted for an SSRC, the last one last. -/
def indices (r : Receiver n) (ssrc : UInt32) : List Nat :=
  (r.out.filter fun e => e.ssrc = ssrc).map Delivery.index

end Receiver

/-- What the cipher is trusted for: whatever decrypts behind the header that it starts with is a
packet of the far side, under its counter. -/
def Unforged (cipher : Cipher) (genuine : List Sent) (bytes : List UInt8) : Prop :=
  ∀ h rest roc plain, Header.unmarshal bytes = .ok (h, rest) →
    cipher.decryptRtp bytes h roc = some plain →
    ∃ g ∈ genuine, g.bytes = bytes ∧ g.header = h ∧ g.roc = roc ∧ g.plain = plain

/-- A copy of a packet of the far side arrives only while it is in reach of the newest one
accepted. -/
def Calm {n : Nat} (genuine : List Sent) (r : Receiver n) (bytes : List UInt8) : Prop :=
  ∀ g ∈ genuine, g.bytes = bytes → ∀ newest ∈ (r.indices g.header.ssrc).max?,
    InReach n newest g.index

instance {n : Nat} (genuine : List Sent) (r : Receiver n) (bytes : List UInt8) :
    Decidable (Calm genuine r bytes) :=
  inferInstanceAs (Decidable (∀ g ∈ genuine, g.bytes = bytes →
    ∀ newest ∈ (r.indices g.header.ssrc).max?, InReach n newest g.index))

section Receive

variable {n : Nat} {genuine : List Sent}

/-- **Everything `decrypt_rtp_with_header` can do.** -/
theorem Context.decryptRtpWithHeader_cases (c : Context n) (bytes : List UInt8) (h : Header) :
    (∃ e, c.decryptRtpWithHeader bytes h = (.error e, c))
    ∨ (∃ e, c.decryptRtpWithHeader bytes h = (.error e, c.setSrtpSsrcState h.ssrc
        { c.getSrtpSsrcState h.ssrc with
          replayDetector :=
            ((c.getSrtpSsrcState h.ssrc).replayDetector.check h.sequenceNumber.toNat).2 }))
    ∨ ((c.getSrtpSsrcState h.ssrc).replayDetector.check h.sequenceNumber.toNat).1 = true
      ∧ ∃ dst, c.cipher.decryptRtp bytes h
            ((c.getSrtpSsrcState h.ssrc).nextRolloverCount h.sequenceNumber.toNat).1 = some dst
        ∧ ∀ detector,
          ((c.getSrtpSsrcState h.ssrc).replayDetector.check h.sequenceNumber.toNat).2.accept
              = some detector →
            (c.decryptRtpWithHeader bytes h).1 = .ok dst
            ∧ ∀ ssrc, (c.decryptRtpWithHeader bytes h).2.getSrtpSsrcState ssrc
                = if ssrc = h.ssrc then
                    SrtpSsrcState.updateRolloverCount
                      { c.getSrtpSsrcState h.ssrc with replayDetector := detector }
                      h.sequenceNumber.toNat
                      ((c.getSrtpSsrcState h.ssrc).nextRolloverCount h.sequenceNumber.toNat).2.1
                  else c.getSrtpSsrcState ssrc := by
  unfold Context.decryptRtpWithHeader
  by_cases hshort : bytes.length < h.marshalSize + c.cipher.rtpAuthTagLen
  · rw [if_pos hshort]
    exact Or.inl ⟨_, rfl⟩
  · rw [if_neg hshort]
    simp only
    cases hok : ((c.getSrtpSsrcState h.ssrc).replayDetector.check h.sequenceNumber.toNat).1 with
    | false => exact Or.inr (Or.inl ⟨_, rfl⟩)
    | true =>
      right
      simp only [Bool.not_true, Bool.false_eq_true, if_false]
      cases hdst : (c.setSrtpSsrcState h.ssrc _).cipher.decryptRtp bytes h _ with
      | none => exact Or.inl ⟨_, rfl⟩
      | some dst =>
        refine Or.inr ⟨trivial, dst, hdst, fun detector hdetector => ?_⟩
        simp only [hdetector]
        refine ⟨trivial, fun ssrc => ?_⟩
        by_cases hssrc : ssrc = h.ssrc <;> simp [hssrc]

theorem Context.decryptRtpWithHeader_cipher (c : Context n) (bytes : List UInt8) (h : Header) :
    (c.decryptRtpWithHeader bytes h).2.cipher = c.cipher := by
  unfold Context.decryptRtpWithHeader
  split
  · rfl
  · simp only
    split
    · rfl
    · split
      · rfl
      · split <;> rfl

/-- **What holds between packets.** -/
structure Receiver.Inv (cipher : Cipher) (genuine : List Sent) (r : Receiver n) : Prop where
  cipher : r.ctx.cipher = cipher
  ssrc : ∀ ssrc, SsrcInv (r.ctx.getSrtpSsrcState ssrc) (r.indices ssrc)
  out : ∀ e ∈ r.out, ∃ g ∈ genuine, e = g.delivery

variable {cipher : Cipher} {r : Receiver n} {bytes : List UInt8}

theorem Receiver.inv_new (cipher : Cipher) (genuine : List Sent) (n : Nat) :
    (Receiver.new cipher n).Inv cipher genuine where
  cipher := rfl
  ssrc := fun ssrc => Or.inl
    ⟨rfl, rfl, rfl, _, rfl, rfl, fun j => FixedBigInt.bit_new j, Nat.zero_le _⟩
  out := by simp [Receiver.new]

theorem Receiver.indices_append (out : List Delivery) (ctx : Context n) (e : Delivery)
    (ssrc : UInt32) :
    Receiver.indices ⟨ctx, out ++ [e]⟩ ssrc
      = (out.filter fun e => e.ssrc = ssrc).map Delivery.index
        ++ if ssrc = e.ssrc then [e.index] else [] := by
  by_cases hssrc : ssrc = e.ssrc
  · simp [Receiver.indices, hssrc]
  · simp [Receiver.indices, hssrc, Ne.symm hssrc]

/-- A state that changes for one SSRC only. -/
theorem Receiver.Inv.update (h : r.Inv cipher genuine) {ctx : Context n} {out : List Delivery}
    (ssrc : UInt32) (hcipher : ctx.cipher = cipher)
    (hout : ∀ e ∈ out, ∃ g ∈ genuine, e = g.delivery)
    (hother : ∀ ssrc', ssrc' ≠ ssrc → ctx.getSrtpSsrcState ssrc' = r.ctx.getSrtpSsrcState ssrc'
      ∧ Receiver.indices ⟨ctx, out⟩ ssrc' = r.indices ssrc')
    (hssrc : SsrcInv (ctx.getSrtpSsrcState ssrc) (Receiver.indices ⟨ctx, out⟩ ssrc)) :
    Receiver.Inv cipher genuine ⟨ctx, out⟩ where
  cipher := hcipher
  ssrc := fun ssrc' => by
    by_cases heq : ssrc' = ssrc
    · exact heq ▸ hssrc
    · obtain ⟨hstate, hindices⟩ := hother ssrc' heq
      rw [hindices]
      exact hstate ▸ h.ssrc ssrc'
  out := hout

/-- **One packet.**  Its own SSRC takes one of the steps of §3, the others none. -/
theorem Receiver.Inv.receive (h : r.Inv cipher genuine) (hpos : 0 < n) (hn : n ≤ 2 ^ 15)
    (hexact : ExactMask n) (hsmall : ∀ g ∈ genuine, g.index + 2 ^ 16 < 2 ^ 48)
    (hunforged : Unforged cipher genuine bytes) (hcalm : Calm genuine r bytes) :
    (r.receive bytes).Inv cipher genuine := by
  unfold Receiver.receive Context.decryptRtp
  cases hh : Header.unmarshal bytes with
  | error e => exact h
  | ok hr =>
    obtain ⟨hd, rest⟩ := hr
    simp only
    have hseq : hd.sequenceNumber.toNat < 2 ^ 16 := hd.sequenceNumber.toNat_lt
    have hinv := h.ssrc hd.ssrc
    rcases r.ctx.decryptRtpWithHeader_cases bytes hd with
      ⟨e, hres⟩ | ⟨e, hres⟩ | ⟨hok, dst, hdst, hacc⟩
    · rw [hres]
      exact h
    · rw [hres]
      refine h.update hd.ssrc h.cipher h.out (fun ssrc' hne => ⟨?_, rfl⟩) ?_
      · simp [hne]
      · rw [Context.getSrtpSsrcState_set, if_pos rfl]
        exact hinv.check hseq
    · -- the packet is one of the far side, and the guess was its counter
      rw [h.cipher] at hdst
      obtain ⟨g, hg, hbytes, hheader, hroc, hplain⟩ := hunforged hd rest _ dst hh hdst
      have hindex : g.index = r.ctx.guessedIndex hd := by
        rw [Sent.index, hroc, hheader]
        rfl
      obtain ⟨detector, hdetector, hlocked⟩ := hinv.accept hpos hn hexact hseq hok hindex
        (hsmall g hg) fun newest hnewest => hcalm g hg hbytes newest
        (by rw [hheader]; exact hnewest)
      obtain ⟨hresult, hstates⟩ := hacc detector hdetector
      have hpair : r.ctx.decryptRtpWithHeader bytes hd
          = (.ok dst, (r.ctx.decryptRtpWithHeader bytes hd).2) := by rw [← hresult]
      rw [hpair]
      simp only
      refine h.update hd.ssrc ?_ ?_ (fun ssrc' hne => ⟨?_, ?_⟩) ?_
      · rw [Context.decryptRtpWithHeader_cipher]
        exact h.cipher
      · intro e he
        rcases List.mem_append.mp he with he | he
        · exact h.out e he
        · refine ⟨g, hg, ?_⟩
          rw [List.mem_singleton.mp he, Sent.delivery, hheader, hindex, hplain]
      · rw [hstates, if_neg hne]
      · rw [Receiver.indices_append, if_neg hne, List.append_nil]
        rfl
      · rw [hstates, if_pos rfl, Receiver.indices_append, if_pos rfl, ← hindex]
        exact Or.inr hlocked

/-- **Every packet at most once.**  Whatever arrives, in whatever order and however often: as long
as copies of the far side's packets arrive in reach, each index is accepted at most once for its
SSRC, and what is given back is what the far side sent under it. -/
theorem Receiver.inv_run (hpos : 0 < n) (hn : n ≤ 2 ^ 15) (hexact : ExactMask n)
    (hsmall : ∀ g ∈ genuine, g.index + 2 ^ 16 < 2 ^ 48) (arrivals : List (List UInt8))
    (hunforged : ∀ b ∈ arrivals, Unforged cipher genuine b)
    (hcalm : Heeds (Calm genuine) Receiver.receive (Receiver.new cipher n) arrivals) :
    (run Receiver.receive (Receiver.new cipher n) arrivals).Inv cipher genuine :=
  run_inv_heeds (Unforged cipher genuine)
    (fun _ _ hu hc h => Receiver.Inv.receive h hpos hn hexact hsmall hu hc) arrivals _
    hunforged hcalm
    (Receiver.inv_new cipher genuine n)

end Receive

end WebrtcBridge.Srtp
