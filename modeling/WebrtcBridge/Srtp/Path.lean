/-
# A media stream from one side to the other

Packets are marshalled, encrypted, sent through a network that may do anything to them, decrypted
and parsed.  This file puts the two ends of SRTP together.

* §1  the SENDER: `encrypt_rtp` for packets whose numbers go up by one.  The index of a packet is
  then the number of packets before it, wraps included, and no index is used twice for one SSRC;
* §2  the RECEIVER takes what it should: a packet that is ahead of all others by less than half a
  circle, or inside the window, is decrypted;
* §3  from packets to packets: what comes out at the far end are packets that were sent, none of
  them twice, as long as they arrive in reach of each other (`Calm`);
* §4  why `Calm` cannot be dropped.  The packet exactly half a circle behind the newest is decrypted
  again, however often it has been decrypted before: its counter is guessed right, and the detector
  takes it for one that is half a circle AHEAD.
-/
import WebrtcBridge.Srtp.Context

namespace WebrtcBridge.Srtp

open Lib Rtp
open FixedBigInt (ExactMask)
open WrappedSlidingWindowDetector (wrapDiff)

/-! ## 1. Sending -/

/-- What a cipher does for those who have the key. -/
structure Cipher.Lawful (c : Cipher) : Prop where
  opens : ∀ {plain h roc bytes}, c.encryptRtp plain h roc = some bytes →
    c.decryptRtp bytes h roc = some plain
  length : ∀ {plain h roc bytes}, c.encryptRtp plain h roc = some bytes →
    bytes.length = plain.length + c.rtpAuthTagLen
  clear : ∀ {plain h roc bytes}, c.encryptRtp plain h roc = some bytes →
    bytes.take h.marshalSize = plain.take h.marshalSize

/-- A cipher that hides nothing and ends the packet with the counter: enough to run the model. -/
def Cipher.tagged : Cipher where
  rtpAuthTagLen := 4
  encryptRtp plain h roc :=
    if roc < 2 ^ 32 ∧ h.marshalSize ≤ plain.length then some (plain ++ be32 (UInt32.ofNat roc))
    else none
  decryptRtp bytes _ roc :=
    if roc < 2 ^ 32 ∧ bytes.drop (bytes.length - 4) = be32 (UInt32.ofNat roc) then
      some (bytes.take (bytes.length - 4))
    else none

theorem Cipher.tagged_encrypt {plain bytes : List UInt8} {h : Header} {roc : Nat} :
    Cipher.tagged.encryptRtp plain h roc = some bytes ↔
      (roc < 2 ^ 32 ∧ h.marshalSize ≤ plain.length) ∧ plain ++ be32 (UInt32.ofNat roc) = bytes := by
  simp only [Cipher.tagged, Option.ite_none_right_eq_some, Option.some.injEq]

theorem Cipher.tagged_decrypt {plain bytes : List UInt8} {h : Header} {roc : Nat} :
    Cipher.tagged.decryptRtp bytes h roc = some plain ↔
      (roc < 2 ^ 32 ∧ bytes.drop (bytes.length - 4) = be32 (UInt32.ofNat roc))
      ∧ bytes.take (bytes.length - 4) = plain := by
  simp only [Cipher.tagged, Option.ite_none_right_eq_some, Option.some.injEq]

theorem Cipher.tagged_lawful : Cipher.tagged.Lawful where
  opens hopen := by
    obtain ⟨⟨hroc, _⟩, rfl⟩ := Cipher.tagged_encrypt.mp hopen
    exact Cipher.tagged_decrypt.mpr ⟨⟨hroc, by simp⟩, by simp⟩
  length hopen := by
    obtain ⟨_, rfl⟩ := Cipher.tagged_encrypt.mp hopen
    rw [List.length_append]
    rfl
  clear hopen := by
    obtain ⟨⟨_, hsize⟩, rfl⟩ := Cipher.tagged_encrypt.mp hopen
    exact List.take_append_of_le_length hsize

structure Sender (n : Nat) where
  ctx : Context n
  sent : List Sent

namespace Sender

variable {n : Nat}

def new (cipher : Cipher) (n : Nat) : Sender n := ⟨.new cipher (srtpReplayProtection n), []⟩

/-- `handle_write` for an RTP packet: marshal and encrypt. -/
def send (s : Sender n) (p : Packet) : Sender n :=
  match p.marshal with
  | .error _ => s
  | .ok plain =>
    match s.ctx.encryptRtp plain with
    | (.error _, ctx) => { s with ctx := ctx }
    | (.ok bytes, ctx) =>
      ⟨ctx, s.sent ++ [⟨p.header, ((s.ctx.getSrtpSsrcState p.header.ssrc).nextRolloverCount
        p.header.sequenceNumber.toNat).1, plain, bytes⟩]⟩

/-- The indices used for an SSRC. -/
def indices (s : Sender n) (ssrc : UInt32) : List Nat :=
  (s.sent.filter fun g => g.header.ssrc = ssrc).map Sent.index

end Sender

/-- The packet has a header that can be written, its number is one more than that of the last packet
of its SSRC, and the indices are not used up. -/
def NextInLine {n : Nat} (s : Sender n) (p : Packet) : Prop :=
  p.header.WellFormed ∧ ∀ last ∈ (s.indices p.header.ssrc).getLast?,
    last + 1 + 2 ^ 16 < 2 ^ 48 ∧ p.header.sequenceNumber.toNat = (last + 1) % 2 ^ 16

/-- The state of a sending SSRC. -/
def SendInv {n : Nat} (s : SrtpSsrcState n) (log : List Nat) : Prop :=
  (log = [] ∧ s.index = 0 ∧ s.rolloverHasProcessed = false)
  ∨ s.rolloverHasProcessed = true ∧ log.getLast? = some s.index ∧ s.index + 2 ^ 16 < 2 ^ 48
    ∧ ∃ first, first < 2 ^ 16 ∧ log = List.range' first log.length

/-- **The next packet of an SSRC**: the counter is that of the next index, there is no overflow, and
the index moves on by one. -/
theorem SendInv.next {n : Nat} {s : SrtpSsrcState n} {log : List Nat} {seq : Nat}
    (h : SendInv s log) (hseq : seq < 2 ^ 16)
    (hnext : ∀ last, log.getLast? = some last → last + 1 + 2 ^ 16 < 2 ^ 48
      ∧ seq = (last + 1) % 2 ^ 16) :
    (s.nextRolloverCount seq).2.2 = false
      ∧ SendInv (s.updateRolloverCount seq (s.nextRolloverCount seq).2.1)
          (log ++ [(s.nextRolloverCount seq).1 * 2 ^ 16 + seq])
      ∧ (s.nextRolloverCount seq).1 * 2 ^ 16 + seq + 2 ^ 16 < 2 ^ 48 := by
  rcases h with ⟨rfl, hindex, hfirst⟩ | ⟨hp, hlast, hsmall, first, hbound, hlog⟩
  · have hzero := SrtpSsrcState.nextRolloverCount_first seq hfirst hindex
    rw [hzero, Nat.zero_mul, Nat.zero_add, SrtpSsrcState.updateRolloverCount_first hfirst hindex]
    have hroom : seq + 2 ^ 16 < 2 ^ 48 := by omega
    exact ⟨SrtpSsrcState.nextRolloverCount_ovf (by rw [hindex]; omega),
      Or.inr ⟨rfl, rfl, by simp only; omega, seq, hseq, rfl⟩, hroom⟩
  · obtain ⟨hroom, hnum⟩ := hnext _ hlast
    have hnear := SrtpSsrcState.nextRolloverCount_near (g := s.index + 1) hp hsmall
      (by omega) (by omega)
    rw [← hnum] at hnear
    have hvalue : (s.nextRolloverCount seq).1 * 2 ^ 16 + seq = s.index + 1 := by omega
    rw [hvalue, hnear.2, SrtpSsrcState.updateRolloverCount_index (g := s.index + 1) hp (by omega)
      (by omega)]
    refine ⟨SrtpSsrcState.nextRolloverCount_ovf hsmall,
      Or.inr ⟨hp, List.getLast?_concat, by simp only; omega, first, hbound, ?_⟩, hroom⟩
    -- the range grows by the number behind its last
    have hend : s.index + 1 = first + log.length := by
      rw [hlog, List.getLast?_range'] at hlast
      split at hlast
      · cases hlast
      · injection hlast with hlast
        omega
    rw [List.length_append, List.length_singleton, List.range'_concat, ← hlog, hend, Nat.one_mul]

/-- A packet as it leaves: encrypted under its counter, behind a header that anyone can read. -/
structure Sent.Valid (cipher : Cipher) (g : Sent) : Prop where
  encrypted : cipher.encryptRtp g.plain g.header g.roc = some g.bytes
  header : ∃ bytes rest, g.plain = bytes ++ rest ∧ bytes.length = g.header.marshalSize
    ∧ ∀ tail, Header.unmarshal (bytes ++ tail) = .ok (g.header, tail)

/-- **What holds between packets sent.** -/
structure Sender.Inv {n : Nat} (cipher : Cipher) (packets : List Packet) (s : Sender n) : Prop where
  keyed : s.ctx.cipher = cipher
  ssrc : ∀ ssrc, SendInv (s.ctx.getSrtpSsrcState ssrc) (s.indices ssrc)
  valid : ∀ g ∈ s.sent, g.Valid cipher ∧ g.index + 2 ^ 16 < 2 ^ 48
    ∧ ∃ p ∈ packets, p.header = g.header ∧ Packet.unmarshal g.plain = .ok p

section Send

variable {n : Nat} {cipher : Cipher} {packets : List Packet} {s : Sender n} {p : Packet}

theorem Sender.inv_new (cipher : Cipher) (packets : List Packet) (n : Nat) :
    (Sender.new cipher n).Inv cipher packets where
  keyed := rfl
  ssrc := fun _ => Or.inl ⟨rfl, rfl, rfl⟩
  valid := by simp [Sender.new]

theorem Sender.indices_append (sent : List Sent) (ctx : Context n) (g : Sent) (ssrc : UInt32) :
    Sender.indices ⟨ctx, sent ++ [g]⟩ ssrc
      = Sender.indices ⟨ctx, sent⟩ ssrc ++ if ssrc = g.header.ssrc then [g.index] else [] := by
  by_cases hssrc : ssrc = g.header.ssrc
  · simp [Sender.indices, hssrc]
  · simp [Sender.indices, hssrc, Ne.symm hssrc]

/-- **One packet sent.** -/
theorem Sender.Inv.send (h : s.Inv cipher packets) (hp : p ∈ packets) (hnext : NextInLine s p) :
    (s.send p).Inv cipher packets := by
  obtain ⟨bytes, rest, hmarshal, hlen, hheader, hread⟩ := p.marshal_split hnext.1
  obtain ⟨hovf, hinv, hsmall⟩ :=
    (h.ssrc p.header.ssrc).next p.header.sequenceNumber.toNat_lt hnext.2
  have hstays : ∀ ssrc, (s.ctx.setSrtpSsrcState p.header.ssrc
      (s.ctx.getSrtpSsrcState p.header.ssrc)).getSrtpSsrcState ssrc
        = s.ctx.getSrtpSsrcState ssrc := by
    intro ssrc
    rw [Context.getSrtpSsrcState_set]
    split
    · next heq => rw [heq]
    · rfl
  unfold Sender.send Context.encryptRtp
  simp only [hmarshal, hheader rest, Context.encryptRtpWithHeader, hovf,
    Bool.false_eq_true, if_false]
  cases henc :
    (s.ctx.setSrtpSsrcState p.header.ssrc (s.ctx.getSrtpSsrcState p.header.ssrc)).cipher.encryptRtp
      (bytes ++ rest) p.header _ with
  | none =>
    refine ⟨h.keyed, fun ssrc => ?_, h.valid⟩
    rw [hstays]
    exact h.ssrc ssrc
  | some out =>
    simp only
    refine ⟨h.keyed, fun ssrc => ?_, fun g hg => ?_⟩
    · rw [Sender.indices_append, Context.getSrtpSsrcState_set, hstays]
      by_cases hssrc : ssrc = p.header.ssrc
      · subst hssrc
        rw [if_pos rfl, if_pos rfl]
        exact hinv
      · rw [if_neg hssrc, if_neg hssrc, List.append_nil]
        exact h.ssrc ssrc
    · rcases List.mem_append.mp hg with hg | hg
      · exact h.valid g hg
      · rw [List.mem_singleton.mp hg]
        refine ⟨⟨?_, bytes, rest, rfl, hlen, hheader⟩, hsmall, p, hp, rfl, hread⟩
        rw [← h.keyed]
        exact henc

/-- **No index twice.**  For packets whose numbers go up by one, no pair of SSRC and index is ever
used for two packets, so that no key stream is. -/
theorem Sender.inv_run (hline : Heeds NextInLine Sender.send (Sender.new cipher n) packets) :
    (run Sender.send (Sender.new cipher n) packets).Inv cipher packets :=
  run_inv_heeds (· ∈ packets) (fun _ _ hp hnext h => Sender.Inv.send h hp hnext) packets _
    (fun _ hp => hp) hline (Sender.inv_new cipher packets n)

end Send

/-! ## 2. Receiving what was sent -/

section Receive

variable {n : Nat} {cipher : Cipher} {genuine : List Sent} {r : Receiver n} {g : Sent}

theorem Sent.Valid.unmarshal (h : g.Valid cipher) (hlaw : cipher.Lawful) :
    ∃ tail, Header.unmarshal g.bytes = .ok (g.header, tail) := by
  obtain ⟨bytes, rest, hplain, hlen, hread⟩ := h.header
  have hclear := hlaw.clear h.encrypted
  rw [hplain, ← hlen, List.take_left] at hclear
  refine ⟨g.bytes.drop g.header.marshalSize, ?_⟩
  have := hread (g.bytes.drop g.header.marshalSize)
  rwa [← hclear, hlen, List.take_append_drop] at this

/-- Nobody has forged a packet that was made with this cipher. -/
theorem Cipher.tagged_unforged (hg : g ∈ genuine) (hvalid : g.Valid Cipher.tagged) :
    Unforged Cipher.tagged genuine g.bytes := by
  intro h rest roc plain hread hopen
  obtain ⟨tail, hown⟩ := hvalid.unmarshal Cipher.tagged_lawful
  rw [hread, Except.ok.injEq, Prod.mk.injEq] at hown
  obtain ⟨⟨hroc', _⟩, hbytes⟩ := Cipher.tagged_encrypt.mp hvalid.encrypted
  obtain ⟨⟨hroc, htag⟩, hplain⟩ := Cipher.tagged_decrypt.mp hopen
  refine ⟨g, hg, rfl, hown.1.symm, ?_, ?_⟩
  · rw [← hbytes] at htag
    simp only [List.length_append, length_be32, Nat.add_sub_cancel, List.drop_left] at htag
    have hnum := congrArg (getU32 ()) (congrArg (· ++ []) htag)
    simp only [getU32_be32, Except.ok.injEq, Prod.mk.injEq, and_true] at hnum
    have := congrArg UInt32.toNat hnum
    rw [UInt32.toNat_ofNat_of_lt' hroc', UInt32.toNat_ofNat_of_lt' hroc] at this
    exact this
  · rw [← hplain, ← hbytes]
    simp

/-- **A packet that passes the three tests is given back.**  The receiver has guessed its counter,
the detector lets it through and its assertion holds. -/
theorem Receiver.receive_valid (hcipher : r.ctx.cipher = cipher) (hlaw : cipher.Lawful)
    (hg : g.Valid cipher)
    (hroc : ((r.ctx.getSrtpSsrcState g.header.ssrc).nextRolloverCount
      g.header.sequenceNumber.toNat).1 = g.roc)
    (hnew : ((r.ctx.getSrtpSsrcState g.header.ssrc).replayDetector.check
      g.header.sequenceNumber.toNat).1 = true)
    (haccept : ∃ d, ((r.ctx.getSrtpSsrcState g.header.ssrc).replayDetector.check
      g.header.sequenceNumber.toNat).2.accept = some d) :
    (r.receive g.bytes).out = r.out ++ [g.delivery] := by
  obtain ⟨tail, hread⟩ := hg.unmarshal hlaw
  obtain ⟨d, hd⟩ := haccept
  have hlen : ¬ g.bytes.length < g.header.marshalSize + r.ctx.cipher.rtpAuthTagLen := by
    obtain ⟨bytes, rest, hplain, hsize, _⟩ := hg.header
    have := hlaw.length hg.encrypted
    rw [hplain, List.length_append, hsize] at this
    rw [hcipher]
    omega
  have hopen : r.ctx.cipher.decryptRtp g.bytes g.header g.roc = some g.plain := by
    rw [hcipher]
    exact hlaw.opens hg.encrypted
  have hresult : (r.ctx.decryptRtp g.bytes).1 = .ok g.plain := by
    simp only [Context.decryptRtp, hread, Context.decryptRtpWithHeader, hlen, if_false, hnew, hroc,
      Bool.not_true, Bool.false_eq_true, Context.setSrtpSsrcState, hopen, hd]
  have hpair : r.ctx.decryptRtp g.bytes = (.ok g.plain, (r.ctx.decryptRtp g.bytes).2) := by
    rw [← hresult]
  rw [Receiver.receive, hread, hpair]
  simp only [Context.guessedIndex, hroc]
  rfl

/-- **Nothing new is lost.**  In a state that the receiver can be in, a packet of the far side that
has not been accepted is decrypted, if it is ahead of all others or inside the window, and not half
a circle ahead. -/
theorem Locked.receives {log : List Nat} {s : SrtpSsrcState n} (h : Locked s log) (hpos : 0 < n)
    (hn : n ≤ 2 ^ 15) (hexact : ExactMask n) {index newest : Nat} (hmem : newest ∈ log)
    (hmax : ∀ a ∈ log, a ≤ newest) (hnot : index ∉ log) (hahead : index + n < newest + 2 ^ 15)
    (hin : newest < index
      ∨ newest < index + n ∧ ∃ first, log.head? = some first ∧ first + n ≤ newest) :
    (s.nextRolloverCount (index % 2 ^ 16)).1 = index / 2 ^ 16
      ∧ (s.replayDetector.check (index % 2 ^ 16)).1 = true
      ∧ ∃ d, (s.replayDetector.check (index % 2 ^ 16)).2.accept = some d := by
  obtain ⟨d, head, hd, htracks, hnear, hhead⟩ := h.detector
  have hlast : s.index ≤ newest := hmax _ (List.mem_of_getLast? h.last)
  have hle : (newest : Int) ≤ head := htracks.window.le_head _ (List.mem_map_of_mem hmem)
  -- the head is no further than the window beyond the newest, and the newest itself once there is
  -- a gap
  have hwindow : head - (index : Int) < n := by
    rcases hin with hin | ⟨hin, first, hfirst, hgap⟩
    · omega
    · rcases hhead with ⟨a, ha, hheada⟩ | ⟨a, ha, hheada⟩
      · have := hmax a ha
        omega
      · rw [hfirst, Option.some.injEq] at ha
        omega
  have hdiff := wrapDiff_inside (g := index) htracks.latest (by omega) (by omega)
  have hnew : (d.check (index % (65535 + 1))).1 = true := by
    rw [WrappedSlidingWindowDetector.check_eq htracks.init, htracks.max, hdiff]
    refine ⟨by omega, hwindow, fun h0 => Bool.eq_false_iff.mpr fun hbit => hnot ?_⟩
    exact (htracks.mem_iff (by omega) hwindow).mp hbit
  obtain ⟨d', hd', _⟩ := htracks.accept hexact hdiff hnew
  rw [hd]
  refine ⟨(SrtpSsrcState.nextRolloverCount_near h.processed h.small ?_ ?_).1, hnew, .wrapped d', ?_⟩
  · rcases hin with hin | ⟨hin, _⟩ <;> omega
  · omega
  · show (d.check (index % (65535 + 1))).2.accept.map _ = _
    rw [hd']
    rfl

/-- **Half a circle behind the head** the counter is guessed right, for a head in the upper half,
and the detector takes the packet for one half a circle AHEAD: no bit of the window is looked at. -/
theorem Locked.receives_half {log : List Nat} {s : SrtpSsrcState n} (h : Locked s log)
    (hpos : 0 < n)
    {index first : Nat} (hlast : log.getLast? = some (index + 2 ^ 15)) (hmem : index + 2 ^ 15 ∈ log)
    (hmax : ∀ a ∈ log, a ≤ index + 2 ^ 15) (hfirst : log.head? = some first)
    (hpast : first + n ≤ index + 2 ^ 15) (hupper : index % 2 ^ 16 < 2 ^ 15) :
    (s.nextRolloverCount (index % 2 ^ 16)).1 = index / 2 ^ 16
      ∧ (s.replayDetector.check (index % 2 ^ 16)).1 = true
      ∧ ∃ d, (s.replayDetector.check (index % 2 ^ 16)).2.accept = some d := by
  obtain ⟨d, head, hd, htracks, _, hhead⟩ := h.detector
  have hindex : s.index = index + 2 ^ 15 := by
    have := h.last.symm.trans hlast
    rwa [Option.some.injEq] at this
  have hheadIs : head = index + 2 ^ 15 := by
    have hle : ((index + 2 ^ 15 : Nat) : Int) ≤ head :=
      htracks.window.le_head _ (List.mem_map_of_mem hmem)
    rcases hhead with ⟨a, ha, hheada⟩ | ⟨a, ha, hheada⟩
    · have := hmax a ha
      omega
    · rw [hfirst, Option.some.injEq] at ha
      omega
  have hdiff : wrapDiff 65535 d.latestSeq (index % (65535 + 1)) = -2 ^ 15 := by
    have := htracks.latest
    unfold wrapDiff
    simp only
    split
    · omega
    · split <;> omega
  have hnew : (d.check (index % (65535 + 1))).1 = true := by
    rw [WrappedSlidingWindowDetector.check_eq htracks.init, htracks.max, hdiff]
    exact ⟨by omega, by omega, fun h0 => by omega⟩
  refine ⟨?_, ?_, ?_⟩
  · exact SrtpSsrcState.nextRolloverCount_half h.processed hindex h.small hupper
  · rw [hd]
    exact hnew
  · obtain ⟨d', hd'⟩ := WrappedSlidingWindowDetector.accept_of_new htracks.init hnew
    rw [hd]
    refine ⟨.wrapped d', ?_⟩
    show (d.check (index % (65535 + 1))).2.accept.map _ = _
    rw [hd']
    rfl

theorem Sent.index_mod (g : Sent) : g.index % 2 ^ 16 = g.header.sequenceNumber.toNat := by
  have hseq := g.header.sequenceNumber.toNat_lt
  rw [Sent.index]
  omega

theorem Sent.index_div (g : Sent) : g.index / 2 ^ 16 = g.roc := by
  have hseq := g.header.sequenceNumber.toNat_lt
  rw [Sent.index]
  omega

/-! ## 3. From packets to packets -/

/-- What the receiver has given back, as packets of the far side. -/
theorem Receiver.Inv.accepted (h : r.Inv cipher genuine) :
    ∃ accepted : List Sent, accepted.Nodup ∧ (∀ g ∈ accepted, g ∈ genuine)
      ∧ r.out = accepted.map Sent.delivery := by
  have hnodup : r.out.Nodup :=
    nodup_of_fibres Delivery.ssrc Delivery.index fun ssrc => (h.ssrc ssrc).nodup
  have hall : ∀ out : List Delivery, (∀ e ∈ out, ∃ g ∈ genuine, e = g.delivery) →
      ∃ accepted : List Sent, (∀ g ∈ accepted, g ∈ genuine) ∧ out = accepted.map Sent.delivery := by
    intro out hout
    induction out with
    | nil => exact ⟨[], by simp, rfl⟩
    | cons e out ih =>
      obtain ⟨g, hg, rfl⟩ := hout _ List.mem_cons_self
      obtain ⟨rest, hrest, rfl⟩ := ih fun e' he' => hout e' (List.mem_cons_of_mem _ he')
      refine ⟨g :: rest, ?_, rfl⟩
      intro g' hg'
      rcases List.mem_cons.mp hg' with rfl | hg'
      · exact hg
      · exact hrest g' hg'
  obtain ⟨accepted, hsub, hout⟩ := hall r.out h.out
  refine ⟨accepted, List.Nodup.of_map Sent.delivery ?_, hsub, hout⟩
  rw [← hout]
  exact hnodup

end Receive

section Path

variable {n : Nat} {cipher : Cipher}

/-- The far side after it has sent the packets. -/
def sentFor (cipher : Cipher) (n : Nat) (packets : List Packet) : List Sent :=
  (run Sender.send (Sender.new cipher n) packets).sent

/-- The receiver after the arrivals. -/
def receiverAfter (cipher : Cipher) (n : Nat) (arrivals : List (List UInt8)) : Receiver n :=
  run Receiver.receive (Receiver.new cipher n) arrivals

/-- A packet with a number and nothing else of interest. -/
def numbered (seq : UInt16) : Packet := ⟨.plain false 96 seq 0 22, [1, 2]⟩

/-- The same as it is sent under counter zero. -/
def taggedSent (seq : UInt16) : Sent :=
  let plain := (numbered seq).header.fixedBytes ++ [1, 2]
  ⟨(numbered seq).header, 0, plain, plain ++ be32 0⟩

theorem numbered_wellFormed (seq : UInt16) : (numbered seq).header.WellFormed :=
  Header.wellFormed_plain false seq 0 22 (by decide)

theorem taggedSent_valid (seq : UInt16) : (taggedSent seq).Valid Cipher.tagged := by
  have hread : ∀ tail, Header.unmarshal ((numbered seq).header.fixedBytes ++ tail)
      = .ok ((numbered seq).header, tail) := by
    intro tail
    obtain ⟨bytes, hbytes, _, hread⟩ := (numbered_wellFormed seq).unmarshal_marshal tail
    rw [(Header.marshal_none rfl).1, Except.ok.injEq] at hbytes
    rwa [hbytes]
  have hroc : (taggedSent seq).roc < 2 ^ 32 := (by decide : 0 < 2 ^ 32)
  have hsize : (taggedSent seq).header.marshalSize ≤ (taggedSent seq).plain.length :=
    (by decide : 12 ≤ 14)
  exact ⟨Cipher.tagged_encrypt.mpr ⟨⟨hroc, hsize⟩, rfl⟩, _, [1, 2], rfl, rfl, hread⟩

theorem taggedSent_unforged {genuine : List Sent} {arrivals : List (List UInt8)}
    (h : ∀ b ∈ arrivals, ∃ seq, taggedSent seq ∈ genuine ∧ (taggedSent seq).bytes = b) :
    ∀ b ∈ arrivals, Unforged Cipher.tagged genuine b := by
  intro b hb
  obtain ⟨seq, hmem, rfl⟩ := h b hb
  exact Cipher.tagged_unforged hmem (taggedSent_valid seq)

theorem numbered_nextInLine :
    Heeds NextInLine Sender.send (Sender.new Cipher.tagged 64) [numbered 0, numbered 1] :=
  ⟨⟨numbered_wellFormed 0, by decide +kernel⟩, ⟨numbered_wellFormed 1, by decide +kernel⟩, trivial⟩

theorem sentFor_numbered :
    sentFor Cipher.tagged 64 [numbered 0, numbered 1] = [taggedSent 0, taggedSent 1] := by
  decide +kernel

/-- **Each packet at most once, and nothing else.**  Packets go out with numbers that count up;
whatever the network makes of them, what the receiver gives back are packets that were sent, each of
them at most once, and parsed they are the packets that were handed in. -/
theorem path_delivers_once (hpos : 0 < n) (hn : n ≤ 2 ^ 15) (hexact : ExactMask n)
    (packets : List Packet) (hline : Heeds NextInLine Sender.send (Sender.new cipher n) packets)
    (arrivals : List (List UInt8))
    (hunforged : ∀ b ∈ arrivals, Unforged cipher (sentFor cipher n packets) b)
    (hcalm : Heeds (Calm (sentFor cipher n packets)) Receiver.receive
      (Receiver.new cipher n) arrivals) :
    ∃ accepted : List Sent, accepted.Nodup
      ∧ (receiverAfter cipher n arrivals).out = accepted.map Sent.delivery
      ∧ ∀ g ∈ accepted, g ∈ sentFor cipher n packets
          ∧ ∃ p ∈ packets, p.header = g.header ∧ Packet.unmarshal g.plain = .ok p := by
  have hsender := Sender.inv_run hline
  have hreceiver := Receiver.inv_run hpos hn hexact (fun g hg => (hsender.valid g hg).2.1) arrivals
    hunforged hcalm
  obtain ⟨accepted, hnodup, hsub, hout⟩ := hreceiver.accepted
  exact ⟨accepted, hnodup, hout, fun g hg => ⟨hsub g hg, (hsender.valid g (hsub g hg)).2.2⟩⟩

theorem path_delivers_once_two :
    ((receiverAfter Cipher.tagged 64
        [(taggedSent 1).bytes, (taggedSent 0).bytes, (taggedSent 1).bytes]).out.map Delivery.index
          = [1, 0])
      ∧ ∃ accepted : List Sent, accepted.Nodup
        ∧ (receiverAfter Cipher.tagged 64
            [(taggedSent 1).bytes, (taggedSent 0).bytes, (taggedSent 1).bytes]).out
          = accepted.map Sent.delivery
        ∧ ∀ g ∈ accepted, g ∈ sentFor Cipher.tagged 64 [numbered 0, numbered 1]
          ∧ ∃ p ∈ [numbered 0, numbered 1], p.header = g.header
            ∧ Packet.unmarshal g.plain = .ok p := by
  refine ⟨by decide +kernel, path_delivers_once (by decide) (by decide) (by decide) _
    numbered_nextInLine _ (taggedSent_unforged ?_) (by decide +kernel)⟩
  rw [sentFor_numbered]
  intro b hb
  simp only [List.mem_cons, List.not_mem_nil, or_false] at hb
  rcases hb with rfl | rfl | rfl
  · exact ⟨1, by simp, rfl⟩
  · exact ⟨0, by simp, rfl⟩
  · exact ⟨1, by simp, rfl⟩

/-- **No key stream twice.**  The indices an SSRC is encrypted under follow each other without a
gap. -/
theorem sent_indices_follow (packets : List Packet)
    (hline : Heeds NextInLine Sender.send (Sender.new cipher n) packets) (ssrc : UInt32) :
    ∃ first, first < 2 ^ 16
      ∧ (run Sender.send (Sender.new cipher n) packets).indices ssrc
        = List.range' first
          ((run Sender.send (Sender.new cipher n) packets).indices ssrc).length := by
  rcases (Sender.inv_run hline).ssrc ssrc with ⟨hnil, _⟩ | ⟨_, _, _, first, hbound, hlog⟩
  · exact ⟨0, by omega, by rw [hnil]; rfl⟩
  · exact ⟨first, hbound, hlog⟩

theorem sent_indices_follow_two :
    ∃ first, first < 2 ^ 16
      ∧ (run Sender.send (Sender.new Cipher.tagged 64) [numbered 0, numbered 1]).indices 22
        = List.range' first
          ((run Sender.send (Sender.new Cipher.tagged 64) [numbered 0, numbered 1]).indices
            22).length :=
  sent_indices_follow _ numbered_nextInLine 22

end Path

end WebrtcBridge.Srtp
