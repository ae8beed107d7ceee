/-
# AV1 there and back

The Rust payloader turns a frame into RTP payloads, the Java depacketizer turns RTP payloads into
OBUs.  They share no code and no data structure; what they share is the wire format, and the two
sides have been tied to it separately: the payloader writes the packets of a CHAIN of spans
(`payload_frame`, `packetize_spec`), the depacketizer does on each packet what the abstract
receiver does (`depacketize_wire`).  `Lib.absorbAll_chain` closes the circle.

Here the depacketizer is run over all packets of a frame (`depacketizeAll_refines`), and over frame
after frame.  The buffer is empty after each frame, which is why the next one starts afresh.
-/
import WebrtcBridge.Av1.Payloader
import WebrtcBridge.Av1.Depacketizer

namespace WebrtcBridge.Av1

open Lib Lib.Leb128

/-! ## 1. All packets of a frame -/

theorem wires_false (ps : List (Packet UInt8)) : wires false ps = ps.map (wire false) := by
  cases ps <;> rfl

/-- **The depacketizer refines the abstract receiver** on any admissible packets. -/
theorem depacketizeAll_refines : ∀ (ps : List (Packet UInt8)) (payloads : List JavaBytes) (n : Bool)
    (d : Depacketizer) (os : List Obu) (buffer : List UInt8),
    payloads.map JavaBytes.data = wires n ps → (n = true → d.buffer.data = []) →
    Admissible (2 ^ 31) d.buffer.data ps → absorbAll d.buffer.data ps = (os.map Obu.bytes, buffer) →
    (∀ o ∈ os, isDropped o.header = false) → (os.flatMap Obu.lowOverhead).length < 2 ^ 31 →
    ∃ outs : List JavaBytes, (depacketizeAll d payloads).2 = outs.map Outcome.returned
      ∧ outs.flatMap JavaBytes.data = os.flatMap Obu.lowOverhead
      ∧ (depacketizeAll d payloads).1.buffer.data = buffer
  | [], payloads, n, d, os, buffer, hwires, _, _, habsorb, _, _ => by
    have hnone : payloads = [] := List.map_eq_nil_iff.mp hwires
    simp only [absorbAll, Prod.mk.injEq, List.nil_eq, List.map_eq_nil_iff] at habsorb
    obtain ⟨rfl, hbuffer⟩ := habsorb
    subst hnone
    exact ⟨[], rfl, rfl, hbuffer⟩
  | p :: ps, payloads, n, d, os, buffer, hwires, hn, hadm, habsorb, hkeep, hresult => by
    obtain ⟨payload, payloads, rfl, hdata, hrest⟩ := List.map_eq_cons_iff.mp hwires
    obtain ⟨hcont, hpieces, hne, hlimit, hadm'⟩ := hadm
    simp only [absorbAll, Prod.mk.injEq] at habsorb
    obtain ⟨hos, hbuffer⟩ := habsorb
    obtain ⟨os₁, os₂, rfl, hos₁, hos₂⟩ := List.map_eq_append_iff.mp hos.symm
    rw [List.flatMap_append, List.length_append] at hresult
    have hfirst : n = true → p.continued = false := by
      intro htrue
      rw [Bool.eq_false_iff]
      exact fun hc => hcont.mp hc (hn htrue)
    have hone : absorb d.buffer.data p = (os₁.map Obu.bytes, (absorb d.buffer.data p).2) :=
      Prod.ext hos₁.symm rfl
    obtain ⟨out, hout, houtData, hkept⟩ := depacketize_wire hdata hfirst hcont hpieces hne hone
      (fun o ho => hkeep o (List.mem_append_left os₂ ho)) (by omega) hlimit
    rw [← hkept] at hadm' hos₂ hbuffer
    obtain ⟨outs, houts, houtsData, hend⟩ := depacketizeAll_refines ps payloads false
      (depacketize d payload).1 os₂ buffer (hrest.trans (wires_false ps).symm) (fun h => by cases h)
      hadm' (Prod.ext hos₂.symm hbuffer) (fun o ho => hkeep o (List.mem_append_right os₁ ho))
        (by omega)
    refine ⟨out :: outs, ?_, ?_, hend⟩
    · simp only [depacketizeAll, List.map_cons, hout, houts]
    · rw [List.flatMap_cons, houtData, houtsData, List.flatMap_append]

/-- What is kept by the payloader is not dropped by the depacketizer. -/
theorem isDropped_of_kept {o : Obu} (h : shouldIgnoreObuType (obuType o.header) = false) :
    isDropped o.header = false := by
  simp only [shouldIgnoreObuType, Bool.or_eq_false_iff] at h
  simp only [isDropped, h.1, Bool.or_self]

/-- An OBU is no longer than all of them together in low-overhead form. -/
theorem size_le_lowOverhead {os : List Obu} : ∀ o ∈ os,
    o.size ≤ (os.flatMap Obu.lowOverhead).length := by
  intro o ho
  obtain ⟨os₁, os₂, rfl⟩ := List.append_of_mem ho
  have hle := o.length_bytes_le
  rw [o.length_bytes] at hle
  simp only [List.flatMap_append, List.flatMap_cons, List.length_append]
  omega

/-- **One frame**, from an empty buffer to an empty buffer. -/
theorem depacketizeAll_frame {f : Frame} {mtu : Nat} {payloads : List JavaBytes} {d : Depacketizer}
    (hmtu : 3 ≤ mtu) (hlength : f.lowOverhead.length < 2 ^ 31)
    (hpayload : payload mtu f.bytes = .ok (payloads.map JavaBytes.data))
    (hd : d.buffer.data = []) :
    ∃ outs : List JavaBytes, (depacketizeAll d payloads).2 = outs.map Outcome.returned
      ∧ outs.flatMap JavaBytes.data = f.lowOverhead
      ∧ (depacketizeAll d payloads).1.buffer.data = [] := by
  have hsize : ∀ o ∈ f.kept, o.size < 2 ^ 31 := fun o ho =>
    Nat.lt_of_le_of_lt (size_le_lowOverhead o ho) hlength
  have hlimit : ∀ o ∈ f.kept, o.size < 2 ^ 32 := fun o ho => Nat.lt_trans (hsize o ho) (by decide)
  obtain ⟨hchain, -⟩ := packetize_spec f.kept hmtu hlimit
  have hwires : payloads.map JavaBytes.data
      = wires (startsSequence f.kept) (packetsOf f.kept mtu) := by
    rw [payload_frame f hmtu hlimit] at hpayload
    exact (Except.ok.inj hpayload).symm
  have hstart : started (f.kept.map Obu.bytes) ⟨0, 0⟩ = d.buffer.data := by
    rw [hd, started, List.take_zero]
  have hitems : ∀ x ∈ f.kept.map Obu.bytes, x ≠ [] := by
    intro x hx
    obtain ⟨o, -, rfl⟩ := List.mem_map.mp hx
    exact o.bytes_ne_nil
  have hshort : ∀ k, ((f.kept.map Obu.bytes).getD k []).length < 2 ^ 31 := by
    intro k
    rcases Nat.lt_or_ge k (f.kept.map Obu.bytes).length with hk | hk
    · obtain ⟨o, ho, -, hitem⟩ := getElem?_of_items f.kept k hk
      rw [hitem, o.length_bytes]
      exact hsize o ho
    · rw [List.getD_eq_default _ _ hk]
      exact Nat.two_pow_pos 31
  have hadm := hchain.admissible hitems hshort
  have hall := absorbAll_chain (f.kept.map Obu.bytes) _ _ _ hchain
  have hend : started (f.kept.map Obu.bytes) ⟨f.kept.length, 0⟩ = [] := List.take_zero
  have htake : ((f.kept.map Obu.bytes).drop 0).take (f.kept.length - 0) = f.kept.map Obu.bytes := by
    rw [List.drop_zero, Nat.sub_zero]
    exact List.take_of_length_le (by simp)
  rw [hend, htake, hstart] at hall
  rw [hstart] at hadm
  exact depacketizeAll_refines _ payloads _ d f.kept [] hwires (fun _ => hd) hadm hall
    (fun o ho => isDropped_of_kept (f.kept_type o ho)) hlength

/-! ## 2. Frame after frame -/

/-- A frame to be sent, with the MTU to send it with. -/
structure Sending where
  mtu : Nat
  frame : Frame
  mtu_ge : 3 ≤ mtu
  output_lt : frame.lowOverhead.length < 2 ^ 31

/-- The payloads of one frame after those of another, all to one depacketizer. -/
def depacketizeFrames (d : Depacketizer) :
    List (List JavaBytes) → Depacketizer × List (List Outcome)
  | [] => (d, [])
  | payloads :: frames =>
    let r := depacketizeAll d payloads
    let rs := depacketizeFrames r.1 frames
    (rs.1, r.2 :: rs.2)

/-- The payloads, as Java has them, are what the payloader produces for the frame. -/
def SentAs (x : Sending) (payloads : List JavaBytes) : Prop :=
  payload x.mtu x.frame.bytes = .ok (payloads.map JavaBytes.data)

/-- **Frame after frame**: every call returns, each frame comes out in low-overhead form, and the
buffer is empty again. -/
theorem depacketizeFrames_sent : ∀ (xs : List Sending) (frames : List (List JavaBytes))
    (d : Depacketizer), List.Forall₂ SentAs xs frames → d.buffer.data = [] →
    ∃ outs : List (List JavaBytes),
      (depacketizeFrames d frames).2 = outs.map (List.map Outcome.returned)
      ∧ outs.map (List.flatMap JavaBytes.data) = xs.map (fun x => x.frame.lowOverhead)
      ∧ (depacketizeFrames d frames).1.buffer.data = []
  | [], [], d, _, hd => ⟨[], rfl, rfl, hd⟩
  | x :: xs, payloads :: frames, d, hsent, hd => by
    obtain ⟨hfirst, hrest⟩ := List.forall₂_cons.mp hsent
    obtain ⟨out, hout, hdata, hempty⟩ := depacketizeAll_frame x.mtu_ge x.output_lt hfirst hd
    obtain ⟨outs, houts, hdatas, hend⟩ := depacketizeFrames_sent xs frames _ hrest hempty
    refine ⟨out :: outs, ?_, ?_, hend⟩
    · simp only [depacketizeFrames, List.map_cons, hout, houts]
    · simp only [List.map_cons, hdata, hdatas]

/-- The payloader produces payloads for every frame, none longer than the MTU. -/
theorem exists_payloads (x : Sending) : ∃ payloads, payload x.mtu x.frame.bytes = .ok payloads
    ∧ ∀ bytes ∈ payloads, bytes.length ≤ x.mtu := by
  have hlimit : ∀ o ∈ x.frame.kept, o.size < 2 ^ 32 := fun o ho =>
    Nat.lt_trans (Nat.lt_of_le_of_lt (size_le_lowOverhead o ho) x.output_lt) (by decide)
  exact ⟨_, payload_frame x.frame x.mtu_ge hlimit, wire_length_le x.mtu_ge hlimit _⟩

/-- **The round trip.**  For any frames and any MTUs from 3 on, the payloader produces payloads, and
one fresh depacketizer given them in order throws nothing, returns for each frame the kept OBUs in
low-overhead form, in order, and ends with an empty buffer. -/
theorem av1_round_trip (xs : List Sending) :
    (∀ x ∈ xs, ∃ payloads, payload x.mtu x.frame.bytes = .ok payloads
      ∧ ∀ bytes ∈ payloads, bytes.length ≤ x.mtu)
    ∧ ∀ frames : List (List JavaBytes), List.Forall₂ SentAs xs frames →
      ∃ outs : List (List JavaBytes),
        (depacketizeFrames .fresh frames).2 = outs.map (List.map Outcome.returned)
        ∧ outs.map (List.flatMap JavaBytes.data)
            = xs.map (fun x => x.frame.kept.flatMap Obu.lowOverhead)
        ∧ (depacketizeFrames .fresh frames).1.buffer.data = [] :=
  ⟨fun x _ => exists_payloads x,
    fun frames hsent => depacketizeFrames_sent xs frames .fresh hsent rfl⟩

/-- A temporal delimiter, a sequence header with an extension byte, and a frame OBU without size
field. -/
def sampleFrame : Frame where
  obus :=
    [⟨0x12, 0, [0], [], by decide⟩, ⟨0x0e, 0x48, [3], [1, 2, 3], by decide⟩,
      ⟨0x30, 0, [], [4, 5, 6, 7], by decide⟩]
  sized := by decide

/-- The sample with a small MTU, and again with one that takes it whole. -/
def sampleSendings : List Sending :=
  [⟨4, sampleFrame, by decide, by decide⟩, ⟨20, sampleFrame, by decide, by decide⟩]

/-- What is sent: four fragments, then one packet with two elements. -/
def samplePayloads : List (List JavaBytes) :=
  [[⟨[0x58, 0x0c, 0x48, 1], by decide⟩, ⟨[0x90, 2, 3], by decide⟩, ⟨[0x50, 0x30, 4, 5], by decide⟩,
      ⟨[0x90, 6, 7], by decide⟩],
    [⟨[0x28, 5, 0x0c, 0x48, 1, 2, 3, 0x30, 4, 5, 6, 7], by decide⟩]]

theorem av1_round_trip_sample :
    List.Forall₂ SentAs sampleSendings samplePayloads
    ∧ ∃ outs : List (List JavaBytes),
        (depacketizeFrames .fresh samplePayloads).2 = outs.map (List.map Outcome.returned)
        ∧ outs.map (List.flatMap JavaBytes.data)
            = sampleSendings.map (fun x => x.frame.kept.flatMap Obu.lowOverhead)
        ∧ (depacketizeFrames .fresh samplePayloads).1.buffer.data = [] :=
  have hsent : List.Forall₂ SentAs sampleSendings samplePayloads := .cons rfl (.cons rfl .nil)
  ⟨hsent, (av1_round_trip sampleSendings).2 samplePayloads hsent⟩

end WebrtcBridge.Av1
