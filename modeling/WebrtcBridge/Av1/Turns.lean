/-
# How often the depacketizer's loop turns

`depacketize` walks over a payload with an offset that is an `int`, and a length field cut to 32
bits can be negative or overflow when it is added.  So the offset is NOT monotone: on the path that
skips a first element whose beginning was never seen, nothing is copied, no check looks at the sign,
and the offset may move back, even below zero.

The loop ends all the same, and after at most one turn more than the payload has bytes:

* the skipping path needs `obuOffset == 0`, and every turn that goes on counts `obuOffset` up, so it
  is taken at most once, in the first turn;
* any other turn that goes on has copied its element, and a copy fails for a negative length or
  offset; so the offset has grown by at least the byte of the length field (`turn_next`);
* a turn that starts below zero throws: it reads a length field there, or copies from there.

`loopTurns` counts the turns.  A loop that has made fewer turns than it was allowed has been left
(`loop_left`).
-/
import WebrtcBridge.Av1.Depacketizer

namespace WebrtcBridge.Av1

open Lib Lib.Leb128

/-! ## 1. Counting -/

section

variable (payload : JavaBytes) (obuZ obuY : Bool) (obuCount : Nat)

/-- The turns that the loop begins from `s`, up to a limit. -/
def loopTurns : Nat → LoopState → Nat
  | 0, _ => 0
  | limit + 1, s =>
    if s.offset < payload.data.length then
      match turn payload obuZ obuY obuCount s with
      | .next s' => 1 + loopTurns limit s'
      | _ => 1
    else 0

end

/-- The turns of one call, up to a limit. -/
def callTurns (d : Depacketizer) (payload : JavaBytes) (limit : Nat) : Nat :=
  if payload.data.length ≤ 1 then 0
  else
    let header := payload.data.headD 0
    let obuZ := header &&& 0b10000000 != 0
    let obuY := header &&& 0b01000000 != 0
    let obuCount := ((header &&& 0b00110000) >>> 4).toNat
    let obuN := header &&& 0b00001000 != 0
    let buffer := if obuN then .empty else d.buffer
    let buffer := if !obuZ && !buffer.data.isEmpty then .empty else buffer
    loopTurns payload obuZ obuY obuCount limit ⟨1, 0, .empty, buffer⟩

section

variable {payload : JavaBytes} {obuZ obuY : Bool} {obuCount : Nat}

/-- **A loop that did not use all its turns was left**, by its condition, a `break` or an
exception. -/
theorem loop_left (limit : Nat) (s : LoopState)
    (h : loopTurns payload obuZ obuY obuCount limit s < limit) (s' : LoopState) :
    depacketizeLoop payload obuZ obuY obuCount limit s ≠ .next s' := by
  induction limit generalizing s with
  | zero => exact absurd h (Nat.not_lt_zero _)
  | succ limit ih =>
    rw [loopTurns] at h
    rw [depacketizeLoop]
    split at h
    · next hinside =>
      rw [if_pos hinside]
      cases hturn : turn payload obuZ obuY obuCount s with
      | next s1 =>
        simp only [hturn] at h
        exact ih s1 (by omega)
      | stop s1 | throw buffer e =>
        intro heq
        cases heq
    · next houtside =>
      rw [if_neg houtside]
      intro heq
      cases heq

/-! ## 2. One turn -/

/-- The loop of `readLeb128` counts on from `n`, and no further than there are bytes. -/
theorem javaReadLoop_count (bs : List UInt8) (result shift n : Nat) :
    n ≤ (javaReadLoop result shift n bs).2
      ∧ (javaReadLoop result shift n bs).2 ≤ n + bs.length := by
  induction bs generalizing result shift n with
  | nil => simp [javaReadLoop]
  | cons b bs ih =>
    rw [javaReadLoop, List.length_cons]
    split
    · constructor
      · exact Nat.le_succ n
      · omega
    · obtain ⟨hlow, hhigh⟩ :=
        ih (result ||| ((b.toNat &&& 127) <<< (shift % 64)) % 2 ^ 64) (shift + 7)
        (n + 1)
      constructor
      · omega
      · omega

/-- **An element that is not the last has a length field**, read at an offset that is not negative,
and stands behind it. -/
theorem readHead_field {offset : Int} {obuOffset : Nat} {head : ElementHead}
    (h : readHead payload obuCount offset obuOffset = .ok head) (hlast : head.isLast = false)
    (hinside : offset < payload.data.length) :
    0 ≤ offset ∧ offset < head.offset ∧ head.offset ≤ payload.data.length := by
  have hsize := payload.length_lt
  unfold readHead at h
  simp only at h
  split at h
  · split at h
    · cases h
    · next len n hread =>
      unfold readLeb128 at hread
      split at hread
      · cases hread
      · next hpos =>
        injection hread with hread
        injection hread with hlen hn
        obtain ⟨-, hcount⟩ := javaReadLoop_count (payload.data.drop offset.toNat) 0 0 0
        rw [List.length_drop] at hcount
        have hint : toInt n = n := toInt_eq (by omega) (by omega)
        rw [hint] at h
        split at h
        · cases h
        · injection h with h
          subst h
          have hoffset : toInt (offset + n) = offset + n := toInt_eq (by omega) (by omega)
          simp only [hoffset]
          omega
  · injection h with h
    subst h
    cases hlast

/-- What is copied lies in the payload. -/
theorem copyElement_bounds {prev : List UInt8} {offset lengthField : Int} {bytes : JavaBytes}
    (h : copyElement prev payload offset lengthField = .ok bytes) :
    0 ≤ offset ∧ 0 ≤ lengthField ∧ offset + lengthField ≤ payload.data.length := by
  unfold copyElement at h
  split at h
  · cases h
  · split at h
    · cases h
    · next hbounds => omega

theorem goOn_next {s s' : LoopState} {isLast : Bool} (h : s.goOn isLast = .next s') :
    isLast = false ∧ s' = { s with obuOffset := s.obuOffset + 1 } := by
  cases isLast with
  | true => cases h
  | false =>
    injection h with h
    exact ⟨rfl, h.symm⟩

/-- Behind the copy a turn that goes on changes the count and the result only. -/
theorem handleObu_next {s s' : LoopState} {isLast : Bool} {obuBuffer : JavaBytes} {actualSize : Int}
    (h : handleObu obuY s isLast obuBuffer actualSize = .next s') :
    isLast = false ∧ s'.offset = s.offset ∧ s'.obuOffset = s.obuOffset + 1 := by
  unfold handleObu at h
  split at h
  · cases h
  · split at h
    · obtain ⟨hlast, rfl⟩ := goOn_next h
      exact ⟨hlast, rfl, rfl⟩
    · split at h
      · cases h
      · obtain ⟨hlast, rfl⟩ := goOn_next h
        exact ⟨hlast, rfl, rfl⟩

/-- **An element that is not skipped ends where it says**, at or behind its beginning. -/
theorem takeElement_next {s s' : LoopState} {head : ElementHead}
    (h : takeElement payload obuZ obuY s head = .next s') :
    head.isLast = false ∧ s'.obuOffset = s.obuOffset + 1
      ∧ (s.obuOffset ≠ 0 → head.offset ≤ s'.offset) := by
  have hsize := payload.length_lt
  unfold takeElement at h
  simp only at h
  split at h
  · cases h
  · split at h
    · next hskip =>
      -- the path that skips is the first turn's
      split at h
      · cases h
      · next hlast =>
        injection h with h
        subst h
        refine ⟨Bool.eq_false_of_not_eq_true hlast, rfl, ?_⟩
        intro hfirst
        simp only [Bool.and_eq_true, beq_iff_eq] at hskip
        exact absurd hskip.1.1 hfirst
    · split at h
      · cases h
      · next obuBuffer hcopy =>
        obtain ⟨hoffset, hlength, hend⟩ := copyElement_bounds hcopy
        obtain ⟨hlast, hmoved, hcounted⟩ := handleObu_next h
        refine ⟨hlast, hcounted, ?_⟩
        intro _
        have hsum : toInt (head.offset + head.lengthField) = head.offset + head.lengthField :=
          toInt_eq (by omega) (by omega)
        have hle : head.offset ≤ head.offset + head.lengthField := by omega
        rw [hmoved]
        exact hle.trans_eq hsum.symm

/-- **A turn that goes on** started at an offset that is not negative and counts `obuOffset` up;
after the first turn it has also moved forward. -/
theorem turn_next {s s' : LoopState} (h : turn payload obuZ obuY obuCount s = .next s')
    (hinside : s.offset < payload.data.length) :
    0 ≤ s.offset ∧ s'.obuOffset = s.obuOffset + 1 ∧ (s.obuOffset ≠ 0 → s.offset < s'.offset) := by
  unfold turn at h
  split at h
  · cases h
  · next head hhead =>
    obtain ⟨hlast, hcounted, hmoved⟩ := takeElement_next h
    obtain ⟨hpos, hfield, -⟩ := readHead_field hhead hlast hinside
    refine ⟨hpos, hcounted, ?_⟩
    intro hfirst
    have := hmoved hfirst
    omega

/-! ## 3. The loop -/

/-- A loop makes no turn, or one turn and those of the state it goes on with. -/
theorem loopTurns_le (limit bound : Nat) (s : LoopState)
    (h : ∀ s', s.offset < payload.data.length → turn payload obuZ obuY obuCount s = .next s' →
      loopTurns payload obuZ obuY obuCount limit s' ≤ bound) :
    loopTurns payload obuZ obuY obuCount (limit + 1) s ≤ bound + 1 := by
  rw [loopTurns]
  split
  · next hinside =>
    cases hturn : turn payload obuZ obuY obuCount s with
    | next s' =>
      have := h s' hinside hturn
      simp only
      omega
    | stop s' | throw buffer e => exact Nat.succ_le_succ (Nat.zero_le bound)
  · exact Nat.zero_le _

/-- A turn below zero is the last. -/
theorem loopTurns_negative (limit : Nat) (s : LoopState) (hneg : s.offset < 0) :
    loopTurns payload obuZ obuY obuCount limit s ≤ 1 := by
  cases limit with
  | zero => exact Nat.zero_le _
  | succ limit =>
    refine loopTurns_le limit 0 s ?_
    intro s' hinside hturn
    obtain ⟨hpos, -⟩ := turn_next hturn hinside
    omega

/-- **Behind the first turn the offset only grows**, by induction on the turns allowed. -/
theorem loopTurns_forward (limit : Nat) (s : LoopState) (hfirst : s.obuOffset ≠ 0)
    (hpos : 0 ≤ s.offset) :
    loopTurns payload obuZ obuY obuCount limit s ≤ payload.data.length - s.offset.toNat := by
  induction limit generalizing s with
  | zero => exact Nat.zero_le _
  | succ limit ih =>
    by_cases hinside : s.offset < payload.data.length
    · obtain ⟨room, hroom⟩ : ∃ room, payload.data.length - s.offset.toNat = room + 1 :=
        ⟨payload.data.length - s.offset.toNat - 1, by omega⟩
      rw [hroom]
      refine loopTurns_le limit room s ?_
      intro s' _ hturn
      obtain ⟨-, hcounted, hmoved⟩ := turn_next hturn hinside
      have hgrown := hmoved hfirst
      have hrest := ih s' (by omega) (by omega)
      omega
    · rw [loopTurns, if_neg hinside]
      exact Nat.zero_le _

/-- **All turns together**: the first may go anywhere, and behind it there are at most as many turns
as bytes. -/
theorem loopTurns_bound (limit : Nat) (s : LoopState) (hpayload : 0 < payload.data.length) :
    loopTurns payload obuZ obuY obuCount limit s ≤ payload.data.length + 1 := by
  cases limit with
  | zero => exact Nat.zero_le _
  | succ limit =>
    refine loopTurns_le limit payload.data.length s ?_
    intro s' hinside hturn
    obtain ⟨-, hcounted, -⟩ := turn_next hturn hinside
    rcases lt_or_ge s'.offset 0 with hneg | hpos
    · exact (loopTurns_negative limit s' hneg).trans hpayload
    · exact (loopTurns_forward limit s' (by omega) hpos).trans (Nat.sub_le _ _)

end

/-- **Every call leaves its loop after at most one turn more than the payload has bytes**, whatever
the depacketizer has seen before: no limit finds more turns, and the call returns or throws. -/
theorem depacketize_turns (payloads : List JavaBytes) (payload : JavaBytes) :
    (∀ limit, callTurns (depacketizeAll .fresh payloads).1 payload limit ≤ payload.data.length + 1)
      ∧ (depacketize (depacketizeAll .fresh payloads).1 payload).2 ≠ .running := by
  constructor
  · intro limit
    unfold callTurns
    split
    · exact Nat.zero_le _
    · exact loopTurns_bound limit _ (by omega)
  · unfold depacketize
    split
    · intro h
      cases h
    · next hlong =>
      simp only
      split
      · next s hloop =>
        refine absurd hloop (loop_left _ _ ?_ s)
        exact Nat.lt_succ_of_le (loopTurns_bound _ _ (by omega))
      · intro h
        cases h
      · split
        · intro h
          cases h
        · intro h
          cases h

/-- The offset does move back: the first element has the length -1 and is skipped, and the last byte
of its length field is read a second time, as the length of another element. -/
example : callTurns .fresh ⟨[0x80, 0xff, 0xff, 0xff, 0xff, 0x8f, 0x00], by decide⟩ 9
    = 2 := by decide

end WebrtcBridge.Av1
