/-
# The reassembly queue of a stream

`ReassemblyQueue` collects the chunks of one stream.  Ordered chunks go into sets, one for each
message, kept in the order of their SSN; unordered chunks lie in one list until a whole message is
among them. `read` gives out a whole unordered message, or the ordered one whose turn it is.

The queue never sees a place or a message, only TSNs, SSNs and the two flags for the first and the
last fragment.  What it holds is described by places (`Holding`), and `Holding.queue` is the queue
that holds them: the code's `push` and `read` are followed on that side.  A queue that is fed from a
`Layout`, each place at most once, holds fragments of messages and nothing else; a set is complete
exactly if it holds all places of its message, and what is read is a message that was sent, with its
ordered predecessors read before.

* §1  the code;
* §2  when a list of fragments is a message: the tests for ordered and for unordered chunks;
* §3  what a queue holds;
* §4  `push`, ordered and unordered;
* §5  `read`.
-/
import Mathlib.Algebra.Ring.Nat
import Mathlib.Algebra.BigOperators.Group.List.Basic
import WebrtcBridge.Sctp.Chunk

namespace WebrtcBridge.Sctp

open Lib

/-! ## 1. The code -/

/-- A set of fragments; `timestamp` is when it was created. -/
structure Chunks where
  ssn : UInt16
  ppi : PayloadProtocolIdentifier
  chunks : List ChunkPayloadData
  timestamp : Nat
  deriving DecidableEq, Repr

namespace Chunks

def len (s : Chunks) : Nat := (s.chunks.map (·.userData.length)).sum

def toPayload (s : Chunks) (maxLen : Nat) : Except Error (List UInt8) :=
  if s.len > maxLen then .error .shortBuffer else .ok (s.chunks.flatMap (·.userData))

/-- The last loop of `is_complete`: every TSN is the one behind the last. -/
def contiguous : UInt32 → List ChunkPayloadData → Bool
  | _, [] => true
  | lastTsn, c :: cs => c.tsn == lastTsn + 1 && contiguous c.tsn cs

def isComplete (s : Chunks) : Bool :=
  match s.chunks with
  | [] => false
  | c :: cs => c.beginningFragment && (cs.getLastD c).endingFragment && contiguous c.tsn cs

def push (s : Chunks) (chunk : ChunkPayloadData) : Chunks × Bool :=
  let idx := partitionPoint (fun c => sna32lt c.tsn chunk.tsn) s.chunks
  if (s.chunks[idx]?).any (·.tsn == chunk.tsn) then (s, false)
  else
    let s := { s with chunks := s.chunks.insertIdx idx chunk }
    (s, s.isComplete)

end Chunks

structure ReassemblyQueue where
  si : UInt16
  nextSsn : UInt16 := 0
  ordered : List Chunks := []
  unordered : List Chunks := []
  unorderedChunks : List ChunkPayloadData := []
  nBytes : Nat := 0
  deriving DecidableEq, Repr

namespace ReassemblyQueue

/-- The loop of `find_complete_unordered_chunk_set` from index `i` on: `start` is the source's
`start_idx` unless that is -1, and the result is where the set begins and how many chunks it has. -/
def scan (i : Nat) (start : Option Nat) (nChunks : Nat) (lastTsn : UInt32) :
    List ChunkPayloadData → Option (Nat × Nat)
  | [] => none
  | c :: cs =>
    if c.beginningFragment then
      if c.endingFragment then some (i, 1) else scan (i + 1) (some i) 1 c.tsn cs
    else
      match start with
      | none => scan (i + 1) none nChunks lastTsn cs
      | some s =>
        if c.tsn ≠ lastTsn + 1 then scan (i + 1) none nChunks lastTsn cs
        else if c.endingFragment then some (s, nChunks + 1)
        else scan (i + 1) (some s) (nChunks + 1) c.tsn cs

/-- The set and what is left of the chunks. -/
def findCompleteUnorderedChunkSet (q : ReassemblyQueue) (now : Nat) :
    Option (Chunks × List ChunkPayloadData) :=
  match scan 0 none 0 0 q.unorderedChunks with
  | none => none
  | some (s, n) =>
    let chunks := (q.unorderedChunks.drop s).take n
    some (⟨0, (chunks.headD {}).payloadType, chunks, now⟩,
      q.unorderedChunks.take s ++ q.unorderedChunks.drop (s + n))

def pushUnordered (q : ReassemblyQueue) (now : Nat) (chunk : ChunkPayloadData) :
    ReassemblyQueue × Bool :=
  let q := { q with nBytes := q.nBytes + chunk.userData.length }
  let q :=
    { q with
      unorderedChunks := insertSorted (fun c d => sna32lt c.tsn d.tsn) chunk q.unorderedChunks }
  match q.findCompleteUnorderedChunkSet now with
  | some (cset, rest) =>
    ({ q with unorderedChunks := rest, unordered := q.unordered ++ [cset] }, true)
  | none => (q, false)

def pushOrdered (q : ReassemblyQueue) (now : Nat) (chunk : ChunkPayloadData) :
    ReassemblyQueue × Bool :=
  if sna16lt chunk.streamSequenceNumber q.nextSsn then (q, false)
  else
    let q := { q with nBytes := q.nBytes + chunk.userData.length }
    let ssn := chunk.streamSequenceNumber
    let idx := partitionPoint (fun s => sna16lt s.ssn ssn) q.ordered
    match (q.ordered[idx]?).filter (·.ssn == ssn) with
    | some s => ({ q with ordered := q.ordered.set idx (s.push chunk).1 }, (s.push chunk).2)
    | none =>
      let cset : Chunks := ⟨ssn, chunk.payloadType, [], now⟩
      ({ q with ordered := q.ordered.insertIdx idx (cset.push chunk).1 }, (cset.push chunk).2)

def push (q : ReassemblyQueue) (now : Nat) (chunk : ChunkPayloadData) : ReassemblyQueue × Bool :=
  if chunk.streamIdentifier ≠ q.si then (q, false)
  else if chunk.unordered then q.pushUnordered now chunk
  else q.pushOrdered now chunk

/-- `readable_ordered_chunks`. -/
def readableOrderedChunks (q : ReassemblyQueue) : Option Chunks :=
  match q.ordered with
  | [] => none
  | cset :: _ =>
    if !cset.isComplete then none else if sna16gt cset.ssn q.nextSsn then none else some cset

def subtractNumBytes (q : ReassemblyQueue) (n : Nat) : ReassemblyQueue :=
  if q.nBytes ≥ n then { q with nBytes := q.nBytes - n } else { q with nBytes := 0 }

/-- Take the first ordered set. -/
def popOrdered (q : ReassemblyQueue) (cset : Chunks) : ReassemblyQueue :=
  { q with
    ordered := q.ordered.tail
    nextSsn := if cset.ssn == q.nextSsn then q.nextSsn + 1 else q.nextSsn }

/-- `read`: with both kinds readable the older set goes first, and otherwise an unordered one. -/
def read (q : ReassemblyQueue) : Option (Chunks × ReassemblyQueue) :=
  match q.unordered, q.readableOrderedChunks with
  | u :: us, some o =>
    if u.timestamp < o.timestamp then some (u, { q with unordered := us }.subtractNumBytes u.len)
    else some (o, (q.popOrdered o).subtractNumBytes o.len)
  | u :: us, none => some (u, { q with unordered := us }.subtractNumBytes u.len)
  | [], some o => some (o, (q.popOrdered o).subtractNumBytes o.len)
  | [], none => none

end ReassemblyQueue

/-! ## 2. When a list of fragments is a message -/

section Whole

variable {ps : List Placed} {p : Placed} {a : Nat} {ks : List Nat}

/-- Chunks that follow each other lie at places that follow each other. -/
theorem contiguous_map (hl : Layout ps) (hks : ∀ k ∈ ks, ∃ p ∈ ps, k ∈ p.places)
    (hinc : (a :: ks).Pairwise (· < ·)) (hnear : ∀ k ∈ ks, k < a + 2 ^ 31) :
    Chunks.contiguous (.ofNat a) (ks.map (chunkAt ps))
      = decide (ks = List.range' (a + 1) ks.length) := by
  induction ks generalizing a with
  | nil => simp [Chunks.contiguous]
  | cons k ks ih =>
    obtain ⟨p, hp, hk⟩ := hks k List.mem_cons_self
    have hlt : a < k := List.rel_of_pairwise_cons hinc List.mem_cons_self
    have hfar := hnear k List.mem_cons_self
    have hrest := ih (fun j hj => hks j (List.mem_cons_of_mem k hj)) (List.pairwise_cons.mp hinc).2
      fun j hj => Nat.lt_trans (hnear j (List.mem_cons_of_mem k hj)) (by omega)
    have hnext : (UInt32.ofNat k == .ofNat a + 1) = decide (k = a + 1) := by
      rw [← ofNat_succ32, Bool.eq_iff_iff, beq_iff_eq, decide_eq_true_eq]
      exact ofNat32_inj (by omega) (by omega)
    rw [List.map_cons, Chunks.contiguous, tsn_chunkAt hl hp hk, hnext, hrest, List.length_cons,
      List.range'_succ, Bool.eq_iff_iff, Bool.and_eq_true, decide_eq_true_eq, decide_eq_true_eq,
      decide_eq_true_eq, List.cons.injEq]
    constructor
    · rintro ⟨rfl, h⟩
      exact ⟨rfl, h⟩
    · rintro ⟨rfl, h⟩
      exact ⟨rfl, h⟩

theorem getLastD_range' (a n : Nat) : (List.range' (a + 1) n).getLastD a = a + n := by
  cases n with
  | zero => rfl
  | succ n => simp [List.getLastD_eq_getLast?, List.getLast?_range']; omega

theorem getLastD_map {α β : Type} (f : α → β) (a : α) (l : List α) :
    (l.map f).getLastD (f a) = f (l.getLastD a) := by
  rw [List.getLastD_eq_getLast?, List.getLastD_eq_getLast?, List.getLast?_map]
  cases l.getLast? with
  | none | some b => rfl

/-- **A set of ordered fragments is complete exactly if it holds every place of its message.** -/
theorem isComplete_iff (hl : Layout ps) (hp : p ∈ ps) (hks : ∀ k ∈ ks, k ∈ p.places)
    (hinc : ks.Pairwise (· < ·)) (ssn : UInt16) (ppi : PayloadProtocolIdentifier)
    (timestamp : Nat) :
    (⟨ssn, ppi, ks.map (chunkAt ps), timestamp⟩ : Chunks).isComplete = true ↔ ks = p.places := by
  have hpos := hl.size_pos p hp
  have hle := hl.size_le p hp
  cases ks with
  | nil =>
    simp only [Chunks.isComplete, List.map_nil, Bool.false_eq_true, false_iff]
    exact fun h => List.ne_nil_of_mem (hl.first_mem hp) h.symm
  | cons k ks =>
    have hk := hks k List.mem_cons_self
    have hkr := Placed.mem_places.mp hk
    have hnear : ∀ j ∈ ks, j < k + 2 ^ 31 := by
      intro j hj
      have := Placed.mem_places.mp (hks j (List.mem_cons_of_mem k hj))
      omega
    have hlast : ks.getLastD k ∈ p.places := by
      cases h : ks.getLast? with
      | none => simpa [List.getLastD_eq_getLast?, h] using hk
      | some l =>
        rw [List.getLastD_eq_getLast?, h]
        exact hks l (List.mem_cons_of_mem k (List.mem_of_getLast? h))
    rw [Chunks.isComplete]
    simp only [List.map_cons, Bool.and_eq_true]
    rw [getLastD_map, tsn_chunkAt hl hp hk, chunkAt_eq hl hp hk, chunkAt_eq hl hp hlast,
      beginning_chunk hk, ending_chunk hlast,
      contiguous_map hl (fun j hj => ⟨p, hp, hks j (List.mem_cons_of_mem k hj)⟩) hinc hnear]
    simp only [decide_eq_true_eq]
    rw [hl.places_eq hp, List.cons.injEq]
    constructor
    · rintro ⟨⟨rfl, hend⟩, hrun⟩
      rw [hrun, getLastD_range'] at hend
      have hlen : ks.length = p.message.size - 1 := by omega
      rw [hlen] at hrun
      exact ⟨rfl, hrun⟩
    · rintro ⟨rfl, hrun⟩
      have hlen : ks.length = p.message.size - 1 := by rw [hrun, List.length_range']
      rw [hlen]
      refine ⟨⟨rfl, ?_⟩, hrun⟩
      rw [hrun, getLastD_range']
      omega

/-- The scan has just passed the first `n` fragments of a message, and there are more. -/
structure Passing (p : Placed) (pre : List Nat) (s n : Nat) (lastTsn : UInt32) : Prop where
  pos : 0 < n
  lt : n < p.message.size
  tail : ∃ front, pre = front ++ List.range' p.first n ∧ front.length = s
  last : lastTsn = .ofNat (p.first + n - 1)

namespace Passing

variable {pre : List Nat} {s n : Nat} {lastTsn : UInt32}

theorem last_mem (h : Passing p pre s n lastTsn) : p.first + n - 1 ∈ pre := by
  obtain ⟨front, rfl, -⟩ := h.tail
  have hpos := h.pos
  refine List.mem_append_right _ (List.mem_range'_1.mpr ?_)
  omega

theorem next_mem (h : Passing p pre s n lastTsn) : p.first + n ∈ p.places := by
  have hlt := h.lt
  exact Placed.mem_places.mpr ⟨by omega, by omega⟩

/-- The fragment that has to come next has not been passed. -/
theorem next_notMem (h : Passing p pre s n lastTsn) (hinc : pre.Pairwise (· < ·)) :
    p.first + n ∉ pre := by
  obtain ⟨front, rfl, -⟩ := h.tail
  have hpos := h.pos
  intro hmem
  rcases List.mem_append.mp hmem with hfront | hrange
  · have := (List.pairwise_append.mp hinc).2.2 _ hfront p.first
      (List.mem_range'_1.mpr ⟨Nat.le_refl _, by omega⟩)
    omega
  · have := List.mem_range'_1.mp hrange
    omega

/-- The first fragment has been passed. -/
theorem begin (hsize : 1 < p.message.size) :
    Passing p (pre ++ [p.first]) pre.length 1 (.ofNat p.first) :=
  ⟨Nat.one_pos, hsize, ⟨pre, rfl, rfl⟩, rfl⟩

theorem next (h : Passing p pre s n lastTsn) (hmore : n + 1 < p.message.size) :
    Passing p (pre ++ [p.first + n]) s (n + 1) (.ofNat (p.first + n)) := by
  obtain ⟨front, rfl, hs⟩ := h.tail
  refine ⟨by omega, hmore, ⟨front, ?_, hs⟩, rfl⟩
  rw [List.append_assoc, ← List.range'_1_concat]

/-- The TSN that has to come next. -/
theorem tsn_eq_iff (h : Passing p pre s n lastTsn) {k : Nat} (hnear : ∀ b ∈ pre, b < k)
    (hfar : ∀ b ∈ pre, k < b + 2 ^ 31) : UInt32.ofNat k = lastTsn + 1 ↔ k = p.first + n := by
  have hlow := hnear _ h.last_mem
  have hhigh := hfar _ h.last_mem
  have hpos := h.pos
  rw [h.last, ← ofNat_succ32, ofNat32_inj (by omega) (by omega)]
  omega

end Passing

open ReassemblyQueue

/-- A list in which each place belongs to a message, in order and within half the circle. -/
structure Spread (ps : List Placed) (ks : List Nat) : Prop where
  mem : ∀ k ∈ ks, ∃ p ∈ ps, k ∈ p.places
  increasing : ks.Pairwise (· < ·)
  near : ∀ a ∈ ks, ∀ b ∈ ks, b < a + 2 ^ 31

theorem Spread.middle {pre : List Nat} {k : Nat} (h : Spread ps (pre ++ k :: ks)) :
    (∀ b ∈ pre, b < k) ∧ (∀ b ∈ pre, k < b + 2 ^ 31) := by
  refine ⟨fun b hb => ?_, fun b hb => ?_⟩
  · exact (List.pairwise_append.mp h.increasing).2.2 b hb k List.mem_cons_self
  · exact h.near b (List.mem_append_left _ hb) k (List.mem_append_right _ List.mem_cons_self)

theorem scan_cons (i : Nat) (start : Option Nat) (nChunks : Nat) (lastTsn : UInt32)
    (c : ChunkPayloadData) (cs : List ChunkPayloadData) :
    scan i start nChunks lastTsn (c :: cs)
      = if c.beginningFragment then
          if c.endingFragment then some (i, 1) else scan (i + 1) (some i) 1 c.tsn cs
        else
          match start with
          | none => scan (i + 1) none nChunks lastTsn cs
          | some s =>
            if c.tsn ≠ lastTsn + 1 then scan (i + 1) none nChunks lastTsn cs
            else if c.endingFragment then some (s, nChunks + 1)
            else scan (i + 1) (some s) (nChunks + 1) c.tsn cs := by
  rw [scan.eq_def]

/-- **What the scan finds is a message.** -/
theorem scan_sound (hl : Layout ps) (pre : List Nat) {start : Option Nat} {n s' n' : Nat}
    {lastTsn : UInt32} (hspread : Spread ps (pre ++ ks))
    (hstart : ∀ s, start = some s → ∃ p ∈ ps, Passing p pre s n lastTsn)
    (hscan : scan pre.length start n lastTsn (ks.map (chunkAt ps)) = some (s', n')) :
    ∃ p ∈ ps, ∃ front back, pre ++ ks = front ++ (p.places ++ back) ∧ front.length = s'
      ∧ p.message.size = n' := by
  induction ks generalizing start n lastTsn pre with
  | nil => simp [scan] at hscan
  | cons k ks ih =>
    obtain ⟨p, hp, hk⟩ := hspread.mem k (by simp)
    obtain ⟨hbefore, hnear⟩ := hspread.middle
    have hkr := Placed.mem_places.mp hk
    have happend : pre ++ k :: ks = (pre ++ [k]) ++ ks := by simp
    have hlen : (pre ++ [k]).length = pre.length + 1 := by simp
    rw [happend] at hspread
    rw [List.map_cons, scan_cons, chunkAt_eq hl hp hk, beginning_chunk hk, ending_chunk hk,
      tsn_chunk] at hscan
    by_cases hfirst : k = p.first
    · rw [if_pos (by simpa using hfirst)] at hscan
      subst hfirst
      by_cases hend : p.first + 1 = p.first + p.message.size
      · -- the message has one fragment
        rw [if_pos (by simpa using hend)] at hscan
        obtain ⟨rfl, rfl⟩ : pre.length = s' ∧ 1 = n' := by simpa using hscan
        have hone : p.message.size = 1 := by omega
        refine ⟨p, hp, pre, ks, ?_, rfl, hone⟩
        rw [Placed.places, hone]
        rfl
      · rw [if_neg (by simpa using hend), ← hlen] at hscan
        rw [happend]
        refine ih _ hspread ?_ hscan
        rintro s ⟨rfl⟩
        exact ⟨p, hp, .begin (by omega)⟩
    · rw [if_neg (by simpa using hfirst)] at hscan
      cases start with
      | none =>
        rw [happend]
        simp only [← hlen] at hscan
        exact ih _ hspread (by simp) hscan
      | some s =>
        obtain ⟨p', hp', hpass⟩ := hstart s rfl
        simp only [ne_eq, hpass.tsn_eq_iff hbefore hnear, ite_not] at hscan
        by_cases hnext : k = p'.first + n
        · rw [if_pos hnext] at hscan
          subst hnext
          obtain rfl := hl.disjoint p hp p' hp' _ hk hpass.next_mem
          by_cases hend : p.first + n + 1 = p.first + p.message.size
          · rw [if_pos (by simpa using hend)] at hscan
            obtain ⟨rfl, rfl⟩ : s = s' ∧ n + 1 = n' := by simpa using hscan
            obtain ⟨front, rfl, hs⟩ := hpass.tail
            refine ⟨p, hp, front, ks, ?_, hs, by omega⟩
            rw [Placed.places, show p.message.size = n + 1 by omega, List.range'_1_concat]
            simp
          · rw [if_neg (by simpa using hend), ← hlen] at hscan
            rw [happend]
            refine ih _ hspread ?_ hscan
            rintro s ⟨rfl⟩
            exact ⟨p, hp, hpass.next (by omega)⟩
        · rw [if_neg hnext, ← hlen] at hscan
          rw [happend]
          exact ih _ hspread (by simp) hscan

/-- **A message that is all there is found**, or another one is found before it. -/
theorem scan_complete (hl : Layout ps) (hp : p ∈ ps) (pre : List Nat) {start : Option Nat} {n : Nat}
    {lastTsn : UInt32} (hspread : Spread ps (pre ++ ks)) (hall : ∀ a ∈ p.places, a ∈ pre ++ ks)
    (hahead : p.first ∈ ks ∨ ∃ s, start = some s ∧ Passing p pre s n lastTsn) :
    scan pre.length start n lastTsn (ks.map (chunkAt ps)) ≠ none := by
  induction ks generalizing start n lastTsn pre with
  | nil =>
    -- the fragment behind those that were passed would have to lie among them
    rcases hahead with h | ⟨s, -, hpass⟩
    · simp at h
    · rw [List.append_nil] at hspread hall
      exact absurd (hall _ hpass.next_mem) (hpass.next_notMem hspread.increasing)
  | cons k ks ih =>
    obtain ⟨pk, hpk, hk⟩ := hspread.mem k (by simp)
    obtain ⟨hbefore, hnear⟩ := hspread.middle
    have happend : pre ++ k :: ks = (pre ++ [k]) ++ ks := by simp
    have hlen : (pre ++ [k]).length = pre.length + 1 := by simp
    have hrest : ∀ b ∈ ks, k < b := fun b hb =>
      List.rel_of_pairwise_cons (List.pairwise_append.mp hspread.increasing).2.1 hb
    rw [happend] at hspread hall
    rw [List.map_cons, scan_cons, chunkAt_eq hl hpk hk, beginning_chunk hk, ending_chunk hk,
      tsn_chunk, ← hlen]
    rcases hahead with hfirst | ⟨s, rfl, hpass⟩
    · rcases List.mem_cons.mp hfirst with rfl | hfirst
      · -- the message begins here
        obtain rfl := hl.disjoint pk hpk p hp _ hk (hl.first_mem hp)
        rw [if_pos (by simp)]
        split
        · simp
        · next hend =>
          have hsize := hl.size_pos pk hpk
          have hmore : 1 < pk.message.size := by
            simp only [decide_eq_true_eq] at hend
            omega
          exact ih _ hspread hall (Or.inr ⟨_, rfl, .begin hmore⟩)
      · -- it begins later: whatever happens here
        split
        · split
          · simp
          · exact ih _ hspread hall (Or.inl hfirst)
        · cases start with
          | none => exact ih _ hspread hall (Or.inl hfirst)
          | some s =>
            simp only
            split
            · exact ih _ hspread hall (Or.inl hfirst)
            · split
              · simp
              · exact ih _ hspread hall (Or.inl hfirst)
    · -- the scan is inside the message, so this is its next fragment
      have hpos := hpass.pos
      have hlow := hbefore _ hpass.last_mem
      have hinc := (List.pairwise_append.mp (List.pairwise_append.mp hspread.increasing).1).1
      have hkeq : k = p.first + n := by
        rcases List.mem_append.mp (hall _ hpass.next_mem) with hpre | hks
        · rcases List.mem_append.mp hpre with hpre | hone
          · exact absurd hpre (hpass.next_notMem hinc)
          · exact (List.mem_singleton.mp hone).symm
        · have := hrest _ hks
          omega
      subst hkeq
      obtain rfl := hl.disjoint pk hpk p hp _ hk hpass.next_mem
      rw [if_neg (by simp; omega)]
      simp only [ne_eq, hpass.tsn_eq_iff hbefore hnear, not_true_eq_false, if_false]
      split
      · simp
      · next hend =>
        have hlt := hpass.lt
        have hmore : n + 1 < pk.message.size := by
          simp only [decide_eq_true_eq] at hend
          omega
        exact ih _ hspread hall (Or.inr ⟨s, rfl, hpass.next hmore⟩)

end Whole

/-! ## 3. What a queue holds -/

/-- Some places of an ordered message. -/
structure HeldSet where
  placed : Placed
  places : List Nat
  timestamp : Nat
  deriving DecidableEq, Repr

namespace HeldSet

def number (s : HeldSet) : Nat := s.placed.message.number

def chunks (ps : List Placed) (s : HeldSet) : Chunks :=
  ⟨.ofNat s.number, s.placed.message.ppi, s.places.map (chunkAt ps), s.timestamp⟩

end HeldSet

/-- **What a queue holds, by places**: how many ordered messages have been read, the sets of ordered
fragments, the unordered fragments, and the unordered messages that wait to be read, each with the
time at which it became whole. -/
structure Holding where
  next : Nat := 0
  sets : List HeldSet := []
  loose : List Nat := []
  whole : List (Placed × Nat) := []
  deriving DecidableEq, Repr

def wholeChunks (ps : List Placed) (w : Placed × Nat) : Chunks :=
  ⟨0, w.1.message.ppi, w.1.places.map (chunkAt ps), w.2⟩

/-- The bytes at some places. -/
def bytesAt (ps : List Placed) (as : List Nat) : Nat :=
  (as.map fun a => (chunkAt ps a).userData.length).sum

@[simp] theorem bytesAt_cons (ps : List Placed) (a : Nat) (as : List Nat) :
    bytesAt ps (a :: as) = (chunkAt ps a).userData.length + bytesAt ps as := by
  simp [bytesAt]

@[simp] theorem bytesAt_append (ps : List Placed) (as bs : List Nat) :
    bytesAt ps (as ++ bs) = bytesAt ps as + bytesAt ps bs := by
  simp [bytesAt]

theorem bytesAt_perm (ps : List Placed) {as bs : List Nat} (h : as.Perm bs) :
    bytesAt ps as = bytesAt ps bs :=
  (h.map _).sum_eq

namespace Holding

def held (h : Holding) : List Nat :=
  h.sets.flatMap (·.places) ++ (h.loose ++ h.whole.flatMap (·.1.places))

/-- The queue that holds just that. -/
def queue (ps : List Placed) (si : UInt16) (h : Holding) : ReassemblyQueue where
  si := si
  nextSsn := .ofNat h.next
  ordered := h.sets.map (·.chunks ps)
  unordered := h.whole.map (wholeChunks ps)
  unorderedChunks := h.loose.map (chunkAt ps)
  nBytes := bytesAt ps h.held

/-- Fragments of messages of the stream, none of them read, no whole message among the loose ones,
and all ordered messages within half the circle of SSNs from the one that is next. -/
structure Valid (ps : List Placed) (si : UInt16) (h : Holding) : Prop where
  mem_sets : ∀ s ∈ h.sets, s.placed ∈ ps ∧ s.placed.message.si = si
    ∧ s.placed.message.unordered = false
  next_le : ∀ s ∈ h.sets, h.next ≤ s.number
  reach : ∀ s ∈ h.sets, s.number < h.next + 2 ^ 15
  increasing : h.sets.Pairwise fun s t => s.number < t.number
  sub : ∀ s ∈ h.sets, ∀ a ∈ s.places, a ∈ s.placed.places
  inc : ∀ s ∈ h.sets, s.places.Pairwise (· < ·)
  mem_loose : ∀ a ∈ h.loose, ∃ p ∈ ps, a ∈ p.places ∧ p.message.si = si ∧ p.message.unordered = true
  spread : Spread ps h.loose
  unwhole : ∀ p ∈ ps, ¬ ∀ a ∈ p.places, a ∈ h.loose
  mem_whole : ∀ w ∈ h.whole, w.1 ∈ ps ∧ w.1.message.si = si ∧ w.1.message.unordered = true

theorem valid_empty {ps : List Placed} (hl : Layout ps) (si : UInt16) : Valid ps si {} where
  mem_sets := by simp
  next_le := by simp
  reach := by simp
  increasing := List.Pairwise.nil
  sub := by simp
  inc := by simp
  mem_loose := by simp
  spread := ⟨by simp, List.Pairwise.nil, by simp⟩
  unwhole := by
    intro p hp h
    have := h p.first (hl.first_mem hp)
    simp at this
  mem_whole := by simp

end Holding

/-! ## 4. `push` -/

section PushOrdered

variable {ps : List Placed} {p : Placed} {a : Nat} {ks : List Nat}

theorem Chunks.push_new (hl : Layout ps) (hp : p ∈ ps) (ha : a ∈ p.places) (ks : List Nat)
    (hks : ∀ k ∈ ks, k ∈ p.places) (hnew : a ∉ ks) (ssn : UInt16) (ppi : PayloadProtocolIdentifier)
    (timestamp : Nat) :
    (⟨ssn, ppi, ks.map (chunkAt ps), timestamp⟩ : Chunks).push (chunkAt ps a)
      = (⟨ssn, ppi, (ks.orderedInsert (· ≤ ·) a).map (chunkAt ps), timestamp⟩,
          (⟨ssn, ppi, (ks.orderedInsert (· ≤ ·) a).map (chunkAt ps), timestamp⟩ :
            Chunks).isComplete) := by
  have har := Placed.mem_places.mp ha
  have hle := hl.size_le p hp
  have hnear : ∀ k ∈ ks, k < a + 2 ^ 31 ∧ a < k + 2 ^ 31 := by
    intro k hk
    have := Placed.mem_places.mp (hks k hk)
    omega
  have hagree : ∀ k ∈ ks, sna32lt (chunkAt ps k).tsn (chunkAt ps a).tsn = decide (k < a) := by
    intro k hk
    rw [tsn_chunkAt hl hp (hks k hk), tsn_chunkAt hl hp ha]
    exact sna32lt_ofNat (hnear k hk).1 (hnear k hk).2
  have hother : ∀ c ∈ ks.map (chunkAt ps), (c.tsn == (chunkAt ps a).tsn) = false := by
    intro c hc
    obtain ⟨k, hk, rfl⟩ := List.mem_map.mp hc
    rw [tsn_chunkAt hl hp (hks k hk), tsn_chunkAt hl hp ha, beq_eq_false_iff_ne]
    intro heq
    rw [(ofNat32_inj (hnear k hk).1 (hnear k hk).2).mp heq] at hk
    exact hnew hk
  have hnone : ∀ i : Nat, ((ks.map (chunkAt ps))[i]?).any (·.tsn == (chunkAt ps a).tsn)
      = false := by
    intro i
    cases hi : (ks.map (chunkAt ps))[i]? with
    | none => rfl
    | some c => exact hother c (List.mem_of_getElem? hi)
  rw [Chunks.push]
  simp only [hnone, Bool.false_eq_true, if_false]
  have hinsert := insertSorted_map (fun c d : ChunkPayloadData => sna32lt c.tsn d.tsn) hagree
  exact congrArg (fun cs => ((⟨ssn, ppi, cs, timestamp⟩ : Chunks),
    (⟨ssn, ppi, cs, timestamp⟩ : Chunks).isComplete)) hinsert

/-- The sets with one more place: in the set of its message if there is one, and otherwise in a new
set in front of those with larger numbers. -/
def addTo (p : Placed) (a now : Nat) : List HeldSet → List HeldSet
  | [] => [⟨p, [a], now⟩]
  | s :: ss =>
    if s.number < p.message.number then s :: addTo p a now ss
    else if s.number = p.message.number then
      { s with places := s.places.orderedInsert (· ≤ ·) a } :: ss
    else ⟨p, [a], now⟩ :: s :: ss

/-- The set that gets the place. -/
def added (p : Placed) (a now : Nat) : List HeldSet → HeldSet
  | [] => ⟨p, [a], now⟩
  | s :: ss =>
    if s.number < p.message.number then added p a now ss
    else if s.number = p.message.number then { s with places := s.places.orderedInsert (· ≤ ·) a }
    else ⟨p, [a], now⟩

/-- What the code does with the list of sets, set after set. -/
def addToChunks (chunk : ChunkPayloadData) (now : Nat) : List Chunks → List Chunks × Bool
  | [] =>
    let r := (⟨chunk.streamSequenceNumber, chunk.payloadType, [], now⟩ : Chunks).push chunk
    ([r.1], r.2)
  | s :: ss =>
    if sna16lt s.ssn chunk.streamSequenceNumber then
      let r := addToChunks chunk now ss
      (s :: r.1, r.2)
    else if s.ssn == chunk.streamSequenceNumber then ((s.push chunk).1 :: ss, (s.push chunk).2)
    else
      let r := (⟨chunk.streamSequenceNumber, chunk.payloadType, [], now⟩ : Chunks).push chunk
      (r.1 :: s :: ss, r.2)

theorem pushOrdered_ordered (q : ReassemblyQueue) (now : Nat) (chunk : ChunkPayloadData)
    (hnext : sna16lt chunk.streamSequenceNumber q.nextSsn = false) :
    q.pushOrdered now chunk
      = ({ q with
            nBytes := q.nBytes + chunk.userData.length
            ordered := (addToChunks chunk now q.ordered).1 },
              (addToChunks chunk now q.ordered).2) := by
  have hlist : ∀ l : List Chunks,
      (match (l[partitionPoint (fun s => sna16lt s.ssn chunk.streamSequenceNumber) l]?).filter
          (·.ssn == chunk.streamSequenceNumber) with
        | some s => (l.set (partitionPoint (fun s => sna16lt s.ssn chunk.streamSequenceNumber) l)
            (s.push chunk).1, (s.push chunk).2)
        | none =>
          (l.insertIdx (partitionPoint (fun s => sna16lt s.ssn chunk.streamSequenceNumber) l)
            ((⟨chunk.streamSequenceNumber, chunk.payloadType, [], now⟩ : Chunks).push chunk).1,
            ((⟨chunk.streamSequenceNumber, chunk.payloadType, [], now⟩ : Chunks).push chunk).2))
        = addToChunks chunk now l := by
    intro l
    induction l with
    | nil => rfl
    | cons s ss ih =>
      by_cases hlt : sna16lt s.ssn chunk.streamSequenceNumber = true
      · have hidx : partitionPoint (fun s => sna16lt s.ssn chunk.streamSequenceNumber) (s :: ss)
            = partitionPoint (fun s => sna16lt s.ssn chunk.streamSequenceNumber) ss + 1 := by
          simp [partitionPoint, hlt]
        rw [hidx, List.getElem?_cons_succ, addToChunks, if_pos hlt, ← ih]
        split
        · rw [List.set_cons_succ]
        · rw [List.insertIdx_succ_cons]
      · have hidx : partitionPoint (fun s => sna16lt s.ssn chunk.streamSequenceNumber) (s :: ss)
          = 0 := by
          simp [partitionPoint, hlt]
        rw [hidx, List.getElem?_cons_zero, addToChunks, if_neg hlt]
        by_cases heq : (s.ssn == chunk.streamSequenceNumber) = true
        · rw [if_pos heq, Option.filter_some, if_pos heq]
          rfl
        · rw [if_neg heq, Option.filter_some, if_neg heq]
          rfl
  rw [ReassemblyQueue.pushOrdered, hnext]
  simp only [Bool.false_eq_true, if_false]
  rw [← hlist q.ordered]
  split
  · rfl
  · rfl

variable {si : UInt16} {h : Holding}

theorem addTo_cases (p : Placed) (a now : Nat) {sets : List HeldSet}
    (hinc : sets.Pairwise fun s t => s.number < t.number) :
    ∃ front back, (∀ s ∈ front, s.number < p.message.number)
      ∧ (∀ s ∈ back, p.message.number < s.number) ∧
      addTo p a now sets = front ++ added p a now sets :: back ∧
      (sets = front ++ back ∧ added p a now sets = ⟨p, [a], now⟩
        ∨ ∃ s : HeldSet, s.number = p.message.number ∧ sets = front ++ s :: back
          ∧ added p a now sets = { s with places := s.places.orderedInsert (· ≤ ·) a }) := by
  induction sets with
  | nil => exact ⟨[], [], by simp, by simp, rfl, Or.inl ⟨rfl, rfl⟩⟩
  | cons s ss ih =>
    obtain ⟨hhead, htail⟩ := List.pairwise_cons.mp hinc
    rcases Nat.lt_trichotomy s.number p.message.number with hlt | heq | hgt
    · obtain ⟨front, back, hfront, hback, hadd, hcases⟩ := ih htail
      refine ⟨s :: front, back, ?_, hback, ?_, ?_⟩
      · intro t ht
        rcases List.mem_cons.mp ht with rfl | ht
        · exact hlt
        · exact hfront t ht
      · rw [addTo, if_pos hlt, added, if_pos hlt, hadd]
        rfl
      · rw [added, if_pos hlt]
        rcases hcases with ⟨rfl, hset⟩ | ⟨t, ht, rfl, hset⟩
        · exact Or.inl ⟨rfl, hset⟩
        · exact Or.inr ⟨t, ht, rfl, hset⟩
    · refine ⟨[], ss, by simp, fun t ht => heq ▸ hhead t ht, ?_, Or.inr ⟨s, heq, rfl, ?_⟩⟩
      · rw [addTo, if_neg (by omega), if_pos heq, added, if_neg (by omega), if_pos heq]
        rfl
      · rw [added, if_neg (by omega), if_pos heq]
    · refine ⟨[], s :: ss, by simp, ?_, ?_, Or.inl ⟨rfl, ?_⟩⟩
      · intro t ht
        rcases List.mem_cons.mp ht with rfl | ht
        · exact hgt
        · exact Nat.lt_trans hgt (hhead t ht)
      · rw [addTo, if_neg (by omega), if_neg (by omega), added, if_neg (by omega),
          if_neg (by omega)]
        rfl
      · rw [added, if_neg (by omega), if_neg (by omega)]

theorem addTo_held (p : Placed) (a now : Nat)
    (hinc : h.sets.Pairwise fun s t => s.number < t.number) :
    ({ h with sets := addTo p a now h.sets } : Holding).held.Perm (a :: h.held) := by
  have hsets :
      ((addTo p a now h.sets).flatMap (·.places)).Perm (a :: h.sets.flatMap (·.places)) := by
    obtain ⟨front, back, -, -, hadd, ⟨hs, hset⟩ | ⟨s, -, hs, hset⟩⟩ := addTo_cases p a now hinc
    · rw [hadd, hset, hs, List.flatMap_append, List.flatMap_append, List.flatMap_cons]
      exact List.perm_middle
    · rw [hadd, hset, hs, List.flatMap_append, List.flatMap_append, List.flatMap_cons,
        List.flatMap_cons]
      refine ((List.perm_orderedInsert (· ≤ ·) a s.places).append_right _ |>.append_left _).trans ?_
      exact List.perm_middle
  exact (hsets.append_right _)

/-- Whatever holds of the old sets and of the one with the new place holds of all. -/
theorem forall_addTo {now : Nat} {sets : List HeldSet}
    (hinc : sets.Pairwise fun s t => s.number < t.number)
    {P : HeldSet → Prop} (hold : ∀ s ∈ sets, P s) (hone : P ⟨p, [a], now⟩)
    (hmore : ∀ s ∈ sets, s.number = p.message.number
      → P { s with places := s.places.orderedInsert (· ≤ ·) a }) :
    ∀ s ∈ addTo p a now sets, P s := by
  intro s hs
  obtain ⟨front, back, -, -, hadd, ⟨rfl, hset⟩ | ⟨t, hnum, rfl, hset⟩⟩ := addTo_cases p a now hinc
  · rw [hadd, hset, List.mem_append, List.mem_cons] at hs
    rcases hs with hs | rfl | hs
    · exact hold s (List.mem_append_left _ hs)
    · exact hone
    · exact hold s (List.mem_append_right _ hs)
  · rw [hadd, hset, List.mem_append, List.mem_cons] at hs
    rcases hs with hs | rfl | hs
    · exact hold s (List.mem_append_left _ hs)
    · exact hmore t (by simp) hnum
    · exact hold s (by simp [hs])

theorem pairwise_addTo (p : Placed) (a now : Nat) {sets : List HeldSet}
    (hinc : sets.Pairwise fun s t => s.number < t.number) :
    (addTo p a now sets).Pairwise fun s t => s.number < t.number := by
  obtain ⟨front, back, hfront, hback, hadd, ⟨rfl, hset⟩ | ⟨t, hnum, rfl, hset⟩⟩ :=
    addTo_cases p a now hinc
  · rw [List.pairwise_append] at hinc
    rw [hadd, hset, List.pairwise_append, List.pairwise_cons]
    refine ⟨hinc.1, ⟨hback, hinc.2.1⟩, fun s hs t ht => ?_⟩
    rcases List.mem_cons.mp ht with rfl | ht
    · exact hfront s hs
    · exact hinc.2.2 s hs t ht
  · rw [hadd, hset]
    rw [List.pairwise_append, List.pairwise_cons] at hinc ⊢
    refine ⟨hinc.1, ⟨hinc.2.1.1, hinc.2.1.2⟩, fun s hs u hu => ?_⟩
    rcases List.mem_cons.mp hu with rfl | hu
    · exact hinc.2.2 s hs t List.mem_cons_self
    · exact hinc.2.2 s hs u (List.mem_cons_of_mem t hu)

variable (hl : Layout ps) (hv : h.Valid ps si) (hp : p ∈ ps) (hsi : p.message.si = si)
  (hord : p.message.unordered = false) (ha : a ∈ p.places) (hnew : a ∉ h.held)
  (hnext : h.next ≤ p.message.number) (hreach : p.message.number < h.next + 2 ^ 15) (now : Nat)
include hl hv hp hsi hord ha hnew hnext hreach

/-- The code's list of sets is that of the places. -/
theorem addToChunks_map :
    addToChunks (chunkAt ps a) now (h.sets.map (·.chunks ps))
      = ((addTo p a now h.sets).map (·.chunks ps),
        ((added p a now h.sets).chunks ps).isComplete) := by
  have hchunk := chunkAt_eq hl hp ha
  have hssn : (chunkAt ps a).streamSequenceNumber = .ofNat p.message.number := by rw [hchunk]; rfl
  have hppi : (chunkAt ps a).payloadType = p.message.ppi := by rw [hchunk]; rfl
  have hset : (⟨.ofNat p.message.number, p.message.ppi, [], now⟩ : Chunks).push (chunkAt ps a)
      = ((⟨p, [a], now⟩ : HeldSet).chunks ps, ((⟨p, [a], now⟩ : HeldSet).chunks ps).isComplete) :=
    Chunks.push_new hl hp ha [] (by simp) (by simp) _ _ _
  have hsub : ∀ s ∈ h.sets, a ∉ s.places := by
    intro s hs hmem
    exact hnew (List.mem_append_left _ (List.mem_flatMap.mpr ⟨s, hs, hmem⟩))
  -- set after set; of each only its number and its places matter
  have hlist : ∀ l : List HeldSet, (∀ s ∈ l, s ∈ h.sets) →
      addToChunks (chunkAt ps a) now (l.map (·.chunks ps))
        = ((addTo p a now l).map (·.chunks ps), ((added p a now l).chunks ps).isComplete) := by
    intro l hall
    induction l with
    | nil =>
      rw [List.map_nil, addToChunks, addTo, hssn, hppi, hset]
      rfl
    | cons s ss ih =>
      have hs := hall s List.mem_cons_self
      have hlow := hv.next_le s hs
      have hhigh := hv.reach s hs
      have hlt : sna16lt (s.chunks ps).ssn (.ofNat p.message.number)
          = decide (s.number < p.message.number) := sna16lt_ofNat (by omega) (by omega)
      have heq : ((s.chunks ps).ssn == .ofNat p.message.number)
          = decide (s.number = p.message.number) := by
        rw [Bool.eq_iff_iff, beq_iff_eq, decide_eq_true_eq]
        exact ofNat16_inj (by omega) (by omega)
      rw [List.map_cons, addToChunks, hssn, hlt, heq, addTo, hppi, hset, added]
      by_cases h1 : s.number < p.message.number
      · rw [if_pos (by simpa using h1), if_pos h1, if_pos h1,
          ih fun t ht => hall t (List.mem_cons_of_mem s ht)]
        rfl
      · rw [if_neg (by simpa using h1), if_neg h1, if_neg h1]
        by_cases h2 : s.number = p.message.number
        · rw [if_pos (by simpa using h2), if_pos h2, if_pos h2, List.map_cons]
          obtain ⟨hmem, hsi', hord'⟩ := hv.mem_sets s hs
          have hplaced : s.placed = p := hl.numbered _ hmem _ hp hord' hord (hsi'.trans hsi.symm) h2
          have hpush := Chunks.push_new hl hp ha s.places (fun k hk => hplaced ▸ hv.sub s hs k hk)
            (hsub s hs) (.ofNat s.number) s.placed.message.ppi s.timestamp
          rw [HeldSet.chunks, hpush]
          rfl
        · rw [if_neg (by simpa using h2), if_neg h2, if_neg h2]
          rfl
  exact hlist h.sets fun _ hs => hs

theorem addTo_valid :
    ({ h with sets := addTo p a now h.sets } : Holding).Valid ps si := by
  refine ⟨?_, ?_, ?_, ?_, ?_, ?_, hv.mem_loose, hv.spread, hv.unwhole, hv.mem_whole⟩
  · exact forall_addTo hv.increasing hv.mem_sets ⟨hp, hsi, hord⟩ fun s hs _ => hv.mem_sets s hs
  · exact forall_addTo hv.increasing hv.next_le hnext fun s hs _ => hv.next_le s hs
  · exact forall_addTo hv.increasing hv.reach hreach fun s hs _ => hv.reach s hs
  · exact pairwise_addTo p a now hv.increasing
  · refine forall_addTo hv.increasing hv.sub ?_ ?_
    · intro b hb
      rw [List.mem_singleton.mp hb]
      exact ha
    · intro s hs hnum b hb
      obtain ⟨hmem, hsi', hord'⟩ := hv.mem_sets s hs
      have hplaced : s.placed = p := hl.numbered _ hmem _ hp hord' hord (hsi'.trans hsi.symm) hnum
      rcases (List.mem_orderedInsert _).mp hb with rfl | hb
      · show b ∈ s.placed.places
        rw [hplaced]
        exact ha
      · exact hv.sub s hs b hb
  · refine forall_addTo hv.increasing hv.inc (List.pairwise_singleton _ _) fun s hs _ => ?_
    refine pairwise_orderedInsert (hv.inc s hs) fun hmem => hnew ?_
    exact List.mem_append_left _ (List.mem_flatMap.mpr ⟨s, hs, hmem⟩)

/-- **An ordered chunk at a new place**, of a message whose turn has not passed. -/
theorem push_ordered :
    (h.queue ps si).push now (chunkAt ps a)
      = (({ h with sets := addTo p a now h.sets } : Holding).queue ps si,
          ((added p a now h.sets).chunks ps).isComplete) := by
  have hchunk := chunkAt_eq hl hp ha
  have hturn : sna16lt (chunkAt ps a).streamSequenceNumber (h.queue ps si).nextSsn = false := by
    rw [hchunk]
    show sna16lt (.ofNat p.message.number) (.ofNat h.next) = false
    rw [sna16lt_ofNat (by omega) (by omega), decide_eq_false_iff_not]
    omega
  have hsid : ¬ (chunkAt ps a).streamIdentifier ≠ (h.queue ps si).si := by
    rw [hchunk]
    exact not_not.mpr hsi
  have hkind : (chunkAt ps a).unordered = false := by
    rw [hchunk]
    exact hord
  have hsets := addToChunks_map hl hv hp hsi hord ha hnew hnext hreach now
  have hbytes := bytesAt_perm ps (addTo_held p a now hv.increasing)
  rw [ReassemblyQueue.push, if_neg hsid, hkind, if_neg Bool.false_ne_true,
    pushOrdered_ordered _ _ _ hturn]
  simp only [Holding.queue, hsets, hbytes, bytesAt_cons, Nat.add_comm]

end PushOrdered

section PushUnordered

variable {ps : List Placed} {p : Placed} {a : Nat} {si : UInt16} {h : Holding}

theorem Spread.insert {ks : List Nat} (hspread : Spread ps ks) (hp : p ∈ ps) (ha : a ∈ p.places)
    (hnew : a ∉ ks) (hnear : ∀ b ∈ ks, a < b + 2 ^ 31 ∧ b < a + 2 ^ 31) :
    Spread ps (ks.orderedInsert (· ≤ ·) a) where
  mem := by
    intro b hb
    rcases (List.mem_orderedInsert _).mp hb with rfl | hb
    · exact ⟨p, hp, ha⟩
    · exact hspread.mem b hb
  increasing := pairwise_orderedInsert hspread.increasing hnew
  near := near_orderedInsert (by omega) hspread.near hnear

/-- What the code does with an unordered chunk of its stream: the scan decides. -/
theorem push_of_unordered (q : ReassemblyQueue) (now : Nat) {chunk : ChunkPayloadData}
    (hsi : chunk.streamIdentifier = q.si) (hun : chunk.unordered = true)
    {cs : List ChunkPayloadData}
    (hcs : insertSorted (fun c d => sna32lt c.tsn d.tsn) chunk q.unorderedChunks = cs) :
    q.push now chunk
      = match ReassemblyQueue.scan 0 none 0 0 cs with
        | none =>
          ({ q with nBytes := q.nBytes + chunk.userData.length, unorderedChunks := cs }, false)
        | some (s, n) =>
          ({ q with
            nBytes := q.nBytes + chunk.userData.length
            unorderedChunks := cs.take s ++ cs.drop (s + n)
            unordered := q.unordered
              ++ [⟨0, (((cs.drop s).take n).headD {}).payloadType, (cs.drop s).take n, now⟩] },
                true) := by
  rw [ReassemblyQueue.push, if_neg (not_not.mpr hsi), hun, if_pos rfl,
    ReassemblyQueue.pushUnordered]
  simp only [ReassemblyQueue.findCompleteUnorderedChunkSet, hcs]
  cases ReassemblyQueue.scan 0 none 0 0 cs with
  | none | some r => rfl

/-- **The message the scan finds is the one the new place completes**, and everything else stays. -/
theorem found_new (hl : Layout ps) (hv : h.Valid ps si) (hp : p ∈ ps) (ha : a ∈ p.places)
    (hnew : a ∉ h.loose) {p' : Placed} (hp' : p' ∈ ps) {front back : List Nat}
    (hsplit : h.loose.orderedInsert (· ≤ ·) a = front ++ (p'.places ++ back)) :
    p' = p ∧ ∀ b ∈ front ++ back, b ∈ h.loose := by
  have hmem : ∀ b ∈ front ++ (p'.places ++ back), b = a ∨ b ∈ h.loose := by
    intro b hb
    rw [← hsplit] at hb
    exact (List.mem_orderedInsert _).mp hb
  -- before it came, no message was whole
  have hap : a ∈ p'.places := by
    by_contra hnot
    refine hv.unwhole p' hp' fun b hb => ?_
    rcases hmem b (by simp [hb]) with rfl | hb'
    · exact absurd hb hnot
    · exact hb'
  have hnodup : (front ++ (p'.places ++ back)).Nodup := by
    rw [← hsplit]
    exact (pairwise_orderedInsert hv.spread.increasing hnew).imp Nat.ne_of_lt
  rw [List.nodup_append, List.nodup_append] at hnodup
  refine ⟨hl.disjoint p' hp' p hp a hap ha, fun b hb => ?_⟩
  rcases List.mem_append.mp hb with hb | hb
  · rcases hmem b (by simp [hb]) with rfl | hb'
    · exact absurd rfl (hnodup.2.2 b hb b (List.mem_append_left _ hap))
    · exact hb'
  · rcases hmem b (by simp [hb]) with rfl | hb'
    · exact absurd rfl (hnodup.2.1.2.2 b hap b hb)
    · exact hb'

/-- A message has become whole, and some loose places are left. -/
theorem Holding.Valid.whole (hv : h.Valid ps si)
    (hp : p ∈ ps ∧ p.message.si = si ∧ p.message.unordered = true)
    {loose : List Nat} (hsub : ∀ b ∈ loose, b ∈ h.loose)
    (hinc : loose.Pairwise (· < ·)) (now : Nat) :
    ({ h with loose := loose, whole := h.whole ++ [(p, now)] } : Holding).Valid ps si := by
  refine { hv with
    mem_loose := fun b hb => hv.mem_loose b (hsub b hb)
    spread := ⟨fun b hb => hv.spread.mem b (hsub b hb), hinc, fun b hb c hc =>
      hv.spread.near b (hsub b hb) c (hsub c hc)⟩
    unwhole := fun p' hp' hall => hv.unwhole p' hp' fun b hb => hsub b (hall b hb)
    mem_whole := fun w hw => ?_ }
  rcases List.mem_append.mp hw with hw | hw
  · exact hv.mem_whole w hw
  · rw [List.mem_singleton.mp hw]
    exact hp

theorem payloadType_places (hl : Layout ps) (hp : p ∈ ps) :
    ((p.places.map (chunkAt ps)).headD {}).payloadType = p.message.ppi := by
  rw [hl.places_eq hp, List.map_cons, List.headD_cons, chunkAt_eq hl hp (hl.first_mem hp)]
  rfl

/-- **An unordered chunk at a new place**: it stays loose, or it was the last one of its message. -/
theorem push_unordered (hl : Layout ps) (hv : h.Valid ps si) (hp : p ∈ ps) (hsi : p.message.si = si)
    (hun : p.message.unordered = true) (ha : a ∈ p.places) (hnew : a ∉ h.held)
    (hnear : ∀ b ∈ h.loose, a < b + 2 ^ 31 ∧ b < a + 2 ^ 31) (now : Nat) :
    ∃ loose whole, ((h.queue ps si).push now (chunkAt ps a)).1
        = ({ h with loose := loose, whole := whole } : Holding).queue ps si
      ∧ ({ h with loose := loose, whole := whole } : Holding).Valid ps si
      ∧ ({ h with loose := loose, whole := whole } : Holding).held.Perm (a :: h.held) := by
  have hchunk := chunkAt_eq hl hp ha
  have hloose : a ∉ h.loose := fun hmem => hnew (by simp [Holding.held, hmem])
  have hspread := hv.spread.insert hp ha hloose hnear
  have hperm := List.perm_orderedInsert (· ≤ ·) a h.loose
  have hinsert : insertSorted (fun c d => sna32lt c.tsn d.tsn) (chunkAt ps a)
    (h.queue ps si).unorderedChunks
      = (h.loose.orderedInsert (· ≤ ·) a).map (chunkAt ps) := by
    refine insertSorted_map _ fun b hb => ?_
    obtain ⟨pb, hpb, hbp⟩ := hv.spread.mem b hb
    rw [tsn_chunkAt hl hpb hbp, tsn_chunkAt hl hp ha]
    exact sna32lt_ofNat (hnear b hb).2 (hnear b hb).1
  rw [push_of_unordered _ now (by rw [hchunk]; exact hsi) (by rw [hchunk]; exact hun) hinsert]
  cases hscan :
    ReassemblyQueue.scan 0 none 0 0 ((h.loose.orderedInsert (· ≤ ·) a).map (chunkAt ps)) with
  | none =>
    have hheld :
        ({ h with loose := h.loose.orderedInsert (· ≤ ·) a } : Holding).held.Perm (a :: h.held) :=
      ((hperm.append_right _).append_left _).trans List.perm_middle
    refine ⟨h.loose.orderedInsert (· ≤ ·) a, h.whole, ?_, ?_, hheld⟩
    · have hbytes := bytesAt_perm ps hheld
      simp only [Holding.queue, hbytes, bytesAt_cons, Nat.add_comm]
    · refine { hv with mem_loose := ?_, spread := hspread, unwhole := ?_ }
      · intro b hb
        rcases (List.mem_orderedInsert _).mp hb with rfl | hb
        · exact ⟨p, hp, ha, hsi, hun⟩
        · exact hv.mem_loose b hb
      · intro p' hp' hall
        exact scan_complete hl hp' [] hspread hall (Or.inl (hall _ (hl.first_mem hp'))) hscan
  | some r =>
    obtain ⟨s, n⟩ := r
    obtain ⟨p', hp', front, back, hsplit, rfl, rfl⟩ := scan_sound hl [] hspread (by simp) hscan
    rw [List.nil_append] at hsplit
    obtain ⟨rfl, hrest⟩ := found_new hl hv hp ha hloose hp' hsplit
    have hlen : (p'.places.map (chunkAt ps)).length = p'.message.size := by simp [Placed.places]
    have hheld :
        ({ h with loose := front ++ back, whole := h.whole ++ [(p', now)] } : Holding).held.Perm
        (a :: h.held) := by
      have hmoved : ((front ++ back) ++ (h.whole ++ [(p', now)]).flatMap (·.1.places)).Perm
          (h.loose.orderedInsert (· ≤ ·) a ++ h.whole.flatMap (·.1.places)) := by
        rw [List.flatMap_append, List.flatMap_singleton, hsplit]
        refine List.perm_iff_count.mpr fun b => ?_
        simp only [List.count_append]
        omega
      exact ((hmoved.trans (hperm.append_right _)).append_left _).trans List.perm_middle
    refine ⟨front ++ back, h.whole ++ [(p', now)], ?_, ?_, hheld⟩
    · have hbytes := bytesAt_perm ps hheld
      have htake : (((h.loose.orderedInsert (· ≤ ·) a).map (chunkAt ps)).drop front.length).take
          p'.message.size = p'.places.map (chunkAt ps) := by
        rw [hsplit, List.map_append, List.drop_left' (by simp), List.map_append,
          List.take_left' hlen]
      have hleft : ((h.loose.orderedInsert (· ≤ ·) a).map (chunkAt ps)).take front.length
          ++ ((h.loose.orderedInsert (· ≤ ·) a).map (chunkAt ps)).drop
            (front.length + p'.message.size)
          = (front ++ back).map (chunkAt ps) := by
        rw [hsplit, List.map_append, List.take_left' (by simp), ← List.drop_drop,
          List.drop_left' (by simp), List.map_append, List.drop_left' hlen, List.map_append]
      simp only [Holding.queue, hbytes, bytesAt_cons, htake, hleft, payloadType_places hl hp,
        List.map_append, List.map_cons, List.map_nil, wholeChunks, Nat.add_comm]
    · refine hv.whole ⟨hp, hsi, hun⟩ hrest
        (List.Pairwise.sublist ?_ (hsplit ▸ hspread.increasing)) now
      exact (List.sublist_append_right _ _).append_left _

end PushUnordered

/-! ## 5. `read` -/

/-- A message leaves what is held: the oldest unordered one, or the ordered one that is next. -/
inductive Holding.Leaves (h : Holding) : Placed → Holding → Prop where
  | unordered (w : Placed × Nat) (ws : List (Placed × Nat)) (hw : h.whole = w :: ws) :
    h.Leaves w.1 { h with whole := ws }
  | ordered (s : HeldSet) (ss : List HeldSet) (hs : h.sets = s :: ss) (hnext : s.number = h.next)
    (hall : s.places = s.placed.places) :
    h.Leaves s.placed { h with sets := ss, next := h.next + 1 }

section Read

variable {ps : List Placed} {p : Placed} {si : UInt16} {h h' : Holding}

theorem Holding.Leaves.mem (hv : h.Valid ps si) (hleaves : h.Leaves p h') :
    p ∈ ps ∧ p.message.si = si := by
  cases hleaves with
  | unordered w ws hw =>
    have hmem := hv.mem_whole w (by rw [hw]; exact List.mem_cons_self)
    exact ⟨hmem.1, hmem.2.1⟩
  | ordered s ss hs hnext hall =>
    have hmem := hv.mem_sets s (by rw [hs]; exact List.mem_cons_self)
    exact ⟨hmem.1, hmem.2.1⟩

theorem Holding.Leaves.valid (hv : h.Valid ps si) (hleaves : h.Leaves p h') : h'.Valid ps si := by
  cases hleaves with
  | unordered w ws hw =>
    have hsub : ∀ w' ∈ ws, w' ∈ h.whole :=
      fun w' hw' => by rw [hw]; exact List.mem_cons_of_mem w hw'
    exact { hv with mem_whole := fun w' hw' => hv.mem_whole w' (hsub w' hw') }
  | ordered s ss hs hnext hall =>
    have hsub : ∀ t ∈ ss, t ∈ h.sets := fun t ht => by rw [hs]; exact List.mem_cons_of_mem s ht
    have hinc := hv.increasing
    rw [hs, List.pairwise_cons] at hinc
    refine { hv with
      mem_sets := fun t ht => hv.mem_sets t (hsub t ht)
      next_le := fun t ht => ?_
      reach := fun t ht => ?_
      increasing := hinc.2
      sub := fun t ht => hv.sub t (hsub t ht)
      inc := fun t ht => hv.inc t (hsub t ht) }
    · exact Nat.succ_le_of_lt (hnext ▸ hinc.1 t ht)
    · exact Nat.lt_trans (hv.reach t (hsub t ht)) (Nat.add_lt_add_right (Nat.lt_succ_self _) _)

theorem Holding.Leaves.held (hleaves : h.Leaves p h') : h.held.Perm (p.places ++ h'.held) := by
  refine List.perm_iff_count.mpr fun b => ?_
  cases hleaves with
  | unordered w ws hw =>
    simp only [Holding.held, hw, List.flatMap_cons, List.count_append]
    omega
  | ordered s ss hs hnext hall =>
    simp only [Holding.held, hs, hall, List.flatMap_cons, List.count_append]
    omega

/-- The ordered set that can be read: the first one, if it is whole and its turn has come. -/
theorem readableOrderedChunks_queue (hl : Layout ps) (hv : h.Valid ps si) :
    (h.queue ps si).readableOrderedChunks
      = match h.sets with
        | [] => none
        | s :: _ =>
          if s.places = s.placed.places ∧ s.number = h.next then some (s.chunks ps) else none := by
  unfold ReassemblyQueue.readableOrderedChunks
  simp only [Holding.queue]
  cases hsets : h.sets with
  | nil => rfl
  | cons s ss =>
    have hs : s ∈ h.sets := by rw [hsets]; exact List.mem_cons_self
    have hlow := hv.next_le s hs
    have hhigh := hv.reach s hs
    have hcomplete : (s.chunks ps).isComplete = true ↔ s.places = s.placed.places :=
      isComplete_iff hl (hv.mem_sets s hs).1 (hv.sub s hs) (hv.inc s hs) _ _ _
    have hgt : sna16gt (s.chunks ps).ssn (.ofNat h.next) = decide (h.next < s.number) :=
      sna16gt_ofNat (by omega) (by omega)
    simp only [List.map_cons, hgt]
    by_cases hc : s.places = s.placed.places
    · simp only [hcomplete.mpr hc, Bool.not_true, Bool.false_eq_true, if_false, decide_eq_true_eq]
      by_cases hn : s.number = h.next
      · rw [if_neg (by omega), if_pos ⟨hc, hn⟩]
      · rw [if_pos (by omega), if_neg fun hand => hn hand.2]
    · have hfalse : (s.chunks ps).isComplete = false := by
        rw [← Bool.not_eq_true, hcomplete]
        exact hc
      simp only [hfalse, Bool.not_false, if_true]
      rw [if_neg fun hand => hc hand.1]

theorem len_of_places (ps : List Placed) (as : List Nat) (ssn : UInt16)
    (ppi : PayloadProtocolIdentifier)
    (timestamp : Nat) :
    (⟨ssn, ppi, as.map (chunkAt ps), timestamp⟩ : Chunks).len = bytesAt ps as := by
  simp [Chunks.len, bytesAt, Function.comp_def]

/-- The queue without a message that left. -/
theorem subtractNumBytes_leaves (ps : List Placed) (hleaves : h.Leaves p h') {q : ReassemblyQueue}
    (hbytes : q.nBytes = bytesAt ps h.held) :
    q.subtractNumBytes (bytesAt ps p.places) = { q with nBytes := bytesAt ps h'.held } := by
  have hsum := bytesAt_perm ps hleaves.held
  rw [bytesAt_append] at hsum
  rw [ReassemblyQueue.subtractNumBytes, if_pos (by omega), hbytes, hsum, Nat.add_sub_cancel_left]

theorem read_whole {w : Placed × Nat} {ws : List (Placed × Nat)} (hw : h.whole = w :: ws) :
    ({ h.queue ps si with unordered := ws.map (wholeChunks ps) } : ReassemblyQueue).subtractNumBytes
        (wholeChunks ps w).len
      = ({ h with whole := ws } : Holding).queue ps si := by
  rw [wholeChunks, len_of_places, subtractNumBytes_leaves ps (.unordered w ws hw) rfl]
  rfl

theorem read_set {s : HeldSet} {ss : List HeldSet} (hs : h.sets = s :: ss)
    (hnext : s.number = h.next) (hall : s.places = s.placed.places) :
    ((h.queue ps si).popOrdered (s.chunks ps)).subtractNumBytes (s.chunks ps).len
      = ({ h with sets := ss, next := h.next + 1 } : Holding).queue ps si := by
  have hturn : ((s.chunks ps).ssn == (h.queue ps si).nextSsn) = true := by
    rw [HeldSet.chunks, hnext]
    exact beq_self_eq_true _
  have hssn : (h.queue ps si).nextSsn + 1 = .ofNat (h.next + 1) := by
    rw [UInt16.ofNat_add]
    rfl
  rw [HeldSet.chunks, len_of_places, hall,
    subtractNumBytes_leaves ps (.ordered s ss hs hnext hall) rfl, ← hall, ← HeldSet.chunks]
  simp only [ReassemblyQueue.popOrdered, hturn, if_true, hssn]
  simp only [Holding.queue, hs, List.map_cons, List.tail_cons]

/-- The two ways to read, whichever comes first. -/
theorem read_cases {q q' : ReassemblyQueue} {cset : Chunks} (hread : q.read = some (cset, q')) :
    (∃ us, q.unordered = cset :: us ∧ q' = { q with unordered := us }.subtractNumBytes cset.len)
    ∨ (q.readableOrderedChunks = some cset
      ∧ q' = (q.popOrdered cset).subtractNumBytes cset.len) := by
  rw [ReassemblyQueue.read] at hread
  split at hread
  · next u us o hu ho =>
    split at hread
    · obtain ⟨rfl, rfl⟩ := Prod.mk.inj (Option.some.inj hread)
      exact Or.inl ⟨us, hu, rfl⟩
    · obtain ⟨rfl, rfl⟩ := Prod.mk.inj (Option.some.inj hread)
      exact Or.inr ⟨ho, rfl⟩
  · next u us hu ho =>
    obtain ⟨rfl, rfl⟩ := Prod.mk.inj (Option.some.inj hread)
    exact Or.inl ⟨us, hu, rfl⟩
  · next o hu ho =>
    obtain ⟨rfl, rfl⟩ := Prod.mk.inj (Option.some.inj hread)
    exact Or.inr ⟨ho, rfl⟩
  · cases hread

theorem of_read_none {q : ReassemblyQueue} (hread : q.read = none) :
    q.unordered = [] ∧ q.readableOrderedChunks = none := by
  rw [ReassemblyQueue.read] at hread
  split at hread
  · split at hread
    · cases hread
    · cases hread
  · cases hread
  · cases hread
  · next hu ho => exact ⟨hu, ho⟩

/-- **What is read is a message that was sent**, and the queue holds the rest. -/
theorem read_some (hl : Layout ps) (hv : h.Valid ps si) {cset : Chunks} {q : ReassemblyQueue}
    (hread : (h.queue ps si).read = some (cset, q)) :
    ∃ p h', h.Leaves p h' ∧ q = h'.queue ps si ∧ cset.ppi = p.message.ppi
      ∧ cset.chunks = p.places.map (chunkAt ps) := by
  rcases read_cases hread with ⟨us, hu, rfl⟩ | ⟨ho, rfl⟩
  · obtain ⟨w, ws, hw, rfl, rfl⟩ := List.map_eq_cons_iff.mp hu
    exact ⟨w.1, _, .unordered w ws hw, read_whole hw, rfl, rfl⟩
  · rw [readableOrderedChunks_queue hl hv] at ho
    cases hs : h.sets with
    | nil => simp [hs] at ho
    | cons s ss =>
      simp only [hs] at ho
      split at ho
      · next hready =>
        obtain rfl := Option.some.inj ho
        exact ⟨s.placed, _, .ordered s ss hs hready.2 hready.1, read_set hs hready.2 hready.1, rfl,
          by rw [HeldSet.chunks, hready.1]⟩
      · cases ho

/-- Something can be read: an unordered message, or the ordered one that is next. -/
def Holding.Ready (h : Holding) : Prop :=
  h.whole ≠ [] ∨ ∃ s ss, h.sets = s :: ss ∧ s.places = s.placed.places ∧ s.number = h.next

theorem read_none (hl : Layout ps) (hv : h.Valid ps si) (hread : (h.queue ps si).read = none) :
    ¬ h.Ready := by
  obtain ⟨hu, ho⟩ := of_read_none hread
  rw [readableOrderedChunks_queue hl hv] at ho
  rintro (hw | ⟨s, ss, hs, hready⟩)
  · exact hw (List.map_eq_nil_iff.mp hu)
  · simp only [hs, if_pos hready] at ho
    cases ho

/-- The contents of a message that was read. -/
theorem toPayload_places (hl : Layout ps) (hp : p ∈ ps) {cset : Chunks}
    (hchunks : cset.chunks = p.places.map (chunkAt ps)) (maxLen : Nat)
    (hlen : p.message.data.length ≤ maxLen) : cset.toPayload maxLen = .ok p.message.data := by
  have hmap : p.places.map (chunkAt ps) = p.places.map p.chunk :=
    List.map_congr_left fun a ha => chunkAt_eq hl hp ha
  have hdata := flatMap_userData_places p
  rw [← hmap, ← hchunks] at hdata
  have hsum : cset.len = p.message.data.length := by
    rw [← hdata, List.length_flatMap]
    rfl
  rw [Chunks.toPayload, if_neg (by omega), hdata]

end Read

end WebrtcBridge.Sctp
