/-
# The payload queue

A `PayloadQueue` holds chunks by their TSN, in the order of the TSNs.  On the receiving side these
are the chunks that have come ahead of their turn; there a chunk that has come twice is found out,
and from there a SACK has its gap blocks.

The source keeps a map from TSNs to chunks and, beside it, the list of its keys in order; every
operation changes both.  Here it is the one list of chunks in that order.

A TSN stands for a PLACE (`Tracks`).  The places are those behind the last one in sequence, and the
queue answers exactly (`canPush_iff`, `advance_spec`): what is refused has come before, what is
taken has not.

The gap blocks are another matter.  They count from the cumulative TSN in 16 bits, and they compare
TSNs as plain numbers.  §4: they report exactly what has come if no TSN is more than 65535 ahead and
the numbers do not wrap in between (`offsets_getGapAckBlocks`); a chunk behind the wrap is reported
as the cumulative TSN itself.
-/
import Mathlib.Data.List.Nodup
import WebrtcBridge.Sctp.Chunk

namespace WebrtcBridge.Sctp

open Lib

/-! ## 1. The code -/

structure GapAckBlock where
  start : UInt16
  end_ : UInt16
  deriving DecidableEq, Repr

structure PayloadQueue where
  chunks : List ChunkPayloadData := []
  dupTsn : List UInt32 := []
  nBytes : Nat := 0
  deriving DecidableEq, Repr

namespace PayloadQueue

def contains (q : PayloadQueue) (tsn : UInt32) : Bool := q.chunks.any (·.tsn == tsn)

def canPush (q : PayloadQueue) (p : ChunkPayloadData) (cumulativeTsn : UInt32) : Bool :=
  !(q.contains p.tsn || sna32lte p.tsn cumulativeTsn)

def pushNoCheck (q : PayloadQueue) (p : ChunkPayloadData) : PayloadQueue :=
  { q with
    nBytes := q.nBytes + p.userData.length
    chunks := insertSorted (fun c d => sna32lt c.tsn d.tsn) p q.chunks }

def push (q : PayloadQueue) (p : ChunkPayloadData) (cumulativeTsn : UInt32) : PayloadQueue :=
  if q.contains p.tsn || sna32lte p.tsn cumulativeTsn then { q with dupTsn := q.dupTsn ++ [p.tsn] }
  else q.pushNoCheck p

def pop (q : PayloadQueue) (tsn : UInt32) : Option (ChunkPayloadData × PayloadQueue) :=
  match q.chunks with
  | [] => none
  | c :: cs =>
    if c.tsn == tsn then some (c, { q with chunks := cs, nBytes := q.nBytes - c.userData.length })
    else none

/-- How far a chunk is ahead of the cumulative TSN, in 16 bits. -/
def gapOffset (cumulativeTsn tsn : UInt32) : UInt16 :=
  if tsn ≥ cumulativeTsn then (tsn - cumulativeTsn).toUInt16 else 0

def gapLoop (cumulativeTsn : UInt32) (b : GapAckBlock) : List UInt32 → List GapAckBlock
  | [] => [b]
  | tsn :: tsns =>
    if b.end_ + 1 == gapOffset cumulativeTsn tsn then
      gapLoop cumulativeTsn { b with end_ := b.end_ + 1 } tsns
    else b :: gapLoop cumulativeTsn ⟨gapOffset cumulativeTsn tsn, gapOffset cumulativeTsn tsn⟩ tsns

def getGapAckBlocks (q : PayloadQueue) (cumulativeTsn : UInt32) : List GapAckBlock :=
  match q.chunks.map (·.tsn) with
  | [] => []
  | tsn :: tsns =>
    gapLoop cumulativeTsn ⟨gapOffset cumulativeTsn tsn, gapOffset cumulativeTsn tsn⟩ tsns

def getLastTsnReceived (q : PayloadQueue) : Option UInt32 := (q.chunks.map (·.tsn)).getLast?

def len (q : PayloadQueue) : Nat := q.chunks.length

/-- The loop that moves the last TSN in sequence over what has come: at most as often as there are
chunks. -/
def advanceLoop : Nat → UInt32 → PayloadQueue → UInt32 × PayloadQueue
  | 0, lastTsn, q => (lastTsn, q)
  | fuel + 1, lastTsn, q =>
    match q.pop (lastTsn + 1) with
    | some (_, q) => advanceLoop fuel (lastTsn + 1) q
    | none => (lastTsn, q)

def advance (lastTsn : UInt32) (q : PayloadQueue) : UInt32 × PayloadQueue :=
  advanceLoop q.len lastTsn q

end PayloadQueue

/-! ## 2. Places -/

/-- **The queue holds chunks at these places**, which are in order and within half the circle. -/
structure PayloadQueue.Tracks (q : PayloadQueue) (as : List Nat) : Prop where
  tsns : q.chunks.map (·.tsn) = as.map .ofNat
  increasing : as.Pairwise (· < ·)
  near : ∀ a ∈ as, ∀ b ∈ as, b < a + 2 ^ 31

namespace PayloadQueue

variable {q : PayloadQueue} {as : List Nat} {a l : Nat}

theorem tracks_nil : Tracks {} [] := ⟨rfl, List.Pairwise.nil, by simp⟩

theorem Tracks.length (h : q.Tracks as) : q.chunks.length = as.length := by
  have := congrArg List.length h.tsns
  rwa [List.length_map, List.length_map] at this

theorem Tracks.contains_iff (h : q.Tracks as) (hnear : ∀ b ∈ as, a < b + 2 ^ 31 ∧ b < a + 2 ^ 31) :
    q.contains (.ofNat a) = true ↔ a ∈ as := by
  have hmem : q.contains (.ofNat a) = true ↔ UInt32.ofNat a ∈ q.chunks.map (·.tsn) := by
    simp [contains]
  rw [hmem, h.tsns, List.mem_map]
  constructor
  · rintro ⟨b, hb, heq⟩
    rwa [(ofNat32_inj (hnear b hb).2 (hnear b hb).1).mp heq] at hb
  · exact fun ha => ⟨a, ha, rfl⟩

/-- **What may be pushed has not come before.** -/
theorem Tracks.canPush_iff (h : q.Tracks as) {p : ChunkPayloadData} (hp : p.tsn = .ofNat a)
    (hnear : ∀ b ∈ as, a < b + 2 ^ 31 ∧ b < a + 2 ^ 31) (hal : a < l + 2 ^ 31)
    (hla : l < a + 2 ^ 31) :
    q.canPush p (.ofNat l) = true ↔ a ∉ as ∧ l < a := by
  rw [canPush, hp, sna32lte_ofNat hal hla, Bool.not_eq_true', Bool.or_eq_false_iff,
    ← Bool.not_eq_true, h.contains_iff hnear, decide_eq_false_iff_not, Nat.not_le]

theorem Tracks.pushNoCheck (h : q.Tracks as) {p : ChunkPayloadData} (hp : p.tsn = .ofNat a)
    (hnear : ∀ b ∈ as, a < b + 2 ^ 31 ∧ b < a + 2 ^ 31) (hnew : a ∉ as) :
    (q.pushNoCheck p).Tracks (as.orderedInsert (· ≤ ·) a) := by
  refine ⟨?_, pairwise_orderedInsert h.increasing hnew, near_orderedInsert (by omega) h.near hnear⟩
  rw [PayloadQueue.pushNoCheck]
  simp only
  rw [map_insertSorted ChunkPayloadData.tsn sna32lt, h.tsns, hp]
  exact insertSorted_map sna32lt fun b hb => sna32lt_ofNat (hnear b hb).2 (hnear b hb).1

theorem push_of_canPush {p : ChunkPayloadData} {cumulativeTsn : UInt32}
    (h : q.canPush p cumulativeTsn = true) : q.push p cumulativeTsn = q.pushNoCheck p := by
  rw [canPush, Bool.not_eq_true'] at h
  rw [push, h, if_neg Bool.false_ne_true]

theorem Tracks.tail (h : q.Tracks (a :: as)) {c : ChunkPayloadData} {cs : List ChunkPayloadData}
    (hcs : q.chunks = c :: cs) (n : Nat) :
    ({ q with chunks := cs, nBytes := n } : PayloadQueue).Tracks as := by
  have htsns := h.tsns
  rw [hcs, List.map_cons, List.map_cons, List.cons.injEq] at htsns
  exact ⟨htsns.2, (List.pairwise_cons.mp h.increasing).2,
    fun b hb c hc => h.near b (List.mem_cons_of_mem a hb) c (List.mem_cons_of_mem a hc)⟩

/-! ## 3. Moving the last TSN in sequence -/

/-- `pop` of the place that is next: it succeeds exactly if the first chunk lies there. -/
theorem Tracks.pop_next (h : q.Tracks as) (hlow : ∀ b ∈ as, l < b)
    (hhigh : ∀ b ∈ as, b < l + 2 ^ 31) :
    (as.head? = some (l + 1) ∧ ∃ c cs, q.chunks = c :: cs ∧ q.pop (.ofNat l + 1)
        = some (c, { q with chunks := cs, nBytes := q.nBytes - c.userData.length })) ∨
      (as.head? ≠ some (l + 1) ∧ q.pop (.ofNat l + 1) = none) := by
  unfold pop
  rw [← ofNat_succ32]
  cases as with
  | nil =>
    have hnil : q.chunks = [] := List.length_eq_zero_iff.mp h.length
    rw [hnil]
    exact Or.inr ⟨by simp, rfl⟩
  | cons b as =>
    have hl := hlow b List.mem_cons_self
    have hh := hhigh b List.mem_cons_self
    cases hcs : q.chunks with
    | nil =>
      have := h.length
      rw [hcs] at this
      simp at this
    | cons c cs =>
      have htsns := h.tsns
      rw [hcs, List.map_cons, List.map_cons, List.cons.injEq] at htsns
      have hiff : (c.tsn == .ofNat (l + 1)) = true ↔ b = l + 1 := by
        rw [beq_iff_eq, htsns.1]
        exact ofNat32_inj (by omega) (by omega)
      simp only [List.head?_cons]
      by_cases hb : b = l + 1
      · rw [if_pos (hiff.mpr hb)]
        exact Or.inl ⟨by rw [hb], c, cs, rfl, rfl⟩
      · rw [if_neg fun hc => hb (hiff.mp hc)]
        exact Or.inr ⟨fun hsome => hb (Option.some.inj hsome), rfl⟩

theorem Tracks.advanceLoop_spec (fuel : Nat) (h : q.Tracks as) (hfuel : as.length ≤ fuel)
    (hlow : ∀ b ∈ as, l < b) (hhigh : ∀ b ∈ as, b < l + 2 ^ 31) :
    ∃ k rest, as = List.range' (l + 1) k ++ rest ∧ rest.head? ≠ some (l + k + 1)
      ∧ (advanceLoop fuel (.ofNat l) q).1 = .ofNat (l + k)
        ∧ (advanceLoop fuel (.ofNat l) q).2.Tracks rest := by
  induction fuel generalizing q as l with
  | zero =>
    obtain rfl : as = [] := List.length_eq_zero_iff.mp (Nat.le_zero.mp hfuel)
    exact ⟨0, [], rfl, by simp, rfl, h⟩
  | succ fuel ih =>
    rcases h.pop_next hlow hhigh with ⟨hhead, c, cs, hcs, hpop⟩ | ⟨hhead, hpop⟩
    · obtain ⟨as', rfl⟩ : ∃ as', as = (l + 1) :: as' := by
        cases as with
        | nil => simp at hhead
        | cons b as' => exact ⟨as', by rw [Option.some.inj hhead]⟩
      have hinc := List.pairwise_cons.mp h.increasing
      obtain ⟨k, rest, hsplit, hstop, htsn, htracks⟩ :=
        ih (h.tail hcs (q.nBytes - c.userData.length))
        (by simpa using hfuel) hinc.1
        fun b hb => Nat.lt_trans (hhigh b (List.mem_cons_of_mem _ hb)) (by omega)
      refine ⟨k + 1, rest, ?_, ?_, ?_, ?_⟩
      · rw [List.range'_succ, List.cons_append, hsplit]
      · rwa [show l + (k + 1) + 1 = l + 1 + k + 1 by omega]
      · rw [advanceLoop, hpop, show l + (k + 1) = l + 1 + k by omega, ← htsn, ← ofNat_succ32]
      · rw [advanceLoop, hpop, ← ofNat_succ32]
        exact htracks
    · refine ⟨0, as, rfl, hhead, ?_, ?_⟩
      · rw [advanceLoop, hpop]
        rfl
      · rw [advanceLoop, hpop]
        exact h

/-- **The last TSN in sequence moves over exactly the places that follow it.** -/
theorem Tracks.advance_spec (h : q.Tracks as) (hlow : ∀ b ∈ as, l < b)
    (hhigh : ∀ b ∈ as, b < l + 2 ^ 31) :
    ∃ k rest, as = List.range' (l + 1) k ++ rest ∧ rest.head? ≠ some (l + k + 1)
      ∧ (advance (.ofNat l) q).1 = .ofNat (l + k) ∧ (advance (.ofNat l) q).2.Tracks rest :=
  h.advanceLoop_spec _ (Nat.le_of_eq h.length.symm) hlow hhigh

end PayloadQueue

/-! ## 4. Gap blocks -/

/-- How far ahead the TSNs of a block are: the loop over `start..=end`. -/
def GapAckBlock.offsets (b : GapAckBlock) : List Nat :=
  List.range' b.start.toNat (b.end_.toNat + 1 - b.start.toNat)

namespace PayloadQueue

variable {q : PayloadQueue} {as : List Nat} {a l : Nat}

/-- The offset of a place on the same turn of the circle. -/
theorem gapOffset_ofNat (hturn : a / 2 ^ 32 = l / 2 ^ 32) (hle : l ≤ a) (hfar : a < l + 2 ^ 16) :
    gapOffset (.ofNat l) (.ofNat a) = .ofNat (a - l) := by
  have hl : (UInt32.ofNat l).toNat = l % 2 ^ 32 := UInt32.toNat_ofNat'
  have ha : (UInt32.ofNat a).toNat = a % 2 ^ 32 := UInt32.toNat_ofNat'
  have hge : UInt32.ofNat l ≤ .ofNat a := by
    rw [UInt32.le_iff_toNat_le, hl, ha]
    omega
  rw [gapOffset, if_pos hge]
  apply UInt16.toNat_inj.mp
  rw [UInt32.toNat_toUInt16, UInt32.toNat_sub_of_le _ _ hge, hl, ha, UInt16.toNat_ofNat']
  omega

theorem offsets_gapLoop {s e : Nat} (hse : s ≤ e) (hinc : as.Pairwise (· < ·))
    (hlow : ∀ a ∈ as, l + e < a)
    (hfar : ∀ a ∈ as, a < l + 2 ^ 16) (he : e < 2 ^ 16)
    (hturn : ∀ a ∈ as, a / 2 ^ 32 = l / 2 ^ 32) :
    (gapLoop (.ofNat l) ⟨.ofNat s, .ofNat e⟩ (as.map .ofNat)).flatMap GapAckBlock.offsets
      = List.range' s (e + 1 - s) ++ as.map (· - l) := by
  induction as generalizing s e with
  | nil =>
    simp only [List.map_nil, gapLoop, List.flatMap_cons, List.flatMap_nil, GapAckBlock.offsets,
      UInt16.toNat_ofNat', Nat.mod_eq_of_lt he, Nat.mod_eq_of_lt (Nat.lt_of_le_of_lt hse he)]
  | cons a as ih =>
    have hlow' := hlow a List.mem_cons_self
    have hfar' := hfar a List.mem_cons_self
    obtain ⟨hhead, htail⟩ := List.pairwise_cons.mp hinc
    have hrest := fun b hb => hfar b (List.mem_cons_of_mem a hb)
    have hturns := fun b hb => hturn b (List.mem_cons_of_mem a hb)
    have hoff := gapOffset_ofNat (hturn a List.mem_cons_self) (by omega) hfar'
    have hsucc : UInt16.ofNat e + 1 = .ofNat (e + 1) := by
      rw [UInt16.ofNat_add]
      rfl
    have hiff : (UInt16.ofNat e + 1 == UInt16.ofNat (a - l)) = true ↔ a = l + e + 1 := by
      rw [hsucc, beq_iff_eq, ← UInt16.toNat_inj, UInt16.toNat_ofNat', UInt16.toNat_ofNat',
        Nat.mod_eq_of_lt (by omega), Nat.mod_eq_of_lt (by omega)]
      omega
    rw [List.map_cons, gapLoop, hoff]
    by_cases hnext : a = l + e + 1
    · -- the block grows
      rw [if_pos (hiff.mpr hnext), hsucc, ih (by omega) htail (fun b hb => by
        have := hhead b hb
        omega) hrest (by omega) hturns, List.map_cons, show e + 1 + 1 - s = e + 1 - s + 1 by omega,
        List.range'_1_concat, List.append_assoc, List.singleton_append]
      congr 2
      omega
    · -- the next block begins
      rw [if_neg fun h => hnext (hiff.mp h), List.flatMap_cons,
        ih (Nat.le_refl _) htail (fun b hb => by
        have := hhead b hb
        omega) hrest (by omega) hturns, List.map_cons, show a - l + 1 - (a - l) = 1 by omega]
      simp only [GapAckBlock.offsets, UInt16.toNat_ofNat', Nat.mod_eq_of_lt he,
        Nat.mod_eq_of_lt (Nat.lt_of_le_of_lt hse he)]
      rfl

/-- **The gap blocks report exactly what has come**, as long as it is not further than 16 bits reach
and on the same turn of the circle as the cumulative TSN. -/
theorem Tracks.offsets_getGapAckBlocks (h : q.Tracks as) (hlow : ∀ a ∈ as, l < a)
    (hfar : ∀ a ∈ as, a < l + 2 ^ 16) (hturn : ∀ a ∈ as, a / 2 ^ 32 = l / 2 ^ 32) :
    (q.getGapAckBlocks (.ofNat l)).flatMap GapAckBlock.offsets = as.map (· - l) := by
  rw [getGapAckBlocks, h.tsns]
  cases as with
  | nil => rfl
  | cons a as =>
    have hlow' := hlow a List.mem_cons_self
    have hfar' := hfar a List.mem_cons_self
    obtain ⟨hhead, htail⟩ := List.pairwise_cons.mp h.increasing
    simp only [List.map_cons]
    rw [gapOffset_ofNat (hturn a List.mem_cons_self) (by omega) hfar',
      offsets_gapLoop (Nat.le_refl _) htail
      (fun b hb => by
        have := hhead b hb
        omega) (fun b hb => hfar b (List.mem_cons_of_mem a hb)) (by omega)
      fun b hb => hturn b (List.mem_cons_of_mem a hb), show a - l + 1 - (a - l) = 1 by omega]
    rfl

end PayloadQueue

end WebrtcBridge.Sctp
