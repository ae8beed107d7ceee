/-
# Cutting items into packets and putting them together again

A sender has a list of ITEMS (byte strings, or lists over any type) and sends them as packets.  A
packet carries PIECES of consecutive items: its first piece may continue an item begun in an
earlier packet, its last piece may leave an item unfinished, and everything between is whole.  A
receiver keeps a buffer with the beginning of the unfinished item.

What a packet covers is a SPAN: the first item and the offset in it, the number of pieces, and the
size of the last one.  A list of spans is a CHAIN if each starts where the one before ended.
`absorbAll_chain` is the whole point: feeding the packets of a chain to the receiver gives exactly
the items between the two ends of the chain, in order, and leaves the beginning of the item at
the far end in the buffer.
-/
import Mathlib.Data.List.Basic
import Mathlib.Data.List.GetD

namespace WebrtcBridge.Lib

variable {α : Type}

/-! ## 1. Packets and the receiver -/

/-- A packet: its pieces, whether the first continues an earlier item, and whether the last
leaves its item unfinished. -/
structure Packet (α : Type) where
  continued : Bool
  unfinished : Bool
  pieces : List (List α)
  deriving DecidableEq, Repr

/-- Put what is buffered in front of the first piece. -/
def joinFirst (buffer : List α) : List (List α) → List (List α)
  | [] => []
  | e :: es => (buffer ++ e) :: es

/-- The receiver on one packet: the items it completes and the new buffer. -/
def absorb (buffer : List α) (p : Packet α) : List (List α) × List α :=
  let es := joinFirst (if p.continued then buffer else []) p.pieces
  if p.unfinished then (es.dropLast, es.getLastD []) else (es, [])

/-- The receiver on packet after packet. -/
def absorbAll (buffer : List α) : List (Packet α) → List (List α) × List α
  | [] => ([], buffer)
  | p :: ps =>
    ((absorb buffer p).1 ++ (absorbAll (absorb buffer p).2 ps).1,
      (absorbAll (absorb buffer p).2 ps).2)

/-- Of several pieces the first completes its item. -/
theorem absorb_cons (buffer : List α) (unfinished : Bool) (e e' : List α) (es : List (List α)) :
    absorb buffer ⟨true, unfinished, e :: e' :: es⟩
      = ((buffer ++ e) :: (absorb [] ⟨true, unfinished, e' :: es⟩).1,
          (absorb [] ⟨true, unfinished, e' :: es⟩).2) := by
  cases unfinished <;> simp [absorb, joinFirst]

/-! ## 2. Spans -/

/-- A place in the items: which one, and how far into it. -/
structure Cursor where
  item : Nat
  offset : Nat
  deriving DecidableEq, Repr

/-- What a packet covers. -/
structure Span where
  first : Nat
  offset : Nat
  count : Nat
  lastSize : Nat
  deriving DecidableEq, Repr

/-- A place at or behind the end of an item is the start of the next one. -/
def cursorAt (items : List (List α)) (k offset : Nat) : Cursor :=
  if offset < (items.getD k []).length then ⟨k, offset⟩ else ⟨k + 1, 0⟩

/-- The pieces of a span: to the end of each item, except for the last piece. -/
def piecesFrom (items : List (List α)) : Nat → Nat → Nat → Nat → List (List α)
  | _, _, 0, _ => []
  | k, offset, 1, lastSize => [((items.getD k []).drop offset).take lastSize]
  | k, offset, count + 2, lastSize =>
    (items.getD k []).drop offset :: piecesFrom items (k + 1) 0 (count + 1) lastSize

namespace Span

variable (items : List (List α)) (sp : Span)

/-- The item the last piece belongs to. -/
def last : Nat := sp.first + sp.count - 1

/-- Where in that item the last piece ends. -/
def endOffset : Nat := (if sp.count = 1 then sp.offset else 0) + sp.lastSize

/-- The span lies within the items and none of its pieces is empty. -/
structure Valid : Prop where
  count_pos : 1 ≤ sp.count
  bound : sp.first + sp.count ≤ items.length
  offset_lt : sp.offset < (items.getD sp.first []).length
  lastSize_pos : 1 ≤ sp.lastSize
  end_le : sp.endOffset ≤ (items.getD sp.last []).length

/-- Where the span ends: inside its last item, or at the start of the next one. -/
def next : Cursor := cursorAt items sp.last sp.endOffset

/-- The span's pieces. -/
def pieces : List (List α) := piecesFrom items sp.first sp.offset sp.count sp.lastSize

/-- The packet that carries the span. -/
def packet : Packet α :=
  ⟨0 < sp.offset, sp.endOffset < (items.getD sp.last []).length, sp.pieces items⟩

end Span

/-- The beginning of the item a cursor stands in. -/
def started (items : List (List α)) (c : Cursor) : List α := (items.getD c.item []).take c.offset

/-- **Spans that follow one another** from one cursor to another. -/
def Chain (items : List (List α)) : Cursor → List Span → Cursor → Prop
  | c, [], c' => c = c'
  | c, sp :: sps, c' =>
    (sp.first = c.item ∧ sp.offset = c.offset) ∧ sp.Valid items ∧ Chain items (sp.next items) sps c'

/-! ## 3. One packet -/

/-- With the buffered beginning in front, the pieces are whole items and the beginning of the
last. -/
theorem joinFirst_piecesFrom (items : List (List α)) :
    ∀ (count k offset lastSize : Nat), k + (count + 1) ≤ items.length →
      joinFirst ((items.getD k []).take offset) (piecesFrom items k offset (count + 1) lastSize)
        = (items.drop k).take count
          ++ [(items.getD (k + count) []).take ((if count = 0 then offset else 0) + lastSize)]
  | 0, k, offset, lastSize, _ => by
    simp [piecesFrom, joinFirst, ← List.take_add]
  | count + 1, k, offset, lastSize, hk => by
    have hlt : k < items.length := by omega
    have ih := joinFirst_piecesFrom items count (k + 1) 0 lastSize (by omega)
    have hjoin : joinFirst ((items.getD (k + 1) []).take 0)
        (piecesFrom items (k + 1) 0 (count + 1) lastSize)
          = piecesFrom items (k + 1) 0 (count + 1) lastSize := by
      cases piecesFrom items (k + 1) 0 (count + 1) lastSize <;> simp [joinFirst]
    rw [hjoin] at ih
    have hzero : (if count = 0 then 0 else 0) + lastSize = lastSize := by simp
    rw [hzero] at ih
    simp only [piecesFrom, joinFirst, List.take_append_drop, ih, Nat.succ_ne_zero, if_false,
      Nat.zero_add]
    rw [List.drop_eq_getElem_cons hlt, List.take_succ_cons, List.getD_eq_getElem _ _ hlt,
      show k + 1 + count = k + (count + 1) by omega]
    rfl

/-- **One packet**: the receiver gets the items the span completes and keeps the beginning of the
item it ends in. -/
theorem absorb_packet (items : List (List α)) (sp : Span) (h : sp.Valid items) :
    absorb ((items.getD sp.first []).take sp.offset) (sp.packet items)
      = ((items.drop sp.first).take ((sp.next items).item - sp.first),
          started items (sp.next items)) := by
  obtain ⟨count, hcount⟩ : ∃ n, sp.count = n + 1 := ⟨sp.count - 1, by have := h.count_pos; omega⟩
  have hbound := h.bound
  have hend := h.end_le
  have hlast : sp.last = sp.first + count := by simp [Span.last, hcount]
  have hbuffer : (if (decide (0 < sp.offset)) = true then (items.getD sp.first []).take sp.offset
      else []) = (items.getD sp.first []).take sp.offset := by
    rcases Nat.eq_zero_or_pos sp.offset with h0 | hpos
    · simp [h0]
    · simp [hpos]
  have hjoin := joinFirst_piecesFrom items count sp.first sp.offset sp.lastSize (by omega)
  have hoff : (if count = 0 then sp.offset else 0) + sp.lastSize = sp.endOffset := by
    simp [Span.endOffset, hcount]
  rw [hoff, ← hlast] at hjoin
  simp only [absorb, Span.packet, Span.pieces, hbuffer, hcount, hjoin]
  by_cases hopen : sp.endOffset < (items.getD sp.last []).length
  · -- the last item stays unfinished
    have hnext : sp.next items = ⟨sp.last, sp.endOffset⟩ := if_pos hopen
    have hitem : sp.last - sp.first = count := by omega
    simp only [hopen, decide_true, if_true, hnext, started, hitem, List.dropLast_concat,
      List.getLastD_concat]
  · have hwhole : (items.getD sp.last []).take sp.endOffset = items.getD sp.last [] :=
      List.take_of_length_le (by omega)
    have hnext : sp.next items = ⟨sp.last + 1, 0⟩ := if_neg hopen
    have hitem : sp.last + 1 - sp.first = count + 1 := by omega
    have hlt : sp.first + count < items.length := by omega
    have htake : (items.drop sp.first).take (count + 1)
        = (items.drop sp.first).take count ++ [items.getD sp.last []] := by
      rw [List.take_succ_eq_append_getElem (by simp; omega), List.getElem_drop, hlast,
        List.getD_eq_getElem _ _ hlt]
    simp only [hopen, decide_false, Bool.false_eq_true, if_false, hnext, started, hwhole,
      List.take_zero, hitem, htake]

/-! ## 4. A chain -/

theorem Span.first_le_next (items : List (List α)) (sp : Span) (h : sp.Valid items) :
    sp.first ≤ (sp.next items).item := by
  have := h.count_pos
  unfold Span.next cursorAt Span.last
  split <;> simp only <;> omega

theorem Chain.item_le {items : List (List α)} : ∀ {sps : List Span} {c c' : Cursor},
    Chain items c sps c' → c.item ≤ c'.item
  | [], c, c', h => by
    have heq : c = c' := h
    simp [heq]
  | sp :: sps, c, c', h => by
    obtain ⟨⟨hfirst, -⟩, hvalid, hrest⟩ := h
    have h1 := sp.first_le_next items hvalid
    have h2 := hrest.item_le
    omega

/-- **The receiver on a chain** gets the items between its ends and keeps the beginning of the
item at the far end. -/
theorem absorbAll_chain (items : List (List α)) : ∀ (sps : List Span) (c c' : Cursor),
    Chain items c sps c' →
    absorbAll (started items c) (sps.map (Span.packet items))
      = ((items.drop c.item).take (c'.item - c.item), started items c')
  | [], c, c', h => by
    have heq : c = c' := h
    simp [absorbAll, heq]
  | sp :: sps, c, c', h => by
    obtain ⟨⟨hfirst, hoffset⟩, hvalid, hrest⟩ := h
    have hone := absorb_packet items sp hvalid
    rw [hfirst, hoffset] at hone
    have ih := absorbAll_chain items sps (sp.next items) c' hrest
    have hle := sp.first_le_next items hvalid
    have hle' := hrest.item_le
    rw [hfirst] at hle
    simp only [List.map_cons, absorbAll, started] at hone ih ⊢
    rw [hone, ih]
    -- the items of the packet, then the items of the rest
    have hsplit : items.drop (sp.next items).item
        = (items.drop c.item).drop ((sp.next items).item - c.item) := by
      rw [List.drop_drop, Nat.add_sub_cancel' hle]
    rw [hsplit, ← List.take_add]
    congr 3
    omega

theorem Chain.append {items : List (List α)} : ∀ {sps sps' : List Span} {c c' c'' : Cursor},
    Chain items c sps c' → Chain items c' sps' c'' → Chain items c (sps ++ sps') c''
  | [], _, c, c', _, h, h' => by
    have heq : c = c' := h
    rw [heq]
    exact h'
  | _ :: _, _, _, _, _, h, h' => ⟨h.1, h.2.1, Chain.append h.2.2 h'⟩

theorem Chain.valid {items : List (List α)} : ∀ {sps : List Span} {c c' : Cursor},
    Chain items c sps c' → ∀ sp ∈ sps, sp.Valid items
  | [], _, _, _, sp, hsp => by simp at hsp
  | sp' :: sps, _, _, h, sp, hsp => by
    rcases List.mem_cons.mp hsp with rfl | hsp
    · exact h.2.1
    · exact Chain.valid h.2.2 sp hsp

/-! ## 5. Building a chain

A sender fills the last packet piece by piece.  While it does, that packet's span is empty or ends
at the start of the item to be placed next; an item that does not fit is cut, and its middle and
last pieces get packets of their own. -/

/-- The span covers nothing yet and stands at item `k`, or it ends right before item `k`. -/
def Span.EndsAt (items : List (List α)) (sp : Span) (k : Nat) : Prop :=
  (sp.count = 0 ∧ sp.first = k ∧ sp.offset = 0) ∨ (sp.Valid items ∧ sp.next items = ⟨k, 0⟩)

/-- The span with a piece of `len` more. -/
def Span.add (sp : Span) (len : Nat) : Span := ⟨sp.first, sp.offset, sp.count + 1, len⟩

/-- The two forms of `EndsAt`, as arithmetic. -/
theorem Span.EndsAt.cases {items : List (List α)} {sp : Span} {k : Nat} (h : sp.EndsAt items k) :
    sp.first + sp.count = k ∧ (sp.count = 0 → sp.offset = 0) ∧ (sp.count ≠ 0 → sp.Valid items) := by
  rcases h with ⟨hcount, hfirst, hoffset⟩ | ⟨hvalid, hnext⟩
  · exact ⟨by omega, fun _ => hoffset, fun hne => absurd hcount hne⟩
  · have hpos := hvalid.count_pos
    have hsize := hvalid.lastSize_pos
    refine ⟨?_, by omega, fun _ => hvalid⟩
    unfold Span.next cursorAt at hnext
    split at hnext
    · have hzero := congrArg Cursor.offset hnext
      simp only [Span.endOffset] at hzero
      omega
    · have hitem := congrArg Cursor.item hnext
      simp only [Span.last] at hitem
      omega

/-- **A piece more**: the span stays valid and ends where the piece does. -/
theorem Span.EndsAt.add {items : List (List α)} {sp : Span} {k len : Nat} (h : sp.EndsAt items k)
    (hk : k < items.length) (hpos : 1 ≤ len) (hle : len ≤ (items.getD k []).length) :
    (sp.add len).Valid items ∧ (sp.add len).next items = cursorAt items k len := by
  obtain ⟨hsum, hempty, hvalid⟩ := h.cases
  have hlast : (sp.add len).last = k := by
    simp only [Span.add, Span.last]
    omega
  have hend : (sp.add len).endOffset = len := by
    simp only [Span.add, Span.endOffset]
    by_cases hcount : sp.count = 0
    · simp [hcount, hempty hcount]
    · simp [hcount]
  refine ⟨⟨by simp [Span.add], ?_, ?_, hpos, by rw [hend, hlast]; exact hle⟩, by
    rw [Span.next, hlast, hend]⟩
  · simp only [Span.add]
    omega
  · by_cases hcount : sp.count = 0
    · have hfirst : sp.first = k := by omega
      simp only [Span.add, hempty hcount, hfirst]
      omega
    · exact (hvalid hcount).offset_lt

theorem piecesFrom_add (items : List (List α)) (len : Nat) : ∀ (count k offset lastSize : Nat),
    (items.getD (k + count) []).length ≤ (if count = 0 then offset else 0) + lastSize →
    piecesFrom items k offset (count + 2) len
      = piecesFrom items k offset (count + 1) lastSize ++ [(items.getD (k + count + 1) []).take len]
  | 0, k, offset, lastSize, h => by
    have hwhole :
        ((items.getD k []).drop offset).take lastSize = (items.getD k []).drop offset := by
      refine List.take_of_length_le ?_
      simp only [List.length_drop, if_true, Nat.add_zero] at h ⊢
      omega
    simp only [piecesFrom, hwhole, List.drop_zero, Nat.add_zero, List.singleton_append]
  | count + 1, k, offset, lastSize, h => by
    have ih := piecesFrom_add items len count (k + 1) 0 lastSize (by
      rw [show k + 1 + count = k + (count + 1) by omega]
      simpa using h)
    rw [piecesFrom, ih, piecesFrom, List.cons_append,
      show k + 1 + count + 1 = k + (count + 1) + 1 by omega]

theorem Span.EndsAt.pieces_add {items : List (List α)} {sp : Span} {k len : Nat}
    (h : sp.EndsAt items k) :
    (sp.add len).pieces items = sp.pieces items ++ [(items.getD k []).take len] := by
  obtain ⟨hsum, hempty, -⟩ := h.cases
  rcases h with ⟨hcount, hfirst, hoffset⟩ | ⟨hvalid, hnext⟩
  · simp [Span.pieces, Span.add, hcount, hfirst, hoffset, piecesFrom]
  · obtain ⟨count, hcount⟩ : ∃ n, sp.count = n + 1 :=
      ⟨sp.count - 1, by have := hvalid.count_pos; omega⟩
    have hdone : ¬ sp.endOffset < (items.getD sp.last []).length := by
      intro hlt
      rw [Span.next, cursorAt, if_pos hlt] at hnext
      have hitem := congrArg Cursor.item hnext
      simp only [Span.last] at hitem
      omega
    have hlast : sp.last = sp.first + count := by simp [Span.last, hcount]
    have hk : k = sp.first + count + 1 := by omega
    simp only [Span.endOffset, hcount, hlast, Nat.add_eq_right] at hdone
    simp only [Span.pieces, Span.add, hcount, hk]
    exact piecesFrom_add items len count sp.first sp.offset sp.lastSize (by omega)

theorem piecesFrom_concat (items : List (List α)) : ∀ (count k offset lastSize : Nat),
    (if count = 0 then offset else 0) + lastSize ≤ (items.getD (k + count) []).length →
    ∃ es e, piecesFrom items k offset (count + 1) lastSize = es ++ [e] ∧ e.length = lastSize
  | 0, k, offset, lastSize, h => by
    refine ⟨[], _, rfl, ?_⟩
    simp only [if_true, Nat.add_zero] at h
    simp only [List.length_take, List.length_drop]
    omega
  | count + 1, k, offset, lastSize, h => by
    obtain ⟨es, e, heq, hlen⟩ := piecesFrom_concat items count (k + 1) 0 lastSize (by
      rw [show k + 1 + count = k + (count + 1) by omega]
      simpa using h)
    exact ⟨(items.getD k []).drop offset :: es, e, by rw [piecesFrom, heq, List.cons_append], hlen⟩

/-- The last piece of a valid span has the size the span says. -/
theorem Span.Valid.pieces_concat {items : List (List α)} {sp : Span} (h : sp.Valid items) :
    ∃ es e, sp.pieces items = es ++ [e] ∧ e.length = sp.lastSize := by
  obtain ⟨count, hcount⟩ : ∃ n, sp.count = n + 1 := ⟨sp.count - 1, by have := h.count_pos; omega⟩
  have hend := h.end_le
  have hlast : sp.last = sp.first + count := by simp [Span.last, hcount]
  simp only [Span.endOffset, hcount, hlast, Nat.add_eq_right] at hend
  rw [Span.pieces, hcount]
  exact piecesFrom_concat items count sp.first sp.offset sp.lastSize hend

theorem Span.valid_single {items : List (List α)} {k offset len : Nat} (hk : k < items.length)
    (hpos : 1 ≤ len) (hle : offset + len ≤ (items.getD k []).length) :
    (Span.mk k offset 1 len).Valid items
      ∧ (Span.mk k offset 1 len).next items = cursorAt items k (offset + len) := by
  refine ⟨⟨Nat.le_refl 1, hk, ?_, hpos, hle⟩, rfl⟩
  simp only
  omega

/-! ## 6. What the receiver may rely on -/

/-- Packets a receiver can take one after another: a packet continues an item exactly if the
receiver has the beginning of one, no piece is empty, and the buffer stays below a limit. -/
def Admissible (limit : Nat) : List α → List (Packet α) → Prop
  | _, [] => True
  | buffer, p :: ps =>
    (p.continued = true ↔ buffer ≠ []) ∧ p.pieces ≠ [] ∧ (∀ e ∈ p.pieces, e ≠ [])
      ∧ (absorb buffer p).2.length < limit ∧ Admissible limit (absorb buffer p).2 ps

theorem length_piecesFrom (items : List (List α)) : ∀ (count k offset lastSize : Nat),
    (piecesFrom items k offset count lastSize).length = count
  | 0, _, _, _ => rfl
  | 1, _, _, _ => rfl
  | count + 2, k, offset, lastSize => by
    rw [piecesFrom, List.length_cons, length_piecesFrom items (count + 1) (k + 1) 0 lastSize]

/-- No piece of a valid span is empty, when no item is. -/
theorem pieces_ne_nil {items : List (List α)} (hitems : ∀ x ∈ items, x ≠ []) :
    ∀ (count k offset lastSize : Nat), k + (count + 1) ≤ items.length →
      offset < (items.getD k []).length → 1 ≤ lastSize →
      ∀ e ∈ piecesFrom items k offset (count + 1) lastSize, e ≠ []
  | 0, k, offset, lastSize, _, hoff, hlast => by
    intro e he
    have heq : e = ((items.getD k []).drop offset).take lastSize := by simpa [piecesFrom] using he
    rw [heq]
    refine List.ne_nil_of_length_pos ?_
    simp only [List.length_take, List.length_drop]
    omega
  | count + 1, k, offset, lastSize, hk, hoff, hlast => by
    intro e he
    simp only [piecesFrom, List.mem_cons] at he
    rcases he with rfl | he
    · refine List.ne_nil_of_length_pos ?_
      simp only [List.length_drop]
      omega
    · have hlt : k + 1 < items.length := by omega
      have hpos : 0 < (items.getD (k + 1) []).length := by
        rw [List.getD_eq_getElem _ _ hlt]
        exact List.length_pos_of_ne_nil (hitems _ (List.getElem_mem hlt))
      exact pieces_ne_nil hitems count (k + 1) 0 lastSize (by omega) hpos hlast e he

theorem length_started_le (items : List (List α)) (c : Cursor) :
    (started items c).length ≤ (items.getD c.item []).length := by
  rw [started, List.length_take]
  exact Nat.min_le_right _ _

/-- **The packets of a chain are admissible**, when no item is empty or longer than the limit. -/
theorem Chain.admissible {items : List (List α)} {limit : Nat} (hne : ∀ x ∈ items, x ≠ [])
    (hlimit : ∀ k, (items.getD k []).length < limit) : ∀ {sps : List Span} {c c' : Cursor},
    Chain items c sps c' → Admissible limit (started items c) (sps.map (Span.packet items))
  | [], _, _, _ => trivial
  | sp :: sps, c, c', h => by
    obtain ⟨⟨hfirst, hoffset⟩, hvalid, hrest⟩ := h
    obtain ⟨count, hcount⟩ : ∃ n, sp.count = n + 1 :=
      ⟨sp.count - 1, by have := hvalid.count_pos; omega⟩
    have hone := absorb_packet items sp hvalid
    rw [hfirst, hoffset] at hone
    have hoff := hvalid.offset_lt
    have hbound := hvalid.bound
    rw [hcount] at hbound
    refine ⟨?_, ?_, ?_, ?_, ?_⟩
    · rw [hfirst, hoffset] at hoff
      simp only [Span.packet, started, hoffset, decide_eq_true_eq, ne_eq, List.take_eq_nil_iff,
        not_or]
      constructor
      · intro hpos
        exact ⟨by omega, List.ne_nil_of_length_pos (by omega)⟩
      · rintro ⟨hne0, -⟩
        omega
    · refine List.ne_nil_of_length_pos ?_
      simp only [Span.packet, Span.pieces, length_piecesFrom, hcount]
      omega
    · simp only [Span.packet, Span.pieces, hcount]
      exact pieces_ne_nil hne count sp.first sp.offset sp.lastSize hbound hoff hvalid.lastSize_pos
    · have hle := length_started_le items (sp.next items)
      have hlt := hlimit (sp.next items).item
      rw [started, hone]
      simp only
      omega
    · rw [started, hone]
      exact Chain.admissible hne hlimit hrest

end WebrtcBridge.Lib
