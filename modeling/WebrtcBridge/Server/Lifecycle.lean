/-
# How many connections of a session are open

`handleOffer` stores the connection it creates in `pc` without looking at what is there, and
`close()` closes what it finds in `pc`.  So a connection is lost

* when a second OFFER stores its own over it, whether the first succeeded or failed;
* when an OFFER stores it after the `close()` of the socket has read the field;
* when an OFFER stores it between the read of a LEAVE and its `pc = null`.

Only two steps of a session can do any of that, the creation of a connection and its assignment, and
`OneAtATime` says when they are harmless: nothing is open when one is created, and when it is
assigned nobody stands between reading and clearing the field, and whoever closes the socket has yet
to read it.

The invariant is `Guarded`: the open connection, of which there is at most one, is about to be
assigned, or in the hands of someone who will close it, or in the field with the socket's `close()`
still to come.
-/
import WebrtcBridge.Server.Invariants

namespace WebrtcBridge.Server

open Lib

/-! ## 1. The property and the condition -/

/-- The connections the session created and has not closed; `first` is the number it began with. -/
def Shared.openPcs (first : PcId) (s : Shared) : List PcId :=
  (List.range' first (s.nextPc - first)).filter (· ∉ s.closed)

/-- **At most one connection is open while no OFFER is handled, and none once the socket is closed
and all handlers have finished.** -/
def Session.Tidy (first : PcId) (s : Session) : Prop :=
  ((∀ h ∈ s.handlers, h.isOffer = false) → (s.shared.openPcs first).length ≤ 1)
    ∧ (s.socketOpen = false → s.handlers = [] → s.shared.openPcs first = [])

instance (first : PcId) (s : Session) : Decidable (s.Tidy first) :=
  inferInstanceAs (Decidable (_ ∧ _))

/-- Between the read of `pc` and `pc = null`. -/
def Point.isNulling : Point → Bool
  | .nullPc _ => true
  | _ => false

/-- `onClose`, before it reads `pc`. -/
def Handler.willRead (h : Handler) : Bool :=
  h.req = none && (h.point = .stop || h.point = .readPc)

/-- The `close()` of the socket has not read `pc` yet, if it has begun at all. -/
def Session.Listening (s : Session) : Prop :=
  s.socketOpen = true ∨ ∃ h ∈ s.handlers, h.willRead = true

/-- About to store a connection. -/
def Point.isAssign : Point → Bool
  | .assign _ => true
  | _ => false

/-- What the creation and the assignment of a connection ask for. -/
def Handler.InTurn (first : PcId) (s : Session) (h : Handler) (o : Outcome) : Prop :=
  (h.point = .create → o ≠ .throws → s.shared.openPcs first = [])
    ∧ (h.point.isAssign = true →
      (∀ h' ∈ s.handlers, h'.point.isNulling = false) ∧ s.Listening)

/-- **The condition**: connections are created one at a time. -/
def OneAtATime (first : PcId) (s : Session) : Act → Prop
  | .step i o => ∀ h ∈ s.handlers[i]?, h.InTurn first s o
  | _ => True

instance (s : Session) : Decidable s.Listening := inferInstanceAs (Decidable (_ ∨ _))

instance (first : PcId) (s : Session) (h : Handler) (o : Outcome) :
    Decidable (h.InTurn first s o) :=
  inferInstanceAs (Decidable (_ ∧ _))

instance (first : PcId) (s : Session) : ∀ a : Act, Decidable (OneAtATime first s a)
  | .step _ _ => inferInstanceAs (Decidable (∀ h ∈ _, _))
  | .message _ | .socketClosed | .consumer | .rtp .. => .isTrue trivial

theorem mem_openPcs {first : PcId} {s : Shared} {p : PcId} :
    p ∈ s.openPcs first ↔ first ≤ p ∧ p < s.nextPc ∧ p ∉ s.closed := by
  have hrange : ∀ a b c : Nat, a ≤ c ∧ c < a + (b - a) ↔ a ≤ c ∧ c < b := by omega
  simp only [Shared.openPcs, List.mem_filter, List.mem_range'_1, decide_eq_true_eq,
    hrange, and_assoc]

/-! ## 2. The invariant -/

/-- The connection a handler is going to close. -/
def Point.held : Point → Option PcId
  | .nullPc p => p
  | .closePc p => some p
  | _ => none

/-- **The open connection is guarded.** -/
structure Guarded (first : PcId) (socketOpen : Bool) (s : Shared) (hs : List Handler) : Prop where
  base : first ≤ s.nextPc
  one : ∀ p ∈ s.openPcs first, ∀ q ∈ s.openPcs first, p = q
  -- a connection about to be assigned is open, and nobody else has it
  assigned : ∀ h ∈ hs, ∀ p, h.point = .assign p →
    p ∈ s.openPcs first ∧ s.pc ≠ some p ∧ ∀ h' ∈ hs, h'.point.held ≠ some p
  assignOnce : hs.countP (·.point.isAssign) ≤ 1
  -- nothing is assigned between the read of `pc` and `pc = null`
  nulling : ∀ h ∈ hs, ∀ r, h.point = .nullPc r → s.pc = r ∨ s.pc = none
  kept : ∀ p ∈ s.openPcs first, (∃ h ∈ hs, h.point = .assign p) ∨ (∃ h ∈ hs, h.point.held = some p)
    ∨ s.pc = some p ∧ (socketOpen = true ∨ ∃ h ∈ hs, h.willRead = true)

/-- What a handler is going to close, it holds. -/
theorem cell_of_held {point : Point} {p : PcId} (h : point.held = some p) :
    point.cell = some p := by
  cases point <;> first | exact h | cases h

theorem Guarded.perm {first : PcId} {socketOpen : Bool} {s : Shared} {l l' : List Handler}
    (hp : l.Perm l') (h : Guarded first socketOpen s l) : Guarded first socketOpen s l' := by
  obtain ⟨base, one, assigned, assignOnce, nulling, kept⟩ := h
  simp only [hp.mem_iff, hp.countP_eq] at assigned assignOnce nulling kept
  exact ⟨base, one, assigned, assignOnce, nulling, kept⟩

theorem openPcs_congr {first : PcId} {s t : Shared} (h : s.SameCells t) :
    t.openPcs first = s.openPcs first := by
  obtain ⟨-, hn, hc⟩ := h
  simp [Shared.openPcs, hn, hc]

/-- The cells are all the invariant looks at. -/
theorem Guarded.congr {first : PcId} {socketOpen : Bool} {s t : Shared} {hs : List Handler}
    (hst : s.SameCells t) (h : Guarded first socketOpen s hs) : Guarded first socketOpen t hs := by
  obtain ⟨base, one, assigned, assignOnce, nulling, kept⟩ := h
  have ho : t.openPcs first = s.openPcs first := openPcs_congr hst
  obtain ⟨hpc, hn, -⟩ := hst
  refine ⟨?_, ?_, ?_, assignOnce, ?_, ?_⟩
  all_goals simp only [hpc, hn, ho]
  · exact base
  · exact one
  · exact assigned
  · exact nulling
  · exact kept

/-- At a plain point a handler has no connection. -/
theorem plain_facts {point : Point} (h : point.isPlain = true) :
    point.held = none ∧ point.isAssign = false ∧ point.isNulling = false := by
  cases point <;> simp_all [Point.isPlain, Point.held, Point.isAssign, Point.isNulling]

theorem isPlain_of_isQuiet {point : Point} (h : point.isQuiet = true) : point.isPlain = true := by
  cases point <;> simp_all [Point.isPlain, Point.isQuiet]

theorem willRead_of_isQuiet {h : Handler} (hq : h.point.isQuiet = true) : h.willRead = false := by
  obtain ⟨req, point⟩ := h
  cases point <;> simp_all [Point.isQuiet, Handler.willRead]

section Threads

variable {first : PcId} {socketOpen : Bool} {s : Shared} {t : Handler} {rest : List Handler}

/-- **Handlers at plain points may be replaced by others at plain points**, as long as someone who
will read the field is not replaced by nobody. -/
theorem Guarded.swap (ts us : List Handler) (h : Guarded first socketOpen s (ts ++ rest))
    (hts : ∀ t ∈ ts, t.point.isPlain = true) (hus : ∀ u ∈ us, u.point.isPlain = true)
    (hread : (∃ t ∈ ts, t.willRead = true) → ∃ u ∈ us, u.willRead = true) :
    Guarded first socketOpen s (us ++ rest) := by
  have hassign : ∀ {l : List Handler}, (∀ t ∈ l, t.point.isPlain = true) →
      ∀ t ∈ l, ∀ p, t.point ≠ .assign p := by
    intro l hl t ht p hp
    have hplain := hl t ht
    rw [hp] at hplain
    cases hplain
  have hcount : ∀ {l : List Handler}, (∀ t ∈ l, t.point.isPlain = true) →
      l.countP (·.point.isAssign) = 0 := by
    intro l hl
    rw [List.countP_eq_zero]
    intro t ht
    simp [(plain_facts (hl t ht)).2.1]
  obtain ⟨base, one, assigned, assignOnce, nulling, kept⟩ := h
  refine ⟨base, one, ?_, ?_, ?_, ?_⟩
  · intro h hh p hpoint
    rcases List.mem_append.mp hh with hh | hh
    · exact absurd hpoint (hassign hus h hh p)
    · obtain ⟨hopen, hpc, hothers⟩ := assigned h (List.mem_append_right ts hh) p hpoint
      refine ⟨hopen, hpc, fun h' hh' => ?_⟩
      rcases List.mem_append.mp hh' with hh' | hh'
      · rw [(plain_facts (hus h' hh')).1]
        exact nofun
      · exact hothers h' (List.mem_append_right ts hh')
  · rw [List.countP_append, hcount hts] at assignOnce
    rw [List.countP_append, hcount hus]
    exact assignOnce
  · intro h hh r hpoint
    rcases List.mem_append.mp hh with hh | hh
    · have hn := (plain_facts (hus h hh)).2.2
      rw [hpoint] at hn
      cases hn
    · exact nulling h (List.mem_append_right ts hh) r hpoint
  · intro p hopen
    rcases kept p hopen with ⟨h, hh, hpoint⟩ | ⟨h, hh, hhold⟩ | ⟨hpc, hlisten⟩
    · rcases List.mem_append.mp hh with hh | hh
      · exact absurd hpoint (hassign hts h hh p)
      · exact .inl ⟨h, List.mem_append_right us hh, hpoint⟩
    · rcases List.mem_append.mp hh with hh | hh
      · rw [(plain_facts (hts h hh)).1] at hhold
        cases hhold
      · exact .inr (.inl ⟨h, List.mem_append_right us hh, hhold⟩)
    · refine .inr (.inr ⟨hpc, hlisten.imp_right ?_⟩)
      rintro ⟨h, hh, hr⟩
      rcases List.mem_append.mp hh with hh | hh
      · obtain ⟨u, hu, hr⟩ := hread ⟨h, hh, hr⟩
        exact ⟨u, List.mem_append_left rest hu, hr⟩
      · exact ⟨h, List.mem_append_right us hh, hr⟩

/-- A handler that has no connection and will not read one plays no part. -/
theorem Guarded.drop (h : Guarded first socketOpen s (t :: rest)) (hp : t.point.isPlain = true)
    (hread : t.willRead = false) : Guarded first socketOpen s rest := by
  refine Guarded.swap [t] [] h ?_ (by simp) ?_
  · simpa using hp
  · simp [hread]

theorem Guarded.add (h : Guarded first socketOpen s rest) (hp : t.point.isPlain = true) :
    Guarded first socketOpen s (t :: rest) := by
  refine Guarded.swap [] [t] h (by simp) ?_ ?_
  · simpa using hp
  · simp

end Threads

/-! ## 3. The steps that move a connection -/

section Steps

variable {first : PcId} {socketOpen : Bool} {s : Shared} {req : Option Signal} {rest : List Handler}

/-- Nobody else is about to assign when the first handler is. -/
theorem Guarded.no_other_assign {p : PcId}
    (h : Guarded first socketOpen s (⟨req, .assign p⟩ :: rest)) {h' : Handler} (hh' : h' ∈ rest)
    (q : PcId) : h'.point ≠ .assign q := by
  intro hq
  have honce := h.assignOnce
  have hpos : 0 < rest.countP (·.point.isAssign) :=
    List.countP_pos_iff.mpr ⟨h', hh', by rw [hq]; rfl⟩
  rw [List.countP_cons_of_pos rfl] at honce
  omega

/-- **Create**: with nothing open there is nobody about to assign, and the new connection is the
only one. -/
theorem guarded_create (hknown : Known s (⟨req, .create⟩ :: rest))
    (h : Guarded first socketOpen s (⟨req, .create⟩ :: rest))
    (hnone : s.openPcs first = []) (e : Event) :
    Guarded first socketOpen ({ s with nextPc := s.nextPc + 1 }.emit e)
      (⟨req, .assign s.nextPc⟩ :: rest) := by
  have hrest := h.drop rfl (by simp [Handler.willRead])
  obtain ⟨base, one, assigned, assignOnce, nulling, kept⟩ := hrest
  have hopen : ∀ p, p ∈ ({ s with nextPc := s.nextPc + 1 }.emit e).openPcs first
    ↔ p = s.nextPc := by
    intro p
    have hold : ¬ (first ≤ p ∧ p < s.nextPc ∧ p ∉ s.closed) := by
      rw [← mem_openPcs, hnone]
      exact List.not_mem_nil
    have hfresh : s.nextPc ∉ s.closed := fun hc => Nat.lt_irrefl _ (hknown.closed _ hc)
    simp only [mem_openPcs, Shared.emit]
    constructor
    · rintro ⟨hfirst, hlt, hc⟩
      by_contra hne
      exact hold ⟨hfirst, Nat.lt_of_le_of_ne (Nat.lt_succ_iff.mp hlt) hne, hc⟩
    · rintro rfl
      exact ⟨base, Nat.lt_succ_self _, hfresh⟩
  have hnoassign : ∀ h' ∈ rest, ∀ q, h'.point ≠ .assign q := by
    intro h' hh' q hq
    have hmem := (assigned h' hh' q hq).1
    rw [hnone] at hmem
    cases hmem
  refine ⟨Nat.le_succ_of_le base, ?_, ?_, ?_, ?_, ?_⟩
  · intro p hp q hq
    rw [(hopen p).mp hp, (hopen q).mp hq]
  · intro h' hh' p hp
    rcases List.mem_cons.mp hh' with rfl | hh'
    · cases hp
      refine ⟨(hopen _).mpr rfl, fun hpc => Nat.lt_irrefl _ (hknown.pc _ hpc), ?_⟩
      intro h'' hh'' hhold
      rcases List.mem_cons.mp hh'' with rfl | hh''
      · cases hhold
      · exact Nat.lt_irrefl _ (hknown.cell h'' (.tail _ hh'') _ (cell_of_held hhold))
    · exact absurd hp (hnoassign h' hh' p)
  · have hzero : rest.countP (·.point.isAssign) = 0 := by
      rw [List.countP_eq_zero]
      intro h' hh' hassign
      cases hpoint : h'.point <;> rw [hpoint] at hassign <;> cases hassign
      exact hnoassign h' hh' _ hpoint
    rw [List.countP_cons_of_pos rfl, hzero]
  · intro h' hh' r hr
    rcases List.mem_cons.mp hh' with rfl | hh'
    · cases hr
    · exact nulling h' hh' r hr
  · intro p hp
    rw [hopen] at hp
    subst hp
    exact .inl ⟨_, List.mem_cons_self, rfl⟩

/-- **Assign**: the field is free for it, and whoever closes the socket is still to read it. -/
theorem guarded_assign {p : PcId} (h : Guarded first socketOpen s (⟨req, .assign p⟩ :: rest))
    (hnulling : ∀ h' ∈ rest, h'.point.isNulling = false)
    (hlisten : socketOpen = true ∨ ∃ h' ∈ rest, h'.willRead = true) :
    Guarded first socketOpen { s with pc := some p } (⟨req, .description⟩ :: rest) := by
  have hopen : p ∈ s.openPcs first := (h.assigned _ List.mem_cons_self p rfl).1
  have hother := fun h' (hh' : h' ∈ rest) => h.no_other_assign hh'
  refine Guarded.add ⟨h.base, h.one, ?_, ?_, ?_, ?_⟩ rfl
  · intro h' hh' q hq
    exact absurd hq (hother h' hh' q)
  · have honce := h.assignOnce
    rw [List.countP_cons_of_pos rfl] at honce
    omega
  · intro h' hh' r hr
    have hn := hnulling h' hh'
    rw [hr] at hn
    cases hn
  · intro q hq
    have hqp : q = p := h.one q hq p hopen
    exact .inr (.inr ⟨by rw [hqp], hlisten⟩)

/-- Who is going to stop the forwarder is going to read the field. -/
theorem guarded_stop (h : Guarded first socketOpen s (⟨req, .stop⟩ :: rest)) :
    Guarded first socketOpen s (⟨req, .readPc⟩ :: rest) := by
  refine Guarded.swap [⟨req, .stop⟩] [⟨req, .readPc⟩] h ?_ ?_ ?_
  · simp [Point.isPlain]
  · simp [Point.isPlain]
  · simp [Handler.willRead]

/-- **Read**: the reader takes charge of what is in the field. -/
theorem guarded_readPc (h : Guarded first socketOpen s (⟨req, .readPc⟩ :: rest)) :
    Guarded first socketOpen s (⟨req, .nullPc s.pc⟩ :: rest) := by
  obtain ⟨base, one, assigned, assignOnce, nulling, kept⟩ := h
  refine ⟨base, one, ?_, ?_, ?_, ?_⟩
  · intro h' hh' p hp
    rcases List.mem_cons.mp hh' with rfl | hh'
    · cases hp
    · obtain ⟨hopen, hpc, hothers⟩ := assigned h' (.tail _ hh') p hp
      refine ⟨hopen, hpc, fun h'' hh'' => ?_⟩
      rcases List.mem_cons.mp hh'' with rfl | hh''
      · exact hpc
      · exact hothers h'' (.tail _ hh'')
  · rw [List.countP_cons_of_neg (by simp [Point.isAssign])] at assignOnce ⊢
    exact assignOnce
  · intro h' hh' r hr
    rcases List.mem_cons.mp hh' with rfl | hh'
    · cases hr
      exact .inl rfl
    · exact nulling h' (.tail _ hh') r hr
  · intro p hp
    rcases kept p hp with ⟨h', hh', hpoint⟩ | ⟨h', hh', hhold⟩ | ⟨hpc, -⟩
    · rcases List.mem_cons.mp hh' with rfl | hh'
      · cases hpoint
      · exact .inl ⟨h', .tail _ hh', hpoint⟩
    · rcases List.mem_cons.mp hh' with rfl | hh'
      · cases hhold
      · exact .inr (.inl ⟨h', .tail _ hh', hhold⟩)
    · exact .inr (.inl ⟨_, List.mem_cons_self, hpc⟩)

/-- **Clear**: what is in the field is what the handler has read, if anything, and whoever goes on
with it, `u`, still has it. -/
theorem guarded_nullPc {r : Option PcId} (h : Guarded first socketOpen s (⟨req, .nullPc r⟩ :: rest))
    {u : List Handler} (hu : u = r.toList.map fun p => ⟨req, .closePc p⟩) :
    Guarded first socketOpen { s with pc := none } (u ++ rest) := by
  obtain ⟨base, one, assigned, assignOnce, nulling, kept⟩ := h
  have hmem : ∀ h' ∈ u, ∃ p, r = some p ∧ h' = ⟨req, .closePc p⟩ := by
    rw [hu]
    cases r <;> simp
  have hholder : ∀ p, r = some p → ∃ h' ∈ u, h'.point.held = some p := by
    rintro p rfl
    exact ⟨⟨req, .closePc p⟩, by simp [hu], rfl⟩
  refine ⟨base, one, ?_, ?_, fun _ _ _ _ => .inr rfl, ?_⟩
  · intro h' hh' p hp
    rcases List.mem_append.mp hh' with hh' | hh'
    · obtain ⟨q, hr, rfl⟩ := hmem h' hh'
      cases hp
    · obtain ⟨hopen, -, hothers⟩ := assigned h' (.tail _ hh') p hp
      refine ⟨hopen, nofun, fun h'' hh'' => ?_⟩
      rcases List.mem_append.mp hh'' with hh'' | hh''
      · obtain ⟨q, hr, rfl⟩ := hmem h'' hh''
        have := hothers _ List.mem_cons_self
        rwa [show (Point.nullPc r).held = r from rfl, hr] at this
      · exact hothers h'' (.tail _ hh'')
  · rw [List.countP_cons_of_neg (by simp [Point.isAssign])] at assignOnce
    have hzero : u.countP (·.point.isAssign) = 0 := by
      rw [List.countP_eq_zero]
      intro h' hh'
      obtain ⟨q, -, rfl⟩ := hmem h' hh'
      simp [Point.isAssign]
    rw [List.countP_append, hzero, Nat.zero_add]
    exact assignOnce
  · intro p hp
    rcases kept p hp with ⟨h', hh', hpoint⟩ | ⟨h', hh', hhold⟩ | ⟨hpc, -⟩
    · rcases List.mem_cons.mp hh' with rfl | hh'
      · cases hpoint
      · exact .inl ⟨h', List.mem_append_right u hh', hpoint⟩
    · rcases List.mem_cons.mp hh' with rfl | hh'
      · obtain ⟨h'', hh'', hhold'⟩ := hholder p hhold
        exact .inr (.inl ⟨h'', List.mem_append_left rest hh'', hhold'⟩)
      · exact .inr (.inl ⟨h', List.mem_append_right u hh', hhold⟩)
    · have hr : r = some p := by
        rcases nulling _ List.mem_cons_self r rfl with h | h
        · rw [← h, hpc]
        · rw [h] at hpc
          cases hpc
      obtain ⟨h'', hh'', hhold'⟩ := hholder p hr
      exact .inr (.inl ⟨h'', List.mem_append_left rest hh'', hhold'⟩)

/-- **Close**: what is closed is open no longer, and nobody else was about to assign it. -/
theorem guarded_closePc {p : PcId} (h : Guarded first socketOpen s (⟨req, .closePc p⟩ :: rest))
    {t : Shared} (hpc : t.pc = s.pc) (hn : t.nextPc = s.nextPc) (hc : t.closed = p :: s.closed) :
    Guarded first socketOpen t rest := by
  obtain ⟨base, one, assigned, assignOnce, nulling, kept⟩ := h
  have hopen : ∀ q, q ∈ t.openPcs first ↔ q ∈ s.openPcs first ∧ q ≠ p := by
    intro q
    simp only [mem_openPcs, hn, hc, List.mem_cons, not_or]
    tauto
  refine ⟨by rwa [hn], ?_, ?_, ?_, ?_, ?_⟩
  · intro q hq q' hq'
    exact one q ((hopen q).mp hq).1 q' ((hopen q').mp hq').1
  · intro h' hh' q hq
    obtain ⟨hq', hpc', hothers⟩ := assigned h' (.tail _ hh') q hq
    refine ⟨(hopen q).mpr ⟨hq', ?_⟩, by rwa [hpc], fun h'' hh'' => hothers h'' (.tail _ hh'')⟩
    rintro rfl
    exact hothers _ List.mem_cons_self rfl
  · rwa [List.countP_cons_of_neg (by simp [Point.isAssign])] at assignOnce
  · intro h' hh' r hr
    rw [hpc]
    exact nulling h' (.tail _ hh') r hr
  · intro q hq
    obtain ⟨hq, hqp⟩ := (hopen q).mp hq
    rw [hpc]
    rcases kept q hq with ⟨h', hh', hpoint⟩ | ⟨h', hh', hhold⟩ | ⟨hcell, hlisten⟩
    · rcases List.mem_cons.mp hh' with rfl | hh'
      · cases hpoint
      · exact .inl ⟨h', hh', hpoint⟩
    · rcases List.mem_cons.mp hh' with rfl | hh'
      · cases hhold
        exact absurd rfl hqp
      · exact .inr (.inl ⟨h', hh', hhold⟩)
    · refine .inr (.inr ⟨hcell, hlisten.imp_right ?_⟩)
      rintro ⟨h', hh', hread⟩
      rcases List.mem_cons.mp hh' with rfl | hh'
      · simp [Handler.willRead] at hread
      · exact ⟨h', hh', hread⟩

end Steps

/-! ## 4. Every run -/

def Session.Guarded (first : PcId) (s : Session) : Prop :=
  Known s.shared s.handlers ∧ Server.Guarded first s.socketOpen s.shared s.handlers

/-- **A step of a handler keeps the connection guarded**, if connections are created one at a
time. -/
theorem guarded_handler (firstMediaCodec : Text → MediaKind → Option Codec) {first : PcId}
    {s : Session} {t : Handler} {rest : List Handler} (hperm : s.handlers.Perm (t :: rest))
    (o : Outcome) (hturn : t.InTurn first s o) (hknown : Known s.shared (t :: rest))
    (h : Server.Guarded first s.socketOpen s.shared (t :: rest)) :
    Server.Guarded first s.socketOpen (t.step firstMediaCodec s.shared o).1
      ((t.step firstMediaCodec s.shared o).2.toList ++ rest) := by
  cases hq : t.point.isQuiet with
  | true =>
    obtain ⟨hcells, hplain⟩ := step_quiet firstMediaCodec o s.shared hq
    have hrest := (h.drop (isPlain_of_isQuiet hq) (willRead_of_isQuiet hq)).congr hcells
    cases hnext : (t.step firstMediaCodec s.shared o).2 with
    | none => exact hrest
    | some t' => exact hrest.add (hplain t' hnext)
  | false =>
    obtain ⟨req, point⟩ := t
    cases point with
    | create =>
      simp only [Handler.step]
      split
      · exact Guarded.congr (s := s.shared) ⟨rfl, rfl, rfl⟩
          (h.drop rfl (by simp [Handler.willRead]))
      · next hreturns => exact guarded_create hknown h (hturn.1 rfl hreturns) _
    | assign p =>
      obtain ⟨hnulling, hlisten⟩ := hturn.2 rfl
      refine guarded_assign h (fun h' hh' => hnulling h' (hperm.mem_iff.mpr (.tail _ hh'))) ?_
      refine hlisten.imp_right ?_
      rintro ⟨h', hh', hread⟩
      rcases List.mem_cons.mp (hperm.mem_iff.mp hh') with rfl | hh'
      · simp [Handler.willRead] at hread
      · exact ⟨h', hh', hread⟩
    | stop => exact Guarded.congr (s := s.shared) ⟨rfl, rfl, rfl⟩ (guarded_stop h)
    | readPc => exact guarded_readPc h
    | nullPc r =>
      cases r with
      | none =>
        have hnull : Server.Guarded first s.socketOpen { s.shared with pc := none } rest :=
          guarded_nullPc h rfl
        cases req <;> exact Guarded.congr (s := { s.shared with pc := none }) ⟨rfl, rfl, rfl⟩ hnull
      | some p => exact guarded_nullPc h rfl
    | closePc p =>
      cases req <;> exact guarded_closePc h rfl rfl rfl
    | _ => cases hq

/-- With a handler that will read the field, it does not matter whether the socket is open. -/
theorem Guarded.shut {first : PcId} {b : Bool} {s : Shared} {hs : List Handler}
    (h : Server.Guarded first b s hs) (hread : ∃ h' ∈ hs, h'.willRead = true) (b' : Bool) :
    Server.Guarded first b' s hs := by
  obtain ⟨base, one, assigned, assignOnce, nulling, kept⟩ := h
  refine ⟨base, one, assigned, assignOnce, nulling, ?_⟩
  intro p hp
  exact (kept p hp).imp_right (Or.imp_right fun hcell => ⟨hcell.1, .inr hread⟩)

/-- **A step of the session.** -/
theorem step_guarded (firstMediaCodec : Text → MediaKind → Option Codec) {first : PcId}
    (s : Session) (a : Act) (hok : OneAtATime first s a) (h : s.Guarded first) :
    (s.step firstMediaCodec a).Guarded first := by
  obtain ⟨hknown, h⟩ := h
  refine ⟨step_known firstMediaCodec s a hknown, ?_⟩
  cases a with
  | message req =>
    simp only [Session.step]
    split
    · exact (Guarded.add h rfl).perm (List.perm_append_singleton _ _).symm
    · exact h
  | socketClosed =>
    simp only [Session.step]
    split
    · have hadd : Server.Guarded first s.socketOpen s.shared (⟨none, .stop⟩ :: s.handlers) :=
        Guarded.add h rfl
      exact (hadd.shut ⟨_, List.mem_cons_self, rfl⟩ false).perm
        (List.perm_append_singleton _ _).symm
    · exact h
  | step i o =>
    exact turn_inv (I := Server.Guarded first s.socketOpen) Guarded.perm
      (fun t rest ht hperm => guarded_handler firstMediaCodec hperm o (hok t ht)
        (hknown.perm hperm)) h
  | consumer => exact Guarded.congr (s := s.shared) ⟨rfl, rfl, rfl⟩ h
  | rtp payload pt sequenceNumber timestamp =>
    exact Guarded.congr (s := s.shared) ⟨rfl, rfl, rfl⟩ h

theorem guarded_fresh (first : PcId) : (Session.fresh first).Guarded first := by
  have hopen : (Session.fresh first).shared.openPcs first = [] := by
    simp [Session.fresh, Shared.openPcs]
  refine ⟨known_fresh first, Nat.le_refl _, ?_, fun h hh => ?_, Nat.zero_le _, fun h hh => ?_, ?_⟩
  · simp [hopen]
  · cases hh
  · cases hh
  · simp [hopen]

theorem length_le_one {l : List PcId} (hnodup : l.Nodup) (h : ∀ p ∈ l, ∀ q ∈ l, p = q) :
    l.length ≤ 1 := by
  rcases l with _ | ⟨p, _ | ⟨q, l⟩⟩
  · exact Nat.zero_le _
  · exact Nat.le_refl _
  · have hpq : p = q := h p (by simp) q (by simp)
    simp [hpq] at hnodup

theorem Session.Guarded.tidy {first : PcId} {s : Session} (h : s.Guarded first) : s.Tidy first := by
  obtain ⟨-, h⟩ := h
  refine ⟨fun _ => length_le_one (.filter _ List.nodup_range') h.one, ?_⟩
  intro hsocket hhandlers
  rw [List.eq_nil_iff_forall_not_mem]
  intro p hp
  -- nobody is left who could have it
  rcases h.kept p hp with ⟨h', hh', -⟩ | ⟨h', hh', -⟩ | ⟨-, hopen | ⟨h', hh', -⟩⟩
  · rw [hhandlers] at hh'
    cases hh'
  · rw [hhandlers] at hh'
    cases hh'
  · rw [hsocket] at hopen
    cases hopen
  · rw [hhandlers] at hh'
    cases hh'

/-- **If connections are created one at a time, the session is tidy in every state of every run**,
whatever messages arrive, however the handlers interleave and whichever calls fail. -/
theorem lifecycle_of_one_at_a_time (firstMediaCodec : Text → MediaKind → Option Codec)
    (first : PcId) (acts : List Act)
    (h : Heeds (OneAtATime first) (Session.step firstMediaCodec) (.fresh first) acts) :
    Always (Session.Tidy first) (Session.step firstMediaCodec) (.fresh first) acts :=
  (always_of_heeds (step_guarded firstMediaCodec) acts _ (guarded_fresh first) h).mono
    fun _ => Session.Guarded.tidy

/-- Two calls on one socket: an OFFER and a LEAVE, twice, and the socket is closed. -/
def twoCalls : List Act :=
  wholeOffer 0 ++ wholeLeave ++ wholeOffer 0 ++ wholeLeave
    ++ .socketClosed :: List.replicate 3 (.step 0 .returns)

theorem lifecycle_two_calls :
    Heeds (OneAtATime 0) (Session.step anyCodec) (.fresh 0) twoCalls
      ∧ Always (Session.Tidy 0) (Session.step anyCodec) (.fresh 0) twoCalls := by
  have h : Heeds (OneAtATime 0) (Session.step anyCodec) (.fresh 0) twoCalls := by decide
  exact ⟨h, lifecycle_of_one_at_a_time anyCodec 0 twoCalls h⟩

/-! ## 5. A connection that is lost -/

/-- An OFFER after an OFFER, and the socket is closed. -/
def twoOffers : List Act :=
  wholeOffer 0 ++ wholeOffer 0 ++ .socketClosed :: List.replicate 4 (.step 0 .returns)

set_option maxRecDepth 2000 in
/-- **The first of two connections is never closed**: the second was stored over it. -/
theorem first_connection_lost :
    (run (Session.step anyCodec) (.fresh 0) twoOffers).socketOpen = false
      ∧ (run (Session.step anyCodec) (.fresh 0) twoOffers).handlers = []
      ∧ (run (Session.step anyCodec) (.fresh 0) twoOffers).shared.openPcs 0 = [0]
      ∧ ¬ (run (Session.step anyCodec) (.fresh 0) twoOffers).Tidy 0 := by
  have hsocket : (run (Session.step anyCodec) (.fresh 0) twoOffers).socketOpen = false := by decide
  have hhandlers : (run (Session.step anyCodec) (.fresh 0) twoOffers).handlers = [] := by decide
  have hopen : (run (Session.step anyCodec) (.fresh 0) twoOffers).shared.openPcs 0
      = [0] := by decide
  refine ⟨hsocket, hhandlers, hopen, ?_⟩
  rintro ⟨-, hclosed⟩
  rw [hopen] at hclosed
  cases hclosed hsocket hhandlers

end WebrtcBridge.Server
