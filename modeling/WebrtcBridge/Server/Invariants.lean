/-
# What every session keeps

Most steps of a handler are CALM: they look at `pc` and at which connections are closed, write to
the log, and send the handler on to a point where it holds nothing.  `step_calm` says so once for
all of them, and it says it for every session that looks the same to the handler, so that two
sessions can be compared by it.

From it follow two facts about every run, whatever messages arrive:

* the connections that appear anywhere have been created (`Known`);
* `candidateLock` is taken exactly while one handler is in a block under it (`LockHeld`), so it is
  free when no handler is left.

What a handler says, throws and does with the forwarder does not depend on who else is there.  It is
said once for all points, calm or not: `Ends` lists the ways in which a step can end.
-/
import WebrtcBridge.Server.Session

namespace WebrtcBridge.Server

open Lib

/-! ## 1. Points -/

/-- The points whose step only writes to the log. -/
def Point.isCalm : Point → Bool
  | .start | .description | .invoke _ | .invokeOn _ _ | .tracks _ | .direct _ | .directOn _ _ =>
    true
  | _ => false

/-- The points at which a handler holds neither the lock nor a connection. -/
def Point.isFree : Point → Bool
  | .start | .create | .description | .invoke _ | .tracks _ | .setters _ | .lockFlush
  | .lockCheck _ | .direct _ => true
  | _ => false

/-- In a block under `candidateLock`. -/
def Point.inLock : Point → Bool
  | .check _ | .flush _ | .flushOn _ _ _ => true
  | _ => false

/-- The points of a handler that has seen `pc` set: those of an OFFER after its assignment, and
those of a candidate that is not buffered. -/
def Point.needsPc : Point → Bool
  | .description | .invoke _ | .invokeOn _ _ | .tracks _ | .setters _ | .lockFlush | .flush _
  | .flushOn _ _ _ | .direct _ | .directOn _ _ => true
  | _ => false

/-- The connection a handler is going to call. -/
def Point.target : Point → Option PcId
  | .invokeOn p _ | .flushOn p _ _ | .directOn p _ => some p
  | _ => none

/-- The connection a handler is going to store or to close. -/
def Point.cell : Point → Option PcId
  | .assign p => some p
  | .nullPc p => p
  | .closePc p => some p
  | _ => none

/-- A point that a handler can be at without a connection of its own to store or to close. -/
def Point.isPlain : Point → Bool
  | .assign _ | .nullPc _ | .closePc _ => false
  | _ => true

/-- The calls of an OFFER after its setters. -/
def OfferCall.hasTracks : OfferCall → Bool
  | .setRemoteDescription | .probe => false
  | _ => true

/-- The points of an OFFER after the setter for this kind of track. -/
def Point.hasTrack (kind : MediaKind) : Point → Bool
  | .setters todo => !todo.any (·.gives kind)
  | .lockFlush | .flush _ | .flushOn _ _ _ => true
  | .invoke call | .invokeOn _ call => call.hasTracks
  | _ => false

theorem Point.cell_of_isPlain {point : Point} (h : point.isPlain = true) : point.cell = none := by
  cases point <;> first | rfl | cases h

/-! ## 2. Calm steps -/

/-- Two sessions look the same to a handler: `pc` is the same if it needs it, and so is whether the
connection it is going to call is closed. -/
def Handler.SameView (h : Handler) (s t : Shared) : Prop :=
  (h.point.needsPc = true → t.pc = s.pc)
    ∧ ∀ p, h.point.target = some p → t.closed.contains p = s.closed.contains p

/-- Where a calm step can lead. -/
inductive Leads (s : Shared) (h : Handler) : Point → Prop
  | free {point : Point} (hfree : point.isFree = true)
      (hneeds : point.needsPc = true → h.point.needsPc = true) : Leads s h point
  | invoke {p : PcId} (hpc : s.pc = some p) (hneeds : h.point.needsPc = true) (call : OfferCall) :
      Leads s h (.invokeOn p call)
  | direct {p : PcId} (hpc : s.pc = some p) (hneeds : h.point.needsPc = true) (c : Candidate) :
      Leads s h (.directOn p c)
  | leave (hleave : h.req.bind (·.action) = some .leave) : Leads s h .stop

theorem Leads.isPlain {s : Shared} {h : Handler} {point : Point} (hl : Leads s h point) :
    point.isPlain = true := by
  cases hl with
  | free hfree => cases point <;> first | rfl | cases hfree
  | invoke | direct | leave => rfl

theorem Leads.inLock {s : Shared} {h : Handler} {point : Point} (hl : Leads s h point) :
    point.inLock = false := by
  cases hl with
  | free hfree => cases point <;> first | rfl | cases hfree
  | invoke | direct | leave => rfl

/-- What a calm step comes to: entries of the log, none of which is that of the flag, and a handler
for the same request. -/
structure Calm (s : Shared) (h : Handler) (es : List Event) (next : Option Handler) : Prop where
  entries : Event.flagged ∉ es
  req : ∀ h' ∈ next, h'.req = h.req
  leads : ∀ h' ∈ next, Leads s h h'.point

/-- In every session that looks like `s` to the handler, `f` writes the same entries and leaves the
same handler. -/
def IsCalm (s : Shared) (h : Handler) (f : Shared → Shared × Option Handler) : Prop :=
  ∃ es next, Calm s h es next ∧
    ∀ t, h.SameView s t → f t = ({ t with log := t.log ++ es }, next)

section Calm

variable {s : Shared} {h : Handler}

/-- It is enough to look at sessions that look the same. -/
theorem IsCalm.congr {f g : Shared → Shared × Option Handler} (hg : IsCalm s h g)
    (hfg : ∀ t, h.SameView s t → f t = g t) : IsCalm s h f := by
  obtain ⟨es, next, hcalm, hsame⟩ := hg
  refine ⟨es, next, hcalm, fun t ht => ?_⟩
  rw [hfg t ht, hsame t ht]

theorem isCalm_end : IsCalm s h fun t => (t, none) := by
  refine ⟨[], none, ⟨by simp, by simp, by simp⟩, fun t _ => ?_⟩
  rw [List.append_nil]

theorem isCalm_goTo {point : Point} (hl : Leads s h point) :
    IsCalm s h fun t => (t, h.goTo point) := by
  refine ⟨[], h.goTo point, ⟨by simp, ?_, ?_⟩, fun t _ => ?_⟩
  · rintro h' ⟨⟩
    rfl
  · rintro h' ⟨⟩
    exact hl
  · rw [List.append_nil]

/-- An entry before the rest of the step. -/
theorem IsCalm.emit {f : Shared → Shared × Option Handler} (hf : IsCalm s h f) {e : Event}
    (he : e ≠ .flagged) : IsCalm s h fun t => f (t.emit e) := by
  obtain ⟨es, next, ⟨hentries, hreq, hleads⟩, hsame⟩ := hf
  refine ⟨e :: es, next, ⟨?_, hreq, hleads⟩, fun t ht => ?_⟩
  · rw [List.mem_cons, not_or]
    exact ⟨he.symm, hentries⟩
  · exact (hsame (t.emit e) ht).trans (by simp [Shared.emit])

theorem isCalm_fail : IsCalm s h Handler.fail := isCalm_end.emit (e := .errorEvent) nofun

theorem isCalm_reply (r : Reply) : IsCalm s h fun t => (h.reply t r, none) :=
  isCalm_end.emit (e := .response (h.req.bind (·.transaction)) r) nofun

/-- On to a point that needs `pc` no more than the handler did before. -/
theorem isCalm_free {point : Point} (hfree : point.isFree = true)
    (hneeds : point.needsPc = true → h.point.needsPc = true) :
    IsCalm s h fun t => (t, h.goTo point) :=
  isCalm_goTo (.free hfree hneeds)

/-- `handle` decides by the request alone. -/
theorem isCalm_dispatch {req : Signal} (hreq : h.req = some req) :
    IsCalm s h fun t => h.dispatch t req := by
  unfold Handler.dispatch
  cases haction : req.action with
  | none => exact isCalm_reply _
  | some action =>
    cases action with
    | join | mediaState | other => exact isCalm_reply _
    | offer =>
      cases req.payload with
      | none => exact isCalm_fail
      | some payload =>
        obtain ⟨sdp, candidate, sdpMid, mline⟩ := payload
        cases sdp with
        | none => exact isCalm_reply _
        | some sdp =>
          by_cases hblank : sdp.all Stats.isJavaWhitespace = true
          · simp only [hblank, if_true]
            exact isCalm_reply _
          · simp only [hblank]
            exact isCalm_free rfl nofun
    | candidate =>
      cases req.payload with
      | none => exact isCalm_fail
      | some payload =>
        obtain ⟨sdp, candidate, sdpMid, mline⟩ := payload
        cases candidate with
        | none => exact isCalm_reply _
        | some c => exact isCalm_free rfl nofun
    | leave =>
      refine isCalm_goTo (.leave ?_)
      rw [hreq]
      exact haction

theorem isCalm_afterCall (hneeds : h.point.needsPc = true) (o : Outcome) (call : OfferCall) :
    IsCalm s h fun t => h.afterCall t o call := by
  have hfree : ∀ {point : Point}, point.isFree = true → IsCalm s h fun t => (t, h.goTo point) :=
    fun hf => isCalm_free hf fun _ => hneeds
  cases call with
  | setRemoteDescription => exact hfree rfl
  | probe =>
    cases o with
    | sdp text => exact hfree rfl
    | throws | returns | tracks => exact isCalm_fail
  | addTrack kind => cases kind <;> exact hfree rfl
  | createAnswer =>
    cases o with
    | sdp text => exact hfree rfl
    | throws | returns | tracks => exact isCalm_fail
  | setLocalDescription sdp => exact isCalm_reply _

/-- A call that the handler makes on the connection it has read, with what follows if it returns. -/
theorem isCalm_call {p : PcId} (hp : h.point.target = some p) (call : PcCall) (o : Outcome)
    {f : Shared → Shared × Option Handler} (hf : IsCalm s h f) :
    IsCalm s h fun t =>
      if Handler.returned t p o then f (t.emit (.called p call true))
      else Handler.fail (t.emit (.called p call false)) := by
  have hview : ∀ t, h.SameView s t → Handler.returned t p o = Handler.returned s p o := by
    intro t ht
    rw [Handler.returned, ht.2 p hp, Handler.returned]
  cases hr : Handler.returned s p o with
  | true =>
    refine (hf.emit (e := .called p call true) nofun).congr fun t ht => ?_
    simp only [hview t ht, hr, if_true]
  | false =>
    refine (isCalm_fail.emit (e := .called p call false) nofun).congr fun t ht => ?_
    simp only [hview t ht, hr]
    rfl

theorem isCalm_read (hneeds : h.point.needsPc = true) {point : PcId → Point}
    (hl : ∀ p, s.pc = some p → Leads s h (point p)) :
    IsCalm s h fun t =>
      match t.pc with
      | none => Handler.fail t
      | some p => (t, h.goTo (point p)) := by
  cases hpc : s.pc with
  | none =>
    refine isCalm_fail.congr fun t ht => ?_
    simp only [ht.1 hneeds, hpc]
  | some p =>
    refine (isCalm_goTo (hl p hpc)).congr fun t ht => ?_
    simp only [ht.1 hneeds, hpc]

end Calm

variable (firstMediaCodec : Text → MediaKind → Option Codec) (o : Outcome)

/-- **A calm step is the same in every session that looks the same.** -/
theorem step_calm (s : Shared) {h : Handler} (hc : h.point.isCalm = true) :
    IsCalm s h fun t => h.step firstMediaCodec t o := by
  obtain ⟨req, point⟩ := h
  cases point with
  | start =>
    cases req with
    | none => exact isCalm_end
    | some req => exact isCalm_dispatch rfl
  | description =>
    simp only [Handler.step]
    split
    · exact isCalm_fail
    · exact isCalm_free rfl fun _ => rfl
  | invoke call => exact isCalm_read rfl fun p hp => .invoke hp rfl call
  | invokeOn p call => exact isCalm_call rfl _ o (isCalm_afterCall rfl o call)
  | tracks probe =>
    simp only [Handler.step, Handler.makeTracks]
    split
    · exact isCalm_fail
    · split
      · split
        · exact isCalm_free rfl fun _ => rfl
        · exact isCalm_reply _
      · exact isCalm_reply _
  | direct c => exact isCalm_read rfl fun p hp => .direct hp rfl c
  | directOn p c => exact isCalm_call rfl _ o (isCalm_reply .ack)
  | _ => cases hc

/-- The same, for one session. -/
theorem step_calm_self (s : Shared) {h : Handler} (hc : h.point.isCalm = true) :
    ∃ es next, Calm s h es next ∧
      h.step firstMediaCodec s o = ({ s with log := s.log ++ es }, next) := by
  obtain ⟨es, next, hcalm, hsame⟩ := step_calm firstMediaCodec o s hc
  exact ⟨es, next, hcalm, hsame s ⟨fun _ => rfl, fun _ _ => rfl⟩⟩

/-! ## 3. A rule for invariants -/

/-- **The invariant rule for sessions**: what does not depend on the order of the handlers, nor on
the forwarder and the log, and is kept when a handler joins or takes a step. -/
theorem step_inv {I : Shared → List Handler → Prop}
    (hperm : ∀ {s l l'}, l.Perm l' → I s l → I s l')
    (hjoin : ∀ {s hs} req point, point = .start ∨ point = .stop → I s hs → I s (⟨req, point⟩ :: hs))
    (hother : ∀ {s hs} f log, I s hs → I { s with forwarder := f, log := log } hs)
    (hstep : ∀ {s t rest} o, I s (t :: rest) →
      I (t.step firstMediaCodec s o).1 ((t.step firstMediaCodec s o).2.toList ++ rest))
    (s : Session) (a : Act) (h : I s.shared s.handlers) :
    I (s.step firstMediaCodec a).shared (s.step firstMediaCodec a).handlers := by
  cases a with
  | message req =>
    simp only [Session.step]
    split
    · exact hperm (List.perm_append_singleton _ _).symm (hjoin _ _ (.inl rfl) h)
    · exact h
  | socketClosed =>
    simp only [Session.step]
    split
    · exact hperm (List.perm_append_singleton _ _).symm (hjoin _ _ (.inr rfl) h)
    · exact h
  | step i o => exact turn_inv (I := I) hperm (fun t rest _ _ => hstep o) h
  | consumer => exact hother _ _ h
  | rtp payload pt sequenceNumber timestamp => exact hother _ s.shared.log h

/-! ## 4. Connections -/

/-- The points whose step does not touch the fields that say which connections there are. -/
def Point.isQuiet : Point → Bool
  | .create | .assign _ | .stop | .readPc | .nullPc _ | .closePc _ => false
  | _ => true

/-- The fields that say which connections there are are left alone. -/
def Shared.SameCells (s t : Shared) : Prop :=
  t.pc = s.pc ∧ t.nextPc = s.nextPc ∧ t.closed = s.closed

/-- What a step at a quiet point comes to: the cells are left alone, and what is left of the handler
is at a plain point. -/
def Quiet (s : Shared) (r : Shared × Option Handler) : Prop :=
  s.SameCells r.1 ∧ ∀ h' ∈ r.2, h'.point.isPlain = true

theorem quiet_end {s t : Shared} (h : s.SameCells t) : Quiet s (t, none) := ⟨h, by simp⟩

theorem quiet_some {s t : Shared} (h : s.SameCells t) {h' : Handler}
    (hp : h'.point.isPlain = true) : Quiet s (t, some h') := by
  refine ⟨h, ?_⟩
  rintro h'' ⟨⟩
  exact hp

/-- **A step at a quiet point.** -/
theorem step_quiet (s : Shared) {h : Handler} (hq : h.point.isQuiet = true) :
    Quiet s (h.step firstMediaCodec s o) := by
  cases hc : h.point.isCalm with
  | true =>
    obtain ⟨es, next, hcalm, hstep⟩ := step_calm_self firstMediaCodec o s hc
    rw [hstep]
    exact ⟨⟨rfl, rfl, rfl⟩, fun h' hh' => (hcalm.leads h' hh').isPlain⟩
  | false =>
    obtain ⟨req, point⟩ := h
    cases point with
    | setters todo => cases todo <;> exact quiet_some ⟨rfl, rfl, rfl⟩ rfl
    | lockFlush =>
      simp only [Handler.step]
      split
      · exact quiet_some ⟨rfl, rfl, rfl⟩ rfl
      · exact quiet_some ⟨rfl, rfl, rfl⟩ rfl
    | flush todo =>
      cases todo with
      | nil => exact quiet_some ⟨rfl, rfl, rfl⟩ rfl
      | cons c todo =>
        simp only [Handler.step]
        split
        · exact quiet_end ⟨rfl, rfl, rfl⟩
        · exact quiet_some ⟨rfl, rfl, rfl⟩ rfl
    | flushOn p c todo =>
      simp only [Handler.step]
      split
      · exact quiet_some ⟨rfl, rfl, rfl⟩ rfl
      · exact quiet_end ⟨rfl, rfl, rfl⟩
    | lockCheck c =>
      simp only [Handler.step]
      split
      · exact quiet_some ⟨rfl, rfl, rfl⟩ rfl
      · exact quiet_some ⟨rfl, rfl, rfl⟩ rfl
    | check c =>
      simp only [Handler.step]
      split
      · exact quiet_end ⟨rfl, rfl, rfl⟩
      · exact quiet_some ⟨rfl, rfl, rfl⟩ rfl
    | create | assign | stop | readPc | nullPc | closePc => cases hq
    | _ => cases hc

/-- **Whatever connection appears has been created.** -/
structure Known (s : Shared) (hs : List Handler) : Prop where
  pc : ∀ p, s.pc = some p → p < s.nextPc
  closed : ∀ p ∈ s.closed, p < s.nextPc
  cell : ∀ h ∈ hs, ∀ p, h.point.cell = some p → p < s.nextPc

theorem Known.perm {s : Shared} {l l' : List Handler} (hp : l.Perm l') (h : Known s l) :
    Known s l' :=
  ⟨h.pc, h.closed, fun h' hh' => h.cell h' (hp.mem_iff.mpr hh')⟩

theorem Known.next {s s' : Shared} {t : Handler} {rest : List Handler} (h : Known s (t :: rest))
    (u : Option Handler) (hn : s.nextPc ≤ s'.nextPc) (hpc : ∀ p, s'.pc = some p → p < s'.nextPc)
    (hclosed : ∀ p ∈ s'.closed, p < s'.nextPc)
    (hu : ∀ h' ∈ u, ∀ p, h'.point.cell = some p → p < s'.nextPc) : Known s' (u.toList ++ rest) := by
  refine ⟨hpc, hclosed, fun h' hh' p hp => ?_⟩
  rcases List.mem_append.mp hh' with hh' | hh'
  · exact hu h' (Option.mem_toList.mp hh') p hp
  · exact Nat.lt_of_lt_of_le (h.cell h' (.tail _ hh') p hp) hn

theorem known_handler {s : Shared} {t : Handler} {rest : List Handler} (h : Known s (t :: rest)) :
    Known (t.step firstMediaCodec s o).1 ((t.step firstMediaCodec s o).2.toList ++ rest) := by
  have hcell := h.cell t List.mem_cons_self
  cases hq : t.point.isQuiet with
  | true =>
    obtain ⟨⟨hpc, hn, hclosed⟩, hplain⟩ := step_quiet firstMediaCodec o s hq
    refine h.next _ (Nat.le_of_eq hn.symm) ?_ ?_ fun h' hh' p hp => ?_
    · rw [hpc, hn]
      exact h.pc
    · rw [hclosed, hn]
      exact h.closed
    · rw [Point.cell_of_isPlain (hplain h' hh')] at hp
      cases hp
  | false =>
    obtain ⟨req, point⟩ := t
    cases point with
    | create =>
      simp only [Handler.step]
      split
      · exact h.next none (Nat.le_refl _) h.pc h.closed (by simp)
      · refine h.next (some _) (Nat.le_succ _) (fun p hp => Nat.lt_succ_of_lt (h.pc p hp))
          (fun p hp => Nat.lt_succ_of_lt (h.closed p hp)) ?_
        rintro h' ⟨⟩ p ⟨⟩
        exact Nat.lt_succ_self _
    | assign p =>
      refine h.next (some _) (Nat.le_refl _) ?_ h.closed ?_
      · rintro q ⟨⟩
        exact hcell p rfl
      · rintro h' ⟨⟩ q ⟨⟩
    | stop =>
      refine h.next (some _) (Nat.le_refl _) h.pc h.closed ?_
      rintro h' ⟨⟩ q ⟨⟩
    | readPc =>
      refine h.next (some _) (Nat.le_refl _) h.pc h.closed ?_
      rintro h' ⟨⟩ q hq'
      exact h.pc q hq'
    | nullPc r =>
      cases r with
      | none => cases req <;> exact h.next none (Nat.le_refl _) nofun h.closed (by simp)
      | some p =>
        refine h.next (some _) (Nat.le_refl _) nofun h.closed ?_
        rintro h' ⟨⟩ q ⟨⟩
        exact hcell p rfl
    | closePc p =>
      have hclosed : ∀ q ∈ p :: s.closed, q < s.nextPc := by
        intro q hq'
        rcases List.mem_cons.mp hq' with rfl | hq'
        · exact hcell q rfl
        · exact h.closed q hq'
      cases req <;> exact h.next none (Nat.le_refl _) h.pc hclosed (by simp)
    | _ => cases hq

theorem step_known (s : Session) (a : Act) (h : Known s.shared s.handlers) :
    Known (s.step firstMediaCodec a).shared (s.step firstMediaCodec a).handlers := by
  refine step_inv firstMediaCodec (I := Known) Known.perm ?_ (fun _ _ h => ⟨h.pc, h.closed, h.cell⟩)
    (fun o => known_handler firstMediaCodec o) s a h
  rintro s hs req point hpoint ⟨hpc, hclosed, hcell⟩
  refine ⟨hpc, hclosed, fun h' hh' p hp => ?_⟩
  rcases List.mem_cons.mp hh' with rfl | hh'
  · rcases hpoint with rfl | rfl <;> cases hp
  · exact hcell h' hh' p hp

theorem known_fresh (first : PcId) :
    Known (Session.fresh first).shared (Session.fresh first).handlers :=
  ⟨by simp [Session.fresh], by simp [Session.fresh], by simp [Session.fresh]⟩

/-! ## 5. The lock -/

/-- **The lock is taken exactly while one handler is in a block under it.** -/
def LockHeld (s : Shared) (hs : List Handler) : Prop := hs.countP (·.point.inLock) = s.locked.toNat

/-- A handler outside the blocks leaves the lock as it is, and stays outside. -/
theorem LockHeld.outside {s s' : Shared} {t : Handler} {rest : List Handler}
    (h : LockHeld s (t :: rest)) (u : Option Handler) (ht : t.point.inLock = false)
    (hs : s'.locked = s.locked) (hu : ∀ h' ∈ u, h'.point.inLock = false) :
    LockHeld s' (u.toList ++ rest) := by
  have hcount : u.toList.countP (·.point.inLock) = 0 := by
    rw [List.countP_eq_zero]
    intro h' hh'
    simp [hu h' (Option.mem_toList.mp hh')]
  rw [LockHeld, List.countP_cons_of_neg (by simp [ht])] at h
  rw [LockHeld, List.countP_append, hcount, Nat.zero_add, hs]
  exact h

/-- A handler in a block has the lock, and nobody else is in one. -/
theorem LockHeld.owner {s : Shared} {t : Handler} {rest : List Handler}
    (h : LockHeld s (t :: rest)) (ht : t.point.inLock = true) :
    s.locked = true ∧ rest.countP (·.point.inLock) = 0 := by
  rw [LockHeld, List.countP_cons_of_pos (p := fun h : Handler => h.point.inLock) ht] at h
  cases hl : s.locked with
  | true =>
    rw [hl] at h
    exact ⟨rfl, Nat.succ.inj h⟩
  | false =>
    rw [hl] at h
    cases h

/-- With nobody else in a block, the lock is taken exactly if the one handler is in one. -/
theorem lockHeld_of_alone {s : Shared} {rest : List Handler} (u : Option Handler)
    (hrest : rest.countP (·.point.inLock) = 0) (hu : s.locked = u.any (·.point.inLock)) :
    LockHeld s (u.toList ++ rest) := by
  rw [LockHeld, List.countP_append, hrest, hu]
  cases u with
  | none => rfl
  | some t => cases ht : t.point.inLock <;> simp [ht]

theorem lockHeld_handler {s : Shared} {t : Handler} {rest : List Handler}
    (h : LockHeld s (t :: rest)) :
    LockHeld (t.step firstMediaCodec s o).1 ((t.step firstMediaCodec s o).2.toList ++ rest) := by
  cases hc : t.point.isCalm with
  | true =>
    obtain ⟨es, next, hcalm, hstep⟩ := step_calm_self firstMediaCodec o s hc
    have hout : t.point.inLock = false := by
      cases hp : t.point <;> first | rfl | (rw [hp] at hc; cases hc)
    rw [hstep]
    exact h.outside next hout rfl fun h' hh' => (hcalm.leads h' hh').inLock
  | false =>
    -- who takes the lock finds nobody in a block
    have hfree : s.locked = false → rest.countP (·.point.inLock) = 0 := by
      intro hl
      rw [LockHeld, hl, Bool.toNat_false, List.countP_eq_zero] at h
      rw [List.countP_eq_zero]
      exact fun h' hh' => h h' (.tail _ hh')
    obtain ⟨req, point⟩ := t
    cases point with
    | create =>
      simp only [Handler.step]
      split
      · exact h.outside none rfl rfl (by simp)
      · exact h.outside (some _) rfl rfl (by simp [Point.inLock])
    | assign | stop | readPc => exact h.outside (some _) rfl rfl (by simp [Point.inLock])
    | setters todo =>
      cases todo <;> exact h.outside (some _) rfl rfl (by simp [Point.inLock])
    | nullPc r =>
      cases r with
      | none => cases req <;> exact h.outside none rfl rfl (by simp)
      | some p => exact h.outside (some _) rfl rfl (by simp [Point.inLock])
    | closePc p => cases req <;> exact h.outside none rfl rfl (by simp)
    | lockFlush | lockCheck c =>
      cases hl : s.locked with
      | true =>
        simp only [Handler.step, hl, if_true]
        exact h
      | false =>
        simp only [Handler.step, hl]
        exact lockHeld_of_alone (some _) (hfree hl) rfl
    | flush todo =>
      obtain ⟨hl, hrest⟩ := h.owner rfl
      cases todo with
      | nil => exact lockHeld_of_alone (some _) hrest rfl
      | cons c todo =>
        simp only [Handler.step]
        split
        · exact lockHeld_of_alone none hrest rfl
        · exact lockHeld_of_alone (some _) hrest hl
    | flushOn p c todo =>
      obtain ⟨hl, hrest⟩ := h.owner rfl
      simp only [Handler.step]
      split
      · exact lockHeld_of_alone (some _) hrest hl
      · exact lockHeld_of_alone none hrest rfl
    | check c =>
      obtain ⟨-, hrest⟩ := h.owner rfl
      simp only [Handler.step]
      split
      · exact lockHeld_of_alone none hrest rfl
      · exact lockHeld_of_alone (some _) hrest rfl
    | _ => cases hc

theorem step_lockHeld (s : Session) (a : Act) (h : LockHeld s.shared s.handlers) :
    LockHeld (s.step firstMediaCodec a).shared (s.step firstMediaCodec a).handlers := by
  refine step_inv firstMediaCodec (I := LockHeld) ?_ ?_ (fun _ _ h => h)
    (fun o => lockHeld_handler firstMediaCodec o) s a h
  · intro s l l' hp h
    rw [LockHeld, ← hp.countP_eq]
    exact h
  · rintro s hs req point (rfl | rfl) h
    · exact h
    · exact h

/-! ## 6. How a step ends -/

/-- The calls whose result is read with `getSdp`. -/
def OfferCall.givesSdp : OfferCall → Bool
  | .probe | .createAnswer => true
  | _ => false

def Outcome.isSdp : Outcome → Bool
  | .sdp _ => true
  | _ => false

/-- **An exception escapes from the handler** in this step. -/
def Handler.throws (s : Shared) (h : Handler) (o : Outcome) : Bool :=
  match h.point with
  -- `payload.get` in `req.str`
  | .start =>
    h.req.any fun req =>
      (req.action = some .offer || req.action = some .candidate) && req.payload.isNone
  | .create | .description | .tracks _ => o = .throws
  -- a method of `pc`, which is null
  | .invoke _ | .direct _ => s.pc.isNone
  | .flush todo => !todo.isEmpty && s.pc.isNone
  -- `checkClosed`, or what the engine says
  | .invokeOn p call => !returned s p o || (call.givesSdp && !o.isSdp)
  | .flushOn p _ _ | .directOn p _ => !returned s p o
  | _ => false

/-- An entry that a handler makes on its way: no response, no error event and no packet. -/
def Event.isNote : Event → Bool
  | .created _ | .called .. | .flagged | .closed _ => true
  | .response .. | .errorEvent | .wrote _ => false

/-- What a step has done before its end: it has made notes, and the forwarder is as it was. -/
structure Notes (s t : Shared) : Prop where
  forwarder : t.forwarder = s.forwarder
  log : ∃ es, t.log = s.log ++ es ∧ es.all Event.isNote = true

/-- **How a step ends**, and whether an exception escapes in it.  An OFFER is answered only after
its setters. -/
inductive Ends (s : Shared) (h : Handler) : Bool → Shared × Option Handler → Prop
  /-- The handler goes on, or waits where it is. -/
  | goes {t : Shared} {point : Point} (hnotes : Notes s t)
      (hnext : ∀ kind, point.hasTrack kind = true → h.point.hasTrack kind = true) :
      Ends s h false (t, h.goTo point)
  | sets {m : Setter} {todo : List Setter} (hpoint : h.point = .setters (m :: todo)) :
      Ends s h false ({ s with forwarder := s.forwarder.set m }, h.goTo (.setters todo))
  | stops (hpoint : h.point = .stop) :
      Ends s h false ({ s with forwarder := s.forwarder.stop }, h.goTo .readPc)
  | fails {t : Shared} (hnotes : Notes s t) : Ends s h true (Handler.fail t)
  | replies {t : Shared} {r : Reply} (hnotes : Notes s t)
      (hr : ∀ sdp, r = .answer sdp → ∀ kind, h.point.hasTrack kind = true) :
      Ends s h false (h.reply t r, none)
  /-- `onClose` has nobody to answer. -/
  | closes {t : Shared} (hreq : h.req = none) (hnotes : Notes s t) : Ends s h false (t, none)

section Ends

variable {s t : Shared} {h : Handler}

theorem notes_same (hforwarder : t.forwarder = s.forwarder) (hlog : t.log = s.log) : Notes s t :=
  ⟨hforwarder, [], by rw [hlog, List.append_nil], rfl⟩

theorem notes_entry {e : Event} (he : e.isNote = true) (hforwarder : t.forwarder = s.forwarder)
    (hlog : t.log = s.log ++ [e]) : Notes s t :=
  ⟨hforwarder, [e], hlog, by simp [he]⟩

/-- A step that an outcome can make throw. -/
theorem ends_throws {o : Outcome} {r : Shared × Option Handler} (hr : Ends s h false r) :
    Ends s h (o = .throws) (if o = .throws then Handler.fail s else r) := by
  by_cases ho : o = .throws
  · simpa [ho] using Ends.fails (notes_same rfl rfl)
  · simpa [ho] using hr

theorem ends_read (point : PcId → Point) (hnotes : Notes s t)
    (hnext : ∀ p kind, (point p).hasTrack kind = true → h.point.hasTrack kind = true) :
    Ends s h s.pc.isNone
      (match s.pc with
      | none => Handler.fail t
      | some p => (s, h.goTo (point p))) := by
  cases s.pc with
  | none => exact .fails hnotes
  | some p => exact .goes (notes_same rfl rfl) (hnext p)

/-- A call, with what follows if it returns. -/
theorem ends_call {threw : Bool} {p : PcId} {o : Outcome} {call : PcCall}
    {r : Shared × Option Handler} (hforwarder : t.forwarder = s.forwarder) (hlog : t.log = s.log)
    (hback : Handler.returned s p o = true → Ends s h threw r)
    (hthrew : Handler.returned s p o = false → threw = true) :
    Ends s h threw
      (if Handler.returned s p o then r else Handler.fail (t.emit (.called p call false))) := by
  cases hreturned : Handler.returned s p o with
  | true => simpa using hback hreturned
  | false =>
    rw [hthrew hreturned]
    exact .fails
      (notes_entry (e := .called p call false) rfl hforwarder (by simp [Shared.emit, hlog]))

theorem ends_dispatch {req : Signal} (hreq : h.req = some req) (o : Outcome)
    (hpoint : h.point = .start) : Ends s h (h.throws s o) (h.dispatch s req) := by
  have hreply : ∀ {r : Reply}, (∀ sdp, r ≠ .answer sdp) → Ends s h false (h.reply s r, none) :=
    fun hr => .replies (notes_same rfl rfl) fun sdp hsdp => absurd hsdp (hr sdp)
  have hgoes : ∀ {point : Point}, (∀ kind, point.hasTrack kind = false) →
      Ends s h false (s, h.goTo point) :=
    fun hnot => .goes (notes_same rfl rfl) fun kind htracks => by simp [hnot kind] at htracks
  have hfail : Ends s h true (Handler.fail s) := .fails (notes_same rfl rfl)
  obtain ⟨action, transaction, payload⟩ := req
  simp only [Handler.throws, hpoint, hreq, Handler.dispatch, Option.any_some]
  cases action with
  | none => exact hreply (by simp)
  | some action =>
    cases action with
    | join | mediaState | other => exact hreply (by simp)
    | leave => exact hgoes fun _ => rfl
    | offer =>
      cases payload with
      | none => exact hfail
      | some payload =>
        obtain ⟨sdp, candidate, sdpMid, mline⟩ := payload
        cases sdp with
        | none => exact hreply (by simp)
        | some sdp =>
          simp only []
          split
          · exact hreply (by simp)
          · exact hgoes fun _ => rfl
    | candidate =>
      cases payload with
      | none => exact hfail
      | some payload =>
        obtain ⟨sdp, candidate, sdpMid, mline⟩ := payload
        cases candidate with
        | none => exact hreply (by simp)
        | some c => exact hgoes fun _ => rfl

/-- What follows a call of `handleOffer` that has returned. -/
theorem ends_afterCall (o : Outcome) {p : PcId} {call : OfferCall}
    (hpoint : h.point = .invokeOn p call) :
    Ends s h (call.givesSdp && !o.isSdp)
      (h.afterCall (s.emit (.called p call.call true)) o call) := by
  have hnotes : Notes s (s.emit (.called p call.call true)) :=
    notes_entry (e := .called p call.call true) rfl rfl rfl
  have htracks : ∀ kind, h.point.hasTrack kind = call.hasTracks := by
    intro kind
    rw [hpoint]
    rfl
  cases call with
  | setRemoteDescription => exact .goes hnotes fun kind hnext => (htracks kind).trans hnext
  | addTrack kind => cases kind <;> exact .goes hnotes fun kind _ => htracks kind
  | probe =>
    cases o with
    | sdp text => exact .goes hnotes fun kind hnext => (htracks kind).trans hnext
    | throws | returns | tracks => exact .fails hnotes
  | createAnswer =>
    cases o with
    | sdp text => exact .goes hnotes fun kind _ => htracks kind
    | throws | returns | tracks => exact .fails hnotes
  | setLocalDescription sdp => exact .replies hnotes fun _ _ => htracks

theorem ends_closed (hnotes : Notes s t) : Ends s h false (h.closed t) := by
  cases hreq : h.req with
  | none =>
    rw [Handler.closed, hreq]
    exact .closes hreq hnotes
  | some req =>
    simp only [Handler.closed, hreq]
    exact .replies hnotes (by simp)

variable (firstMediaCodec : Text → MediaKind → Option Codec)

/-- **What a step of a handler can do**, for every point. -/
theorem step_ends (s : Shared) (h : Handler) (o : Outcome) :
    Ends s h (h.throws s o) (h.step firstMediaCodec s o) := by
  have hsame : Notes s s := notes_same rfl rfl
  obtain ⟨req, point⟩ := h
  cases point with
  | start =>
    cases req with
    | none => exact .closes rfl hsame
    | some req => exact ends_dispatch rfl o rfl
  | create =>
    exact ends_throws (.goes (notes_entry (e := .created s.nextPc) rfl rfl rfl) fun _ => id)
  | assign p => exact .goes (notes_same rfl rfl) fun _ => id
  | description => exact ends_throws (.goes hsame fun _ => id)
  | invoke call => exact ends_read (fun p => .invokeOn p call) hsame fun _ _ => id
  | invokeOn p call =>
    refine ends_call rfl rfl (fun hreturned => ?_) (fun hthrew => ?_)
    · simpa [Handler.throws, hreturned] using ends_afterCall o rfl
    · simp [Handler.throws, hthrew]
  | tracks probe =>
    refine ends_throws ?_
    split
    · split
      · refine .goes hsame ?_
        intro kind hnext
        cases kind <;> cases hnext
      · exact .replies hsame (by simp)
    · exact .replies hsame (by simp)
  | setters todo =>
    cases todo with
    | nil => exact .goes hsame fun _ _ => rfl
    | cons m todo => exact .sets rfl
  | lockFlush =>
    simp only [Handler.step]
    split
    · exact .goes hsame fun _ => id
    · exact .goes (notes_entry (e := .flagged) rfl rfl rfl) fun _ => id
  | flush todo =>
    cases todo with
    | nil => exact .goes (notes_same rfl rfl) fun _ => id
    | cons c todo =>
      exact ends_read (t := { s with locked := false }) (fun p => .flushOn p c todo)
        (notes_same rfl rfl) fun _ _ => id
  | flushOn p c todo =>
    refine ends_call rfl rfl (fun hreturned => ?_) (fun hthrew => ?_)
    · simp only [Handler.throws, hreturned]
      exact .goes (notes_entry (e := .called p (.addIceCandidate c) true) rfl rfl rfl) fun _ => id
    · simp [Handler.throws, hthrew]
  | lockCheck c =>
    simp only [Handler.step]
    split
    · exact .goes hsame fun _ => id
    · exact .goes (notes_same rfl rfl) fun _ => id
  | check c =>
    simp only [Handler.step]
    split
    · exact .replies (notes_same rfl rfl) (by simp)
    · exact .goes (notes_same rfl rfl) fun _ => id
  | direct c => exact ends_read (fun p => .directOn p c) hsame fun _ _ => id
  | directOn p c =>
    refine ends_call rfl rfl (fun hreturned => ?_) (fun hthrew => ?_)
    · simp only [Handler.throws, hreturned]
      exact .replies (notes_entry (e := .called p (.addIceCandidate c) true) rfl rfl rfl) (by simp)
    · simp [Handler.throws, hthrew]
  | stop => exact .stops rfl
  | readPc => exact .goes hsame fun _ => id
  | nullPc p =>
    cases p with
    | none => exact ends_closed (notes_same rfl rfl)
    | some p => exact .goes (notes_same rfl rfl) fun _ => id
  | closePc p => exact ends_closed (notes_entry (e := .closed p) rfl rfl rfl)

theorem Ends.forwarder {P : Forwarder → Prop}
    (hset : ∀ {f} m, P f → P (f.set m))
    (hstop : ∀ {f}, P f → P f.stop) {threw : Bool} {r : Shared × Option Handler}
    (hends : Ends s h threw r) (hs : P s.forwarder) : P r.1.forwarder := by
  cases hends with
  | goes hnotes | fails hnotes | replies hnotes | closes _ hnotes =>
    rw [← hnotes.forwarder] at hs
    exact hs
  | sets => exact hset _ hs
  | stops => exact hstop hs

/-- **A handler leaves the forwarder alone, calls a setter or stops it.** -/
theorem step_forwarder (o : Outcome) {P : Forwarder → Prop}
    (hset : ∀ {f} m, P f → P (f.set m))
    (hstop : ∀ {f}, P f → P f.stop) {s : Shared} (t : Handler) (h : P s.forwarder) :
    P (t.step firstMediaCodec s o).1.forwarder :=
  (step_ends firstMediaCodec s t o).forwarder (P := P) hset hstop h

end Ends

/-! ## 7. Every run -/

/-- **The connections of a session have been created**, in every state of every run. -/
theorem run_known (first : PcId) (acts : List Act) :
    Known (run (Session.step firstMediaCodec) (.fresh first) acts).shared
      (run (Session.step firstMediaCodec) (.fresh first) acts).handlers :=
  run_inv (I := fun s : Session => Known s.shared s.handlers) (step_known firstMediaCodec) acts _
    (known_fresh first)

/-- **The lock has one owner or none**, in every state of every run. -/
theorem run_lockHeld (first : PcId) (acts : List Act) :
    LockHeld (run (Session.step firstMediaCodec) (.fresh first) acts).shared
      (run (Session.step firstMediaCodec) (.fresh first) acts).handlers :=
  run_inv (I := fun s : Session => LockHeld s.shared s.handlers)
    (step_lockHeld firstMediaCodec) acts _ rfl

end WebrtcBridge.Server
