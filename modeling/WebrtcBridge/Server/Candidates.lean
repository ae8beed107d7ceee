/-
# Every candidate reaches the connection once

The browser sends its candidates as soon as it finds them, so they may arrive before, while and
after the OFFER is handled, each on a thread of its own.  A candidate is buffered as long as the
remote description is not set, and `handleOffer` flushes the buffer when it is.

Buffering or not is decided under `candidateLock`, and so is the flush, which sets the flag FIRST.
A candidate that finds the flag set may then go to the connection outside the lock, at any time
later; one that does not is in the list before the flush begins, or there is no flush at all.

The account is kept by STAGES of the one OFFER, from `idle` to `flushed`.  In every stage the
candidates received are, up to their order, the ones some handler carries, the ones that wait to be
flushed and the ones already added (`Account.exactly`).  An OFFER that throws ends the account: it
will not reach its ANSWER any more (`Dead`).
-/
import WebrtcBridge.Server.Session

namespace WebrtcBridge.Server

open Lib

/-! ## 1. What is promised -/

/-- The candidate of a CANDIDATE message, if it has a string. -/
def Signal.offered (req : Signal) : List Candidate :=
  match req.action, req.payload with
  | some .candidate, some ⟨_, some c, sdpMid, mline⟩ => [⟨c, sdpMid, mline.getD (-1)⟩]
  | _, _ => []

def Act.offered : Act → List Candidate
  | .message req => req.offered
  | _ => []

/-- The candidates received in a schedule. -/
def received (acts : List Act) : List Candidate := acts.flatMap Act.offered

def Act.isOffer : Act → Bool
  | .message req => req.action = some .offer
  | _ => false

/-- LEAVE, or the end of the socket. -/
def Act.isEnding : Act → Bool
  | .message req => req.action = some .leave
  | .socketClosed => true
  | _ => false

/-- **One OFFER, any number of CANDIDATEs**, and no LEAVE or close. -/
def OneOffer (acts : List Act) : Prop :=
  acts.countP Act.isOffer = 1 ∧ ∀ a ∈ acts, a.isEnding = false

instance (acts : List Act) : Decidable (OneOffer acts) := inferInstanceAs (Decidable (_ ∧ _))

def Event.added : Event → Option (PcId × Candidate)
  | .called p (.addIceCandidate c) _ => some (p, c)
  | _ => none

/-- The calls of `addIceCandidate`. -/
def added (log : List Event) : List (PcId × Candidate) := log.filterMap Event.added

def Event.isAnswer : Event → Bool
  | .response _ (.answer _) => true
  | _ => false

/-- The OFFER has reached its ANSWER. -/
def answered (log : List Event) : Bool := log.any Event.isAnswer

/-- A candidate is added to a connection only after its `setRemoteDescription` has returned. -/
def DescribedFirst (pre : List Event) (e : Event) : Prop :=
  ∀ x ∈ e.added, Event.called x.1 .setRemoteDescription true ∈ pre

/-- **Every candidate received was passed to `addIceCandidate` of connection `p`, exactly once and
never before its remote description was set, and none is pending.** -/
def Delivered (p : PcId) (acts : List Act) (s : Shared) : Prop :=
  (added s.log).Perm ((received acts).map (p, ·)) ∧ Preceded DescribedFirst s.log
    ∧ s.pendingCandidates = []

/-! ## 2. Stages -/

/-- How far the OFFER has come. -/
inductive Stage where
  /-- There is no connection yet. -/
  | idle
  /-- It is created and not assigned. -/
  | created
  /-- `pc` is set. -/
  | assigned
  /-- `setRemoteDescription` has returned. -/
  | described
  /-- The flag is set, and these are still to be added. -/
  | flushing (todo : List Candidate)
  | flushed

/-- Where the handler of the OFFER is. -/
def Stage.At (first : PcId) : Stage → Point → Prop
  | .idle, point => point = .start ∨ point = .create
  | .created, point => point = .assign first
  | .assigned, point => point = .description ∨ point = .invoke .setRemoteDescription
      ∨ point = .invokeOn first .setRemoteDescription
  | .described, point => point = .invoke .probe ∨ point = .invokeOn first .probe
      ∨ (∃ sdp, point = .tracks sdp) ∨ (∃ todo, point = .setters todo)
      ∨ point = .lockFlush
  | .flushing todo, point => point = .flush todo
      ∨ ∃ c todo', todo = c :: todo' ∧ point = .flushOn first c todo'
  | .flushed, point => ∃ call, call ≠ .setRemoteDescription ∧ call ≠ .probe
      ∧ (point = .invoke call ∨ point = .invokeOn first call)

namespace Stage

def nextPc (first : PcId) : Stage → PcId
  | .idle => first
  | _ => first + 1

def pc (first : PcId) : Stage → Option PcId
  | .idle | .created => none
  | _ => some first

def flag : Stage → Bool
  | .flushing _ | .flushed => true
  | _ => false

def isDescribed : Stage → Bool
  | .described | .flushing _ | .flushed => true
  | _ => false

end Stage

/-- What holds of the shared fields in a stage. -/
structure Stage.Facts (first : PcId) (st : Stage) (s : Shared) : Prop where
  closed : s.closed = []
  nextPc : s.nextPc = st.nextPc first
  pc : s.pc = st.pc first
  flag : s.remoteDescriptionSet = st.flag
  described : st.isDescribed = true → Event.called first .setRemoteDescription true ∈ s.log
  cleared : st = .flushed → s.pendingCandidates = []

/-- What waits to be added. -/
def Stage.waiting (s : Shared) : Stage → List Candidate
  | .flushing todo => todo
  | _ => s.pendingCandidates

/-- The flush holds the lock. -/
def Stage.locks : Stage → Nat
  | .flushing _ => 1
  | _ => 0

/-! ## 3. The other handlers -/

/-- What a handler of a candidate carries. -/
def Handler.carried (h : Handler) : List Candidate :=
  match h.point with
  | .start => (h.req.map Signal.offered).getD []
  | .lockCheck c | .check c | .direct c | .directOn _ c => [c]
  | _ => []

/-- Neither an OFFER nor a LEAVE. -/
def Handler.isBystander (h : Handler) : Bool :=
  h.req.isSome && h.req.bind (·.action) ≠ some .offer && h.req.bind (·.action) ≠ some .leave

/-- Where the handler of a candidate can be. -/
def Point.isBystander : Point → Bool
  | .start | .lockCheck _ | .check _ | .direct _ | .directOn _ _ => true
  | _ => false

/-- Out of the lock with a candidate. -/
def Point.isDirect : Point → Bool
  | .direct _ | .directOn _ _ => true
  | _ => false

def Handler.checks (h : Handler) : Bool :=
  match h.point with
  | .check _ => true
  | _ => false

/-- A handler of a candidate, in a stage: it is out of the lock only after the flush. -/
structure Bystander (first : PcId) (st : Stage) (h : Handler) : Prop where
  kind : h.isBystander = true
  point : h.point.isBystander = true
  direct : h.point.isDirect = true → st = .flushed
  own : ∀ p c, h.point = .directOn p c → p = first

/-! ## 4. The account -/

/-- **The account**: `R` are the candidates received. -/
structure Account (first : PcId) (R : List Candidate) (st : Stage) (s : Shared)
    (hs : List Handler) : Prop where
  facts : st.Facts first s
  bystanders : ∀ h ∈ hs, h.isOffer = false → Bystander first st h
  lock : hs.countP Handler.checks + st.locks = s.locked.toNat
  exactly : R.Perm (hs.flatMap Handler.carried ++ (st.waiting s ++ (added s.log).map Prod.snd))
  own : ∀ x ∈ added s.log, x.1 = first
  ordered : Preceded DescribedFirst s.log

/-- The handler of the OFFER: not come yet, somewhere in the stage, or finished with its ANSWER. -/
def Offering (first : PcId) (offers : Nat) (st : Stage) (log : List Event) (l : List Handler) :
    Prop :=
  (l = [] ∧ offers = 0 ∧ st = .idle ∧ answered log = false)
    ∨ (∃ h, l = [h] ∧ st.At first h.point ∧ offers = 1 ∧ answered log = false)
    ∨ (l = [] ∧ offers = 1 ∧ st = .flushed)

/-- The OFFER has ended without an ANSWER. -/
structure Dead (offers : Nat) (s : Shared) (hs : List Handler) : Prop where
  offers : offers = 1
  unanswered : answered s.log = false
  bystanders : ∀ h ∈ hs, h.isBystander = true ∧ h.point.isBystander = true

/-- **The invariant.** -/
def Accounted (first : PcId) (R : List Candidate) (offers : Nat) (s : Shared) (hs : List Handler) :
    Prop :=
  Dead offers s hs
    ∨ ∃ st, Account first R st s hs ∧ Offering first offers st s.log (hs.filter Handler.isOffer)

/-! ## 5. Entries that do not matter to the account -/

@[simp] theorem added_append (log log' : List Event) :
    added (log ++ log') = added log ++ added log' :=
  List.filterMap_append

theorem added_eq_nil {es : List Event} (h : ∀ e ∈ es, e.added = none) : added es = [] :=
  List.filterMap_eq_nil_iff.mpr h

theorem describedFirst_of_not_added {e : Event} (h : e.added = none) (pre : List Event) :
    DescribedFirst pre e := by
  intro x hx
  rw [h] at hx
  cases hx

section

variable {first : PcId} {R : List Candidate} {st st' : Stage} {s s' : Shared} {rest : List Handler}

/-- Before the flush nobody is out of the lock, so a bystander may stay where it is. -/
theorem Bystander.stay {h : Handler} (hb : Bystander first st h)
    (hst : st = .flushed → st' = .flushed) :
    Bystander first st' h :=
  ⟨hb.kind, hb.point, fun hd => hst (hb.direct hd), hb.own⟩

/-- **The account goes on** when the entries of the step are no additions and what waits is the
same. -/
theorem Account.advance (acc : Account first R st s rest) (es : List Event)
    (hfacts : st'.Facts first s') (hst : st = .flushed → st' = .flushed)
    (hlock : st'.locks + s.locked.toNat = st.locks + s'.locked.toNat)
    (hlog : s'.log = s.log ++ es) (hes : ∀ e ∈ es, e.added = none)
    (hwaiting : st'.waiting s' = st.waiting s) : Account first R st' s' rest := by
  have hadded : added s'.log = added s.log := by
    rw [hlog, added_append, added_eq_nil hes, List.append_nil]
  refine ⟨hfacts, fun h hh ho => (acc.bystanders h hh ho).stay hst, ?_, ?_, ?_, ?_⟩
  · have hold := acc.lock
    omega
  · rw [hwaiting, hadded]
    exact acc.exactly
  · rw [hadded]
    exact acc.own
  · rw [hlog]
    exact acc.ordered.append fun e he => describedFirst_of_not_added (hes e he)

/-- A description that is in the log stays there. -/
theorem Stage.Facts.log (h : st.Facts first s) {es : List Event} (hlog : s'.log = s.log ++ es)
    (hpc : s'.pc = s.pc) (hflag : s'.remoteDescriptionSet = s.remoteDescriptionSet)
    (hpending : s'.pendingCandidates = s.pendingCandidates) (hnext : s'.nextPc = s.nextPc)
    (hclosed : s'.closed = s.closed) : st.Facts first s' := by
  obtain ⟨closed, nextPc, pc, flag, described, cleared⟩ := h
  refine ⟨by rw [hclosed, closed], by rw [hnext, nextPc], by rw [hpc, pc], by rw [hflag, flag],
    fun hd => ?_, by rwa [hpending]⟩
  rw [hlog]
  exact List.mem_append_left es (described hd)

/-- A step that only writes such entries, or touches the forwarder. -/
theorem Account.noted (acc : Account first R st s rest) (es : List Event)
    (hlog : s'.log = s.log ++ es) (hes : ∀ e ∈ es, e.added = none) (hpc : s'.pc = s.pc)
    (hflag : s'.remoteDescriptionSet = s.remoteDescriptionSet) (hlocked : s'.locked = s.locked)
    (hpending : s'.pendingCandidates = s.pendingCandidates) (hnext : s'.nextPc = s.nextPc)
    (hclosed : s'.closed = s.closed) : Account first R st s' rest := by
  refine acc.advance es (acc.facts.log hlog hpc hflag hpending hnext hclosed) id ?_ hlog hes ?_
  · rw [hlocked]
  · cases st <;> simp [Stage.waiting, hpending]

end

/-! ## 6. The handler of the OFFER, stage by stage -/

@[simp] theorem answered_append (log log' : List Event) :
    answered (log ++ log') = (answered log || answered log') := List.any_append

@[simp] theorem answered_nil : answered [] = false := rfl

@[simp] theorem answered_cons (e : Event) (log : List Event) :
    answered (e :: log) = (e.isAnswer || answered log) := rfl

/-- What a step of the handler comes to: it goes on, it has finished with its ANSWER, or it has
ended without one. -/
def OfferGoes (first : PcId) (R : List Candidate) (rest : List Handler)
    (r : Shared × Option Handler) : Prop :=
  (∃ t st, r.2 = some t ∧ t.isOffer = true ∧ st.At first t.point ∧ Account first R st r.1 rest
      ∧ answered r.1.log = false)
    ∨ (r.2 = none ∧ Account first R .flushed r.1 rest)
    ∨ (r.2 = none ∧ answered r.1.log = false)

section Offer

variable {first : PcId} {R : List Candidate} {st : Stage} {s : Shared} {rest : List Handler}
  {t : Handler} (firstMediaCodec : Text → MediaKind → Option Codec) (o : Outcome)

theorem goes_on (st : Stage) (ht : t.isOffer = true) {point : Point} (hat : st.At first point)
    (acc : Account first R st s rest) (hans : answered s.log = false) :
    OfferGoes first R rest (s, t.goTo point) :=
  .inl ⟨_, st, rfl, ht, hat, acc, hans⟩

theorem goes_wrong (hans : answered s.log = false) : OfferGoes first R rest (Handler.fail s) :=
  .inr (.inr ⟨rfl, by simp [Handler.fail, Shared.emit, hans, Event.isAnswer]⟩)

theorem goes_refused (hans : answered s.log = false) (code : Nat) (message : Text) :
    OfferGoes first R rest (t.reply s (.error code message), none) :=
  .inr (.inr ⟨rfl, by simp [Handler.reply, Shared.emit, hans, Event.isAnswer]⟩)

/-- The field is read for a call, and it is there. -/
theorem goes_invoke (ht : t.isOffer = true) (acc : Account first R st s rest)
    (hans : answered s.log = false) (hpc : s.pc = some first) {call : OfferCall}
    (hpoint : t.point = .invoke call) (hat : st.At first (.invokeOn first call)) :
    OfferGoes first R rest (t.step firstMediaCodec s o) := by
  have hstep : t.step firstMediaCodec s o = (s, t.goTo (.invokeOn first call)) := by
    simp [Handler.step, hpoint, hpc]
  rw [hstep]
  exact goes_on st ht hat acc hans

/-- **idle**: the request is checked and the connection created. -/
theorem offer_idle (ht : t.isOffer = true) (acc : Account first R .idle s rest)
    (hans : answered s.log = false) (hat : Stage.idle.At first t.point) :
    OfferGoes first R rest (t.step firstMediaCodec s o) := by
  rcases hat with hpoint | hpoint
  · obtain ⟨req, hreq, haction⟩ : ∃ req, t.req = some req ∧ req.action = some .offer := by
      simpa [Handler.isOffer, Option.bind_eq_some_iff] using ht
    simp only [Handler.step, hpoint, hreq, Handler.dispatch, haction]
    split
    · exact goes_wrong hans
    · split
      · exact goes_refused hans _ _
      · split
        · exact goes_refused hans _ _
        · exact goes_on .idle ht (Or.inr rfl) acc hans
  · simp only [Handler.step, hpoint]
    split
    · exact goes_wrong hans
    · obtain ⟨closed, nextPc, pc, flag, -, -⟩ := acc.facts
      have hnext : s.nextPc = first := nextPc
      rw [hnext]
      refine goes_on .created ht rfl ?_ ?_
      · exact acc.advance [.created first]
          ⟨closed, by rw [Shared.emit]; rfl, pc, flag, nofun, nofun⟩
          nofun rfl rfl (by simp [Event.added]) rfl
      · simp [Shared.emit, hans, Event.isAnswer]

/-- **created**: it is stored. -/
theorem offer_created (ht : t.isOffer = true) (acc : Account first R .created s rest)
    (hans : answered s.log = false) (hat : Stage.created.At first t.point) :
    OfferGoes first R rest (t.step firstMediaCodec s o) := by
  have hpoint : t.point = .assign first := hat
  obtain ⟨closed, nextPc, pc, flag, -, -⟩ := acc.facts
  simp only [Handler.step, hpoint]
  refine goes_on .assigned ht (Or.inl rfl) ?_ hans
  exact acc.advance [] ⟨closed, nextPc, rfl, flag, nofun, nofun⟩ nofun rfl (List.append_nil _).symm
    (by simp) rfl

/-- **assigned**: the remote description is set. -/
theorem offer_assigned (ht : t.isOffer = true) (acc : Account first R .assigned s rest)
    (hans : answered s.log = false) (hat : Stage.assigned.At first t.point) :
    OfferGoes first R rest (t.step firstMediaCodec s o) := by
  obtain ⟨closed, nextPc, pc, flag, -, -⟩ := acc.facts
  rcases hat with hpoint | hpoint | hpoint
  · simp only [Handler.step, hpoint]
    split
    · exact goes_wrong hans
    · exact goes_on .assigned ht (Or.inr (Or.inl rfl)) acc hans
  · exact goes_invoke firstMediaCodec o ht acc hans pc hpoint (Or.inr (Or.inr rfl))
  · simp only [Handler.step, hpoint]
    split
    · refine goes_on .described ht (Or.inl rfl) ?_ ?_
      · exact acc.advance [.called first .setRemoteDescription true]
          ⟨closed, nextPc, pc, flag, fun _ => by simp [Shared.emit, OfferCall.call], nofun⟩
          nofun rfl rfl (by simp [Event.added]) rfl
      · simp [Shared.emit, hans, Event.isAnswer]
    · exact goes_wrong (by simp [Shared.emit, hans, Event.isAnswer])

/-- **described**: the codecs, the tracks, and the flush begins. -/
theorem offer_described (ht : t.isOffer = true) (acc : Account first R .described s rest)
    (hans : answered s.log = false) (hat : Stage.described.At first t.point) :
    OfferGoes first R rest (t.step firstMediaCodec s o) := by
  obtain ⟨closed, nextPc, pc, flag, described, -⟩ := acc.facts
  rcases hat with hpoint | hpoint | ⟨sdp, hpoint⟩ | ⟨todo, hpoint⟩ | hpoint
  · exact goes_invoke firstMediaCodec o ht acc hans pc hpoint (Or.inr (Or.inl rfl))
  · simp only [Handler.step, hpoint]
    have hlog : answered (s.emit (.called first .createAnswer true)).log = false := by
      simp [Shared.emit, hans, Event.isAnswer]
    split
    · simp only [Handler.afterCall]
      split
      · refine goes_on .described ht (Or.inr (Or.inr (Or.inl ⟨_, rfl⟩))) ?_ hlog
        exact acc.noted [.called first .createAnswer true] rfl
          (by simp [Event.added]) rfl rfl rfl rfl
          rfl rfl
      · exact goes_wrong hlog
    · exact goes_wrong (by simp [Shared.emit, hans, Event.isAnswer])
  · simp only [Handler.step, hpoint, Handler.makeTracks]
    split
    · exact goes_wrong hans
    · split
      · split
        · exact goes_on .described ht (Or.inr (Or.inr (Or.inr (Or.inl ⟨_, rfl⟩)))) acc hans
        · exact goes_refused hans _ _
      · exact goes_refused hans _ _
  · cases todo with
    | nil =>
      simp only [Handler.step, hpoint]
      exact goes_on .described ht (Or.inr (Or.inr (Or.inr (Or.inr rfl)))) acc hans
    | cons m todo =>
      simp only [Handler.step, hpoint]
      refine goes_on .described ht (Or.inr (Or.inr (Or.inr (Or.inl ⟨todo, rfl⟩)))) ?_ hans
      exact acc.noted [] (List.append_nil _).symm (by simp) rfl rfl rfl rfl rfl rfl
  · simp only [Handler.step, hpoint]
    split
    · exact .inl ⟨t, .described, rfl, ht, Or.inr (Or.inr (Or.inr (Or.inr hpoint))), acc, hans⟩
    · next hfree =>
      refine goes_on (.flushing s.pendingCandidates) ht (Or.inl rfl) ?_ ?_
      · refine acc.advance [.flagged] ⟨closed, nextPc, pc, rfl, fun _ => ?_, nofun⟩ nofun ?_ rfl
          (by simp [Event.added]) rfl
        · exact List.mem_append_left _ (described rfl)
        · simp [Stage.locks, Shared.emit, hfree]
      · simp [Shared.emit, hans, Event.isAnswer]

/-- **A candidate is added** to the connection, whose remote description is set: it is now among the
added, whoever had it before. -/
theorem Account.called {hs : List Handler} {st' : Stage} {c : Candidate} {b : Bool}
    (acc : Account first R st s hs)
    (hdescribed : Event.called first .setRemoteDescription true ∈ s.log)
    (hfacts : st'.Facts first (s.emit (.called first (.addIceCandidate c) b)))
    (hbystanders : ∀ h ∈ rest, h.isOffer = false → Bystander first st' h)
    (hlock : rest.countP Handler.checks + st'.locks = s.locked.toNat)
    (hexactly : R.Perm (rest.flatMap Handler.carried
      ++ (st'.waiting s ++ ((added s.log).map Prod.snd ++ [c])))) :
    Account first R st' (s.emit (.called first (.addIceCandidate c) b)) rest := by
  have hadded : added (s.emit (.called first (.addIceCandidate c) b)).log
      = added s.log ++ [(first, c)] := by
    simp [Shared.emit, added, Event.added]
  have hwaiting : st'.waiting (s.emit (.called first (.addIceCandidate c) b)) = st'.waiting s := by
    cases st' <;> rfl
  refine ⟨hfacts, hbystanders, hlock, ?_, ?_, ?_⟩
  · rw [hadded, hwaiting, List.map_append]
    exact hexactly
  · rw [hadded]
    intro x hx
    rcases List.mem_append.mp hx with hx | hx
    · exact acc.own x hx
    · rw [List.mem_singleton.mp hx]
  · refine acc.ordered.snoc ?_
    rintro x ⟨⟩
    exact hdescribed

/-- One candidate of the flush: it waited. -/
theorem Account.add_pending {c : Candidate} {todo : List Candidate} (b : Bool)
    (acc : Account first R (.flushing (c :: todo)) s rest) :
    Account first R (.flushing todo) (s.emit (.called first (.addIceCandidate c) b)) rest := by
  obtain ⟨closed, nextPc, pc, flag, described, -⟩ := acc.facts
  refine acc.called (described rfl)
    ⟨closed, nextPc, pc, flag, fun _ => List.mem_append_left _ (described rfl), nofun⟩
    (fun h hh ho => (acc.bystanders h hh ho).stay nofun) acc.lock ?_
  refine acc.exactly.trans (List.Perm.append_left _ ?_)
  have hmove : ([c] ++ (todo ++ (added s.log).map Prod.snd)).Perm
      (todo ++ (added s.log).map Prod.snd ++ [c]) := List.perm_append_comm
  simpa [Stage.waiting] using hmove

/-- **flushing**: every pending candidate is added, and then the list is cleared. -/
theorem offer_flushing {todo : List Candidate} (ht : t.isOffer = true)
    (acc : Account first R (.flushing todo) s rest) (hans : answered s.log = false)
    (hat : (Stage.flushing todo).At first t.point) :
    OfferGoes first R rest (t.step firstMediaCodec s o) := by
  obtain ⟨closed, nextPc, pc, flag, described, -⟩ := acc.facts
  rcases hat with hpoint | ⟨c, todo', rfl, hpoint⟩
  · cases todo with
    | nil =>
      simp only [Handler.step, hpoint]
      refine goes_on .flushed ht ⟨.addTrack .audio, nofun, nofun, Or.inl rfl⟩ ?_ hans
      have hlocked : s.locked = true := by
        have hlock := acc.lock
        cases h : s.locked with
        | true => rfl
        | false =>
          simp only [Stage.locks, h, Bool.toNat_false] at hlock
          omega
      refine acc.advance []
        ⟨closed, nextPc, pc, flag, fun _ => described rfl, fun _ => rfl⟩ nofun ?_
        (List.append_nil _).symm (by simp) rfl
      simp [Stage.locks, hlocked]
    | cons c todo =>
      have hstep : t.step firstMediaCodec s o = (s, t.goTo (.flushOn first c todo)) := by
        have hpc : s.pc = some first := pc
        simp [Handler.step, hpoint, hpc]
      rw [hstep]
      exact goes_on (.flushing (c :: todo)) ht (Or.inr ⟨c, todo, rfl, rfl⟩) acc hans
  · simp only [Handler.step, hpoint]
    split
    · refine goes_on (.flushing todo') ht (Or.inl rfl) (acc.add_pending true) ?_
      simp [Shared.emit, hans, Event.isAnswer]
    · exact goes_wrong (by simp [Shared.emit, hans, Event.isAnswer])

/-- **flushed**: the tracks are added and the OFFER is answered. -/
theorem offer_flushed (ht : t.isOffer = true) (acc : Account first R .flushed s rest)
    (hans : answered s.log = false) (hat : Stage.flushed.At first t.point) :
    OfferGoes first R rest (t.step firstMediaCodec s o) := by
  obtain ⟨call, hremote, hprobe, hpoint | hpoint⟩ := hat
  · exact goes_invoke firstMediaCodec o ht acc hans acc.facts.pc hpoint
      ⟨call, hremote, hprobe, Or.inr rfl⟩
  · simp only [Handler.step, hpoint]
    have hnoted : Account first R .flushed (s.emit (.called first call.call true)) rest := by
      refine acc.noted [.called first call.call true] rfl ?_ rfl rfl rfl rfl rfl rfl
      cases call <;> simp [Event.added, OfferCall.call]
    have hlog : answered (s.emit (.called first call.call true)).log = false := by
      simp [Shared.emit, hans, Event.isAnswer]
    split
    · cases call with
      | setRemoteDescription => exact absurd rfl hremote
      | probe => exact absurd rfl hprobe
      | addTrack kind =>
        cases kind with
        | audio =>
          exact goes_on .flushed ht ⟨.addTrack .video, nofun, nofun, Or.inl rfl⟩ hnoted hlog
        | video => exact goes_on .flushed ht ⟨.createAnswer, nofun, nofun, Or.inl rfl⟩ hnoted hlog
      | createAnswer =>
        simp only [Handler.afterCall]
        split
        · exact goes_on .flushed ht ⟨.setLocalDescription _, nofun, nofun, Or.inl rfl⟩ hnoted hlog
        · exact goes_wrong hlog
      | setLocalDescription sdp =>
        refine .inr (.inl ⟨rfl, ?_⟩)
        exact hnoted.noted [_] rfl (by simp [Event.added]) rfl rfl rfl rfl rfl rfl
    · exact goes_wrong (by simp [Shared.emit, hans, Event.isAnswer])

/-- **A step of the OFFER's handler, in any stage.** -/
theorem offer_step (ht : t.isOffer = true) (acc : Account first R st s rest)
    (hans : answered s.log = false) (hat : st.At first t.point) :
    OfferGoes first R rest (t.step firstMediaCodec s o) := by
  cases st with
  | idle => exact offer_idle firstMediaCodec o ht acc hans hat
  | created => exact offer_created firstMediaCodec o ht acc hans hat
  | assigned => exact offer_assigned firstMediaCodec o ht acc hans hat
  | described => exact offer_described firstMediaCodec o ht acc hans hat
  | flushing todo => exact offer_flushing firstMediaCodec o ht acc hans hat
  | flushed => exact offer_flushed firstMediaCodec o ht acc hans hat

end Offer

/-! ## 7. The handlers of the candidates -/

section Others

variable {first : PcId} {R : List Candidate} {st : Stage} {s : Shared} {rest : List Handler}
  {t : Handler} (firstMediaCodec : Text → MediaKind → Option Codec) (o : Outcome)

theorem isOffer_of_isBystander (h : t.isBystander = true) : t.isOffer = false := by
  simp only [Handler.isBystander, Bool.and_eq_true, decide_eq_true_eq] at h
  simpa [Handler.isOffer] using h.1.2

/-- The request of a bystander that has not begun: it ends at once, or it has a candidate. -/
theorem dispatch_bystander (hk : t.isBystander = true) (hpoint : t.point = .start) :
    (∃ e, e.isAnswer = false ∧ e.added = none ∧ t.carried = []
        ∧ t.step firstMediaCodec s o = (s.emit e, none))
      ∨ ∃ c, t.carried = [c] ∧ t.step firstMediaCodec s o = (s, t.goTo (.lockCheck c)) := by
  obtain ⟨req, point⟩ := t
  cases hpoint
  cases req with
  | none => cases hk
  | some req =>
    simp only [Handler.isBystander, Option.bind_some, Option.isSome_some, Bool.true_and,
      Bool.and_eq_true, decide_eq_true_eq] at hk
    obtain ⟨action, transaction, payload⟩ := req
    cases action with
    | none => exact .inl ⟨_, rfl, rfl, rfl, rfl⟩
    | some action =>
      cases action with
      | offer => exact absurd rfl hk.1
      | leave => exact absurd rfl hk.2
      | join | mediaState | other => exact .inl ⟨_, rfl, rfl, rfl, rfl⟩
      | candidate =>
        cases payload with
        | none => exact .inl ⟨_, rfl, rfl, rfl, rfl⟩
        | some payload =>
          obtain ⟨sdp, candidate, sdpMid, mline⟩ := payload
          cases candidate with
          | none => exact .inl ⟨_, rfl, rfl, rfl, rfl⟩
          | some c => exact .inr ⟨_, rfl, rfl⟩

/-- **A bystander stays one, and answers no OFFER.** -/
theorem bystander_stays (hk : t.isBystander = true) (hp : t.point.isBystander = true) :
    (∀ t' ∈ (t.step firstMediaCodec s o).2, t'.isBystander = true ∧ t'.point.isBystander = true)
      ∧ answered (t.step firstMediaCodec s o).1.log = answered s.log := by
  cases hpoint : t.point with
  | start =>
    rcases dispatch_bystander (s := s) firstMediaCodec o hk hpoint with
      ⟨e, hanswer, -, -, hstep⟩ | ⟨c, -, hstep⟩
    · rw [hstep]
      exact ⟨by simp, by simp [Shared.emit, hanswer]⟩
    · rw [hstep]
      refine ⟨?_, rfl⟩
      rintro t' ⟨⟩
      exact ⟨hk, rfl⟩
  | lockCheck c =>
    simp only [Handler.step, hpoint]
    split
    · refine ⟨?_, rfl⟩
      rintro t' ⟨⟩
      exact ⟨hk, hp⟩
    · refine ⟨?_, rfl⟩
      rintro t' ⟨⟩
      exact ⟨hk, rfl⟩
  | check c =>
    simp only [Handler.step, hpoint]
    split
    · exact ⟨by simp, by simp [Handler.reply, Shared.emit, Event.isAnswer]⟩
    · refine ⟨?_, rfl⟩
      rintro t' ⟨⟩
      exact ⟨hk, rfl⟩
  | direct c =>
    simp only [Handler.step, hpoint]
    split
    · exact ⟨by simp [Handler.fail], by simp [Handler.fail, Shared.emit, Event.isAnswer]⟩
    · refine ⟨?_, rfl⟩
      rintro t' ⟨⟩
      exact ⟨hk, rfl⟩
  | directOn p c =>
    simp only [Handler.step, hpoint]
    split
    · exact ⟨by simp, by simp [Handler.reply, Shared.emit, Event.isAnswer]⟩
    · exact ⟨by simp [Handler.fail], by simp [Handler.fail, Shared.emit, Event.isAnswer]⟩
  | _ => rw [hpoint] at hp; cases hp

/-- A bystander takes the place of a handler. -/
theorem bystanders_set {t' : Handler}
    (h : ∀ h ∈ t :: rest, h.isOffer = false → Bystander first st h) (hb : Bystander first st t') :
    ∀ h ∈ t' :: rest, h.isOffer = false → Bystander first st h :=
  List.forall_mem_cons.mpr ⟨fun _ => hb, (List.forall_mem_cons.mp h).2⟩

theorem Account.leave (acc : Account first R st s (t :: rest)) (hcarried : t.carried = [])
    (hchecks : t.checks = false) : Account first R st s rest := by
  obtain ⟨facts, bystanders, lock, exactly, own, ordered⟩ := acc
  refine ⟨facts, fun h hh => bystanders h (.tail t hh), ?_, ?_, own, ordered⟩
  · rwa [List.countP_cons_of_neg (by simp [hchecks])] at lock
  · rwa [List.flatMap_cons, hcarried, List.nil_append] at exactly

/-- A handler goes on with what it carries, outside the lock. -/
theorem Account.goOn {t' : Handler} (acc : Account first R st s (t :: rest))
    (hcarried : t'.carried = t.carried) (hchecks : t.checks = false) (hchecks' : t'.checks = false)
    (hb : Bystander first st t') : Account first R st s (t' :: rest) := by
  obtain ⟨facts, bystanders, lock, exactly, own, ordered⟩ := acc
  refine ⟨facts, bystanders_set bystanders hb, ?_, ?_, own, ordered⟩
  · rw [List.countP_cons_of_neg (by simp [hchecks])] at lock
    rwa [List.countP_cons_of_neg (by simp [hchecks'])]
  · rwa [List.flatMap_cons, hcarried, ← List.flatMap_cons]

/-- **A handler takes the lock.** -/
theorem Account.enter {c : Candidate} (acc : Account first R st s (t :: rest))
    (hk : t.isBystander = true) (hpoint : t.point = .lockCheck c) (hfree : s.locked = false) :
    Account first R st { s with locked := true } ({ t with point := .check c } :: rest) := by
  obtain ⟨⟨closed, nextPc, pc, flag, described, cleared⟩, bystanders, lock, exactly,
    own, ordered⟩ := acc
  refine ⟨⟨closed, nextPc, pc, flag, described, cleared⟩, ?_, ?_, ?_, own, ordered⟩
  · exact bystanders_set bystanders ⟨hk, rfl, nofun, nofun⟩
  · rw [List.countP_cons_of_neg (by simp [Handler.checks, hpoint]), hfree] at lock
    rw [List.countP_cons_of_pos rfl]
    simp only [Bool.toNat_false, Bool.toNat_true] at lock ⊢
    omega
  · have hcarried : t.carried = [c] := by simp [Handler.carried, hpoint]
    rw [List.flatMap_cons, hcarried] at exactly
    cases st <;> exact exactly

/-- Who is in the lock is there alone. -/
theorem Account.alone {c : Candidate} (acc : Account first R st s (t :: rest))
    (hpoint : t.point = .check c) :
    rest.countP Handler.checks = 0 ∧ st.locks = 0 ∧ s.locked = true := by
  have hlock := acc.lock
  rw [List.countP_cons_of_pos (by simp [Handler.checks, hpoint])] at hlock
  cases h : s.locked with
  | true =>
    rw [h, Bool.toNat_true] at hlock
    exact ⟨by omega, by omega, rfl⟩
  | false =>
    rw [h, Bool.toNat_false] at hlock
    omega

/-- **The candidate is buffered**: the flush has not begun, so it waits with the others. -/
theorem Account.buffer {c : Candidate} (acc : Account first R st s (t :: rest))
    (hpoint : t.point = .check c) (hearly : s.pc = none ∨ s.remoteDescriptionSet = false) :
    Account first R st
      (t.reply { s with pendingCandidates := s.pendingCandidates ++ [c], locked := false } .ack)
      rest := by
  obtain ⟨hothers, hlocks, -⟩ := acc.alone hpoint
  obtain ⟨⟨closed, nextPc, pc, flag, described, cleared⟩, bystanders, lock, exactly,
    own, ordered⟩ := acc
  have hst : st ≠ .flushed := by
    rintro rfl
    rcases hearly with h | h
    · rw [pc] at h
      cases h
    · rw [flag] at h
      cases h
  have hadded : added (t.reply
      { s with pendingCandidates := s.pendingCandidates ++ [c], locked := false } .ack).log
      = added s.log := by
    simp [Handler.reply, Shared.emit, added, Event.added]
  refine ⟨⟨closed, nextPc, pc, flag, fun h => List.mem_append_left _ (described h),
      fun h => absurd h hst⟩, fun h hh => bystanders h (.tail t hh), ?_, ?_, ?_, ?_⟩
  · rw [hothers, hlocks]
    rfl
  · rw [hadded]
    have hcarried : t.carried = [c] := by simp [Handler.carried, hpoint]
    have hwaiting : ∀ u : Shared, st.waiting u = u.pendingCandidates := by
      intro u
      cases st with
      | flushing todo => cases hlocks
      | _ => rfl
    rw [List.flatMap_cons, hcarried, hwaiting] at exactly
    rw [hwaiting]
    refine exactly.trans ?_
    -- the candidate moves from the front to the end of the pending ones
    have hmove : ([c] ++ (rest.flatMap Handler.carried ++ s.pendingCandidates)).Perm
        (rest.flatMap Handler.carried ++ s.pendingCandidates ++ [c]) := List.perm_append_comm
    have hmore := hmove.append_right ((added s.log).map Prod.snd)
    simpa [Handler.reply, Shared.emit, List.append_assoc] using hmore
  · rw [hadded]
    exact own
  · exact ordered.snoc (describedFirst_of_not_added rfl _)

/-- **The candidate leaves the lock**: the flush is over. -/
theorem Account.leaveLock {c : Candidate} (acc : Account first R st s (t :: rest))
    (hk : t.isBystander = true) (hpoint : t.point = .check c)
    (hlate : ¬ (s.pc = none ∨ s.remoteDescriptionSet = false)) :
    Account first R st { s with locked := false } ({ t with point := .direct c } :: rest) := by
  obtain ⟨hothers, hlocks, -⟩ := acc.alone hpoint
  obtain ⟨⟨closed, nextPc, pc, flag, described, cleared⟩, bystanders, lock, exactly,
    own, ordered⟩ := acc
  have hst : st = .flushed := by
    rw [flag] at hlate
    cases st with
    | flushed => rfl
    | flushing todo => cases hlocks
    | idle | created | assigned | described => exact absurd (Or.inr rfl) hlate
  refine ⟨⟨closed, nextPc, pc, flag, described, cleared⟩, ?_, ?_, ?_, own, ordered⟩
  · exact bystanders_set bystanders ⟨hk, rfl, fun _ => hst, nofun⟩
  · rw [List.countP_cons_of_neg (by simp [Handler.checks]), hothers, hlocks]
    rfl
  · have hcarried : t.carried = [c] := by simp [Handler.carried, hpoint]
    rw [List.flatMap_cons, hcarried] at exactly
    cases st <;> exact exactly

/-- A candidate out of the lock: its handler carried it, and the remote description is set, since
the flush is over. -/
theorem Account.add_direct {c : Candidate} (b : Bool) (acc : Account first R .flushed s (t :: rest))
    (hpoint : t.point = .directOn first c) :
    Account first R .flushed (s.emit (.called first (.addIceCandidate c) b)) rest := by
  obtain ⟨closed, nextPc, pc, flag, described, cleared⟩ := acc.facts
  have hlock := acc.lock
  rw [List.countP_cons_of_neg (by simp [Handler.checks, hpoint])] at hlock
  refine acc.called (described rfl)
    ⟨closed, nextPc, pc, flag, fun _ => List.mem_append_left _ (described rfl), cleared⟩
    (fun h hh => acc.bystanders h (.tail t hh)) hlock ?_
  have hcarried : t.carried = [c] := by simp [Handler.carried, hpoint]
  have hexactly := acc.exactly
  rw [List.flatMap_cons, hcarried] at hexactly
  refine hexactly.trans ?_
  have hmove : ([c] ++ (rest.flatMap Handler.carried ++ (Stage.flushed.waiting s
      ++ (added s.log).map Prod.snd))).Perm
      (rest.flatMap Handler.carried ++ (Stage.flushed.waiting s ++ (added s.log).map Prod.snd)
        ++ [c]) := List.perm_append_comm
  simpa [List.append_assoc] using hmove

/-- **A step of a bystander keeps the account.** -/
theorem bystander_step (acc : Account first R st s (t :: rest)) (hb : Bystander first st t) :
    Account first R st (t.step firstMediaCodec s o).1
      ((t.step firstMediaCodec s o).2.toList ++ rest) := by
  obtain ⟨hk, hp, hdirect, hown⟩ := hb
  cases hpoint : t.point with
  | start =>
    have hchecks : t.checks = false := by simp [Handler.checks, hpoint]
    rcases dispatch_bystander (s := s) firstMediaCodec o hk hpoint with
      ⟨e, -, hadded, hcarried, hstep⟩ | ⟨c, hcarried, hstep⟩
    · rw [hstep]
      exact (acc.leave hcarried hchecks).noted [e] rfl (by simp [hadded]) rfl rfl rfl rfl rfl rfl
    · rw [hstep]
      exact acc.goOn hcarried.symm hchecks rfl ⟨hk, rfl, nofun, nofun⟩
  | lockCheck c =>
    simp only [Handler.step, hpoint]
    split
    · exact acc
    · next hfree => exact acc.enter hk hpoint (by simpa using hfree)
  | check c =>
    simp only [Handler.step, hpoint]
    split
    · next hearly => exact acc.buffer hpoint hearly
    · next hlate => exact acc.leaveLock hk hpoint hlate
  | direct c =>
    have hst : st = .flushed := hdirect (by rw [hpoint]; rfl)
    have hpc : s.pc = some first := by
      rw [acc.facts.pc, hst]
      rfl
    simp only [Handler.step, hpoint, hpc]
    refine acc.goOn ?_ (by simp [Handler.checks, hpoint]) rfl ⟨hk, rfl, fun _ => hst, ?_⟩
    · simp [Handler.carried, hpoint]
    · rintro p c' ⟨⟩
      rfl
  | directOn p c =>
    obtain rfl : p = first := hown p c hpoint
    obtain rfl : st = .flushed := hdirect (by rw [hpoint]; rfl)
    simp only [Handler.step, hpoint]
    split
    · exact (acc.add_direct true hpoint).noted [_] rfl
        (by simp [Event.added]) rfl rfl rfl rfl rfl rfl
    · exact (acc.add_direct false hpoint).noted [_] rfl
        (by simp [Event.added]) rfl rfl rfl rfl rfl rfl
  | _ => rw [hpoint] at hp; cases hp

end Others

/-! ## 8. Every run -/

section Runs

variable {first : PcId} {R : List Candidate} {offers : Nat} {st : Stage} {s : Shared}
  {hs rest : List Handler} {t : Handler}

theorem Account.perm {l l' : List Handler} (hp : l.Perm l') (acc : Account first R st s l) :
    Account first R st s l' := by
  obtain ⟨facts, bystanders, lock, exactly, own, ordered⟩ := acc
  refine ⟨facts, fun h hh => bystanders h (hp.mem_iff.mpr hh), ?_, ?_, own, ordered⟩
  · rwa [← hp.countP_eq]
  · exact exactly.trans ((hp.flatMap_right _).append_right _)

theorem Accounted.perm {l l' : List Handler} (hp : l.Perm l') (h : Accounted first R offers s l) :
    Accounted first R offers s l' := by
  rcases h with ⟨hoffers, hans, hothers⟩ | ⟨st, acc, hoffering⟩
  · exact .inl ⟨hoffers, hans, fun h hh => hothers h (hp.mem_iff.mpr hh)⟩
  · refine .inr ⟨st, acc.perm hp, ?_⟩
    have hfilter := (hp.filter Handler.isOffer).symm
    rcases hoffering with ⟨hnil, h⟩ | ⟨t, hone, h⟩ | ⟨hnil, h⟩
    · rw [hnil, List.perm_nil] at hfilter
      exact .inl ⟨hfilter, h⟩
    · rw [hone, List.perm_singleton] at hfilter
      exact .inr (.inl ⟨t, hfilter, h⟩)
    · rw [hnil, List.perm_nil] at hfilter
      exact .inr (.inr ⟨hfilter, h⟩)

/-- The handler of the OFFER carries no candidate and is never in the check. -/
theorem offer_carries_nothing (ht : t.isOffer = true) (hat : st.At first t.point) :
    t.carried = [] ∧ t.checks = false := by
  obtain ⟨req, hreq, haction⟩ : ∃ req, t.req = some req ∧ req.action = some .offer := by
    simpa [Handler.isOffer, Option.bind_eq_some_iff] using ht
  have hstart : t.point = .start → t.carried = [] ∧ t.checks = false := by
    intro hp
    simp [Handler.carried, Handler.checks, hp, hreq, Signal.offered, haction]
  cases st with
  | idle =>
    rcases hat with hp | hp
    · exact hstart hp
    · simp [Handler.carried, Handler.checks, hp]
  | created =>
    have hp : t.point = .assign first := hat
    simp [Handler.carried, Handler.checks, hp]
  | assigned => rcases hat with hp | hp | hp <;> simp [Handler.carried, Handler.checks, hp]
  | described =>
    rcases hat with hp | hp | ⟨_, hp⟩ | ⟨_, hp⟩ | hp <;>
      simp [Handler.carried, Handler.checks, hp]
  | flushing todo =>
    rcases hat with hp | ⟨_, _, _, hp⟩ <;> simp [Handler.carried, Handler.checks, hp]
  | flushed => obtain ⟨_, _, _, hp | hp⟩ := hat <;> simp [Handler.carried, Handler.checks, hp]

theorem Account.join (acc : Account first R st s rest) (ht : t.isOffer = true)
    (hcarried : t.carried = []) (hchecks : t.checks = false) :
    Account first R st s (t :: rest) := by
  obtain ⟨facts, bystanders, lock, exactly, own, ordered⟩ := acc
  refine ⟨facts, ?_, ?_, ?_, own, ordered⟩
  · intro h hh ho
    rcases List.mem_cons.mp hh with rfl | hh
    · rw [ht] at ho
      cases ho
    · exact bystanders h hh ho
  · rwa [List.countP_cons_of_neg (by simp [hchecks])]
  · rwa [List.flatMap_cons, hcarried, List.nil_append]

variable (firstMediaCodec : Text → MediaKind → Option Codec) (o : Outcome)

theorem accounted_offer (ht : t.isOffer = true) (acc : Account first R st s (t :: rest))
    (hoffering : Offering first offers st s.log ((t :: rest).filter Handler.isOffer)) :
    Accounted first R offers (t.step firstMediaCodec s o).1
      ((t.step firstMediaCodec s o).2.toList ++ rest) := by
  rw [List.filter_cons_of_pos ht] at hoffering
  rcases hoffering with ⟨hnil, -⟩ | ⟨h, hone, hat, hoffers, hans⟩ | ⟨hnil, -⟩
  · cases hnil
  · obtain ⟨rfl, hothers⟩ := List.cons.inj hone
    obtain ⟨hcarried, hchecks⟩ := offer_carries_nothing ht hat
    rcases offer_step firstMediaCodec o ht (acc.leave hcarried hchecks) hans hat with
      ⟨t', st', hnext, ht', hat', acc', hans'⟩ | ⟨hend, acc'⟩ | ⟨hend, hans'⟩
    · obtain ⟨hcarried', hchecks'⟩ := offer_carries_nothing ht' hat'
      rw [hnext]
      refine .inr ⟨st', acc'.join ht' hcarried' hchecks',
        .inr (.inl ⟨t', ?_, hat', hoffers, hans'⟩)⟩
      rw [Option.toList_some, List.singleton_append, List.filter_cons_of_pos ht', hothers]
    · rw [hend]
      exact .inr ⟨.flushed, acc', .inr (.inr ⟨hothers, hoffers, rfl⟩)⟩
    · rw [hend]
      refine .inl ⟨hoffers, hans', fun h hh => ?_⟩
      have hno : h.isOffer = false := by
        by_contra hyes
        have hmem : h ∈ rest.filter Handler.isOffer := List.mem_filter.mpr ⟨hh, by simpa using hyes⟩
        rw [hothers] at hmem
        cases hmem
      have hb := acc.bystanders h (.tail t hh) hno
      exact ⟨hb.kind, hb.point⟩
  · cases hnil

/-- **A step of any handler keeps the account.** -/
theorem accounted_handler (h : Accounted first R offers s (t :: rest)) :
    Accounted first R offers (t.step firstMediaCodec s o).1
      ((t.step firstMediaCodec s o).2.toList ++ rest) := by
  rcases h with ⟨hoffers, hans, hothers⟩ | ⟨st, acc, hoffering⟩
  · obtain ⟨hk, hp⟩ := hothers t List.mem_cons_self
    obtain ⟨hstay, hsame⟩ := bystander_stays (s := s) firstMediaCodec o hk hp
    refine .inl ⟨hoffers, by rw [hsame, hans], fun h hh => ?_⟩
    rcases List.mem_append.mp hh with hh | hh
    · exact hstay h (Option.mem_toList.mp hh)
    · exact hothers h (.tail t hh)
  · cases ht : t.isOffer with
    | true => exact accounted_offer firstMediaCodec o ht acc hoffering
    | false =>
      have hb := acc.bystanders t List.mem_cons_self ht
      obtain ⟨hstay, hsame⟩ := bystander_stays (s := s) firstMediaCodec o hb.kind hb.point
      refine .inr ⟨st, bystander_step firstMediaCodec o acc hb, ?_⟩
      have hnone : (t.step firstMediaCodec s o).2.toList.filter Handler.isOffer = [] := by
        rw [List.filter_eq_nil_iff]
        intro h hh
        have hk := (hstay h (Option.mem_toList.mp hh)).1
        simp [isOffer_of_isBystander hk]
      rw [List.filter_cons_of_neg (by simp [ht])] at hoffering
      rw [List.filter_append, hnone, List.nil_append]
      unfold Offering
      rw [hsame]
      exact hoffering

/-- What only writes other entries, or touches the forwarder, changes nothing. -/
theorem Accounted.noted {s' : Shared} (h : Accounted first R offers s hs) (es : List Event)
    (hlog : s'.log = s.log ++ es) (hes : ∀ e ∈ es, e.added = none) (hans : answered es = false)
    (hpc : s'.pc = s.pc) (hflag : s'.remoteDescriptionSet = s.remoteDescriptionSet)
    (hlocked : s'.locked = s.locked) (hpending : s'.pendingCandidates = s.pendingCandidates)
    (hnext : s'.nextPc = s.nextPc) (hclosed : s'.closed = s.closed) :
    Accounted first R offers s' hs := by
  have hsame :
      answered s'.log = answered s.log := by rw [hlog, answered_append, hans, Bool.or_false]
  rcases h with ⟨hoffers, hunanswered, hothers⟩ | ⟨st, acc, hoffering⟩
  · exact .inl ⟨hoffers, by rw [hsame, hunanswered], hothers⟩
  · refine .inr ⟨st, acc.noted es hlog hes hpc hflag hlocked hpending hnext hclosed, ?_⟩
    unfold Offering
    rw [hsame]
    exact hoffering

theorem isBystander_start {req : Signal} (hoffer : (Act.message req).isOffer = false)
    (hleave : req.action ≠ some .leave) : (⟨some req, .start⟩ : Handler).isBystander = true := by
  have hne : req.action ≠ some .offer := by simpa [Act.isOffer] using hoffer
  simp [Handler.isBystander, hne, hleave]

/-- **A message arrives**: if it is a candidate, its handler carries it. -/
theorem Accounted.arrive {req : Signal} (h : Accounted first R offers s hs)
    (hleave : req.action ≠ some .leave)
    (hcount : (Act.message req).isOffer = true → offers = 0) :
    Accounted first (R ++ req.offered)
      (offers + if (Act.message req).isOffer then 1 else 0) s (⟨some req, .start⟩ :: hs) := by
  have hkind : (⟨some req, .start⟩ : Handler).isOffer = (Act.message req).isOffer := rfl
  rcases h with ⟨hoffers, hans, hothers⟩ | ⟨st, acc, hoffering⟩
  · cases ho : (Act.message req).isOffer with
    | true =>
      rw [hcount ho] at hoffers
      cases hoffers
    | false =>
      refine .inl ⟨hoffers, hans, fun h hh => ?_⟩
      rcases List.mem_cons.mp hh with rfl | hh
      · exact ⟨isBystander_start ho hleave, rfl⟩
      · exact hothers h hh
  · have hacc : Account first (R ++ req.offered) st s (⟨some req, .start⟩ :: hs) := by
      obtain ⟨facts, bystanders, lock, exactly, own, ordered⟩ := acc
      refine ⟨facts, ?_, ?_, ?_, own, ordered⟩
      · intro h hh hno
        rcases List.mem_cons.mp hh with rfl | hh
        · exact ⟨isBystander_start hno hleave, rfl, nofun, nofun⟩
        · exact bystanders h hh hno
      · rwa [List.countP_cons_of_neg (by simp [Handler.checks])]
      · have hfront := List.perm_append_comm.trans (exactly.append_left req.offered)
        simpa [Handler.carried, List.append_assoc] using hfront
    refine .inr ⟨st, hacc, ?_⟩
    cases ho : (Act.message req).isOffer with
    | true =>
      rw [List.filter_cons_of_pos (by rw [hkind, ho])]
      have hzero := hcount ho
      rcases hoffering with ⟨hnil, -, rfl, hans⟩ | ⟨t, -, -, hone, -⟩ | ⟨-, hone, -⟩
      · exact .inr (.inl ⟨_, by rw [hnil], Or.inl rfl, by simp [hzero], hans⟩)
      · omega
      · omega
    | false =>
      rw [List.filter_cons_of_neg (by rw [hkind, ho]; exact Bool.false_ne_true)]
      simpa using hoffering

end Runs

/-- The invariant of a whole session, after the actions `pre`. -/
def Session.Accounted (first : PcId) (pre : List Act) (s : Session) : Prop :=
  pre.countP Act.isOffer ≤ 1 →
    Server.Accounted first (received pre) (pre.countP Act.isOffer) s.shared s.handlers
      ∧ s.socketOpen = true

theorem countP_snoc (pre : List Act) (a : Act) :
    (pre ++ [a]).countP Act.isOffer = pre.countP Act.isOffer + if a.isOffer then 1 else 0 := by
  rw [List.countP_append, List.countP_singleton]

theorem received_snoc (pre : List Act) (a : Act) :
    received (pre ++ [a]) = received pre ++ a.offered := by
  simp [received]

theorem accounted_internal {first : PcId} {pre : List Act} {s s' : Session} {a : Act}
    (h : s.Accounted first pre) (hoffer : a.isOffer = false) (hoffered : a.offered = [])
    (hsocket : s'.socketOpen = s.socketOpen)
    (hstep : ∀ {R n}, Server.Accounted first R n s.shared s.handlers →
      Server.Accounted first R n s'.shared s'.handlers) : s'.Accounted first (pre ++ [a]) := by
  unfold Session.Accounted
  rw [countP_snoc, received_snoc, hoffer, hoffered, List.append_nil, hsocket]
  intro hcount
  obtain ⟨hacc, hopen⟩ := h hcount
  exact ⟨hstep hacc, hopen⟩

/-- **A step of the session**, LEAVE and the end of the socket apart. -/
theorem step_accounted (firstMediaCodec : Text → MediaKind → Option Codec) {first : PcId}
    (pre : List Act) (s : Session) (a : Act) (hending : a.isEnding = false)
    (h : s.Accounted first pre) : (s.step firstMediaCodec a).Accounted first (pre ++ [a]) := by
  cases a with
  | message req =>
    unfold Session.Accounted
    rw [countP_snoc, received_snoc]
    intro hcount
    have hbefore : pre.countP Act.isOffer ≤ 1 := by omega
    obtain ⟨hacc, hopen⟩ := h hbefore
    have hleave : req.action ≠ some .leave := by simpa [Act.isEnding] using hending
    have hzero : (Act.message req).isOffer = true → pre.countP Act.isOffer = 0 := by
      intro ho
      rw [if_pos ho] at hcount
      omega
    simp only [Session.step, hopen, if_true]
    exact ⟨(hacc.arrive hleave hzero).perm (List.perm_append_singleton _ _).symm, trivial⟩
  | socketClosed => cases hending
  | step i o =>
    refine accounted_internal h rfl rfl rfl ?_
    intro R n hacc
    exact turn_inv (I := Server.Accounted first R n) Accounted.perm
      (fun t rest _ _ => accounted_handler firstMediaCodec o) hacc
  | consumer =>
    refine accounted_internal h rfl rfl rfl ?_
    intro R n hacc
    refine hacc.noted
      (s.shared.forwarder.turn.2.map Event.wrote).toList rfl ?_ ?_ rfl rfl rfl rfl rfl
      rfl
    · intro e he
      cases hw : s.shared.forwarder.turn.2 <;> simp [hw] at he
      rw [he]
      rfl
    · cases hw : s.shared.forwarder.turn.2 <;> simp [Event.isAnswer]
  | rtp payload pt sequenceNumber timestamp =>
    refine accounted_internal h rfl rfl rfl ?_
    intro R n hacc
    exact hacc.noted [] (List.append_nil _).symm (by simp) rfl rfl rfl rfl rfl rfl rfl

theorem accounted_fresh (first : PcId) : (Session.fresh first).Accounted first [] := by
  intro _
  refine ⟨.inr ⟨.idle, ⟨⟨rfl, rfl, rfl, rfl, nofun, nofun⟩, by simp [Session.fresh], rfl, ?_, ?_,
    preceded_nil⟩, .inl ⟨rfl, rfl, rfl, rfl⟩⟩, rfl⟩
  · exact .nil
  · simp [Session.fresh, added]

/-- **Every candidate reaches the connection once.**  One OFFER and any number of CANDIDATEs, in any
interleaving and with any outcomes: if the OFFER has reached its ANSWER and all handlers have
finished, then exactly one connection was created, every candidate received was passed to its
`addIceCandidate` exactly once and not before its `setRemoteDescription` had returned, and the
pending list is empty. -/
theorem echo_candidates_once (firstMediaCodec : Text → MediaKind → Option Codec) (first : PcId)
    (acts : List Act) (hone : OneOffer acts)
    (hanswer : answered (run (Session.step firstMediaCodec) (.fresh first) acts).shared.log = true)
    (hdone : (run (Session.step firstMediaCodec) (.fresh first) acts).handlers = []) :
    (run (Session.step firstMediaCodec) (.fresh first) acts).shared.nextPc = first + 1
      ∧ Delivered first acts (run (Session.step firstMediaCodec) (.fresh first) acts).shared := by
  obtain ⟨hcount, hending⟩ := hone
  have hrun := run_inv_trace (I := Session.Accounted first) (fun a => a.isEnding = false)
    (step_accounted firstMediaCodec) acts [] _ hending (accounted_fresh first)
  rw [List.nil_append] at hrun
  obtain ⟨hacc, -⟩ := hrun (Nat.le_of_eq hcount)
  rw [hcount, hdone] at hacc
  rcases hacc with ⟨-, hans, -⟩ | ⟨st, acc, hoffering⟩
  · rw [hanswer] at hans
    cases hans
  · obtain rfl : st = .flushed := by
      rcases hoffering with ⟨-, hzero, -⟩ | ⟨t, hlist, -⟩ | ⟨-, -, hst⟩
      · cases hzero
      · cases hlist
      · exact hst
    have hpending := acc.facts.cleared rfl
    have hexactly := acc.exactly
    simp only [List.flatMap_nil, Stage.waiting, hpending, List.nil_append] at hexactly
    refine ⟨acc.facts.nextPc, ?_, acc.ordered, hpending⟩
    -- all additions are to the one connection, so they are the candidates with its number
    have hown : added (run (Session.step firstMediaCodec) (.fresh first) acts).shared.log
        = ((added (run (Session.step firstMediaCodec) (.fresh first) acts).shared.log).map
          Prod.snd).map (first, ·) := by
      rw [List.map_map]
      refine (List.map_id _).symm.trans (List.map_congr_left fun x hx => ?_)
      exact Prod.ext (acc.own x hx) rfl
    rw [hown]
    exact (hexactly.map (first, ·)).symm

/-- One candidate before the OFFER and one after the ANSWER. -/
def trickle : List Act :=
  wholeCandidate "a".toList 3 ++ wholeOffer 1 ++ wholeCandidate "b".toList 5

set_option maxRecDepth 2000 in
theorem echo_candidates_trickle :
    OneOffer trickle
      ∧ answered (run (Session.step anyCodec) (.fresh 0) trickle).shared.log = true
      ∧ (run (Session.step anyCodec) (.fresh 0) trickle).handlers = []
      ∧ Delivered 0 trickle (run (Session.step anyCodec) (.fresh 0) trickle).shared := by
  have hone : OneOffer trickle := by decide
  have hanswer : answered (run (Session.step anyCodec) (.fresh 0) trickle).shared.log = true := by
    decide
  have hdone : (run (Session.step anyCodec) (.fresh 0) trickle).handlers = [] := by decide
  exact ⟨hone, hanswer, hdone, (echo_candidates_once anyCodec 0 trickle hone hanswer hdone).2⟩

end WebrtcBridge.Server
