/-
# `NativeLibraryLoader.load`: one load for all callers?

The native library is loaded by a task on an executor, and a reference holds the future of that
task:

    f = LOAD_FUTURE.get()
    if (f == null) {
        candidate = LOADER.submit(doLoad)
        existing = LOAD_FUTURE.compareAndExchange(null, candidate)
        f = existing == null ? candidate : existing
    }
    f.get()

The exchange makes all callers agree on ONE future.  But `submit` comes before it and starts a task
that nobody takes back.  Two callers that both find the reference empty load the library twice, and
the one whose exchange fails reports the outcome of the other's task.  And a caller that has been
interrupted does not wait: `f.get()` throws.

So `doLoad` runs once if a caller finds the reference empty only as long as no other has, and every
call reports its outcome if none waits with its interrupt flag up.  The last section says that this
is enough, in every state of every run, and that a run that has come to rest and kept the property
was like that.  The count that carries both halves is `submissions`: the tasks that were submitted
and the callers that are about to submit one.  It never goes down.
-/
import WebrtcBridge.Lib.Pool
import WebrtcBridge.Lib.Runs

namespace WebrtcBridge.Java.NativeLoad

open Lib

/-! ## 1. The system -/

/-- How a run of `doLoad` ends.  What it throws is up to the platform. -/
inductive Outcome (ε : Type)
  | loaded
  | failed (cause : ε)
  deriving DecidableEq, Repr

/-- A task on the executor. -/
inductive LoadTask (ε : Type)
  | waiting
  | running
  | done (outcome : Outcome ε)
  deriving DecidableEq, Repr

/-- What an `IllegalStateException` of `load()` carries. -/
inductive Cause (ε : Type)
  | interruptedException
  | ofTask (cause : ε)
  deriving DecidableEq, Repr

/-- How a call of `load()` ends. -/
inductive Result (ε : Type)
  | returned
  | illegalState (message : String) (cause : Cause ε)
  deriving DecidableEq, Repr

/-- `f.get()` on a future that is done, with `catch (ExecutionException e)`. -/
def Outcome.report {ε : Type} : Outcome ε → Result ε
  | .loaded => .returned
  | .failed cause => .illegalState "Failed to load native WebRTC library" (.ofTask cause)

/-- `f.get()` that is interrupted, with `catch (InterruptedException e)`. -/
def Result.interrupted {ε : Type} : Result ε :=
  .illegalState "Interrupted while loading native WebRTC library" .interruptedException

theorem Outcome.report_ne_interrupted {ε : Type} (outcome : Outcome ε) :
    outcome.report ≠ .interrupted := by
  cases outcome with
  | loaded | failed cause => simp [report, Result.interrupted]

/-- A call that has ended, with the future it waited for. -/
structure Report (ε : Type) where
  future : Nat
  result : Result ε
  deriving DecidableEq, Repr

/-- What the threads share.  A future is the number of its task. -/
structure Shared (ε : Type) where
  loadFuture : Option Nat
  tasks : List (LoadTask ε)
  reports : List (Report ε)
  deriving DecidableEq, Repr

/-- What a caller does next. -/
inductive Point
  | read
  | submit
  | exchange (candidate : Nat)
  | await (f : Nat)
  deriving DecidableEq, Repr

structure Caller where
  point : Point
  interrupted : Bool
  deriving DecidableEq, Repr

section System

variable {ε : Type}

def LoadTask.outcome? : LoadTask ε → Option (Outcome ε)
  | .done outcome => some outcome
  | _ => none

/-- What a future holds, once its task has ended. -/
def Shared.outcome? (s : Shared ε) (f : Nat) : Option (Outcome ε) :=
  s.tasks[f]?.bind LoadTask.outcome?

/-- `f.get()`: a future that is done reports, whatever the flag; else the flag is looked at. -/
def await (s : Shared ε) (c : Caller) (f : Nat) : Shared ε × Option Caller :=
  match s.outcome? f with
  | some outcome => ({ s with reports := s.reports ++ [⟨f, outcome.report⟩] }, none)
  | none =>
    if c.interrupted then ({ s with reports := s.reports ++ [⟨f, .interrupted⟩] }, none)
    else (s, some c)

/-- One step of `load()`. -/
def Caller.step (s : Shared ε) (c : Caller) (_ : Unit) : Shared ε × Option Caller :=
  match c.point with
  | .read =>
    match s.loadFuture with
    | none => (s, some { c with point := .submit })
    | some f => (s, some { c with point := .await f })
  | .submit =>
    ({ s with tasks := s.tasks ++ [.waiting] }, some { c with point := .exchange s.tasks.length })
  | .exchange candidate =>
    match s.loadFuture with
    | none => ({ s with loadFuture := some candidate }, some { c with point := .await candidate })
    | some existing => (s, some { c with point := .await existing })
  | .await f => await s c f

/-- A task begins, or ends. -/
def LoadTask.start : LoadTask ε → LoadTask ε
  | .waiting => .running
  | t => t

def LoadTask.finish (outcome : Outcome ε) : LoadTask ε → LoadTask ε
  | .running => .done outcome
  | t => t

structure Sys (ε : Type) where
  shared : Shared ε
  callers : List Caller
  deriving DecidableEq, Repr

def Sys.new : Sys ε := ⟨⟨none, [], []⟩, []⟩

inductive Act (ε : Type)
  | call
  | interrupt (i : Nat)
  | step (i : Nat)
  | start (j : Nat)
  | finish (j : Nat) (outcome : Outcome ε)
  deriving DecidableEq, Repr

def Sys.step (s : Sys ε) : Act ε → Sys ε
  | .call => { s with callers := s.callers ++ [⟨.read, false⟩] }
  | .interrupt i => { s with callers := s.callers.modify i fun c => { c with interrupted := true } }
  | .step i =>
    ⟨(turn Caller.step s.shared s.callers i ()).1, (turn Caller.step s.shared s.callers i ()).2⟩
  | .start j => { s with shared := { s.shared with tasks := s.shared.tasks.modify j .start } }
  | .finish j outcome =>
    { s with shared := { s.shared with tasks := s.shared.tasks.modify j (.finish outcome) } }

/-! ## 2. The property and its condition -/

/-- `doLoad` has begun. -/
def LoadTask.isStarted : LoadTask ε → Bool
  | .waiting => false
  | _ => true

/-- Every call that has ended reports what the task of its future ended with. -/
def Honest (s : Shared ε) : Prop :=
  ∀ r ∈ s.reports, ∃ outcome, s.outcome? r.future = some outcome ∧ r.result = outcome.report

/-- A caller that waits does so for a task that is there, and its next step reports when that is
done. -/
def Served (s : Sys ε) : Prop :=
  ∀ i c f, s.callers[i]? = some c → c.point = .await f →
    ∃ t, s.shared.tasks[f]? = some t ∧ ∀ outcome, t = .done outcome →
      (s.step (.step i)).shared.reports = s.shared.reports ++ [⟨f, outcome.report⟩]

/-- **A single load**: `doLoad` has begun at most once, every call that has ended reports how it
ended, and no other call waits in vain. -/
structure Single (s : Sys ε) : Prop where
  once : s.shared.tasks.countP LoadTask.isStarted ≤ 1
  honest : Honest s.shared
  served : Served s

/-- A caller that has found the reference empty and has not submitted yet. -/
def Caller.isSubmitting (c : Caller) : Bool := c.point == .submit

/-- Tasks that are there or about to come. -/
def Sys.submissions (s : Sys ε) : Nat :=
  s.shared.tasks.length + s.callers.countP Caller.isSubmitting

/-- The caller's next step finds the reference empty. -/
def Caller.findsEmpty (s : Shared ε) (c : Caller) : Bool :=
  c.point == .read && s.loadFuture.isNone

/-- The caller's next step is an interrupted wait. -/
def Caller.givesUp (s : Shared ε) (c : Caller) : Bool :=
  match c.point with
  | .await f => c.interrupted && (s.outcome? f).isNone
  | _ => false

/-- A caller may find the reference empty if no other has, and may not give up. -/
def Caller.MayStep (s : Sys ε) (c : Caller) : Prop :=
  (c.findsEmpty s.shared = true → s.submissions = 0) ∧ c.givesUp s.shared = false

instance (s : Sys ε) (c : Caller) : Decidable (c.MayStep s) :=
  inferInstanceAs (Decidable (_ ∧ _))

def Allowed (s : Sys ε) : Act ε → Prop
  | .step i => ∀ c ∈ s.callers[i]?, c.MayStep s
  | _ => True

instance (s : Sys ε) : ∀ a, Decidable (Allowed s a)
  | .step i => inferInstanceAs (Decidable (∀ c ∈ s.callers[i]?, c.MayStep s))
  | .call | .interrupt _ | .start _ | .finish _ _ => inferInstanceAs (Decidable True)

/-- All calls and all tasks have ended. -/
def Settled (s : Sys ε) : Prop := s.callers = [] ∧ ∀ t ∈ s.shared.tasks, t.outcome? ≠ none

/-! ## 3. Submissions -/

/-- What a caller's step does to the tasks that are there or about to come. -/
theorem Caller.step_submissions (s : Shared ε) (c : Caller) :
    (c.step s ()).1.tasks.length + (c.step s ()).2.toList.countP isSubmitting
      = s.tasks.length + [c].countP isSubmitting + if c.findsEmpty s then 1 else 0 := by
  rcases c with ⟨point, flag⟩
  cases point with
  | read => cases h : s.loadFuture <;> simp [step, h, findsEmpty, isSubmitting]
  | submit => simp [step, findsEmpty, isSubmitting]
  | exchange candidate => cases h : s.loadFuture <;> simp [step, h, findsEmpty, isSubmitting]
  | await f =>
    simp only [step, await]
    split
    · simp [findsEmpty, isSubmitting]
    · split <;> simp [findsEmpty, isSubmitting]

/-- The same in the system. -/
theorem Sys.step_submissions {s : Sys ε} {i : Nat} {c : Caller} (hc : s.callers[i]? = some c) :
    (s.step (.step i)).submissions
      = s.submissions + if c.findsEmpty s.shared then 1 else 0 := by
  obtain ⟨rest, hbefore, hafter⟩ := perm_putBack hc
  have hcaller := c.step_submissions s.shared
  simp only [Sys.step, submissions, turn_some hc]
  rw [hbefore.countP_eq, (hafter _).countP_eq, List.countP_append, List.countP_cons]
  simp only [List.countP_cons, List.countP_nil] at hcaller
  omega

/-- Interrupting a caller does not move it. -/
theorem map_point_interrupt (callers : List Caller) (i : Nat) :
    (callers.modify i fun c => { c with interrupted := true }).map Caller.point
      = callers.map Caller.point := by
  induction callers generalizing i with
  | nil => simp
  | cons c callers ih =>
    cases i with
    | zero => simp
    | succ i => simp [ih]

theorem countP_isSubmitting (callers : List Caller) :
    callers.countP Caller.isSubmitting = (callers.map Caller.point).countP (· == .submit) := by
  rw [List.countP_map]
  rfl

/-! ## 4. Reports -/

/-- **A future that is done stays done**, in what a step makes of the tasks. -/
theorem outcome?_append {s : Shared ε} {f : Nat} {outcome : Outcome ε} (t : LoadTask ε)
    (h : s.outcome? f = some outcome) :
    ({ s with tasks := s.tasks ++ [t] } : Shared ε).outcome? f = some outcome := by
  obtain ⟨task, htask, houtcome⟩ := Option.bind_eq_some_iff.mp h
  have hlt : f < s.tasks.length := (List.getElem?_eq_some_iff.mp htask).1
  rw [Shared.outcome?, List.getElem?_append_left hlt]
  exact h

theorem outcome?_modify {s : Shared ε} {f : Nat} {outcome : Outcome ε} (j : Nat)
    {g : LoadTask ε → LoadTask ε} (hg : ∀ o, g (.done o) = .done o)
    (h : s.outcome? f = some outcome) :
    ({ s with tasks := s.tasks.modify j g } : Shared ε).outcome? f = some outcome := by
  obtain ⟨task, htask, houtcome⟩ := Option.bind_eq_some_iff.mp h
  have hdone : task = .done outcome := by
    cases task <;> simp_all [LoadTask.outcome?]
  subst hdone
  simp only [Shared.outcome?, List.getElem?_modify, htask]
  split <;> simp [hg, LoadTask.outcome?]

theorem Honest.mono {s s' : Shared ε} (h : Honest s) (hreports : s'.reports = s.reports)
    (hdone : ∀ f outcome, s.outcome? f = some outcome → s'.outcome? f = some outcome) :
    Honest s' := by
  intro r hr
  obtain ⟨outcome, htask, hresult⟩ := h r (hreports ▸ hr)
  exact ⟨outcome, hdone _ _ htask, hresult⟩

theorem Honest.snoc {s : Shared ε} (h : Honest s) {f : Nat} {outcome : Outcome ε}
    (hf : s.outcome? f = some outcome) :
    Honest { s with reports := s.reports ++ [⟨f, outcome.report⟩] } := by
  intro r hr
  rcases List.mem_append.mp hr with hr | hr
  · exact h r hr
  · obtain rfl := List.mem_singleton.mp hr
    exact ⟨outcome, hf, rfl⟩

/-- A caller that does not give up keeps the reports honest. -/
theorem Caller.step_honest {s : Shared ε} {c : Caller} (hwait : c.givesUp s = false)
    (h : Honest s) : Honest (c.step s ()).1 := by
  rcases c with ⟨point, flag⟩
  cases point with
  | read => cases hf : s.loadFuture <;> simpa [step, hf] using h
  | submit => exact Honest.mono h rfl fun f outcome => outcome?_append _
  | exchange candidate =>
    cases hf : s.loadFuture with
    | none =>
      have hset : Honest { s with loadFuture := some candidate } :=
        Honest.mono h rfl fun _ _ hf => hf
      simpa [step, hf] using hset
    | some existing => simpa [step, hf] using h
  | await f =>
    cases hf : s.outcome? f with
    | some outcome => simpa [step, await, hf] using Honest.snoc h hf
    | none =>
      have hflag : flag = false := by simpa [givesUp, hf] using hwait
      simpa [step, await, hf, hflag] using h

/-- Somebody gave up. -/
def GaveUp (s : Shared ε) : Prop := ∃ r ∈ s.reports, r.result = .interrupted

theorem Honest.not_gaveUp {s : Shared ε} (h : Honest s) : ¬ GaveUp s := by
  rintro ⟨r, hr, hresult⟩
  obtain ⟨outcome, -, hreport⟩ := h r hr
  exact outcome.report_ne_interrupted (hreport.symm.trans hresult)

/-- A caller adds to the reports, and one that gives up says so. -/
theorem Caller.step_reports (s : Shared ε) (c : Caller) :
    s.reports ⊆ (c.step s ()).1.reports ∧ (c.givesUp s = true → GaveUp (c.step s ()).1) := by
  rcases c with ⟨point, flag⟩
  cases point with
  | read => cases hf : s.loadFuture <;> simp [step, hf, givesUp]
  | submit => simp [step, givesUp]
  | exchange candidate => cases hf : s.loadFuture <;> simp [step, hf, givesUp]
  | await f =>
    cases hf : s.outcome? f with
    | some outcome => simp [step, await, hf, givesUp]
    | none => cases flag <;> simp [step, await, hf, givesUp, GaveUp]

/-! ## 5. What an action can do -/

/-- An action that submits nothing and reports nothing, and after which what was done is done. -/
structure Quiet (s s' : Sys ε) : Prop where
  submissions : s'.submissions = s.submissions
  reports : s'.shared.reports = s.shared.reports
  outcomes : ∀ f outcome, s.shared.outcome? f = some outcome → s'.shared.outcome? f = some outcome

/-- **The cases of an action**: a caller's step, or quiet. -/
theorem Sys.step_cases (s : Sys ε) (a : Act ε) :
    (∃ i c, a = .step i ∧ s.callers[i]? = some c) ∨ (Allowed s a ∧ Quiet s (s.step a)) := by
  cases a with
  | step i =>
    cases hc : s.callers[i]? with
    | none =>
      have hsame : s.step (.step i) = s := by simp [Sys.step, turn_none hc]
      refine .inr ⟨by simp [Allowed, hc], ?_⟩
      rw [hsame]
      exact ⟨rfl, rfl, fun _ _ h => h⟩
    | some c => exact .inl ⟨i, c, rfl, hc⟩
  | call =>
    refine .inr ⟨trivial, ?_, rfl, fun _ _ h => h⟩
    simp [Sys.step, Sys.submissions, Caller.isSubmitting]
  | interrupt i =>
    refine .inr ⟨trivial, ?_, rfl, fun _ _ h => h⟩
    simp [Sys.step, Sys.submissions, countP_isSubmitting, map_point_interrupt]
  | start j =>
    refine .inr ⟨trivial, ?_, rfl, fun _ _ => outcome?_modify j fun _ => rfl⟩
    simp [Sys.step, Sys.submissions]
  | finish j outcome =>
    refine .inr ⟨trivial, ?_, rfl, fun _ _ => outcome?_modify j fun _ => rfl⟩
    simp [Sys.step, Sys.submissions]

theorem Sys.step_shared {s : Sys ε} {i : Nat} {c : Caller} (hc : s.callers[i]? = some c) :
    (s.step (.step i)).shared = (c.step s.shared ()).1 := by
  simp [Sys.step, turn_some hc]

/-- **One allowed action** keeps a single submission and honest reports. -/
theorem allowed_step {s : Sys ε} {a : Act ε} (ha : Allowed s a)
    (h : s.submissions ≤ 1 ∧ Honest s.shared) :
    (s.step a).submissions ≤ 1 ∧ Honest (s.step a).shared := by
  obtain ⟨hfew, hhonest⟩ := h
  rcases s.step_cases a with ⟨i, c, rfl, hc⟩ | ⟨-, hquiet⟩
  · obtain ⟨hempty, hwait⟩ := ha c hc
    constructor
    · rw [Sys.step_submissions hc]
      split
      · next hfinds => simp [hempty hfinds]
      · exact hfew
    · rw [Sys.step_shared hc]
      exact c.step_honest hwait hhonest
  · constructor
    · rw [hquiet.submissions]
      exact hfew
    · exact Honest.mono hhonest hquiet.reports hquiet.outcomes

/-- What cannot be undone: a second submission, or a caller that gave up. -/
def Spoiled (s : Sys ε) : Prop := 2 ≤ s.submissions ∨ GaveUp s.shared

/-- No action undoes it. -/
theorem Spoiled.step {s : Sys ε} (h : Spoiled s) (a : Act ε) : Spoiled (s.step a) := by
  rcases s.step_cases a with ⟨i, c, rfl, hc⟩ | ⟨-, hquiet⟩
  · rcases h with hmany | ⟨r, hr, hresult⟩
    · left
      rw [Sys.step_submissions hc]
      omega
    · right
      rw [Sys.step_shared hc]
      exact ⟨r, (c.step_reports s.shared).1 hr, hresult⟩
  · rcases h with hmany | ⟨r, hr, hresult⟩
    · left
      rw [hquiet.submissions]
      exact hmany
    · right
      exact ⟨r, hquiet.reports ▸ hr, hresult⟩

/-- **One forbidden action** spoils the load. -/
theorem spoiled_of_not_allowed {s : Sys ε} {a : Act ε} (ha : ¬ Allowed s a) :
    Spoiled (s.step a) := by
  rcases s.step_cases a with ⟨i, c, rfl, hc⟩ | ⟨hallowed, -⟩
  · have hmay : ¬ c.MayStep s := by simpa [Allowed, hc] using ha
    rcases not_and_or.mp hmay with hempty | hwait
    · obtain ⟨hfinds, hsome⟩ := Classical.not_imp.mp hempty
      left
      rw [Sys.step_submissions hc, if_pos hfinds]
      omega
    · right
      rw [Sys.step_shared hc]
      exact (c.step_reports s.shared).2 (by simpa using hwait)
  · exact absurd hallowed ha

/-! ### Whom a caller waits for -/

/-- The future that a caller has got. -/
def Point.future? : Point → Option Nat
  | .exchange f | .await f => some f
  | .read | .submit => none

/-- All futures are those of tasks. -/
structure Backed (s : Shared ε) (points : List Point) : Prop where
  stored : ∀ f ∈ s.loadFuture, f < s.tasks.length
  held : ∀ p ∈ points, ∀ f ∈ p.future?, f < s.tasks.length

theorem Backed.mono {s s' : Shared ε} {points : List Point} (h : Backed s points)
    (hstored : ∀ f ∈ s'.loadFuture, f < s'.tasks.length)
    (hle : s.tasks.length ≤ s'.tasks.length) : Backed s' points :=
  ⟨hstored, fun p hp f hf => Nat.lt_of_lt_of_le (h.held p hp f hf) hle⟩

theorem Backed.cons {s : Shared ε} {points : List Point} (h : Backed s points) {p : Point}
    (hp : ∀ f ∈ p.future?, f < s.tasks.length) : Backed s (p :: points) :=
  ⟨h.stored, List.forall_mem_cons.mpr ⟨hp, h.held⟩⟩

/-- A caller gets the future of its own task, or the one that is stored. -/
theorem Caller.step_backed {s : Shared ε} {c : Caller} {rest : List Point}
    (h : Backed s (c.point :: rest)) :
    Backed (c.step s ()).1 ((c.step s ()).2.toList.map Caller.point ++ rest) := by
  obtain ⟨hown, hheld⟩ := List.forall_mem_cons.mp h.held
  have hrest : Backed s rest := ⟨h.stored, hheld⟩
  rcases c with ⟨point, flag⟩
  cases point with
  | read =>
    cases hf : s.loadFuture with
    | none =>
      simp only [step, hf]
      exact hrest.cons (by simp [Point.future?])
    | some f =>
      simp only [step, hf]
      exact hrest.cons (by simpa [Point.future?] using h.stored f hf)
  | submit =>
    have hlength : (s.tasks ++ [LoadTask.waiting]).length = s.tasks.length + 1 := by simp
    have hmore : Backed { s with tasks := s.tasks ++ [.waiting] } rest :=
      hrest.mono (fun f hf => by have := h.stored f hf; simp only [hlength]; omega)
        (by simp only [hlength]; omega)
    exact hmore.cons (by simp [Point.future?])
  | exchange candidate =>
    cases hf : s.loadFuture with
    | none =>
      have hset : Backed { s with loadFuture := some candidate } rest :=
        hrest.mono (by simpa using hown candidate rfl) (Nat.le_refl _)
      simp only [step, hf]
      exact hset.cons (by simpa [Point.future?] using hown candidate rfl)
    | some existing =>
      simp only [step, hf]
      exact hrest.cons (by simpa [Point.future?] using h.stored existing hf)
  | await f =>
    simp only [step, await]
    split
    · exact ⟨h.stored, hheld⟩
    · split
      · exact ⟨h.stored, hheld⟩
      · exact h

/-- **Every action keeps the futures backed.** -/
theorem Backed.step {s : Sys ε} (a : Act ε) (h : Backed s.shared (s.callers.map Caller.point)) :
    Backed (s.step a).shared ((s.step a).callers.map Caller.point) := by
  cases a with
  | call =>
    simp only [Sys.step, List.map_append, List.map_singleton]
    exact ⟨h.stored, List.forall_mem_append.mpr ⟨h.held, by simp [Point.future?]⟩⟩
  | interrupt i =>
    simp only [Sys.step, map_point_interrupt]
    exact h
  | start j | finish j outcome =>
    exact h.mono (by simpa [Sys.step] using h.stored) (by simp [Sys.step])
  | step i =>
    refine turn_inv (I := fun s callers => Backed s (callers.map Caller.point)) ?_ ?_ h
    · intro s callers callers' hperm hbacked
      exact ⟨hbacked.stored, fun p hp => hbacked.held p ((hperm.map _).mem_iff.mpr hp)⟩
    · intro c rest _ _ hbacked
      rw [List.map_append]
      exact Caller.step_backed hbacked

theorem Backed.served {s : Sys ε} (h : Backed s.shared (s.callers.map Caller.point)) :
    Served s := by
  intro i c f hc hawait
  have hlt : f < s.shared.tasks.length :=
    h.held c.point (List.mem_map_of_mem (List.mem_of_getElem? hc)) f
      (by simp [hawait, Point.future?])
  refine ⟨s.shared.tasks[f], List.getElem?_eq_getElem hlt, ?_⟩
  intro outcome hdone
  have houtcome : s.shared.outcome? f = some outcome := by
    simp [Shared.outcome?, List.getElem?_eq_getElem hlt, hdone, LoadTask.outcome?]
  simp [Sys.step_shared hc, Caller.step, hawait, await, houtcome]

/-! ## 6. Single native load -/

theorem single_of_submissions {s : Sys ε} (hfew : s.submissions ≤ 1) (h : Honest s.shared)
    (hbacked : Backed s.shared (s.callers.map Caller.point)) : Single s := by
  refine ⟨?_, h, hbacked.served⟩
  have hstarted := s.shared.tasks.countP_le_length (p := LoadTask.isStarted)
  simp only [Sys.submissions] at hfew
  omega

/-- At rest every task has run. -/
theorem Single.not_spoiled {s : Sys ε} (hrest : Settled s) (h : Single s) : ¬ Spoiled s := by
  rintro (hmany | hgave)
  · have hstarted : s.shared.tasks.countP LoadTask.isStarted = s.shared.tasks.length := by
      refine List.countP_eq_length.mpr fun t ht => ?_
      have hended := hrest.2 t ht
      cases t <;> simp_all [LoadTask.outcome?, LoadTask.isStarted]
    have honce := h.once
    simp only [Sys.submissions, hrest.1, List.countP_nil] at hmany
    omega
  · exact Honest.not_gaveUp h.honest hgave

/-- **Single native load.**  In every run in which a caller finds the reference empty only if no
other has, and none gives up waiting, `doLoad` begins at most once and every call reports how it
ended, or waits for a task and reports when it is done, in every state.  And a run that has come to
rest with a single load was such a run. -/
theorem single_load (as : List (Act ε)) :
    (Heeds Allowed Sys.step Sys.new as → Always Single Sys.step Sys.new as)
      ∧ (Settled (run Sys.step Sys.new as) → Single (run Sys.step Sys.new as) →
          Heeds Allowed Sys.step Sys.new as) := by
  constructor
  · intro hheeds
    have hnew : ((Sys.new : Sys ε).submissions ≤ 1 ∧ Honest (Sys.new : Sys ε).shared)
        ∧ Backed (Sys.new : Sys ε).shared ((Sys.new : Sys ε).callers.map Caller.point) :=
      ⟨by simp [Sys.new, Sys.submissions, Honest], by simp [Sys.new], by simp [Sys.new]⟩
    have hinv : Always (fun s : Sys ε => (s.submissions ≤ 1 ∧ Honest s.shared)
        ∧ Backed s.shared (s.callers.map Caller.point)) Sys.step Sys.new as :=
      always_of_heeds (fun _ a ha h => ⟨allowed_step ha h.1, h.2.step a⟩) as Sys.new hnew hheeds
    exact hinv.mono fun s h => single_of_submissions h.1.1 h.1.2 h.2
  · intro hrest hsingle
    have hclean : ¬ Spoiled (run Sys.step Sys.new as) := hsingle.not_spoiled hrest
    exact heeds_of_last (B := Spoiled) (fun _ a h => h.step a)
      (fun _ _ => spoiled_of_not_allowed) as
      Sys.new hclean

end System

/-- Two callers, the second of which comes when the first has exchanged. -/
def inTurn : List (Act Unit) :=
  [.call, .call, .step 0, .step 0, .step 0, .step 1, .start 0, .finish 0 (.failed ()), .step 0,
    .step 0]

theorem single_load_in_turn :
    Heeds Allowed Sys.step Sys.new inTurn ∧ Always Single Sys.step Sys.new inTurn := by
  have hheeds : Heeds Allowed Sys.step Sys.new inTurn := by decide
  exact ⟨hheeds, (single_load inTurn).1 hheeds⟩

/-- Both callers read before either exchanges. -/
def bothRead : List (Act Unit) :=
  [.call, .call, .step 0, .step 1, .step 0, .step 1, .step 0, .step 1, .start 0, .start 1,
    .finish 0 .loaded, .finish 1 .loaded, .step 0, .step 0]

/-- **The library is loaded twice**, and both callers report the first load. -/
theorem loaded_twice :
    Settled (run Sys.step Sys.new bothRead)
      ∧ (run Sys.step Sys.new bothRead).shared.tasks = [.done .loaded, .done .loaded]
      ∧ (run Sys.step Sys.new bothRead).shared.reports = [⟨0, .returned⟩, ⟨0, .returned⟩]
      ∧ ¬ Single (run Sys.step Sys.new bothRead) := by
  refine ⟨⟨by decide, by decide⟩, by decide, by decide, fun h => ?_⟩
  exact absurd h.once (by decide)

end WebrtcBridge.Java.NativeLoad
