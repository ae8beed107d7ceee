/-
# An H26x reader comes to an end

`nextSample` gives a unit back that it has read too far: it goes into `pendingNal`, and the next
call gets it once more.  So the bytes that are left do not say how many samples are still to come,
and neither does the flag `eos`, which a call may set while it still returns a sample.

What falls is the WORTH of the reader: the bytes that are left, and three for a unit that is kept.

* A unit that is handed out costs three.  If it was kept, it was worth three; if it is read from the
  stream, its start code has three bytes, and a unit that is kept behind it was three bytes of the
  stream (`readNextNal_worth`).
* Giving a unit back costs nothing, since it was paid for when it was read; and a sample has another
  unit in it, the first (`nextSample_worth`).
* A call that returns null has set `eos`, and with `eos` every call returns null
  (`nextSample_none`).

So a stream of `n` bytes gives at most `n / 3` samples.  That each call ends needs no further proof:
its loops are functions, by the bytes that are left and by `H26xStream.left`.
-/
import WebrtcBridge.Media.Splitting

namespace WebrtcBridge.Media.H26x

open Lib Lib.InputStream

/-! ## 1. Units -/

/-- What the samples still to come are paid from. -/
def H26xReader.worth (r : H26xReader) : Nat :=
  r.input.length + if r.pendingNal.isSome then 3 else 0

theorem worth_of_none {r : H26xReader} (h : r.pendingNal = none) : r.worth = r.input.length := by
  simp [H26xReader.worth, h]

theorem worth_of_some {r : H26xReader} {nal : List UInt8} (h : r.pendingNal = some nal) :
    r.worth = r.input.length + 3 := by
  simp [H26xReader.worth, h]

theorem length_le_worth (r : H26xReader) : r.input.length ≤ r.worth := Nat.le_add_right _ _

/-- A unit that is kept is at least a start code. -/
def H26xReader.Sound (r : H26xReader) : Prop := r.pendingNal ≠ some []

/-- **A unit costs three**, and it has bytes. -/
theorem readNextNal_worth {r r' : H26xReader} {nal : List UInt8} (hr : r.Sound)
    (h : readNextNal r = (some nal, r')) : r'.worth + 3 ≤ r.worth ∧ nal ≠ [] ∧ r'.Sound := by
  rcases readNextNal_cases r with ⟨nal', hp, heq⟩ | ⟨hp, -, rest, hskip, heq⟩ | ⟨-, r'', heq, -⟩
  · obtain ⟨hnal, rfl⟩ := Prod.mk.inj (heq.symm.trans h)
    cases hnal
    refine ⟨?_, ?_, ?_⟩
    · rw [worth_of_some hp, worth_of_none rfl]
    · intro hnil
      exact hr (by rw [hp, hnil])
    · intro hnil
      cases hnil
  · obtain ⟨hnal, rfl⟩ := Prod.mk.inj (heq.symm.trans h)
    cases hnal
    obtain ⟨before, hinput⟩ := skipToStartCode_some _ rest hskip
    rw [worth_of_none hp, hinput]
    rcases readNal_cases [0, 0, 1] rest with ⟨-, hend⟩ | ⟨pre, x, rest', -, -, rfl, hend⟩
    · rw [hend]
      refine ⟨?_, by simp, by simp [H26xReader.Sound]⟩
      rw [worth_of_none rfl]
      simp only [List.length_append, List.length_cons, List.length_nil]
      omega
    · -- the three bytes that are kept are in front of what is left
      rw [hend]
      refine ⟨?_, by simp, by simp [H26xReader.Sound]⟩
      rw [worth_of_some rfl]
      simp only [List.length_append, List.length_cons]
      omega
  · cases heq.symm.trans h

/-- Without a unit nothing is gained. -/
theorem readNextNal_none_worth {r r' : H26xReader} (h : readNextNal r = (none, r')) :
    r'.worth ≤ r.worth ∧ r'.pendingNal = none := by
  rcases readNextNal_cases r with ⟨nal, -, heq⟩ | ⟨-, -, rest, -, heq⟩ | ⟨hp, r'', heq, hle, hp'⟩
  · cases heq.symm.trans h
  · cases heq.symm.trans h
  · obtain ⟨-, rfl⟩ := Prod.mk.inj (heq.symm.trans h)
    simp only [H26xReader.left, hp, hp', Option.isSome_none, Bool.false_eq_true, if_false] at hle
    rw [worth_of_none hp, worth_of_none hp']
    exact ⟨by omega, hp'⟩

/-! ## 2. Samples -/

/-- **What the loop of a sample keeps**, by induction on what is left: it gains nothing, since a
unit that is given back was paid for in the same turn, and what was collected stays. -/
theorem sampleLoop_worth (acc : List UInt8) (hasVcl : Bool) (r : H26xReader) (hr : r.Sound) :
    (sampleLoop acc hasVcl r).2.2.worth ≤ r.worth
      ∧ acc.length ≤ (sampleLoop acc hasVcl r).1.length ∧ (sampleLoop acc hasVcl r).2.2.Sound := by
  induction hn : r.left using Nat.strongRecOn generalizing acc hasVcl r with
  | ind n ih =>
    cases hnal : readNextNal r with
    | mk unit r' =>
      cases unit with
      | none =>
        obtain ⟨hworth, hp⟩ := readNextNal_none_worth hnal
        rw [sampleLoop_none acc hasVcl hnal]
        exact ⟨hworth, Nat.le_refl _, by simp [H26xReader.Sound, hp]⟩
      | some nal =>
        have hlt : r'.left < n := hn ▸ readNextNal_left hnal
        obtain ⟨hpaid, hne, hr'⟩ := readNextNal_worth hr hnal
        have hmore : acc.length ≤ (acc ++ nal).length := by
          rw [List.length_append]
          omega
        cases hasVcl with
        | false =>
          rw [sampleLoop_first acc hnal]
          obtain ⟨hworth, hacc, hsound⟩ :=
            ih r'.left hlt (acc ++ nal) (isVclNal r.isHevc nal) r' hr' rfl
          exact ⟨by omega, hmore.trans hacc, hsound⟩
        | true =>
          cases hvcl : isVclNal r.isHevc nal with
          | true =>
            rw [sampleLoop_vcl acc true hnal hvcl]
            obtain ⟨hworth, hacc, hsound⟩ := ih r'.left hlt (acc ++ nal) true r' hr' rfl
            exact ⟨by omega, hmore.trans hacc, hsound⟩
          | false =>
            rw [sampleLoop_break acc hnal hvcl]
            have hinput := length_le_worth r'
            refine ⟨?_, Nat.le_refl _, ?_⟩
            · rw [worth_of_some rfl]
              simp only
              omega
            · intro hnil
              exact hne (Option.some.inj hnil)

/-- **A sample costs three.** -/
theorem nextSample_worth {r r' : H26xReader} {sample : H26xSample} (hr : r.Sound)
    (h : nextSample r = (some sample, r')) : r'.worth + 3 ≤ r.worth ∧ r'.Sound := by
  obtain ⟨nal, r1, hnal, hloop⟩ := nextSample_some h
  obtain ⟨hpaid, -, hr1⟩ := readNextNal_worth hr hnal
  have hkept := sampleLoop_worth nal (isVclNal r.isHevc nal) r1 hr1
  rw [hloop] at hkept
  obtain ⟨hworth, -, hsound⟩ := hkept
  simp only at hworth
  exact ⟨by omega, hsound⟩

/-- **Null means the end**: the call found no unit at all, or `eos` was set before. -/
theorem nextSample_none {r r' : H26xReader} (hr : r.Sound) (h : nextSample r = (none, r')) :
    r'.eos = true := by
  unfold nextSample at h
  split at h
  · next heos =>
    cases h
    exact heos
  · cases hnal : readNextNal r with
    | mk unit r1 =>
      cases unit with
      | none =>
        rw [sampleLoop_none _ _ hnal] at h
        simp only [List.length_nil, if_true] at h
        cases h
        rfl
      | some nal =>
        -- the first unit is collected, so the sample is not empty
        obtain ⟨-, hne, hr1⟩ := readNextNal_worth hr hnal
        rw [sampleLoop_first _ hnal, List.nil_append] at h
        obtain ⟨-, hacc, -⟩ := sampleLoop_worth nal (isVclNal r.isHevc nal) r1 hr1
        have hpos := List.length_pos_of_ne_nil hne
        cases hloop : sampleLoop nal (isVclNal r.isHevc nal) r1 with
        | mk acc rest =>
          rw [hloop] at h hacc
          simp only at h hacc
          rw [if_neg (by omega)] at h
          cases h

/-! ## 3. Calls -/

/-- **Progress** of the calls on a stream of `n` bytes. -/
structure Progress (n : Nat) (results : List (Option H26xSample)) : Prop where
  /-- Few calls return a sample. -/
  samples : (results.filter Option.isSome).length ≤ n / 3 + 1
  /-- Once null, always null. -/
  ended : results.Pairwise fun earlier later => earlier = none → later = none

/-- With `eos` set every call returns null. -/
theorem answers_ended (isHevc : Bool) (calls : List Unit) (r : H26xStream.Fields) (xs : List UInt8)
    (heos : r.eos = true) :
    answers (fun _ r => H26xStream.nextSample isHevc r) calls r xs
      = (List.replicate calls.length none).map .ok := by
  have hcall : H26xStream.nextSample isHevc r xs = .ok (none, r) xs := by
    rw [H26xStream.nextSample, if_pos heos]
    rfl
  induction calls with
  | nil => rfl
  | cons call calls ih =>
    rw [answers, hcall]
    simp only
    rw [ih]
    rfl

/-- **The calls on a reader**, by induction on them: all return, the samples are paid for, and
behind a null there are only nulls. -/
theorem answers_samples (isHevc : Bool) (calls : List Unit) (r : H26xStream.Fields)
    (xs : List UInt8) (hr : (r.toReader isHevc xs).Sound) :
    ∃ results : List (Option H26xSample),
      answers (fun _ r => H26xStream.nextSample isHevc r) calls r xs = results.map .ok
        ∧ results.length = calls.length
        ∧ 3 * (results.filter Option.isSome).length ≤ (r.toReader isHevc xs).worth
        ∧ results.Pairwise fun earlier later => earlier = none → later = none := by
  induction calls generalizing r xs with
  | nil => exact ⟨[], rfl, rfl, Nat.zero_le _, .nil⟩
  | cons call calls ih =>
    obtain ⟨sample, r', xs', hcall, hlist⟩ := H26xStream.nextSample_list isHevc r xs
    rw [answers, hcall]
    simp only
    cases sample with
    | none =>
      have hend : r'.eos = true := nextSample_none hr hlist
      refine ⟨List.replicate (calls.length + 1) none, ?_, ?_, ?_, ?_⟩
      · rw [answers_ended isHevc calls r' xs' hend]
        rfl
      · rw [List.length_replicate, List.length_cons]
      · simp
      · simp [List.pairwise_replicate]
    | some sample =>
      obtain ⟨hpaid, hr'⟩ := nextSample_worth hr hlist
      obtain ⟨results, hanswers, hlength, hcount, hpairs⟩ := ih r' xs' hr'
      refine ⟨some sample :: results, ?_, ?_, ?_, ?_⟩
      · rw [hanswers]
        rfl
      · rw [List.length_cons, List.length_cons, hlength]
      · rw [List.filter_cons_of_pos rfl, List.length_cons]
        omega
      · refine List.Pairwise.cons ?_ hpairs
        intro later _ hsome
        cases hsome

/-- **An H26x reader makes progress** on every stream, for both codecs and any capacity of its
buffer: every call returns, without an exception, few of them return a sample, and once a call has
returned null all later ones do. -/
theorem h26x_progress {σ : Type} [InputStream σ UInt8] (isHevc : Bool) (capacity : Nat)
    (hcapacity : 0 < capacity) (calls : List Unit) (input : σ) :
    ∃ results : List (Option H26xSample),
      h26xSession isHevc capacity hcapacity calls input
          = .ok (⟨false, none⟩, results.map .ok)
        ∧ results.length = calls.length ∧ Progress (elems input).length results := by
  obtain ⟨results, hanswers, hlength, hcount, hpairs⟩ :=
    answers_samples isHevc calls ⟨false, none⟩ (elems input) (by simp [H26xReader.Sound,
      H26xStream.Fields.toReader])
  have hworth : ((⟨false, none⟩ : H26xStream.Fields).toReader isHevc (elems input)).worth
      = (elems input).length := worth_of_none rfl
  refine ⟨results, ?_, hlength, ?_, hpairs⟩
  · rw [h26xSession_eq]
    simp only [session]
    rw [← hanswers]
    rfl
  · omega

/-- Three calls on a stream of two units. -/
theorem h26x_progress_sample :
    ∃ results : List (Option H26xSample),
      h26xSession false 4096 (by decide) [(), (), ()]
          ([0, 0, 1, 0x65, 7, 8, 0, 0, 1, 0x67, 9, 9] : List UInt8)
          = .ok (⟨false, none⟩, results.map .ok)
        ∧ results.length = 3 ∧ Progress 12 results :=
  h26x_progress false 4096 (by decide) [(), (), ()]
    ([0, 0, 1, 0x65, 7, 8, 0, 0, 1, 0x67, 9, 9] : List UInt8)

end WebrtcBridge.Media.H26x
