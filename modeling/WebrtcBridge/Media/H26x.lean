/-
# H.264 and H.265 files: `H26xReader.java`

`nextSample` collects NAL units up to the end of an access unit: a run of non-VCL units, then a run
of VCL units.  It gets them from `readNextNal`, which looks for a start code, keeps `00 00 01` and
then reads THREE BYTES AT A TIME up to three bytes that look like the next start code.  Those it
keeps in `pendingNal`, as a unit of three bytes without contents, and the next call returns them.

Two things are wrong with that.  A start code is recognised only if it begins at a distance from the
unit that is divisible by three; else it is taken for data and the units run together.  And when it
IS recognised, the call after next searches for a start code again and so passes over the unit
itself.  So the bytes survive only where no start code is ever recognised, and then everything is
one sample, whose flag is that of its first unit.  `h26x_lossless_iff` is the exact answer: no start
code behind the first is aligned, and the units are all VCL or all non-VCL.

That a recognised start code loses a unit is shown by counting bytes other than zero
(`nonzero_samples_le`): what comes out has no more of them than what a start code leads to, and the
unit that is passed over has one.
-/
import WebrtcBridge.Lib.AnnexB

namespace WebrtcBridge.Media.H26x

open Lib Lib.AnnexB

/-! ## 1. The code -/

structure H26xSample where
  data : List UInt8
  timed : Bool
  deriving DecidableEq, Repr

/-- The object.  `read()` takes one byte, so `input` is the bytes that are left. -/
structure H26xReader where
  input : List UInt8
  isHevc : Bool
  eos : Bool
  pendingNal : Option (List UInt8)
  deriving DecidableEq, Repr

def H26xReader.new (input : List UInt8) (isHevc : Bool) : H26xReader := ⟨input, isHevc, false, none⟩

/-- `skipToStartCode()`: what follows the start code; `none` if the stream ends, which sets
`eos`. -/
def skipToStartCode : List UInt8 → Option (List UInt8)
  | [] => none
  | b :: rest =>
    if b ≠ 0 then skipToStartCode rest
    else
      match rest with
      | [] => none
      | b1 :: rest1 =>
        if b1 ≠ 0 then skipToStartCode rest1
        else
          match rest1 with
          | [] => none
          | b2 :: rest2 =>
            if b2 = 1 then some rest2
            else if b2 ≠ 0 then skipToStartCode rest2
            else
              match rest2 with
              | [] => none
              | b3 :: rest3 => if b3 = 1 then some rest3 else skipToStartCode rest3

/-- How the loop of `readNextNal` ends: the unit, what it puts into `pendingNal`, what is left of
the input, and whether it met the end. -/
structure NalEnd where
  nal : List UInt8
  pendingNal : Option (List UInt8)
  input : List UInt8
  eos : Bool
  deriving DecidableEq, Repr

/-- The loop of `readNextNal`: three bytes at a time. -/
def readNal (nalBuf : List UInt8) : List UInt8 → NalEnd
  | b :: b1 :: b2 :: rest =>
    if b = 0 ∧ b1 = 0 ∧ (b2 = 0 ∨ b2 = 1) then ⟨nalBuf, some [0, 0, b2], rest, false⟩
    else readNal (nalBuf ++ [b, b1, b2]) rest
  | short => ⟨nalBuf ++ short, none, [], true⟩

/-- `readNextNal()`. -/
def readNextNal (r : H26xReader) : Option (List UInt8) × H26xReader :=
  match r.pendingNal with
  | some nal => (some nal, { r with pendingNal := none })
  | none =>
    if r.eos then (none, r)
    else
      match skipToStartCode r.input with
      | none => (none, { r with input := [], eos := true })
      | some rest =>
        let e := readNal [0, 0, 1] rest
        (some e.nal, { r with input := e.input, eos := e.eos, pendingNal := e.pendingNal })

/-- The type of a unit, from its first byte. -/
def isVclHeader (isHevc : Bool) (nalHeader : UInt8) : Bool :=
  if !isHevc then
    let nalType := nalHeader &&& 0x1F
    nalType == 1 || nalType == 5
  else
    let nalType := (nalHeader >>> 1) &&& 0x3F
    nalType ≤ 9 || (16 ≤ nalType && nalType ≤ 21)

/-- `isVclNal(nal)`: the unit still has its start code of three bytes. -/
def isVclNal (isHevc : Bool) (nal : List UInt8) : Bool :=
  match nal.drop 3 with
  | [] => false
  | nalHeader :: _ => isVclHeader isHevc nalHeader

/-! ## 2. What one call reads -/

/-- A start code that is found ends in `00 00 01`. -/
theorem skipToStartCode_some (l : List UInt8) : ∀ rest, skipToStartCode l = some rest →
    ∃ pre, l = pre ++ 0 :: 0 :: 1 :: rest := by
  fun_induction skipToStartCode l <;> intro rest h
  case case2 b rest' _ ih =>
    obtain ⟨pre, rfl⟩ := ih rest h
    exact ⟨b :: pre, rfl⟩
  case case4 b _ b1 rest' _ ih =>
    obtain ⟨pre, rfl⟩ := ih rest h
    exact ⟨b :: b1 :: pre, rfl⟩
  case case6 b hb b1 hb1 rest' =>
    simp only [ne_eq, not_not] at hb hb1
    cases h
    exact ⟨[], by simp [hb, hb1]⟩
  case case7 b _ b1 _ b2 rest' _ _ ih =>
    obtain ⟨pre, rfl⟩ := ih rest h
    exact ⟨b :: b1 :: b2 :: pre, rfl⟩
  case case9 b _ b1 hb1 b2 _ hb2 rest' =>
    simp only [ne_eq, not_not] at hb1 hb2
    cases h
    exact ⟨[b], by simp [hb1, hb2]⟩
  case case10 b _ b1 _ b2 _ _ b3 rest' _ ih =>
    obtain ⟨pre, rfl⟩ := ih rest h
    exact ⟨b :: b1 :: b2 :: b3 :: pre, rfl⟩
  -- the stream ends before a start code
  all_goals exact nomatch h

theorem skipToStartCode_code (u : Nal) (t : List UInt8) :
    skipToStartCode (u.code ++ t) = some t := by
  cases hlong : u.long with
  | false =>
    have hcode : u.code = [0, 0, 1] := by simp [Nal.code, hlong]
    rw [hcode, skipToStartCode.eq_def]
    rfl
  | true =>
    have hcode : u.code = [0, 0, 0, 1] := by simp [Nal.code, hlong]
    rw [hcode, skipToStartCode.eq_def]
    rfl

/-- The rest of a unit is passed over. -/
theorem skipToStartCode_clean (t : List UInt8) : ∀ {g : List UInt8}, Clean g →
    skipToStartCode (g ++ t) = skipToStartCode t
  | [], _ => rfl
  | b :: g, hg => by
    by_cases hb : b = 0
    · subst hb
      rcases g with - | ⟨b1, g⟩
      · exact absurd rfl hg.last
      by_cases hb1 : b1 = 0
      · subst hb1
        rcases g with - | ⟨b2, g⟩
        · exact absurd rfl hg.last
        have hb2 : b2 ≠ 0 ∧ b2 ≠ 1 := by simpa [startsCode] using hg.inside 0 (by simp)
        rw [← skipToStartCode_clean t hg.tail.tail.tail, skipToStartCode.eq_def]
        simp [hb2]
      · rw [← skipToStartCode_clean t hg.tail.tail, skipToStartCode.eq_def]
        simp [hb1]
    · rw [← skipToStartCode_clean t hg.tail, skipToStartCode.eq_def]
      simp [hb]

/-- **How the loop ends.**  Either no start code stands at a distance divisible by three and all is
read, or the loop stops at one. -/
theorem readNal_cases (nalBuf l : List UInt8) :
    ((∀ j, 3 ∣ j → startsCode (l.drop j) = false)
        ∧ readNal nalBuf l = ⟨nalBuf ++ l, none, [], true⟩)
      ∨ ∃ pre x rest, 3 ∣ pre.length ∧ (x = 0 ∨ x = 1) ∧ l = pre ++ 0 :: 0 :: x :: rest
        ∧ readNal nalBuf l = ⟨nalBuf ++ pre, some [0, 0, x], rest, false⟩ := by
  -- three bytes at a time
  induction hn : l.length using Nat.strongRecOn generalizing nalBuf l with
  | ind n ih =>
    rcases l with - | ⟨b, - | ⟨b1, - | ⟨b2, rest⟩⟩⟩
    · exact .inl ⟨fun j _ => by simp [startsCode], rfl⟩
    · exact .inl ⟨fun j _ => by cases j <;> simp [startsCode], rfl⟩
    · exact .inl ⟨fun j _ => by rcases j with - | - | j <;> simp [startsCode], rfl⟩
    by_cases h : b = 0 ∧ b1 = 0 ∧ (b2 = 0 ∨ b2 = 1)
    · obtain ⟨rfl, rfl, hx⟩ := id h
      exact .inr ⟨[], b2, rest, by simp, hx, rfl, by simp [readNal, hx]⟩
    · have hread : readNal nalBuf (b :: b1 :: b2 :: rest)
        = readNal (nalBuf ++ [b, b1, b2]) rest := by
        rw [readNal, if_neg h]
      have hlt : rest.length < n := by
        simp only [List.length_cons] at hn
        omega
      rw [hread]
      rcases ih rest.length hlt (nalBuf ++ [b, b1, b2]) rest rfl with
        ⟨hno, heq⟩ | ⟨pre, x, rest', hdvd, hx, rfl, heq⟩
      · refine .inl ⟨fun j hj => ?_, by simp [heq]⟩
        -- here, or three bytes on
        rcases Nat.eq_zero_or_pos j with rfl | hpos
        · simpa [startsCode] using h
        · obtain ⟨k, rfl⟩ : ∃ k, j = k + 3 := ⟨j - 3, by have := Nat.le_of_dvd hpos hj; omega⟩
          exact hno k ((Nat.dvd_add_left (Nat.dvd_refl 3)).mp hj)
      · exact .inr
          ⟨b :: b1 :: b2 :: pre, x, rest', (Nat.dvd_add_left (Nat.dvd_refl 3)).mpr hdvd, hx,
          rfl, by simp [heq]⟩

/-- What is left to read; every unit that is returned takes from it. -/
def H26xReader.left (r : H26xReader) : Nat :=
  2 * r.input.length + if r.pendingNal.isSome then 1 else 0

/-- **What one call can do.** -/
theorem readNextNal_cases (r : H26xReader) :
    (∃ nal, r.pendingNal = some nal ∧ readNextNal r = (some nal, { r with pendingNal := none }))
      ∨ (r.pendingNal = none ∧ r.eos = false ∧ ∃ rest, skipToStartCode r.input = some rest
          ∧ readNextNal r = (some (readNal [0, 0, 1] rest).nal, { r with
              input := (readNal [0, 0, 1] rest).input
              eos := (readNal [0, 0, 1] rest).eos
              pendingNal := (readNal [0, 0, 1] rest).pendingNal }))
      ∨ (r.pendingNal = none ∧ ∃ r', readNextNal r = (none, r') ∧ r'.left ≤ r.left
          ∧ r'.pendingNal = none) := by
  rcases hp : r.pendingNal with - | nal
  · cases heos : r.eos with
    | true => exact .inr (.inr ⟨rfl, r, by simp [readNextNal, hp, heos], Nat.le_refl _, hp⟩)
    | false =>
      rcases hskip : skipToStartCode r.input with - | rest
      · refine .inr (.inr ⟨rfl, _, by simp only [readNextNal, hp, heos, hskip]; rfl, ?_, ?_⟩)
        · simp [H26xReader.left, hp]
        · rfl
      · exact .inr (.inl ⟨rfl, rfl, rest, rfl, by simp [readNextNal, hp, heos, hskip]⟩)
  · exact .inl ⟨nal, rfl, by simp [readNextNal, hp]⟩

theorem readNextNal_left {r r' : H26xReader} {nal : List UInt8}
    (h : readNextNal r = (some nal, r')) : r'.left < r.left := by
  rcases readNextNal_cases r with ⟨nal', hp, heq⟩ | ⟨hp, -, rest, hskip, heq⟩ | ⟨-, r'', heq, -⟩
  · obtain ⟨-, rfl⟩ := Prod.mk.inj (heq.symm.trans h)
    simp [H26xReader.left, hp]
  · obtain ⟨-, rfl⟩ := Prod.mk.inj (heq.symm.trans h)
    obtain ⟨before, hinput⟩ := skipToStartCode_some _ rest hskip
    have hlen : (readNal [0, 0, 1] rest).input.length ≤ rest.length := by
      rcases readNal_cases [0, 0, 1] rest with ⟨-, heq⟩ | ⟨pre, x, rest', -, -, rfl, heq⟩
      · simp [heq]
      · simp [heq]
        omega
    simp only [H26xReader.left, hinput, List.length_append, List.length_cons]
    split <;> omega
  · exact nomatch heq.symm.trans h

/-! ## 3. Samples -/

/-- The loop of `nextSample`: what is collected and whether it has a VCL unit. -/
def sampleLoop (acc : List UInt8) (hasVcl : Bool) (r : H26xReader) :
    List UInt8 × Bool × H26xReader :=
  match _h : readNextNal r with
  | (none, r') => (acc, hasVcl, { r' with eos := true })
  | (some nal, r') =>
    if isVclNal r.isHevc nal then sampleLoop (acc ++ nal) true r'
    else if !hasVcl then sampleLoop (acc ++ nal) hasVcl r'
    -- what the call above may have put there is overwritten
    else (acc, hasVcl, { r' with pendingNal := some nal })
termination_by r.left
decreasing_by all_goals exact readNextNal_left _h

/-- `nextSample()`. -/
def nextSample (r : H26xReader) : Option H26xSample × H26xReader :=
  -- a unit that is still in `pendingNal` is not looked at
  if r.eos then (none, r)
  else
    match sampleLoop [] false r with
    | (acc, hasVcl, r') => if acc.length = 0 then (none, r') else (some ⟨acc, hasVcl⟩, r')

theorem sampleLoop_none (acc : List UInt8) (hasVcl : Bool) {r r' : H26xReader}
    (h : readNextNal r = (none, r')) :
    sampleLoop acc hasVcl r = (acc, hasVcl, { r' with eos := true }) := by
  rw [sampleLoop.eq_def]
  split
  · next r'' heq =>
    obtain ⟨-, rfl⟩ := Prod.mk.inj (heq.symm.trans h)
    rfl
  · next nal r'' heq => exact nomatch heq.symm.trans h

/-- A unit is taken, unless it stands behind a VCL unit and is none. -/
theorem sampleLoop_some (acc : List UInt8) (hasVcl : Bool) {r r' : H26xReader} {nal : List UInt8}
    (h : readNextNal r = (some nal, r')) :
    sampleLoop acc hasVcl r
      = if isVclNal r.isHevc nal then sampleLoop (acc ++ nal) true r'
        else if !hasVcl then sampleLoop (acc ++ nal) hasVcl r'
        else (acc, hasVcl, { r' with pendingNal := some nal }) := by
  rw [sampleLoop.eq_def]
  split
  · next r'' heq => exact nomatch heq.symm.trans h
  · next nal' r'' heq =>
    obtain ⟨hnal, rfl⟩ := Prod.mk.inj (heq.symm.trans h)
    cases hnal
    rfl

theorem sampleLoop_first (acc : List UInt8) {r r' : H26xReader} {nal : List UInt8}
    (h : readNextNal r = (some nal, r')) :
    sampleLoop acc false r = sampleLoop (acc ++ nal) (isVclNal r.isHevc nal) r' := by
  rw [sampleLoop_some acc false h]
  cases isVclNal r.isHevc nal <;> rfl

theorem sampleLoop_break (acc : List UInt8) {r r' : H26xReader} {nal : List UInt8}
    (h : readNextNal r = (some nal, r')) (hvcl : isVclNal r.isHevc nal = false) :
    sampleLoop acc true r = (acc, true, { r' with pendingNal := some nal }) := by
  rw [sampleLoop_some acc true h, hvcl]
  rfl

theorem sampleLoop_vcl (acc : List UInt8) (hasVcl : Bool) {r r' : H26xReader} {nal : List UInt8}
    (h : readNextNal r = (some nal, r')) (hvcl : isVclNal r.isHevc nal = true) :
    sampleLoop acc hasVcl r = sampleLoop (acc ++ nal) true r' := by
  rw [sampleLoop_some acc hasVcl h, if_pos hvcl]

theorem sampleLoop_left (acc : List UInt8) (hasVcl : Bool) (r : H26xReader) :
    (sampleLoop acc hasVcl r).2.2.left ≤ r.left := by
  fun_induction sampleLoop acc hasVcl r with
  | case1 acc hasVcl r r' h =>
    rcases readNextNal_cases r with ⟨nal, -, heq⟩ | ⟨-, -, rest, -, heq⟩ | ⟨-, r'', heq, hle, -⟩
    · exact nomatch heq.symm.trans h
    · exact nomatch heq.symm.trans h
    · obtain ⟨-, rfl⟩ := Prod.mk.inj (heq.symm.trans h)
      exact hle
  | case2 acc hasVcl r nal r' h hv ih => exact Nat.le_trans ih (Nat.le_of_lt (readNextNal_left h))
  | case3 acc hasVcl r nal r' h hv hn ih =>
    exact Nat.le_trans ih (Nat.le_of_lt (readNextNal_left h))
  | case4 acc hasVcl r nal r' h hv hn =>
    have hlt := readNextNal_left h
    simp only [H26xReader.left, Option.isSome_some, if_true] at hlt ⊢
    omega

/-- **What a sample is**: what the loop collects from some first unit on. -/
theorem nextSample_some {r r' : H26xReader} {sample : H26xSample}
    (h : nextSample r = (some sample, r')) :
    ∃ nal r1, readNextNal r = (some nal, r1)
      ∧ sampleLoop nal (isVclNal r.isHevc nal) r1 = (sample.data, sample.timed, r') := by
  unfold nextSample at h
  split at h
  · exact nomatch h
  · rcases hnal : readNextNal r with ⟨- | nal, r1⟩
    · rw [sampleLoop_none _ _ hnal] at h
      exact nomatch h
    · refine ⟨nal, r1, rfl, ?_⟩
      rw [sampleLoop_first _ hnal, List.nil_append] at h
      split at h
      next heq =>
      split at h
      · exact nomatch h
      · cases h
        exact heq

theorem nextSample_left {r r' : H26xReader} {sample : H26xSample}
    (h : nextSample r = (some sample, r')) : r'.left < r.left := by
  obtain ⟨nal, r1, hnal, hloop⟩ := nextSample_some h
  have hle := sampleLoop_left nal (isVclNal r.isHevc nal) r1
  rw [hloop] at hle
  exact Nat.lt_of_le_of_lt hle (readNextNal_left hnal)

/-- `while ((sample = reader.nextSample()) != null)`. -/
def samples (r : H26xReader) : List H26xSample :=
  match _h : nextSample r with
  | (none, _) => []
  | (some sample, r') => sample :: samples r'
termination_by r.left
decreasing_by exact nextSample_left _h

theorem samples_nil {r r' : H26xReader} (h : nextSample r = (none, r')) : samples r = [] := by
  rw [samples.eq_def]
  split
  · rfl
  · next heq => exact nomatch heq.symm.trans h

theorem samples_cons {r r' : H26xReader} {sample : H26xSample}
    (h : nextSample r = (some sample, r')) : samples r = sample :: samples r' := by
  rw [samples.eq_def]
  split
  · next heq => exact nomatch heq.symm.trans h
  · next heq =>
    obtain ⟨hs, rfl⟩ := Prod.mk.inj (heq.symm.trans h)
    cases hs
    rfl

/-! ## 4. Losing bytes -/

/-- The bytes other than zero behind the next start code, with the last byte of the start code. -/
def ahead (input : List UInt8) : Nat :=
  match skipToStartCode input with
  | none => 0
  | some rest => nonzero rest + 1

theorem ahead_le (l : List UInt8) : ahead l ≤ nonzero l := by
  unfold ahead
  split
  · exact Nat.zero_le _
  · next rest hskip =>
    obtain ⟨pre, rfl⟩ := skipToStartCode_some l rest hskip
    simp [nonzero_cons]

/-- The bytes other than zero that the reader can still return: those of the unit that is kept and
those that a start code leads to. -/
def H26xReader.reach (r : H26xReader) : Nat :=
  nonzero (r.pendingNal.getD []) + if r.eos then 0 else ahead r.input

theorem reach_ended {r : H26xReader} (hp : r.pendingNal = none) :
    { r with eos := true }.reach = 0 := by
  simp [H26xReader.reach, hp]

theorem reach_pending_le (r : H26xReader) (nal : List UInt8) :
    { r with pendingNal := some nal }.reach ≤ nonzero nal + r.reach := by
  simp only [H26xReader.reach, Option.getD_some]
  omega

theorem readNextNal_reach {r r' : H26xReader} {nal : List UInt8}
    (h : readNextNal r = (some nal, r')) : nonzero nal + r'.reach ≤ r.reach := by
  rcases readNextNal_cases r with ⟨nal', hp, heq⟩ | ⟨hp, heos, rest, hskip, heq⟩ | ⟨-, r'', heq, -⟩
  · obtain ⟨hnal, rfl⟩ := Prod.mk.inj (heq.symm.trans h)
    cases hnal
    simp [H26xReader.reach, hp]
  · obtain ⟨hnal, rfl⟩ := Prod.mk.inj (heq.symm.trans h)
    cases hnal
    have hreach : r.reach = nonzero rest + 1 := by simp [H26xReader.reach, hp, heos, ahead, hskip]
    rcases readNal_cases [0, 0, 1] rest with ⟨-, hend⟩ | ⟨pre, x, rest', -, -, rfl, hend⟩
    · rw [hreach, hend]
      simp [H26xReader.reach, nonzero_cons]
    · have hrest := ahead_le rest'
      rw [hreach, hend]
      simp [H26xReader.reach, nonzero_cons]
      omega
  · exact nomatch heq.symm.trans h

theorem sampleLoop_reach (acc : List UInt8) (hasVcl : Bool) (r : H26xReader) :
    nonzero (sampleLoop acc hasVcl r).1 + (sampleLoop acc hasVcl r).2.2.reach
      ≤ nonzero acc + r.reach := by
  fun_induction sampleLoop acc hasVcl r with
  | case1 acc hasVcl r r' h =>
    rcases readNextNal_cases r with ⟨nal, -, heq⟩ | ⟨-, -, rest, -, heq⟩ | ⟨-, r'', heq, -, hp⟩
    · exact nomatch heq.symm.trans h
    · exact nomatch heq.symm.trans h
    · obtain ⟨-, rfl⟩ := Prod.mk.inj (heq.symm.trans h)
      simp [reach_ended hp]
  | case2 acc hasVcl r nal r' h hv ih =>
    have hread := readNextNal_reach h
    rw [nonzero_append] at ih
    omega
  | case3 acc hasVcl r nal r' h hv hn ih =>
    have hread := readNextNal_reach h
    rw [nonzero_append] at ih
    omega
  | case4 acc hasVcl r nal r' h hv hn =>
    have hread := readNextNal_reach h
    have hpend := reach_pending_le r' nal
    show nonzero acc + { r' with pendingNal := some nal }.reach ≤ nonzero acc + r.reach
    omega

/-- **What comes out is within reach.** -/
theorem nonzero_samples_le (r : H26xReader) :
    nonzero ((samples r).flatMap (·.data)) ≤ r.reach := by
  fun_induction samples r with
  | case1 r r' h => simp
  | case2 r sample r' h ih =>
    obtain ⟨nal, r1, hnal, hloop⟩ := nextSample_some h
    have hfirst := readNextNal_reach hnal
    have hrest := sampleLoop_reach nal (isVclNal r.isHevc nal) r1
    rw [hloop] at hrest
    simp only [List.flatMap_cons, nonzero_append] at hrest ⊢
    omega

/-- The same behind the first unit. -/
theorem nonzero_samples_first_le {r r' : H26xReader} {nal : List UInt8}
    (h : readNextNal r = (some nal, r')) :
    nonzero ((samples r).flatMap (·.data)) ≤ nonzero nal + r'.reach := by
  rcases hsample : nextSample r with ⟨- | sample, r''⟩
  · simp [samples_nil hsample]
  · rw [samples_cons hsample]
    obtain ⟨nal', r1, hnal, hloop⟩ := nextSample_some hsample
    obtain ⟨hnal', rfl⟩ := Prod.mk.inj (hnal.symm.trans h)
    cases hnal'
    have hrest := sampleLoop_reach nal (isVclNal r.isHevc nal) r1
    have htail := nonzero_samples_le r''
    rw [hloop] at hrest
    simp only [List.flatMap_cons, nonzero_append] at hrest ⊢
    omega

/-! ## 5. When nothing is lost -/

/-- A unit is VCL as the code has it. -/
def vcl (isHevc : Bool) (unit : List UInt8) : Bool := isVclNal isHevc ([0, 0, 1] ++ unit)

/-- What the reader makes of the stream of the units. -/
def read (isHevc : Bool) (us : List Nal) : List H26xSample := samples (.new (stream us) isHevc)

/-- Every unit comes out, in access units. -/
structure Lossless (isHevc : Bool) (us : List Nal) : Prop where
  whole : units ((read isHevc us).flatMap (·.data)) = us.map (·.bytes)
  access : ∀ sample ∈ read isHevc us, ∃ params slices, units sample.data = params ++ slices
    ∧ (∀ n ∈ params, vcl isHevc n = false) ∧ ∀ n ∈ slices, vcl isHevc n = true
  timed : ∀ sample ∈ read isHevc us,
    (sample.timed = true ↔ ∃ n ∈ units sample.data, vcl isHevc n = true)
  last : ∀ sample ∈ (read isHevc us).dropLast, ∃ n ∈ units sample.data, vcl isHevc n = true

theorem readNextNal_new (isHevc : Bool) (u : Nal) (us : List Nal) :
    readNextNal (.new (stream (u :: us)) isHevc)
      = (some (readNal [0, 0, 1] (u.bytes ++ stream us)).nal,
          { input := (readNal [0, 0, 1] (u.bytes ++ stream us)).input
            isHevc := isHevc
            eos := (readNal [0, 0, 1] (u.bytes ++ stream us)).eos
            pendingNal := (readNal [0, 0, 1] (u.bytes ++ stream us)).pendingNal }) := by
  simp [readNextNal, H26xReader.new, stream, skipToStartCode_code]

/-- **How the first unit ends**: at the end of the stream, or at the first start code at a distance
divisible by three, behind which another unit stands. -/
theorem readNal_stream (u : Nal) (us : List Nal) :
    ((∀ j, CodeAt u.bytes.length us j → ¬ 3 ∣ j)
        ∧ readNal [0, 0, 1] (u.bytes ++ stream us)
          = ⟨[0, 0, 1] ++ (u.bytes ++ stream us), none, [], true⟩)
      ∨ ∃ pre x g us', CodeAt u.bytes.length us pre.length ∧ 3 ∣ pre.length ∧ g ≠ [] ∧ Clean g
        ∧ u.bytes ++ stream us = pre ++ ([0, 0, x] ++ (g ++ stream us'))
        ∧ readNal [0, 0, 1] (u.bytes ++ stream us)
          = ⟨[0, 0, 1] ++ pre, some [0, 0, x], g ++ stream us', false⟩ := by
  rcases readNal_cases [0, 0, 1] (u.bytes ++ stream us)
    with ⟨hno, hend⟩ | ⟨pre, x, rest, hdvd, hx, hsplit, hend⟩
  · refine .inl ⟨fun j hcode hdvd => ?_, hend⟩
    have hseen := (startsCode_stream us j u.clean).mpr hcode
    simp [hno j hdvd] at hseen
  · have hseen : startsCode ((u.bytes ++ stream us).drop pre.length) = true := by
      rw [hsplit, List.drop_left]
      rcases hx with rfl | rfl <;> rfl
    have hcode := (startsCode_stream us pre.length u.clean).mp hseen
    obtain ⟨g, us', hne, hg, hdrop⟩ := drop_codeAt us hcode
    obtain rfl : rest = g ++ stream us' := by
      rw [← hdrop, hsplit, ← List.drop_drop, List.drop_left]
      rfl
    exact .inr ⟨pre, x, g, us', hcode, hdvd, hne, hg, hsplit, hend⟩

/-- **A start code that is recognised loses the unit behind it.** -/
theorem aligned_loses {isHevc : Bool} {u : Nal} {us : List Nal} {j : Nat}
    (hcode : CodeAt u.bytes.length us j) (hdvd : 3 ∣ j) :
    units ((read isHevc (u :: us)).flatMap (·.data)) ≠ (u :: us).map (·.bytes) := by
  intro hunits
  rcases readNal_stream u us with ⟨hno, -⟩ | ⟨pre, x, g, us', -, -, hne, hg, hsplit, hend⟩
  · exact hno j hcode hdvd
  · have hall : 1 + nonzero (u.bytes ++ stream us)
        ≤ nonzero ((read isHevc (u :: us)).flatMap (·.data)) := by
      have hle := weight_units_le ((read isHevc (u :: us)).flatMap (·.data))
      rwa [hunits, weight_stream, stream, nonzero_append, u.nonzero_code] at hle
    have hout : nonzero ((read isHevc (u :: us)).flatMap (·.data))
        ≤ nonzero ([0, 0, 1] ++ pre) + (nonzero [0, 0, x] + ahead (g ++ stream us')) := by
      have hnew := readNextNal_new isHevc u us
      rw [hend] at hnew
      exact nonzero_samples_first_le hnew
    -- the search for a start code passes over `g`
    have hskip : ahead (g ++ stream us') ≤ nonzero (stream us') := by
      rw [ahead, skipToStartCode_clean _ hg]
      exact ahead_le _
    have hpos := hg.nonzero_pos hne
    have hone : nonzero [0, 0, 1] = 1 := rfl
    rw [hsplit] at hall
    simp only [nonzero_append, hone] at hall hout
    omega

/-- Without one, everything is one sample. -/
theorem read_unaligned (isHevc : Bool) {u : Nal} {us : List Nal}
    (h : ∀ j, CodeAt u.bytes.length us j → ¬ 3 ∣ j) :
    read isHevc (u :: us)
      = [⟨[0, 0, 1] ++ (u.bytes ++ stream us), vcl isHevc u.bytes⟩] := by
  rcases readNal_stream u us with ⟨-, hend⟩ | ⟨pre, x, g, us', hcode, hdvd, -⟩
  · have hnal := readNextNal_new isHevc u us
    rw [hend] at hnal
    have hend' : readNextNal ⟨[], isHevc, true, none⟩ = (none, ⟨[], isHevc, true, none⟩) := rfl
    have hhead : isVclNal isHevc ([0, 0, 1] ++ (u.bytes ++ stream us)) = vcl isHevc u.bytes := by
      obtain ⟨b, bytes, hb⟩ := List.exists_cons_of_ne_nil u.ne_nil
      simp [vcl, isVclNal, hb]
    have hsample : nextSample (.new (stream (u :: us)) isHevc)
        = (some ⟨[0, 0, 1] ++ (u.bytes ++ stream us), vcl isHevc u.bytes⟩,
            ⟨[], isHevc, true, none⟩) := by
      rw [nextSample, sampleLoop_first _ hnal, sampleLoop_none _ _ hend', ← hhead]
      simp [H26xReader.new]
    rw [read, samples_cons hsample, samples_nil (rfl : nextSample
      ⟨[], isHevc, true, none⟩ = (none, ⟨[], isHevc, true, none⟩))]
  · exact absurd hdvd (h _ hcode)

/-- A list whose first element decides the flag: two runs and a flag that is right leave one run. -/
theorem one_run_iff {α : Type} (p : α → Bool) (a : α) (l : List α) :
    ((∃ xs ys, a :: l = xs ++ ys ∧ (∀ n ∈ xs, p n = false) ∧ ∀ n ∈ ys, p n = true)
        ∧ (p a = true ↔ ∃ n ∈ a :: l, p n = true))
      ↔ (∀ n ∈ a :: l, p n = true) ∨ ∀ n ∈ a :: l, p n = false := by
  constructor
  · rintro ⟨⟨xs, ys, hl, hxs, hys⟩, hflag⟩
    cases ha : p a with
    | true =>
      -- the first run is empty
      rcases xs with - | ⟨x, xs⟩
      · exact .inl (by rwa [hl, List.nil_append])
      · cases hl
        simp [hxs a (by simp)] at ha
    | false =>
      refine .inr fun n hn => ?_
      by_contra hp
      have := hflag.mpr ⟨n, hn, by simpa using hp⟩
      simp [ha] at this
  · rintro (h | h)
    · exact ⟨⟨[], a :: l, rfl, by simp, h⟩, ⟨fun ha => ⟨a, by simp, ha⟩, fun _ => h a (by simp)⟩⟩
    · refine ⟨⟨a :: l, [], by simp, h, by simp⟩, ⟨fun ha => ⟨a, by simp, ha⟩, ?_⟩⟩
      rintro ⟨n, hn, hp⟩
      simp [h n hn] at hp

/-- **When the reader loses nothing.**  No start code is ever recognised behind the first, so that
all units are in one sample, and that sample is one of VCL units only or of others only. -/
theorem h26x_lossless_iff (isHevc : Bool) (u : Nal) (us : List Nal) :
    Lossless isHevc (u :: us)
      ↔ (∀ j, CodeAt u.bytes.length us j → ¬ 3 ∣ j)
        ∧ ((∀ v ∈ u :: us, vcl isHevc v.bytes = true)
          ∨ ∀ v ∈ u :: us, vcl isHevc v.bytes = false) := by
  by_cases hcode : ∀ j, CodeAt u.bytes.length us j → ¬ 3 ∣ j
  · have hread := read_unaligned isHevc hcode
    have hunits : units ([0, 0, 1] ++ (u.bytes ++ stream us)) = (u :: us).map (·.bytes) :=
      units_stream ({ u with long := false } :: us)
    have hrun := one_run_iff (vcl isHevc) u.bytes (us.map (·.bytes))
    rw [← List.map_cons, List.forall_mem_map, List.forall_mem_map] at hrun
    rw [← hrun]
    constructor
    · intro h
      have haccess := h.access _ (hread ▸ List.mem_singleton_self _)
      have htimed := h.timed _ (hread ▸ List.mem_singleton_self _)
      rw [hunits] at haccess htimed
      exact ⟨hcode, haccess, htimed⟩
    · rintro ⟨-, haccess, htimed⟩
      rw [← hunits] at haccess htimed
      exact
        { whole := by rw [hread]; simpa using hunits
          access := by rw [hread]; simpa using haccess
          timed := by rw [hread]; simpa using htimed
          last := by rw [hread]; simp }
  · push Not at hcode
    obtain ⟨j, hcode, hdvd⟩ := hcode
    exact ⟨fun h => absurd h.whole (aligned_loses hcode hdvd), fun h => absurd hdvd (h.1 j hcode)⟩

/-- Two slices of three bytes, `00 00 01 65 88 84` and `00 00 01 41 9a 02`. -/
def twoSlices : List Nal :=
  [⟨false, [0x65, 0x88, 0x84], by decide, ⟨by decide, by decide⟩⟩,
    ⟨false, [0x41, 0x9a, 0x02], by decide, ⟨by decide, by decide⟩⟩]

/-- **The second slice is lost**: what comes out instead is a sample of its start code alone. -/
theorem h26x_slice_lost :
    read false twoSlices = [⟨[0, 0, 1, 0x65, 0x88, 0x84], true⟩, ⟨[0, 0, 1], false⟩]
      ∧ ¬ Lossless false twoSlices := by
  have hread : read false twoSlices
      = [⟨[0, 0, 1, 0x65, 0x88, 0x84], true⟩, ⟨[0, 0, 1], false⟩] := by
    have hfirst : nextSample (.new (stream twoSlices) false)
        = (some ⟨[0, 0, 1, 0x65, 0x88, 0x84], true⟩,
            ⟨[0x41, 0x9a, 0x02], false, false, some [0, 0, 1]⟩) := by
      have hnal : readNextNal (.new (stream twoSlices) false)
          = (some [0, 0, 1, 0x65, 0x88, 0x84],
              ⟨[0x41, 0x9a, 0x02], false, false, some [0, 0, 1]⟩) := by decide
      have hkept : readNextNal ⟨[0x41, 0x9a, 0x02], false, false, some [0, 0, 1]⟩
          = (some [0, 0, 1], ⟨[0x41, 0x9a, 0x02], false, false, none⟩) := rfl
      have hvcl : isVclNal (H26xReader.new (stream twoSlices) false).isHevc
          [0, 0, 1, 0x65, 0x88, 0x84] = true := by decide
      rw [nextSample, sampleLoop_first _ hnal, hvcl, sampleLoop_break _ hkept (by decide)]
      rfl
    have hsecond : nextSample ⟨[0x41, 0x9a, 0x02], false, false, some [0, 0, 1]⟩
        = (some ⟨[0, 0, 1], false⟩, ⟨[], false, true, none⟩) := by
      have hkept : readNextNal ⟨[0x41, 0x9a, 0x02], false, false, some [0, 0, 1]⟩
          = (some [0, 0, 1], ⟨[0x41, 0x9a, 0x02], false, false, none⟩) := rfl
      have hskip : readNextNal ⟨[0x41, 0x9a, 0x02], false, false, none⟩
          = (none, ⟨[], false, true, none⟩) := by decide
      rw [nextSample, sampleLoop_first _ hkept, sampleLoop_none _ _ hskip]
      rfl
    rw [read, samples_cons hfirst, samples_cons hsecond,
      samples_nil (rfl : nextSample ⟨[], false, true, none⟩ = (none, ⟨[], false, true, none⟩))]
  refine ⟨hread, fun h => ?_⟩
  have hwhole := h.whole
  rw [hread] at hwhole
  exact absurd hwhole (by decide)

end WebrtcBridge.Media.H26x
