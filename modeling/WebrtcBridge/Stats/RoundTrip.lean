/-
# Which reports come through

The bridge promises JSON, and Java should find in it what the report says.  `stats_round_trip_iff`
says for which reports this is so: those that consist of GOOD entries, and those with nothing but a
single entry that is not printed.  A good entry is printed, has a free string with no quote, no
border and no bad character or escape in it, and has numbers that fit.

An entry that is not printed still gets its comma, so next to any other entry it ruins the
array.  Since a report of a live connection has transports, candidate pairs, codecs and certificates
in it, this is the usual case.

For the reports that do not come through, the proof looks at the first entry that is not good.  Up
to there both the parser and the recogniser of JSON are under control, and what the entry does wrong
shows, whatever follows.
-/
import WebrtcBridge.Stats.FreeString

namespace WebrtcBridge.Stats

open Lib Lib.Text Lib.Json

/-! ## 1. The property -/

/-- What Java should find: the entries it knows, each kind in the order of the report. -/
def expected (report : List RTCStatsReportEntry) : StatsReport :=
  collect (report.map RTCStatsReportEntry.toJava)

/-- **The report comes through**: what the bridge returns is a JSON array, and Java reads the
entries of the report from it. -/
def RoundTrips (report : List RTCStatsReportEntry) : Prop :=
  IsArray (getStats report) ∧ parse (getStats report) = .ok (expected report)

/-- An entry that does no harm. -/
structure Good (e : RTCStatsReportEntry) : Prop where
  printed : e.isPrinted = true
  neat : Neat e.freeString
  body : StringBody e.freeString
  fits : e.Fits

theorem reportText_eq (report : List RTCStatsReportEntry) :
    reportText report = arrayText (report.map RTCStatsReportEntry.text) := by
  have hclose : ∀ es : List RTCStatsReportEntry,
      printEntries false es ++ [']'] = closeArray (es.map RTCStatsReportEntry.text) := by
    intro es
    induction es with
    | nil => rfl
    | cons e es ih => simp [printEntries, closeArray, ← ih]
  cases report with
  | nil => rfl
  | cons e es => simp [reportText, printEntries, arrayText, ← hclose]

theorem not_isArray_nil : ¬ IsArray [] := fun h => not_derives_nil h.1

/-- The C string makes no difference: a text with a NUL in it is not JSON anyway. -/
theorem roundTrips_iff (report : List RTCStatsReportEntry) :
    RoundTrips report
      ↔ IsArray (reportText report) ∧ parse (reportText report) = .ok (expected report) := by
  unfold RoundTrips getStats intoCstring
  by_cases hnul : (reportText report).contains '\x00' = true
  · have hmem : '\x00' ∈ reportText report := by simpa using hnul
    rw [if_pos hnul]
    exact ⟨fun h => absurd h.1 not_isArray_nil, fun h => absurd hmem h.1.1.nul_not_mem⟩
  · rw [if_neg hnul]

/-! ## 2. The text around an entry -/

/-- The text of an entry between its braces. -/
def entryBody (e : RTCStatsReportEntry) : Text := bodyText e.fields

theorem text_eq_body {e : RTCStatsReportEntry} (h : e.isPrinted = true) :
    e.text = '\x7b' :: (entryBody e ++ ['\x7d']) := by
  rw [RTCStatsReportEntry.text_eq h, fieldsText_eq, entryBody]

theorem reportText_append (pre : List RTCStatsReportEntry) (e : RTCStatsReportEntry)
    (post : List RTCStatsReportEntry) :
    reportText (pre ++ e :: post) = '[' :: valuesThen (pre.map RTCStatsReportEntry.text)
      (e.text ++ closeArray (post.map RTCStatsReportEntry.text)) := by
  rw [reportText_eq, List.map_append, List.map_cons, arrayText_append]

/-- The report as the parser sees it, from a printed entry on. -/
theorem reportText_bodies {pre : List RTCStatsReportEntry} {e : RTCStatsReportEntry}
    {post : List RTCStatsReportEntry} {rest : Text} (hpre : ∀ x ∈ pre, x.isPrinted = true)
    (hrest : e.text ++ closeArray (post.map RTCStatsReportEntry.text) = '\x7b' :: (rest ++ [']'])) :
    reportText (pre ++ e :: post)
      = '[' :: ('\x7b' :: bodiesThen (pre.map entryBody) rest ++ [']']) := by
  have hbodies : pre.map RTCStatsReportEntry.text
      = (pre.map entryBody).map fun b => '\x7b' :: (b ++ ['\x7d']) := by
    rw [List.map_map]
    exact List.map_congr_left fun x hx => text_eq_body (hpre x hx)
  rw [reportText_append, hrest, hbodies, valuesThen_bodies, bodiesThen_append]
  rfl

/-- An entry that the parser gets through. -/
def Readable (e : RTCStatsReportEntry) : Prop := e.isPrinted = true ∧ Neat e.freeString

theorem readsAs_of_readable {es : List RTCStatsReportEntry} (h : ∀ x ∈ es, Readable x) :
    ∀ x ∈ es, ReadsAs entryBody RTCStatsReportEntry.readBack x :=
  fun x hx => RTCStatsReportEntry.readsAs (h x hx).1 (h x hx).2

/-- **A report of readable entries is read completely.** -/
theorem parse_readable {es : List RTCStatsReportEntry} (h : ∀ x ∈ es, Readable x) :
    parse (reportText es) = .ok (collect (es.map RTCStatsReportEntry.readBack)) := by
  rcases List.eq_nil_or_concat' es with rfl | ⟨init, e, rfl⟩
  · rfl
  · have hinit : ∀ x ∈ init, Readable x := fun x hx => h x (List.mem_append_left _ hx)
    have he : Readable e := h e (by simp)
    have hrest : e.text ++ closeArray (([] : List RTCStatsReportEntry).map RTCStatsReportEntry.text)
        = '\x7b' :: ((entryBody e ++ ['\x7d']) ++ [']']) := by
      rw [text_eq_body he.1]
      simp [closeArray]
    rw [reportText_bodies (fun x hx => (hinit x hx).1) hrest,
      parse_bodies (readsAs_of_readable hinit) (RTCStatsReportEntry.readsAs he.1 he.2),
      List.map_append]
    rfl

/-- **Readable entries are read**, whatever comes behind the next printed entry. -/
theorem parse_readable_then {es : List RTCStatsReportEntry} (h : ∀ x ∈ es, Readable x)
    {e : RTCStatsReportEntry} (he : e.isPrinted = true) {post : List RTCStatsReportEntry}
    {r : StatsReport} (hparse : parse (reportText (es ++ e :: post)) = .ok r) :
    ∃ os, r = collect (es.map RTCStatsReportEntry.readBack ++ os) := by
  obtain ⟨u, hu⟩ := closeArray_last (post.map RTCStatsReportEntry.text)
  have hrest : e.text ++ closeArray (post.map RTCStatsReportEntry.text)
      = '\x7b' :: ((entryBody e ++ '\x7d' :: u) ++ [']']) := by
    rw [text_eq_body he, hu]
    simp
  rw [reportText_bodies (fun x hx => (h x hx).1) hrest, parse_bodiesThen (readsAs_of_readable h)]
    at hparse
  obtain ⟨os, -, rfl⟩ := map_ok hparse
  exact ⟨os, rfl⟩

/-! ## 3. The first bad entry -/

theorem filterMap_ne {α β : Type} {f : α → Option β} {a a' : α} {b b' : β} (ha : f a = some b)
    (ha' : f a' = some b') (hne : b ≠ b') (pre as as' : List α) :
    (pre ++ a :: as).filterMap f ≠ (pre ++ a' :: as').filterMap f := by
  intro heq
  simp only [List.filterMap_append, List.filterMap_cons, ha, ha', List.append_cancel_left_eq,
    List.cons.injEq] at heq
  exact hne heq.1

/-- The reports differ where the objects do. -/
theorem collect_ne {o o' : Option StatsObject} (h : Differs o o')
    (pre os os' : List (Option StatsObject)) :
    collect (pre ++ o :: os) ≠ collect (pre ++ o' :: os') := by
  intro heq
  -- objects of different kinds, and missing ones, do not count as differing
  rcases o with _ | (r | r | r) <;> rcases o' with _ | (r' | r' | r') <;> try exact h
  · exact filterMap_ne (by rfl) (by rfl) h _ _ _ (congrArg StatsReport.inboundRtpStreams heq)
  · exact filterMap_ne (by rfl) (by rfl) h _ _ _ (congrArg StatsReport.peerConnections heq)
  · exact filterMap_ne (by rfl) (by rfl) h _ _ _ (congrArg StatsReport.remoteCandidates heq)

theorem differs_of_ne {e : RTCStatsReportEntry} (hprinted : e.isPrinted = true)
    (h : e.readBack ≠ e.toJava) : Differs e.readBack e.toJava := by
  cases e with
  | peerConnection s => exact fun heq => h (congrArg (some ∘ StatsObject.peerConnection) heq)
  | inboundRtp s => exact fun heq => h (congrArg (some ∘ StatsObject.inboundRtp) heq)
  | remoteCandidate s => exact fun heq => h (congrArg (some ∘ StatsObject.remoteCandidate) heq)
  | _ => cases hprinted

section

variable {pre : List RTCStatsReportEntry} {e : RTCStatsReportEntry}
    {post : List RTCStatsReportEntry}

/-- The recogniser behind values that are JSON. -/
theorem feed_reportText (hpre : ∀ x ∈ pre, Derives .value x.text) :
    feed step ⟨.value, []⟩ (reportText (pre ++ e :: post))
      = feed step ⟨if pre.isEmpty then .valueOrClose else .value, [.array]⟩
        (e.text ++ closeArray (post.map RTCStatsReportEntry.text)) := by
  have hvalues : ∀ v ∈ pre.map RTCStatsReportEntry.text, Derives .value v := by
    intro v hv
    obtain ⟨x, hx, rfl⟩ := List.mem_map.mp hv
    exact hpre x hx
  have hrun := feed_valuesThen [] (e.text ++ closeArray (post.map RTCStatsReportEntry.text))
    (.inr rfl : AwaitsValue .valueOrClose) hvalues
  rw [reportText_append, feed_start (.inl rfl) [] rfl (by decide) rfl, hrun, List.isEmpty_map]

theorem awaitsValue_if (b : Bool) : AwaitsValue (if b then .valueOrClose else .value) := by
  cases b
  · exact .inl rfl
  · exact .inr rfl

/-- **An entry that is not printed ruins the array**, unless it is alone. -/
theorem not_isArray_of_not_printed (hpre : ∀ x ∈ pre, Derives .value x.text)
    (he : e.isPrinted = false) (hlength : pre ≠ [] ∨ post ≠ []) :
    ¬ IsArray (reportText (pre ++ e :: post)) := by
  have htext : e.text = [] := by
    cases e with
    | peerConnection s | inboundRtp s | remoteCandidate s => cases he
    | _ => rfl
  intro harray
  refine not_derives_of_stuck ?_ harray.1
  rw [feed_reportText hpre, htext, List.nil_append]
  cases post with
  | nil =>
    have hempty : pre.isEmpty = false := by
      simpa using hlength
    rw [hempty]
    rfl
  | cons x post => cases pre <;> rfl

/-- **Neither is a bad string JSON.** -/
theorem not_isArray_of_bad_string (hpre : ∀ x ∈ pre, Derives .value x.text)
    (hquote : '"' ∉ e.freeString) (hbad : ¬ StringBody e.freeString) :
    ¬ IsArray (reportText (pre ++ e :: post)) := by
  have hne : e.freeString ≠ [] := by
    intro hempty
    exact hbad (by rw [hempty]; rfl)
  obtain ⟨before, key, behind, hp⟩ := exists_place hne
  intro harray
  refine not_derives_of_stuck ?_ harray.1
  rw [feed_reportText hpre]
  exact hp.stuck hquote hbad (awaitsValue_if _) _ _

/-- **A cut string is not read back.** -/
theorem parse_ne_of_cut (hpre : ∀ x ∈ pre, Readable x)
    (hcut : ¬ Neat e.freeString) (objects : List (Option StatsObject)) :
    parse (reportText (pre ++ e :: post))
      ≠ .ok (collect (pre.map RTCStatsReportEntry.readBack ++ e.toJava :: objects)) := by
  have hne : e.freeString ≠ [] := by
    intro hempty
    exact hcut (by rw [hempty]; decide)
  obtain ⟨before, key, behind, hp⟩ := exists_place hne
  obtain ⟨c, tail, htext, -⟩ := hp.text_eq
  obtain ⟨u, hu⟩ := closeArray_last (post.map RTCStatsReportEntry.text)
  have hrest : e.text ++ closeArray (post.map RTCStatsReportEntry.text)
      = '\x7b' :: ((headText before key ++ (e.freeString ++ '"' :: (',' :: '"' :: c :: tail ++ u)))
        ++ [']']) := by
    rw [htext, hu]
    simp
  have hclean : ∀ f ∈ before, f.Clean := fun f hf => (hp.soundBefore f hf).clean
  -- the pieces behind those of `pre`: the first one starts with the entry
  obtain ⟨w, pieces, hsplit, -, hw⟩ := splitGo_first borderRest
    (e.freeString ++ '"' :: (',' :: '"' :: c :: tail ++ u))
    (openingBehind ['\x7b'] (pre.map entryBody) ++ headText before key)
  intro hparse
  rw [reportText_bodies (fun x hx => (hpre x hx).1) hrest,
    parse_bodiesThen (readsAs_of_readable hpre),
    splitGo_uncut _ _ (uncut_headText hclean hp.name.1 _), hsplit] at hparse
  obtain ⟨os, hread, hcollect⟩ := map_ok hparse
  have hpiece : (openingBehind ['\x7b'] (pre.map entryBody) ++ headText before key ++ w).isEmpty
      = false := by
    have hhead : headText before key ≠ [] := by
      intro hempty
      have := headText_head before key
      rw [hempty] at this
      cases this
    simp [hhead]
  have hpieces := rdropWhile_append_of_last (p := List.isEmpty)
    [openingBehind ['\x7b'] (pre.map entryBody) ++ headText before key ++ w] pieces
    (by simpa using hpiece)
  rw [List.singleton_append] at hpieces
  rw [hpieces, List.singleton_append, List.append_assoc] at hread
  obtain ⟨o, os', hobject, rfl⟩ := readPieces_cons_ok hread
  have hdiffers := hp.differs_of_cut hcut (opening_openingBehind (.inr rfl) _) hw hobject
  exact collect_ne hdiffers _ _ _ hcollect.symm

end

/-! ## 4. Exactly the reports of good entries -/

theorem exists_first_bad : ∀ {report : List RTCStatsReportEntry}, ¬ (∀ e ∈ report, Good e) →
    ∃ pre e post, report = pre ++ e :: post ∧ (∀ x ∈ pre, Good x) ∧ ¬ Good e
  | [], h => absurd (by simp) h
  | e :: es, h => by
    by_cases he : Good e
    · have hes : ¬ ∀ x ∈ es, Good x := fun hall => h (List.forall_mem_cons.mpr ⟨he, hall⟩)
      obtain ⟨pre, x, post, rfl, hpre, hx⟩ := exists_first_bad hes
      exact ⟨e :: pre, x, post, rfl, List.forall_mem_cons.mpr ⟨he, hpre⟩, hx⟩
    · exact ⟨[], e, es, rfl, by simp, he⟩

theorem Good.readBack_eq {es : List RTCStatsReportEntry} (h : ∀ x ∈ es, Good x) :
    es.map RTCStatsReportEntry.readBack = es.map RTCStatsReportEntry.toJava :=
  List.map_congr_left fun x hx => RTCStatsReportEntry.readBack_eq_iff.mpr (h x hx).fits

theorem expected_append {pre : List RTCStatsReportEntry} (hpre : ∀ x ∈ pre, Good x)
    (e : RTCStatsReportEntry) (post : List RTCStatsReportEntry) :
    expected (pre ++ e :: post) = collect (pre.map RTCStatsReportEntry.readBack
      ++ e.toJava :: post.map RTCStatsReportEntry.toJava) := by
  rw [expected, List.map_append, List.map_cons, Good.readBack_eq hpre]

theorem Good.readable {es : List RTCStatsReportEntry} (h : ∀ x ∈ es, Good x) :
    ∀ x ∈ es, Readable x :=
  fun x hx => ⟨(h x hx).printed, (h x hx).neat⟩

theorem Good.derives {es : List RTCStatsReportEntry} (h : ∀ x ∈ es, Good x) :
    ∀ x ∈ es, Derives .value x.text :=
  fun x hx => derives_text (h x hx).printed (h x hx).body

theorem roundTrips_of_good {report : List RTCStatsReportEntry} (h : ∀ e ∈ report, Good e) :
    RoundTrips report := by
  rw [roundTrips_iff]
  constructor
  · rw [reportText_eq]
    apply isArray_arrayText
    intro v hv
    obtain ⟨e, he, rfl⟩ := List.mem_map.mp hv
    exact Good.derives h e he
  · rw [parse_readable (Good.readable h), Good.readBack_eq h, expected]

theorem roundTrips_alone {e : RTCStatsReportEntry} (he : e.isPrinted = false) : RoundTrips [e] := by
  cases e with
  | peerConnection s | inboundRtp s | remoteCandidate s => cases he
  | _ => exact ⟨⟨.emptyArray space_nil, rfl⟩, rfl⟩

/-- **The numbers of the first bad entry**: it is read, but not as what was printed. -/
theorem not_roundTrips_of_not_fits {pre : List RTCStatsReportEntry} {e : RTCStatsReportEntry}
    {post : List RTCStatsReportEntry} (hpre : ∀ x ∈ pre, Good x) (hprinted : e.isPrinted = true)
    (hneat : Neat e.freeString) (hbody : StringBody e.freeString) (hfits : ¬ e.Fits) :
    ¬ RoundTrips (pre ++ e :: post) := by
  rw [roundTrips_iff]
  rintro ⟨harray, hparse⟩
  have hdiffers : Differs e.readBack e.toJava :=
    differs_of_ne hprinted fun heq => hfits (RTCStatsReportEntry.readBack_eq_iff.mp heq)
  have hread : ∀ x ∈ pre ++ [e], Readable x := by
    intro x hx
    rcases List.mem_append.mp hx with hx | hx
    · exact Good.readable hpre x hx
    · exact List.mem_singleton.mp hx ▸ ⟨hprinted, hneat⟩
  rw [expected_append hpre] at hparse
  have hsplit : pre ++ e :: post = (pre ++ [e]) ++ post := by simp
  cases post with
  | nil =>
    rw [parse_readable hread, List.map_append] at hparse
    exact collect_ne hdiffers _ _ _ (Except.ok.inj hparse)
  | cons x post =>
    rw [hsplit] at harray hparse
    cases hx : x.isPrinted with
    | true =>
      obtain ⟨os, hos⟩ := parse_readable_then hread hx hparse
      rw [List.map_append, List.append_assoc] at hos
      exact collect_ne hdiffers _ _ _ hos.symm
    | false =>
      -- the next entry is not printed, so that the array ends here
      refine not_isArray_of_not_printed ?_ hx (.inl (by simp)) harray
      intro y hy
      rcases List.mem_append.mp hy with hy | hy
      · exact Good.derives hpre y hy
      · exact List.mem_singleton.mp hy ▸ derives_text hprinted hbody

/-- **Exactly these reports come through.** -/
theorem stats_round_trip_iff (report : List RTCStatsReportEntry) :
    RoundTrips report
      ↔ (∀ e ∈ report, Good e) ∨ ∃ e, report = [e] ∧ e.isPrinted = false := by
  constructor
  · intro h
    by_contra hnot
    rw [not_or] at hnot
    obtain ⟨pre, e, post, rfl, hpre, hbad⟩ := exists_first_bad hnot.1
    have hround := (roundTrips_iff _).mp h
    by_cases hprinted : e.isPrinted = true
    · by_cases hneat : Neat e.freeString
      · by_cases hbody : StringBody e.freeString
        · exact not_roundTrips_of_not_fits hpre hprinted hneat hbody
            (fun hfits => hbad ⟨hprinted, hneat, hbody, hfits⟩) h
        · exact not_isArray_of_bad_string (Good.derives hpre) hneat.1 hbody hround.1
      · rw [expected_append hpre] at hround
        exact parse_ne_of_cut (Good.readable hpre) hneat _ hround.2
    · rw [Bool.not_eq_true] at hprinted
      refine not_isArray_of_not_printed (Good.derives hpre) hprinted ?_ hround.1
      by_contra hlength
      rw [not_or, not_not, not_not] at hlength
      obtain ⟨rfl, rfl⟩ := hlength
      exact hnot.2 ⟨e, rfl, hprinted⟩
  · rintro (hgood | ⟨e, rfl, he⟩)
    · exact roundTrips_of_good hgood
    · exact roundTrips_alone he

/-- A peer connection and a codec: the codec is not printed, but its comma is, and `[…,]` is not
JSON. -/
theorem not_roundTrips_peerConnection_codec : ¬ RoundTrips [.peerConnection ⟨0, 0⟩, .codec] := by
  rw [roundTrips_iff]
  rintro ⟨harray, -⟩
  have hpre : ∀ x ∈ [RTCStatsReportEntry.peerConnection ⟨0, 0⟩], Derives .value x.text := by
    intro x hx
    rw [List.mem_singleton.mp hx]
    exact derives_text rfl (by decide)
  exact not_isArray_of_not_printed hpre rfl (.inl (by simp)) harray

end WebrtcBridge.Stats
