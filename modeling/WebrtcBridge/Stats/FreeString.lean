/-
# When the free string goes wrong

A free string is printed as it is.  Here is what follows from that, whatever the rest of the report
is:

* if there is a quote or a border in it, Java does not read it back.  The piece that starts with
  the entry ends at the first border at the latest, and the string that is extracted ends at the
  first quote, so what Java gets is too short, or nothing (`Place.differs_of_cut`);
* if there is no quote in it and it is no JSON string body, the text is not JSON: the recogniser
  gets stuck in the string or right behind it (`Place.stuck`).
-/
import WebrtcBridge.Stats.Entries

namespace WebrtcBridge.Stats

open Lib Lib.Text Lib.Json

/-! ## 1. Cut strings -/

/-- **A string that is not neat is not what is found between the quotes** in the first piece of the
text behind it. -/
theorem before_cut_ne {s w u e rest : Text} (hs : ¬ Neat s) (hu : u <+: w)
    (he : e = [] ∨ e = ['\x7d'])
    (hw : ∀ a b, s ++ '"' :: rest = a ++ b → b ≠ [] → (borderRest b).isSome → w.length ≤ a.length) :
    before '"' (u ++ e) ≠ some s := by
  intro heq
  obtain ⟨hquote, r, htext⟩ := before_eq_some heq
  have hborder : ¬ NoBorder s := fun h => hs ⟨hquote, h⟩
  obtain ⟨a, b, rfl, hsome⟩ := exists_border hborder rest
  have hlength : w.length ≤ a.length := hw a (b ++ '"' :: rest) (by simp) (by simp) hsome
  have hlengths := congrArg List.length htext
  have hule := hu.length_le
  simp only [List.length_append, List.length_cons] at hlengths
  rcases he with rfl | rfl
  · simp only [List.length_nil] at hlengths
    omega
  · -- the piece is as long as the string, and then a brace stands where the quote should
    simp only [List.length_singleton] at hlengths
    have hend : ['\x7d'] = '"' :: r := (List.append_inj htext (by simp; omega)).2
    cases hend

/-- The text of an object up to the opening quote of its free string. -/
def headText (pre : List Field) (key : Text) : Text :=
  fieldsThen pre ('"' :: (key ++ ['"', ':', '"']))

theorem headText_append (pre : List Field) (key rest : Text) :
    headText pre key ++ rest = fieldsThen pre ('"' :: (key ++ '"' :: ':' :: '"' :: rest)) := by
  rw [headText, fieldsThen, fieldsThen, ← pairsThen_append]
  simp

theorem headText_head (pre : List Field) (key : Text) : (headText pre key).head? = some '"' := by
  obtain ⟨rest, hrest⟩ := fieldsThen_quote pre (key ++ ['"', ':', '"'])
  rw [headText, hrest]
  rfl

theorem headText_last (pre : List Field) (key : Text) : (headText pre key).getLast? = some '"' := by
  have hconcat : headText pre key = fieldsThen pre ('"' :: (key ++ ['"', ':'])) ++ ['"'] := by
    rw [headText, fieldsThen, fieldsThen, ← pairsThen_append]
    simp
  rw [hconcat, List.getLast?_concat]

theorem uncut_headText : ∀ {pre : List Field} {key : Text}, (∀ f ∈ pre, f.Clean) → IsWord key →
    ∀ rest, Uncut borderRest (headText pre key) rest
  | [], key, _, hkey, rest => by
    apply uncut_of_not_mem
    simp only [headText, fieldsThen, List.map_nil, pairsThen, List.mem_cons,
      List.mem_append, not_or]
    exact ⟨by decide, hkey.2.2.2, by decide⟩
  | f :: pre, key, hpre, hkey, rest => by
    have ih := uncut_headText (fun x hx => hpre x (List.mem_cons_of_mem f hx)) hkey rest
    have htext : headText (f :: pre) key = pairText f.printed ++ ([','] ++ headText pre key) := rfl
    rw [htext]
    exact (Field.uncut (hpre f (by simp)) _).append ((uncut_of_not_mem (by decide) _).append ih)

/-! ## 2. What Java makes of it -/

section

variable {e : RTCStatsReportEntry} {pre : List Field} {key : Text} {post : List Field}

/-- The type of the entry is read first. -/
theorem extractString_first {type : Text} (fs : List Field) (htype : '"' ∉ type) (rest : Text) :
    extractString ('\x7b' :: fieldsThen (("type".toList, .str type) :: fs) rest) "type".toList
      = some type := by
  have htext : '\x7b' :: fieldsThen (("type".toList, .str type) :: fs) rest
      = '\x7b' :: fieldsThen [] ('"' :: ("type".toList ++ '"' :: ':'
          :: ('"' :: (type ++ '"' :: ',' :: fieldsThen fs rest)))) := by
    simp [fieldsThen, pairsThen, pairText, Field.printed, FieldValue.text]
  have hnone : ∀ f ∈ ([] : List Field), f.Clean := by simp
  have hlookup := lookup_key (by decide : IsWord "type".toList) hnone (silent_nil _)
    ('"' :: (type ++ '"' :: ',' :: fieldsThen fs rest))
  rw [← htext] at hlookup
  exact extractString_of_lookup htype hlookup

/-- **A free string with a quote or a border in it is not read back.** -/
theorem Place.differs_of_cut (hp : Place e pre key post) (hdirty : ¬ Neat e.freeString) {o w : Text}
    (ho : Opening o) {rest : Text}
    (hw : ∀ a b, e.freeString ++ '"' :: rest = a ++ b → b ≠ [] → (borderRest b).isSome →
      w.length ≤ a.length)
    {object : Option StatsObject}
    (hread : readObject (withBraces (o ++ (headText pre key ++ w))) = .ok object) :
    Differs object e.toJava := by
  obtain ⟨u, brace, hbraces, hu, hbrace⟩ :=
    withBraces_cut ho (headText_head pre key) (headText_last pre key) w
  rw [hbraces, headText_append] at hread
  have hclean : ∀ f ∈ pre, f.Clean := fun f hf => (hp.soundBefore f hf).clean
  have hstring : extractString ('\x7b' :: fieldsThen pre
      ('"' :: (key ++ '"' :: ':' :: '"' :: (u ++ brace)))) key = before '"' (u ++ brace) := by
    rw [extractString_eq, lookup_key hp.name.1 hclean hp.silent, Option.bind_some, after_head,
      Option.bind_some]
  obtain ⟨type, fs, hpre, htype, hkind⟩ := hp.kind
  refine hkind _ _ ?_ hread ?_
  · rw [hpre]
    exact extractString_first fs htype _
  · rw [hstring]
    exact before_cut_ne hdirty hu hbrace hw

/-! ## 3. What JSON makes of it -/

theorem derives_fields {fs : List Field} (h : ∀ f ∈ fs, StringBody f.1 ∧ Derives .value f.2.text) :
    Derives .value (fieldsText fs) := by
  apply derives_objectText
  intro kv hkv
  obtain ⟨f, hf, rfl⟩ := List.mem_map.mp hkv
  exact h f hf

/-- **An entry with a good free string is a JSON object.** -/
theorem derives_text (hprinted : e.isPrinted = true) (h : StringBody e.freeString) :
    Derives .value e.text := by
  rw [RTCStatsReportEntry.text_eq hprinted]
  have hplace : ∀ {pre key post}, Place e pre key post → Derives .value (fieldsText e.fields) := by
    intro pre key post hp
    rw [hp.fields]
    apply derives_fields
    intro f hf
    rcases List.mem_append.mp hf with hf | hf
    · exact ⟨(hp.soundBefore f hf).key, (hp.soundBefore f hf).value⟩
    · rcases List.mem_cons.mp hf with rfl | hf
      · exact ⟨hp.name.2, .string h⟩
      · exact ⟨(hp.soundBehind f hf).key, (hp.soundBehind f hf).value⟩
  cases e with
  | peerConnection s =>
    exact derives_fields fun f hf => ⟨(s.sound_fields f hf).key, (s.sound_fields f hf).value⟩
  | inboundRtp s => exact hplace (place_inboundRtp s)
  | remoteCandidate s => exact hplace (place_remoteCandidate s)
  | _ => cases hprinted

/-- The text of the entry around its free string. -/
theorem Place.text_eq (hp : Place e pre key post) :
    ∃ c rest, e.text
        = '\x7b' :: (headText pre key ++ (e.freeString ++ '"' :: ',' :: '"' :: c :: rest))
      ∧ endsValue c = false := by
  obtain ⟨c, k, v, fs, rfl, hc⟩ := hp.follows
  refine ⟨c, k ++ '"' :: ':' :: (v.text ++ closeFields fs), ?_, hc⟩
  rw [RTCStatsReportEntry.text_eq hp.printed, hp.fields, fieldsText_append, headText_append]
  simp [pairText, Field.printed, FieldValue.text, closeFields, closeObject]

/-- **A free string without quotes that is no string body is not JSON.** -/
theorem Place.stuck (hp : Place e pre key post) (hquote : '"' ∉ e.freeString)
    (hbad : ¬ StringBody e.freeString) {mode : Mode} (hmode : AwaitsValue mode) (stack : List Frame)
    (more : Text) : feed step ⟨mode, stack⟩ (e.text ++ more) = none := by
  obtain ⟨c, rest, htext, hc⟩ := hp.text_eq
  have hgood : ∀ kv ∈ pre.map Field.printed, StringBody kv.1 ∧ Derives .value kv.2 := by
    intro kv hkv
    obtain ⟨f, hf, rfl⟩ := List.mem_map.mp hkv
    exact ⟨(hp.soundBefore f hf).key, (hp.soundBefore f hf).value⟩
  have hsplit : e.text ++ more = '\x7b' :: pairsThen (pre.map Field.printed)
      ('"' :: (key ++ '"' :: ':' :: '"'
        :: (e.freeString ++ '"' :: ',' :: '"' :: c :: (rest ++ more)))) := by
    rw [htext, List.cons_append, List.append_assoc, headText_append]
    simp [fieldsThen]
  rw [hsplit, feed_into_string stack _ hmode hgood hp.name.2]
  exact feed_bad_string _ _ hquote hbad hc

end

end WebrtcBridge.Stats
