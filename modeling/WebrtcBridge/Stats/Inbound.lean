/-
# Inbound streams

The printed object has one free string, the track identifier, with seven numbers behind it.  If
there is neither a quote nor a border in the track identifier, the object is read as `readBack`
says.  That need not be what was printed: a number that does not fit into its Java type becomes 0,
and a track identifier that is equal to the key of a later number makes Java take `bytes_received`
for that number.  `readBack_eq_iff` collects what has to hold for all numbers to be the same.
-/
import Mathlib.Data.List.Nodup
import WebrtcBridge.Stats.Fields

namespace WebrtcBridge.Stats

open Lib Lib.Text Lib.Json

namespace RTCInboundRtpStreamStats

variable (s : RTCInboundRtpStreamStats)

/-! ## 1. The fields -/

/-- The fields before the track identifier. -/
def fieldsBefore : List Field :=
  [("type".toList, .str "inbound-rtp".toList), counter "ssrc" s.ssrc.toNat,
    ("kind".toList, .str s.kind.text)]

/-- The fields behind it. -/
def fieldsBehind : List Field :=
  [counter "bytes_received" s.bytesReceived.toNat,
    counter "packets_received" s.packetsReceived.toNat,
    ("packets_lost".toList, .num (signedDigits s.packetsLost.toInt)),
    ("jitter".toList, .num s.jitter.text), counter "nack_count" s.nackCount.toNat,
    counter "fir_count" s.firCount.toNat, counter "pli_count" s.pliCount.toNat]

def fields : List Field :=
  s.fieldsBefore ++ ("track_identifier".toList, .str s.trackIdentifier) :: s.fieldsBehind

set_option maxRecDepth 2000 in
theorem text_eq : s.text = fieldsText s.fields := by
  delta text
  simp only [fields, fieldsBefore, fieldsBehind, counter, fieldsText, List.cons_append,
    List.nil_append, List.map_cons, List.map_nil, objectText, closeObject, pairText, Field.printed,
    FieldValue.text, String.reduceToList, List.append_assoc]

/-! ## 2. Where the numbers are found -/

/-- The keys and strings before the free one. -/
def namesBefore : List Text :=
  ["type", "inbound-rtp", "ssrc", "kind", "Unspecified", "audio", "video"].map String.toList

/-- The keys behind it. -/
def keysBehind : List Text :=
  ["bytes_received", "packets_received", "packets_lost", "jitter", "nack_count", "fir_count",
    "pli_count"].map String.toList

/-- **No key occurs twice**, and none is one of the fixed strings. -/
theorem nodup_names : (namesBefore ++ "track_identifier".toList :: keysBehind).Nodup := by
  decide

theorem silent_fieldsBefore {key : Text} (hkey : key ∉ namesBefore) :
    Silent key s.fieldsBefore := by
  have hnames : ∀ kind : RtpCodecKind, ["type".toList, "inbound-rtp".toList, "ssrc".toList,
      "kind".toList, kind.text] ⊆ namesBefore := by
    intro kind
    cases kind <;> decide
  exact silent_of_not_mem fun hmem => hkey (hnames s.kind hmem)

/-- Behind the free string there are numbers only. -/
theorem silent_of_fieldsBehind {key : Text} {fs : List Field} (hsub : fs ⊆ s.fieldsBehind)
    (hkey : key ∉ fs.map Prod.fst) : Silent key fs := by
  have hnum : ∀ f ∈ s.fieldsBehind, ∃ t, f.2 = .num t := by
    simp only [fieldsBehind, counter, List.forall_mem_cons, List.not_mem_nil, false_implies,
      implies_true, and_true]
    exact ⟨⟨_, rfl⟩, ⟨_, rfl⟩, ⟨_, rfl⟩, ⟨_, rfl⟩, ⟨_, rfl⟩, ⟨_, rfl⟩, ⟨_, rfl⟩⟩
  intro f hf
  obtain ⟨t, ht⟩ := hnum f (hsub hf)
  exact ⟨fun heq => hkey (heq ▸ List.mem_map_of_mem hf), by rw [ht]; nofun⟩

/-- **A number behind the track identifier**: the one that was printed, or the number of bytes if
the track identifier is equal to the key. -/
theorem found_number {key : Text} {v : FieldValue} (i : Nat)
    (hi : s.fieldsBehind[i + 1]? = some (key, v)) :
    ∃ post, found key s.fields
      = some (if s.trackIdentifier = key then .num (digits s.bytesReceived.toNat) else v,
        post) := by
  obtain ⟨mid, post, hsplit⟩ : ∃ mid post, s.fieldsBehind
      = counter "bytes_received" s.bytesReceived.toNat :: (mid ++ (key, v) :: post) := by
    have hmem : (key, v) ∈ s.fieldsBehind.tail :=
      List.mem_of_getElem? (i := i) (by rw [List.getElem?_tail]; exact hi)
    obtain ⟨mid, post, htail⟩ := List.append_of_mem hmem
    exact ⟨mid, post, congrArg (List.cons _) htail⟩
  have hkeys : keysBehind
      = "bytes_received".toList :: (mid.map Prod.fst ++ key :: post.map Prod.fst) := by
    have hmap : keysBehind = s.fieldsBehind.map Prod.fst := rfl
    rw [hmap, hsplit]
    simp [counter]
  have hnot : key ∉ namesBefore ++ "track_identifier".toList :: "bytes_received".toList
      :: mid.map Prod.fst := by
    have hnodup := nodup_names
    have hmiddle : namesBefore ++ "track_identifier".toList :: keysBehind
        = (namesBefore ++ "track_identifier".toList :: "bytes_received".toList :: mid.map Prod.fst)
          ++ key :: post.map Prod.fst := by
      rw [hkeys]
      simp
    rw [hmiddle, List.nodup_middle, List.nodup_cons] at hnodup
    exact fun hmem => hnodup.1 (List.mem_append_left _ hmem)
  rw [List.mem_append, List.mem_cons, not_or, not_or] at hnot
  obtain ⟨hbefore, hown, hmid⟩ := hnot
  have hsub : counter "bytes_received" s.bytesReceived.toNat :: mid ⊆ s.fieldsBehind := by
    rw [hsplit]
    exact List.cons_subset_cons _ (List.subset_append_left mid _)
  have hfound := found_behind (s.silent_fieldsBefore hbefore) (Ne.symm hown)
    (s.silent_of_fieldsBehind hsub hmid) s.trackIdentifier v post
  rw [fields, hsplit, hfound]
  split
  · exact ⟨_, rfl⟩
  · exact ⟨_, rfl⟩

theorem sound_fieldsBefore : ∀ f ∈ s.fieldsBefore, f.Sound := by
  have hkind : ∀ kind : RtpCodecKind, IsName kind.text := by
    intro kind
    cases kind <;> decide
  simp only [fieldsBefore, List.forall_mem_cons, List.not_mem_nil, false_implies, implies_true,
    and_true]
  exact ⟨sound_str (by decide) (by decide), sound_counter (by decide) _,
    sound_str (by decide) (hkind s.kind)⟩

theorem sound_fieldsBehind : ∀ f ∈ s.fieldsBehind, f.Sound := by
  have hkeys : ∀ k ∈ keysBehind, IsName k := by decide
  simp only [keysBehind, List.map_cons, List.map_nil, List.forall_mem_cons, List.not_mem_nil,
    false_implies, implies_true, and_true] at hkeys
  obtain ⟨hbytes, hpackets, hlost, hjitter, hnack, hfir, hpli⟩ := hkeys
  simp only [fieldsBehind, List.forall_mem_cons, List.not_mem_nil, false_implies, implies_true,
    and_true]
  exact ⟨sound_counter hbytes _, sound_counter hpackets _,
    sound_num hlost (isToken_signedDigits _) (number_signedDigits _),
    sound_num hjitter s.jitter.isToken_text s.jitter.number_text,
    sound_counter hnack _, sound_counter hfir _, sound_counter hpli _⟩

theorem isName_trackIdentifier : IsName "track_identifier".toList := by decide

theorem clean_fields (h : Neat s.trackIdentifier) : ∀ f ∈ s.fields, f.Clean := by
  intro f hf
  rcases List.mem_append.mp hf with hf | hf
  · exact (s.sound_fieldsBefore f hf).clean
  · rcases List.mem_cons.mp hf with rfl | hf
    · exact ⟨isName_trackIdentifier.1, h⟩
    · exact (s.sound_fieldsBehind f hf).clean

/-! ## 3. Reading it -/

/-- The count that is read under a key behind the track identifier. -/
def countAt (key : String) (own : Nat) : Nat :=
  if s.trackIdentifier = key.toList then s.bytesReceived.toNat else own

/-- What Java makes of an inbound stream. -/
def readBack : InboundRtpStats where
  ssrc := s.ssrc.toNat
  kind := some s.kind.text
  trackIdentifier := some s.trackIdentifier
  bytesReceived := javaInteger (2 ^ 63) s.bytesReceived.toNat
  packetsReceived := javaInteger (2 ^ 63) (s.countAt "packets_received" s.packetsReceived.toNat)
  packetsLost :=
    if s.trackIdentifier = "packets_lost".toList then javaInteger (2 ^ 63) s.bytesReceived.toNat
    else s.packetsLost.toInt
  jitter :=
    if s.trackIdentifier = "jitter".toList then digits s.bytesReceived.toNat else s.jitter.text
  nackCount := javaInteger (2 ^ 31) (s.countAt "nack_count" s.nackCount.toNat)
  firCount := javaInteger (2 ^ 31) (s.countAt "fir_count" s.firCount.toNat)
  pliCount := javaInteger (2 ^ 31) (s.countAt "pli_count" s.pliCount.toNat)

section

variable (h : Neat s.trackIdentifier)

include h

theorem extractInteger_countAt (bound i : Nat) {key : String} {own : Nat}
    (hi : s.fieldsBehind[i + 1]? = some (counter key own)) :
    extractInteger bound (fieldsText s.fields) key.toList
      = .ok (javaInteger bound (s.countAt key own)) := by
  obtain ⟨post, hfound⟩ := s.found_number i hi
  have hkey : IsWord key.toList := (s.sound_fieldsBehind _ (List.mem_of_getElem? hi)).clean.1
  have hcount : found key.toList s.fields = some (.num (digits (s.countAt key own)), post) := by
    rw [hfound, countAt]
    split <;> rfl
  exact extractInteger_found hkey (s.clean_fields h) bound hcount

theorem extractLong_packets_lost :
    extractLong (fieldsText s.fields) "packets_lost".toList = .ok s.readBack.packetsLost := by
  have hfield : s.fieldsBehind[2]?
      = some ("packets_lost".toList, .num (signedDigits s.packetsLost.toInt)) := rfl
  obtain ⟨post, hfound⟩ := s.found_number 1 hfield
  have hkey : IsWord "packets_lost".toList := by decide
  by_cases hclash : s.trackIdentifier = "packets_lost".toList
  · rw [if_pos hclash] at hfound
    rw [extractLong, extractInteger_found hkey (s.clean_fields h) _ hfound, readBack, if_pos hclash]
  · rw [if_neg hclash] at hfound
    have hparse : parseInteger (2 ^ 63) (signedDigits s.packetsLost.toInt)
        = some s.packetsLost.toInt :=
      parseInteger_signedDigits s.packetsLost.le_toInt s.packetsLost.toInt_lt
    have hraw := extractRaw_found hkey (s.clean_fields h) (isToken_signedDigits _) hfound
    rw [extractLong, extractInteger, hraw, readBack, if_neg hclash]
    simp only [Except.map, Option.bind_some, hparse, Option.getD_some]

theorem extractDouble_jitter :
    extractDouble (fieldsText s.fields) "jitter".toList = .ok s.readBack.jitter := by
  have hfield : s.fieldsBehind[3]? = some ("jitter".toList, .num s.jitter.text) := rfl
  obtain ⟨post, hfound⟩ := s.found_number 2 hfield
  have hkey : IsWord "jitter".toList := by decide
  by_cases hclash : s.trackIdentifier = "jitter".toList
  · rw [if_pos hclash] at hfound
    rw [extractDouble_found hkey (s.clean_fields h) (isToken_digits _) (isDecimal_digits _) hfound,
      readBack, if_pos hclash]
  · rw [if_neg hclash] at hfound
    rw [extractDouble_found hkey (s.clean_fields h) s.jitter.isToken_text s.jitter.isDecimal_text
      hfound, readBack, if_neg hclash]

theorem extractLong_bytes_received :
    extractLong (fieldsText s.fields) "bytes_received".toList = .ok s.readBack.bytesReceived := by
  have hfound : ∃ post, found "bytes_received".toList s.fields
      = some (.num (digits s.bytesReceived.toNat), post) :=
    ⟨_, found_next (s.silent_fieldsBefore (by decide)) (by decide) _ _ _⟩
  obtain ⟨post, hfound⟩ := hfound
  exact extractInteger_found (by decide) (s.clean_fields h) _ hfound

theorem extractString_track_identifier :
    extractString (fieldsText s.fields) "track_identifier".toList = some s.trackIdentifier :=
  extractString_found isName_trackIdentifier.1 (s.clean_fields h) h.1
    (found_own (s.silent_fieldsBefore (by decide)) _ _)

theorem extractString_type :
    extractString (fieldsText s.fields) "type".toList = some "inbound-rtp".toList :=
  extractString_found (by decide) (s.clean_fields h) (by decide)
    (found_own (silent_nil _) _ _)

theorem extractLong_ssrc :
    extractLong (fieldsText s.fields) "ssrc".toList = .ok s.readBack.ssrc := by
  have hsilent : Silent "ssrc".toList [("type".toList, .str "inbound-rtp".toList)] :=
    silent_of_not_mem (by decide)
  have hread := extractInteger_found (by decide) (s.clean_fields h) (2 ^ 63)
    (found_own hsilent (.num (digits s.ssrc.toNat)) _)
  have hfits : s.ssrc.toNat < 2 ^ 63 := Nat.lt_trans s.ssrc.toNat_lt (by decide)
  rw [extractLong, hread, javaInteger, if_pos hfits, readBack]

theorem extractString_kind :
    extractString (fieldsText s.fields) "kind".toList = some s.kind.text := by
  have hsilent : Silent "kind".toList
      [("type".toList, .str "inbound-rtp".toList), counter "ssrc" s.ssrc.toNat] := by
    have hnames : "kind".toList ∉ ["type".toList, "inbound-rtp".toList, "ssrc".toList] := by
      decide
    exact silent_of_not_mem hnames
  have hquote : '"' ∉ s.kind.text := by
    cases s.kind <;> decide
  exact extractString_found (by decide) (s.clean_fields h) hquote (found_own hsilent _ _)

theorem readInboundRtp_fields : readInboundRtp (fieldsText s.fields) = .ok s.readBack := by
  have hpackets : extractLong (fieldsText s.fields) "packets_received".toList
      = .ok s.readBack.packetsReceived := s.extractInteger_countAt h (2 ^ 63) 0 rfl
  have hnack : extractInt (fieldsText s.fields) "nack_count".toList
      = .ok s.readBack.nackCount := s.extractInteger_countAt h (2 ^ 31) 3 rfl
  have hfir : extractInt (fieldsText s.fields) "fir_count".toList
      = .ok s.readBack.firCount := s.extractInteger_countAt h (2 ^ 31) 4 rfl
  have hpli : extractInt (fieldsText s.fields) "pli_count".toList
      = .ok s.readBack.pliCount := s.extractInteger_countAt h (2 ^ 31) 5 rfl
  rw [readInboundRtp, s.extractLong_ssrc h, s.extractString_kind h,
    s.extractString_track_identifier h, s.extractLong_bytes_received h, hpackets,
    s.extractLong_packets_lost h, s.extractDouble_jitter h, hnack, hfir, hpli]
  rfl

/-- **An inbound stream without quote and border in its track identifier is read like this.** -/
theorem readObject_fields :
    readObject (fieldsText s.fields) = .ok (some (.inboundRtp s.readBack)) := by
  rw [readObject, s.extractString_type h]
  simp only [if_true, s.readInboundRtp_fields h]
  rfl

end

/-! ## 4. When the numbers are the same -/

/-- The record with the values of the entry. -/
def toJava : InboundRtpStats where
  ssrc := s.ssrc.toNat
  kind := some s.kind.text
  trackIdentifier := some s.trackIdentifier
  bytesReceived := s.bytesReceived.toNat
  packetsReceived := s.packetsReceived.toNat
  packetsLost := s.packetsLost.toInt
  jitter := s.jitter.text
  nackCount := s.nackCount.toNat
  firCount := s.firCount.toNat
  pliCount := s.pliCount.toNat

/-- The number of bytes, read as an `int`, is the count. -/
def BytesReadAs (count : UInt32) : Prop :=
  count.toNat = s.bytesReceived.toNat ∨ (2 ^ 31 ≤ s.bytesReceived.toNat ∧ count.toNat = 0)

instance (count : UInt32) : Decidable (s.BytesReadAs count) :=
  inferInstanceAs (Decidable (_ ∨ (_ ∧ _)))

/-- **What is needed for the numbers**: each fits into its Java type, and if the track identifier
is the key of a number, that number is what `bytes_received` is read as. -/
structure Fits : Prop where
  bytesReceived : s.bytesReceived.toNat < 2 ^ 63
  packetsReceived : s.packetsReceived.toNat < 2 ^ 63
  nackCount : s.nackCount.toNat < 2 ^ 31
  firCount : s.firCount.toNat < 2 ^ 31
  pliCount : s.pliCount.toNat < 2 ^ 31
  noPacketsReceivedClash :
    s.trackIdentifier = "packets_received".toList → s.packetsReceived = s.bytesReceived
  noPacketsLostClash :
    s.trackIdentifier = "packets_lost".toList → s.packetsLost.toInt = s.bytesReceived.toNat
  noJitterClash :
    s.trackIdentifier = "jitter".toList → s.jitter.text = digits s.bytesReceived.toNat
  noNackCountClash : s.trackIdentifier = "nack_count".toList → s.BytesReadAs s.nackCount
  noFirCountClash : s.trackIdentifier = "fir_count".toList → s.BytesReadAs s.firCount
  noPliCountClash : s.trackIdentifier = "pli_count".toList → s.BytesReadAs s.pliCount

theorem count_eq_iff (key : String) (count : UInt32) :
    javaInteger (2 ^ 31) (s.countAt key count.toNat) = count.toNat
      ↔ count.toNat < 2 ^ 31 ∧ (s.trackIdentifier = key.toList → s.BytesReadAs count) := by
  unfold countAt
  by_cases hclash : s.trackIdentifier = key.toList
  · simp only [hclash, if_true, true_implies, BytesReadAs, javaInteger]
    split <;> omega
  · simp only [hclash, if_false, false_implies, and_true]
    exact javaInteger_eq_self (by decide)

theorem packetsReceived_eq_iff (hbytes : s.bytesReceived.toNat < 2 ^ 63) :
    s.readBack.packetsReceived = s.packetsReceived.toNat
      ↔ s.packetsReceived.toNat < 2 ^ 63
        ∧ (s.trackIdentifier = "packets_received".toList
          → s.packetsReceived = s.bytesReceived) := by
  rw [readBack, countAt, ← UInt64.toNat_inj]
  by_cases hclash : s.trackIdentifier = "packets_received".toList
  · simp only [hclash, if_true, true_implies, javaInteger, if_pos hbytes]
    omega
  · simp only [hclash, if_false, false_implies, and_true]
    exact javaInteger_eq_self (by decide)

theorem packetsLost_eq_iff (hbytes : s.bytesReceived.toNat < 2 ^ 63) :
    s.readBack.packetsLost = s.packetsLost.toInt
      ↔ (s.trackIdentifier = "packets_lost".toList
        → s.packetsLost.toInt = s.bytesReceived.toNat) := by
  rw [readBack]
  by_cases hclash : s.trackIdentifier = "packets_lost".toList
  · simp only [hclash, if_true, true_implies, javaInteger, if_pos hbytes]
    exact eq_comm
  · simp only [hclash, if_false, false_implies]

theorem jitter_eq_iff :
    s.readBack.jitter = s.jitter.text
      ↔ (s.trackIdentifier = "jitter".toList → s.jitter.text = digits s.bytesReceived.toNat) := by
  rw [readBack]
  by_cases hclash : s.trackIdentifier = "jitter".toList
  · simp only [hclash, if_true, true_implies]
    exact eq_comm
  · simp only [hclash, if_false, false_implies]

/-- **What is read is what was printed exactly if the numbers fit.** -/
theorem readBack_eq_iff : s.readBack = s.toJava ↔ s.Fits := by
  constructor
  · intro heq
    have hbytes : s.bytesReceived.toNat < 2 ^ 63 :=
      (javaInteger_eq_self (by decide)).mp (congrArg InboundRtpStats.bytesReceived heq)
    have hpackets :=
      (s.packetsReceived_eq_iff hbytes).mp (congrArg InboundRtpStats.packetsReceived heq)
    have hnack :=
      (s.count_eq_iff "nack_count" s.nackCount).mp (congrArg InboundRtpStats.nackCount heq)
    have hfir := (s.count_eq_iff "fir_count" s.firCount).mp (congrArg InboundRtpStats.firCount heq)
    have hpli := (s.count_eq_iff "pli_count" s.pliCount).mp (congrArg InboundRtpStats.pliCount heq)
    exact ⟨hbytes, hpackets.1, hnack.1, hfir.1, hpli.1, hpackets.2,
      (s.packetsLost_eq_iff hbytes).mp (congrArg InboundRtpStats.packetsLost heq),
      s.jitter_eq_iff.mp (congrArg InboundRtpStats.jitter heq), hnack.2, hfir.2, hpli.2⟩
  · intro h
    have hbytes : s.readBack.bytesReceived = s.toJava.bytesReceived :=
      (javaInteger_eq_self (by decide)).mpr h.bytesReceived
    have hpackets : s.readBack.packetsReceived = s.toJava.packetsReceived :=
      (s.packetsReceived_eq_iff h.bytesReceived).mpr ⟨h.packetsReceived, h.noPacketsReceivedClash⟩
    have hlost : s.readBack.packetsLost = s.toJava.packetsLost :=
      (s.packetsLost_eq_iff h.bytesReceived).mpr h.noPacketsLostClash
    have hjitter : s.readBack.jitter = s.toJava.jitter := s.jitter_eq_iff.mpr h.noJitterClash
    have hnack : s.readBack.nackCount = s.toJava.nackCount :=
      (s.count_eq_iff "nack_count" s.nackCount).mpr ⟨h.nackCount, h.noNackCountClash⟩
    have hfir : s.readBack.firCount = s.toJava.firCount :=
      (s.count_eq_iff "fir_count" s.firCount).mpr ⟨h.firCount, h.noFirCountClash⟩
    have hpli : s.readBack.pliCount = s.toJava.pliCount :=
      (s.count_eq_iff "pli_count" s.pliCount).mpr ⟨h.pliCount, h.noPliCountClash⟩
    exact InboundRtpStats.ext rfl rfl rfl hbytes hpackets hlost hjitter hnack hfir hpli

end RTCInboundRtpStreamStats

end WebrtcBridge.Stats
