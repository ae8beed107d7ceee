/-
# One entry, printed and read

Three kinds of entries are printed, each as an object in which at most ONE string is free: the
track identifier of an inbound stream, the address of a remote candidate.  Everything that can go
wrong with a printed entry goes wrong with this string or with its numbers:

* if there is no quote and no border in the string, the object is read as `readBack` says, and
  `readBack_eq_iff` tells when that is what was printed;
* if there is one, the string itself is not read back (`FreeString.lean`), whatever
  comes behind it in the text.
-/
import WebrtcBridge.Stats.Inbound

namespace WebrtcBridge.Stats

open Lib Lib.Text Lib.Json

/-! ## 1. Peer connections -/

namespace RTCPeerConnectionStats

variable (s : RTCPeerConnectionStats)

def fields : List Field :=
  [("type".toList, .str "peer-connection".toList),
    counter "data_channels_opened" s.dataChannelsOpened.toNat,
    counter "data_channels_closed" s.dataChannelsClosed.toNat]

theorem text_eq : s.text = fieldsText s.fields := by
  delta text
  simp only [fields, counter, fieldsText, List.map_cons, List.map_nil, objectText, closeObject,
    pairText, Field.printed, FieldValue.text, String.reduceToList, List.cons_append,
      List.nil_append,
    List.append_assoc]

theorem sound_fields : ∀ f ∈ s.fields, f.Sound := by
  simp only [fields, List.forall_mem_cons, List.not_mem_nil, false_implies, implies_true, and_true]
  exact ⟨sound_str (by decide) (by decide), sound_counter (by decide) _,
    sound_counter (by decide) _⟩

/-- What Java makes of it. -/
def readBack : PeerConnectionStats where
  dataChannelsOpened := javaInteger (2 ^ 31) s.dataChannelsOpened.toNat
  dataChannelsClosed := javaInteger (2 ^ 31) s.dataChannelsClosed.toNat

theorem readObject_fields :
    readObject (fieldsText s.fields) = .ok (some (.peerConnection s.readBack)) := by
  have hclean : ∀ f ∈ s.fields, f.Clean := fun f hf => (s.sound_fields f hf).clean
  have htype : extractString (fieldsText s.fields) "type".toList = some "peer-connection".toList :=
    extractString_found (by decide) hclean (by decide) (found_own (silent_nil _) _ _)
  have hopenedSilent : Silent "data_channels_opened".toList
      [("type".toList, .str "peer-connection".toList)] := silent_of_not_mem (by decide)
  have hclosedSilent : Silent "data_channels_closed".toList
      [("type".toList, .str "peer-connection".toList),
        counter "data_channels_opened" s.dataChannelsOpened.toNat] := by
    have hnames : "data_channels_closed".toList
        ∉ ["type".toList, "peer-connection".toList, "data_channels_opened".toList] := by
      decide
    exact silent_of_not_mem hnames
  have hopened : extractInt (fieldsText s.fields) "data_channels_opened".toList
      = .ok s.readBack.dataChannelsOpened :=
    extractInteger_found (by decide) hclean _ (found_own hopenedSilent _ _)
  have hclosed : extractInt (fieldsText s.fields) "data_channels_closed".toList
      = .ok s.readBack.dataChannelsClosed :=
    extractInteger_found (by decide) hclean _ (found_own hclosedSilent _ _)
  have hne : "peer-connection".toList ≠ "inbound-rtp".toList := by decide
  rw [readObject, htype]
  simp only [if_neg hne, if_true, readPeerConnection, hopened, hclosed]
  rfl

/-- The record with the values of the entry. -/
def toJava : PeerConnectionStats where
  dataChannelsOpened := s.dataChannelsOpened.toNat
  dataChannelsClosed := s.dataChannelsClosed.toNat

/-- The counts fit into an `int`. -/
def Fits : Prop := s.dataChannelsOpened.toNat < 2 ^ 31 ∧ s.dataChannelsClosed.toNat < 2 ^ 31

theorem readBack_eq_iff : s.readBack = s.toJava ↔ s.Fits := by
  rw [readBack, toJava, PeerConnectionStats.mk.injEq, javaInteger_eq_self (by decide),
    javaInteger_eq_self (by decide), Fits]

end RTCPeerConnectionStats

/-! ## 2. Remote candidates -/

namespace RTCIceCandidateStats

variable (s : RTCIceCandidateStats)

/-- The address as it is printed. -/
def addressText : Text := s.address.getD []

/-- The fields before the address. -/
def fieldsBefore : List Field := [("type".toList, .str "remote-candidate".toList)]

/-- The fields behind it. -/
def fieldsBehind : List Field :=
  [counter "port" s.port.toNat, ("candidate_type".toList, .str s.candidateType.text)]

def fields : List Field :=
  fieldsBefore ++ ("address".toList, .str s.addressText) :: s.fieldsBehind

theorem text_eq : s.text = fieldsText s.fields := by
  delta text
  simp only [fields, fieldsBefore, fieldsBehind, addressText, counter, fieldsText, List.cons_append,
    List.nil_append, List.map_cons, List.map_nil, objectText, closeObject, pairText, Field.printed,
    FieldValue.text, String.reduceToList, List.append_assoc]

theorem sound_fieldsBefore : ∀ f ∈ fieldsBefore, f.Sound := by
  simp only [fieldsBefore, List.forall_mem_cons, List.not_mem_nil, false_implies, implies_true,
    and_true]
  exact sound_str (by decide) (by decide)

theorem isName_candidateType (t : RTCIceCandidateType) : IsName t.text := by
  cases t <;> decide

theorem sound_fieldsBehind : ∀ f ∈ s.fieldsBehind, f.Sound := by
  simp only [fieldsBehind, List.forall_mem_cons, List.not_mem_nil, false_implies, implies_true,
    and_true]
  exact ⟨sound_counter (by decide) _, sound_str (by decide) (isName_candidateType _)⟩

theorem isName_address : IsName "address".toList := by decide

/-- The string that is read as the type of the candidate. -/
def readType : Text :=
  if s.addressText = "candidate_type".toList then "candidate_type".toList else s.candidateType.text

/-- What Java makes of it. -/
def readBack : RemoteCandidateStats where
  address := some s.addressText
  port := s.port.toNat
  candidateType := some s.readType

section

variable (h : Neat s.addressText)

include h

theorem clean_fields : ∀ f ∈ s.fields, f.Clean := by
  intro f hf
  rcases List.mem_append.mp hf with hf | hf
  · exact (sound_fieldsBefore f hf).clean
  · rcases List.mem_cons.mp hf with rfl | hf
    · exact ⟨isName_address.1, h⟩
    · exact (s.sound_fieldsBehind f hf).clean

/-- An address that is equal to the key leads the parser to the port, and from there to the next
string, the key itself. -/
theorem extractString_candidate_type :
    extractString (fieldsText s.fields) "candidate_type".toList = some s.readType := by
  have hkey : IsWord "candidate_type".toList := by decide
  have hmid : Silent "candidate_type".toList [counter "port" s.port.toNat] := by
    have hnames : "candidate_type".toList ∉ ["port".toList] := by decide
    exact silent_of_not_mem hnames
  have hbefore : Silent "candidate_type".toList fieldsBefore := silent_of_not_mem (by decide)
  have hfound : found "candidate_type".toList s.fields = _ :=
    found_behind hbefore (by decide) hmid s.addressText (.str s.candidateType.text) []
  unfold readType
  by_cases hclash : s.addressText = "candidate_type".toList
  · rw [if_pos hclash] at hfound ⊢
    have hnext : Field.Clean ("candidate_type".toList, .str s.candidateType.text) :=
      ⟨hkey, (isName_candidateType _).1.neat⟩
    exact extractString_of_number (isToken_digits _) hnext
      (lookup_of_found hkey (s.clean_fields h) hfound)
  · rw [if_neg hclash] at hfound ⊢
    exact extractString_found hkey (s.clean_fields h) (isName_candidateType _).1.1 hfound

theorem readObject_fields :
    readObject (fieldsText s.fields) = .ok (some (.remoteCandidate s.readBack)) := by
  have htype : extractString (fieldsText s.fields) "type".toList = some "remote-candidate".toList :=
    extractString_found (by decide) (s.clean_fields h) (by decide)
      (found_own (silent_nil _) _ _)
  have haddress : extractString (fieldsText s.fields) "address".toList = some s.addressText :=
    extractString_found isName_address.1 (s.clean_fields h) h.1
      (found_own (silent_of_not_mem (by decide)) _ _)
  have hport : extractInt (fieldsText s.fields) "port".toList = .ok (s.port.toNat : Int) := by
    have hfits : s.port.toNat < 2 ^ 31 := Nat.lt_trans s.port.toNat_lt (by decide)
    have hread := extractInteger_found (by decide) (s.clean_fields h) (2 ^ 31)
      (found_next (silent_of_not_mem (by decide) : Silent "port".toList fieldsBefore)
        (by decide) s.addressText (.num (digits s.port.toNat)) _)
    rwa [javaInteger, if_pos hfits] at hread
  have hinbound : "remote-candidate".toList ≠ "inbound-rtp".toList := by decide
  have hpeer : "remote-candidate".toList ≠ "peer-connection".toList := by decide
  rw [readObject, htype]
  simp only [if_neg hinbound, if_neg hpeer, if_true, readRemoteCandidate, haddress, hport,
    s.extractString_candidate_type h]
  rfl

end

/-- The record with the values of the entry. -/
def toJava : RemoteCandidateStats where
  address := some s.addressText
  port := s.port.toNat
  candidateType := some s.candidateType.text

/-- The address is not the key behind it. -/
def Fits : Prop := s.addressText ≠ "candidate_type".toList

theorem readBack_eq_iff : s.readBack = s.toJava ↔ s.Fits := by
  have htext : ∀ t : RTCIceCandidateType, "candidate_type".toList ≠ t.text := by
    intro t
    cases t <;> decide
  simp only [readBack, toJava, RemoteCandidateStats.mk.injEq, Option.some.injEq, true_and, readType,
    Fits]
  by_cases hclash : s.addressText = "candidate_type".toList
  · rw [if_pos hclash]
    exact ⟨fun heq => absurd heq (htext _), fun hne => absurd hclash hne⟩
  · rw [if_neg hclash]
    exact ⟨fun _ => hclash, fun _ => rfl⟩

end RTCIceCandidateStats

/-! ## 3. Entries -/

namespace RTCStatsReportEntry

/-- Whether there is a text for the entry. -/
def isPrinted : RTCStatsReportEntry → Bool
  | .peerConnection _ | .inboundRtp _ | .remoteCandidate _ => true
  | _ => false

/-- The free string of the entry. -/
def freeString : RTCStatsReportEntry → Text
  | .inboundRtp s => s.trackIdentifier
  | .remoteCandidate s => s.addressText
  | _ => []

def fields : RTCStatsReportEntry → List Field
  | .peerConnection s => s.fields
  | .inboundRtp s => s.fields
  | .remoteCandidate s => s.fields
  | _ => []

/-- What Java makes of a printed entry, if its free string is neat. -/
def readBack : RTCStatsReportEntry → Option StatsObject
  | .peerConnection s => some (.peerConnection s.readBack)
  | .inboundRtp s => some (.inboundRtp s.readBack)
  | .remoteCandidate s => some (.remoteCandidate s.readBack)
  | _ => none

/-- What Java should make of an entry: the same values, and nothing of a kind it does not know. -/
def toJava : RTCStatsReportEntry → Option StatsObject
  | .peerConnection s => some (.peerConnection s.toJava)
  | .inboundRtp s => some (.inboundRtp s.toJava)
  | .remoteCandidate s => some (.remoteCandidate s.toJava)
  | _ => none

/-- What is needed for the numbers and keys. -/
def Fits : RTCStatsReportEntry → Prop
  | .peerConnection s => s.Fits
  | .inboundRtp s => s.Fits
  | .remoteCandidate s => s.Fits
  | _ => True

variable {e : RTCStatsReportEntry}

theorem text_eq (h : e.isPrinted = true) : e.text = fieldsText e.fields := by
  cases e with
  | peerConnection s => exact s.text_eq
  | inboundRtp s => exact s.text_eq
  | remoteCandidate s => exact s.text_eq
  | _ => cases h

theorem fields_ne_nil (h : e.isPrinted = true) : e.fields ≠ [] := by
  cases e with
  | peerConnection s | inboundRtp s | remoteCandidate s => exact List.cons_ne_nil _ _
  | _ => cases h

theorem clean_fields (h : Neat e.freeString) : ∀ f ∈ e.fields, f.Clean := by
  cases e with
  | peerConnection s => exact fun f hf => (s.sound_fields f hf).clean
  | inboundRtp s => exact s.clean_fields h
  | remoteCandidate s => exact s.clean_fields h
  | _ => simp [fields]

theorem readObject_fields (hprinted : e.isPrinted = true) (h : Neat e.freeString) :
    readObject (fieldsText e.fields) = .ok e.readBack := by
  cases e with
  | peerConnection s => exact s.readObject_fields
  | inboundRtp s => exact s.readObject_fields h
  | remoteCandidate s => exact s.readObject_fields h
  | _ => cases hprinted

theorem readBack_eq_iff : e.readBack = e.toJava ↔ e.Fits := by
  cases e with
  | peerConnection s => simpa [readBack, toJava, Fits] using s.readBack_eq_iff
  | inboundRtp s => simpa [readBack, toJava, Fits] using s.readBack_eq_iff
  | remoteCandidate s => simpa [readBack, toJava, Fits] using s.readBack_eq_iff
  | _ => simp [readBack, toJava, Fits]

/-- The parser gets through the body of the entry. -/
theorem readsAs (hprinted : e.isPrinted = true) (h : Neat e.freeString) :
    ReadsAs (fun e => bodyText (fields e)) readBack e := by
  refine ⟨isBody_bodyText (fields_ne_nil hprinted) (clean_fields h), ?_⟩
  rw [← fieldsText_eq]
  exact readObject_fields hprinted h

end RTCStatsReportEntry

/-! ## 4. The place of the free string -/

/-- Two objects of the same kind that are not the same. -/
def Differs : Option StatsObject → Option StatsObject → Prop
  | some (.inboundRtp r), some (.inboundRtp r') => r ≠ r'
  | some (.peerConnection r), some (.peerConnection r') => r ≠ r'
  | some (.remoteCandidate r), some (.remoteCandidate r') => r ≠ r'
  | _, _ => False

/-- The entry has its free string under `key`, with `pre` before it and `post` behind it.  The type
comes first, so that an object of which no more is known than `pre` is still read as an entry
of this kind. -/
structure Place (e : RTCStatsReportEntry) (pre : List Field) (key : Text) (post : List Field) : Prop
    where
  fields : e.fields = pre ++ (key, .str e.freeString) :: post
  printed : e.isPrinted = true
  soundBefore : ∀ f ∈ pre, f.Sound
  soundBehind : ∀ f ∈ post, f.Sound
  name : IsName key
  silent : Silent key pre
  follows : ∃ c k v fs, post = (c :: k, v) :: fs ∧ endsValue c = false
  kind : ∃ type fs, pre = ("type".toList, .str type) :: fs ∧ '"' ∉ type ∧
    ∀ obj o, extractString obj "type".toList = some type → readObject obj = .ok o →
      extractString obj key ≠ some e.freeString → Differs o e.toJava

theorem readInboundRtp_trackIdentifier {obj : Text} {r : InboundRtpStats}
    (h : readInboundRtp obj = .ok r) :
    r.trackIdentifier = extractString obj "track_identifier".toList := by
  rw [readInboundRtp] at h
  obtain ⟨ssrc, -, h⟩ := bind_ok h
  obtain ⟨bytes, -, h⟩ := bind_ok h
  obtain ⟨packets, -, h⟩ := bind_ok h
  obtain ⟨lost, -, h⟩ := bind_ok h
  obtain ⟨jitter, -, h⟩ := bind_ok h
  obtain ⟨nack, -, h⟩ := bind_ok h
  obtain ⟨fir, -, h⟩ := bind_ok h
  obtain ⟨pli, -, h⟩ := bind_ok h
  cases h
  rfl

theorem readRemoteCandidate_address {obj : Text} {r : RemoteCandidateStats}
    (h : readRemoteCandidate obj = .ok r) : r.address = extractString obj "address".toList := by
  rw [readRemoteCandidate] at h
  obtain ⟨port, -, h⟩ := bind_ok h
  cases h
  rfl

theorem place_inboundRtp (s : RTCInboundRtpStreamStats) :
    Place (.inboundRtp s) s.fieldsBefore "track_identifier".toList s.fieldsBehind where
  fields := rfl
  printed := rfl
  soundBefore := s.sound_fieldsBefore
  soundBehind := s.sound_fieldsBehind
  name := RTCInboundRtpStreamStats.isName_trackIdentifier
  silent := s.silent_fieldsBefore (by decide)
  follows := ⟨'b', "ytes_received".toList, _, _, rfl, by decide⟩
  kind := by
    refine ⟨_, _, rfl, by decide, ?_⟩
    intro obj o htype hread hne
    rw [readObject, htype] at hread
    simp only [if_true] at hread
    obtain ⟨r, hr, rfl⟩ := map_ok hread
    rintro rfl
    exact hne (readInboundRtp_trackIdentifier hr).symm

theorem place_remoteCandidate (s : RTCIceCandidateStats) :
    Place (.remoteCandidate s) RTCIceCandidateStats.fieldsBefore "address".toList
      s.fieldsBehind where
  fields := rfl
  printed := rfl
  soundBefore := RTCIceCandidateStats.sound_fieldsBefore
  soundBehind := s.sound_fieldsBehind
  name := RTCIceCandidateStats.isName_address
  silent := silent_of_not_mem (by decide)
  follows := ⟨'p', "ort".toList, _, _, rfl, by decide⟩
  kind := by
    refine ⟨_, _, rfl, by decide, ?_⟩
    intro obj o htype hread hne
    have hinbound : "remote-candidate".toList ≠ "inbound-rtp".toList := by decide
    have hpeer : "remote-candidate".toList ≠ "peer-connection".toList := by decide
    rw [readObject, htype] at hread
    simp only [if_neg hinbound, if_neg hpeer, if_true] at hread
    obtain ⟨r, hr, rfl⟩ := map_ok hread
    rintro rfl
    exact hne (readRemoteCandidate_address hr).symm

/-- A free string that is not empty has a place. -/
theorem exists_place {e : RTCStatsReportEntry} (h : e.freeString ≠ []) :
    ∃ pre key post, Place e pre key post := by
  cases e with
  | inboundRtp s => exact ⟨_, _, _, place_inboundRtp s⟩
  | remoteCandidate s => exact ⟨_, _, _, place_remoteCandidate s⟩
  | _ => exact absurd rfl h

end WebrtcBridge.Stats
