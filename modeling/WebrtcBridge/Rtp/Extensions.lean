/-
# Changing the extension of an RTP header

`set_extension` and `del_extension` keep the elements of the extension and, beside them, the number
of zeros behind the last element.  That number is never computed from the elements: each call adds
to it or takes from it what the change of the length asks for, modulo four, in three different ways.
If it were ever off by one, `marshal` would refuse every later packet.

The first call decides the profile by the length of its payload and checks nothing else, and a
profile with headers of one byte refuses payloads of more than 16 bytes from then on.  So a header
behaves like a finite map with a profile, `ExtensionMap`, and the result here is that it refines
that map along every sequence of calls, stays well formed (so that `Rtp.Header` can write it and
read it back), and answers `get_extension` as the map does.  The ids are those that are negotiated,
1 to 14, and no payload is empty; both are needed, since an empty payload in the profile with one
byte is written as a length of 256.
-/
import Mathlib.Algebra.Order.BigOperators.Group.List
import Mathlib.Algebra.Order.Group.Nat
import Mathlib.Data.List.Nodup
import Mathlib.Data.List.Perm.Subperm
import WebrtcBridge.Lib.Runs
import WebrtcBridge.Rtp.Header

namespace WebrtcBridge.Rtp

open Lib

/-! ## 1. The operations -/

/-- The first element with the id gets the payload. -/
def replaceFirst (id : UInt8) (payload : List UInt8) : List Extension → List Extension
  | [] => []
  | e :: es => if e.id = id then ⟨e.id, payload⟩ :: es else e :: replaceFirst id payload es

namespace Header

/-- The checks of `set_extension`, and the length of an element's header. -/
def checkExtension (profile : UInt16) (id : UInt8) (payload : List UInt8) : Except Error Nat :=
  if profile = EXTENSION_PROFILE_ONE_BYTE then
    if ¬ (1 ≤ id.toNat ∧ id.toNat ≤ 14) then .error .errRfc8285oneByteHeaderIdrange
    else if 16 < payload.length then .error .errRfc8285oneByteHeaderSize
    else .ok 1
  else if profile = EXTENSION_PROFILE_TWO_BYTE then
    if id.toNat < 1 then .error .errRfc8285twoByteHeaderIdrange
    else if 255 < payload.length then .error .errRfc8285twoByteHeaderSize
    else .ok 2
  else if id ≠ 0 then .error .errRfc3550headerIdrange
  else .ok 0

/-- The number of zeros after the extension has grown by `delta`. -/
def paddingAfter (padding : Nat) (delta : Int) : Nat :=
  if delta < 0 then (((padding : Int) - delta).tmod 4).toNat
  else if 0 < delta then
    let extensionPadding := (delta.tmod 4).toNat
    if padding < extensionPadding then padding + 4 - extensionPadding
    else padding - extensionPadding
  else padding

def setExtension (h : Header) (id : UInt8) (payload : List UInt8) : Except Error Header :=
  if h.extension then do
    let extensionProfileLen ← checkExtension h.extensionProfile id payload
    match h.extensions.find? fun e => e.id = id with
    | some e =>
      return { h with extensions := replaceFirst id payload h.extensions
                      extensionsPadding :=
                        paddingAfter h.extensionsPadding
                          ((payload.length : Int) - e.payload.length) }
    | none =>
      return { h with extensions := h.extensions ++ [⟨id, payload⟩]
                      extensionsPadding :=
                        paddingAfter h.extensionsPadding (payload.length + extensionProfileLen) }
  else
    let (extensionProfileLen, extensionProfile) :=
      if payload.length ≤ 16 then (1, EXTENSION_PROFILE_ONE_BYTE)
      else if payload.length ≤ 255 then (2, EXTENSION_PROFILE_TWO_BYTE)
      else (0, h.extensionProfile)
    let extensionPadding := (payload.length + extensionProfileLen) % 4
    .ok { h with extension := true, extensionProfile := extensionProfile
                 extensions := h.extensions ++ [⟨id, payload⟩]
                 extensionsPadding :=
                   if h.extensionsPadding < extensionPadding
                   then h.extensionsPadding + 4 - extensionPadding
                   else h.extensionsPadding - extensionPadding }

def getExtension (h : Header) (id : UInt8) : Option (List UInt8) :=
  if h.extension then (h.extensions.find? fun e => e.id = id).map Extension.payload else none

def delExtension (h : Header) (id : UInt8) : Except Error Header :=
  if h.extension then
    match h.extensions.find? fun e => e.id = id with
    | some e =>
      let extensionPadding := (e.payload.length + elementHeaderLen h.extensionProfile) % 4
      .ok { h with extensions := h.extensions.eraseP fun e => e.id = id
                   extensionsPadding := (h.extensionsPadding + extensionPadding) % 4 }
    | none => .error .errHeaderExtensionNotFound
  else .error .errHeaderExtensionsNotEnabled

end Header

/-! ## 2. Elements and their length -/

/-- The bytes of the elements, without zeros. -/
def elementsLen (profile : UInt16) (es : List Extension) : Nat :=
  (es.map fun e => e.payload.length).sum + es.length * elementHeaderLen profile

theorem getExtensionPayloadLen_eq (h : Header) :
    h.getExtensionPayloadLen = elementsLen h.extensionProfile h.extensions := rfl

theorem elementsLen_cons (profile : UInt16) (e : Extension) (es : List Extension) :
    elementsLen profile (e :: es)
      = e.payload.length + elementHeaderLen profile + elementsLen profile es := by
  simp only [elementsLen, List.map_cons, List.sum_cons, List.length_cons, Nat.succ_mul]
  omega

theorem elementsLen_append (profile : UInt16) (es : List Extension) (e : Extension) :
    elementsLen profile (es ++ [e])
      = elementsLen profile es + (e.payload.length + elementHeaderLen profile) := by
  simp only [elementsLen, List.map_append, List.sum_append, List.length_append, List.map_cons,
    List.map_nil, List.sum_cons, List.sum_nil, List.length_cons, List.length_nil, Nat.add_mul]
  omega

section Find

variable {id : UInt8} {payload : List UInt8} {es : List Extension} {e : Extension}

theorem elementsLen_replaceFirst (profile : UInt16) (payload : List UInt8)
    (h : es.find? (fun e => e.id = id) = some e) :
    elementsLen profile (replaceFirst id payload es) + e.payload.length
      = elementsLen profile es + payload.length := by
  induction es with
  | nil => simp at h
  | cons x es ih =>
    rw [List.find?_cons] at h
    rw [replaceFirst, elementsLen_cons]
    by_cases hx : x.id = id
    · simp only [hx, decide_true, Option.some.injEq] at h
      subst h
      rw [if_pos hx, elementsLen_cons]
      simp only
      omega
    · simp only [hx, decide_false] at h
      have := ih h
      rw [if_neg hx, elementsLen_cons]
      omega

theorem elementsLen_eraseP (profile : UInt16) (h : es.find? (fun e => e.id = id) = some e) :
    elementsLen profile (es.eraseP fun e => e.id = id) +
      (e.payload.length + elementHeaderLen profile)
      = elementsLen profile es := by
  induction es with
  | nil => simp at h
  | cons x es ih =>
    rw [List.find?_cons] at h
    rw [List.eraseP_cons, elementsLen_cons]
    by_cases hx : x.id = id
    · simp only [hx, decide_true, Option.some.injEq] at h
      subst h
      simp only [hx, decide_true, cond_true]
      omega
    · simp only [hx, decide_false] at h
      have := ih h
      simp only [hx, decide_false, cond_false, elementsLen_cons]
      omega

theorem ids_replaceFirst (id : UInt8) (payload : List UInt8) (es : List Extension) :
    (replaceFirst id payload es).map Extension.id = es.map Extension.id := by
  induction es with
  | nil => rfl
  | cons x es ih =>
    rw [replaceFirst]
    split <;> simp [ih]

theorem mem_replaceFirst (h : e ∈ replaceFirst id payload es) : e ∈ es ∨ e = ⟨id, payload⟩ := by
  induction es with
  | nil => simp [replaceFirst] at h
  | cons x es ih =>
    rw [replaceFirst] at h
    by_cases hx : x.id = id
    · rw [if_pos hx, List.mem_cons, hx] at h
      exact h.elim Or.inr fun hmem => Or.inl (List.mem_cons_of_mem x hmem)
    · rw [if_neg hx, List.mem_cons] at h
      rcases h with rfl | hmem
      · exact Or.inl List.mem_cons_self
      · exact (ih hmem).imp_left (List.mem_cons_of_mem x)

theorem find?_replaceFirst (id id' : UInt8) (payload : List UInt8) (es : List Extension) :
    ((replaceFirst id payload es).find? fun e => e.id = id').map Extension.payload
      = if id' = id ∧ (es.find? fun e => e.id = id).isSome then some payload
        else (es.find? fun e => e.id = id').map Extension.payload := by
  induction es with
  | nil => simp [replaceFirst]
  | cons x es ih =>
    rw [replaceFirst, List.find?_cons, List.find?_cons]
    by_cases hx : x.id = id
    · by_cases hid : id' = id
      · subst hid
        simp [hx]
      · simp [hx, hid, Ne.symm hid]
    · rw [if_neg hx, List.find?_cons]
      by_cases hx' : x.id = id'
      · have hid : id' ≠ id := fun hidd => hx (hx'.trans hidd)
        simp [hx', hid]
      · simp [hx, hx', ih]

theorem find?_eraseP (hnodup : (es.map Extension.id).Nodup) (id id' : UInt8) :
    ((es.eraseP fun e => e.id = id).find? fun e => e.id = id').map Extension.payload
      = if id' = id then none else (es.find? fun e => e.id = id').map Extension.payload := by
  induction es with
  | nil => simp
  | cons x es ih =>
    rw [List.map_cons, List.nodup_cons] at hnodup
    rw [List.eraseP_cons, List.find?_cons]
    by_cases hx : x.id = id
    · simp only [hx, decide_true, cond_true]
      by_cases hid : id' = id
      · -- the id occurs once, so none is left
        have hnone : es.find? (fun e => e.id = id') = none := by
          rw [List.find?_eq_none]
          intro y hy hyid
          exact hnodup.1 (List.mem_map.mpr ⟨y, hy, by simpa [hx, hid] using hyid⟩)
        rw [if_pos hid, hnone]
        rfl
      · simp [hid, Ne.symm hid]
    · simp only [hx, decide_false, cond_false, List.find?_cons]
      by_cases hx' : x.id = id'
      · have hid : id' ≠ id := fun hidd => hx (hx'.trans hidd)
        simp [hx', hid]
      · simp [hx', ih hnodup.2]

end Find

/-! ## 3. The number of zeros -/

/-- **The bookkeeping is right**: whichever way the length changes, the zeros go on filling the last
word. -/
theorem paddingAfter_fills {len len' padding : Nat} (hfill : (len + padding) % 4 = 0)
    (hpad : padding < 4) :
    (len' + Header.paddingAfter padding ((len' : Int) - len)) % 4 = 0
      ∧ Header.paddingAfter padding ((len' : Int) - len) < 4 := by
  unfold Header.paddingAfter
  rcases Nat.lt_trichotomy len' len with hlt | rfl | hgt
  · have hval :
      ((padding : Int) - ((len' : Int) - len)).tmod 4 = ((padding + (len - len') : Nat) % 4 : Nat)
        := by
      rw [Int.tmod_eq_emod_of_nonneg (by omega)]
      omega
    rw [if_pos (by omega), hval]
    simp only [Int.toNat_natCast]
    omega
  · rw [if_neg (by omega), if_neg (by omega)]
    exact ⟨hfill, hpad⟩
  · have hval : ((len' : Int) - len).tmod 4 = ((len' - len : Nat) % 4 : Nat) := by
      rw [Int.tmod_eq_emod_of_nonneg (by omega)]
      omega
    rw [if_neg (by omega), if_pos (by omega), hval]
    simp only [Int.toNat_natCast]
    split <;> omega

/-! ## 4. Headers as maps -/

/-- Calls on a header. -/
inductive ExtensionCall where
  | set (id : UInt8) (payload : List UInt8)
  | del (id : UInt8)
  deriving DecidableEq, Repr

/-- An id as it is negotiated, and a payload that is not empty and fits in some profile. -/
def ExtensionCall.Usual : ExtensionCall → Prop
  | .set id payload =>
    1 ≤ id.toNat ∧ id.toNat ≤ 14 ∧ 1 ≤ payload.length ∧ payload.length ≤ 255
  | .del _ => True

instance : DecidablePred ExtensionCall.Usual := fun c => by
  cases c <;> unfold ExtensionCall.Usual <;> infer_instance

/-- A call that is refused leaves the header as it is. -/
def Header.call (h : Header) : ExtensionCall → Header
  | .set id payload => match h.setExtension id payload with
    | .ok h' => h'
    | .error _ => h
  | .del id => match h.delExtension id with
    | .ok h' => h'
    | .error _ => h

/-- **What a header extension is for**: a map from ids to payloads, with room for at most `room`
bytes in each.  The first payload decides the room. -/
structure ExtensionMap where
  room : Option Nat
  value : UInt8 → Option (List UInt8)

def ExtensionMap.empty : ExtensionMap := ⟨none, fun _ => none⟩

def ExtensionMap.call (m : ExtensionMap) : ExtensionCall → ExtensionMap
  | .set id payload =>
    let room := m.room.getD (if payload.length ≤ 16 then 16 else 255)
    if payload.length ≤ room then
      ⟨some room, fun id' => if id' = id then some payload else m.value id'⟩
    else m
  | .del id => { m with value := fun id' => if id' = id then none else m.value id' }

/-- The room of a profile. -/
def profileRoom (profile : UInt16) : Nat := if profile = EXTENSION_PROFILE_ONE_BYTE then 16 else 255

/-- **The header and the map.** -/
structure Refines (h : Header) (m : ExtensionMap) : Prop where
  wellFormed : h.WellFormed
  room : m.room = if h.extension then some (profileRoom h.extensionProfile) else none
  value : ∀ id, h.getExtension id = m.value id
  profile : h.extension = true →
    h.extensionProfile = EXTENSION_PROFILE_ONE_BYTE
      ∨ h.extensionProfile = EXTENSION_PROFILE_TWO_BYTE
  nodup : (h.extensions.map Extension.id).Nodup
  ids : ∀ e ∈ h.extensions, 1 ≤ e.id.toNat ∧ e.id.toNat ≤ 14

/-- With few ids the length field never overflows. -/
theorem elementsLen_lt {profile : UInt16} {es : List Extension}
    (hfit : ∀ e ∈ es, e.payload.length ≤ 255) (hnodup : (es.map Extension.id).Nodup)
    (hids : ∀ e ∈ es, 1 ≤ e.id.toNat ∧ e.id.toNat ≤ 14) : elementsLen profile es < 2 ^ 16 := by
  have hnat : (es.map fun e => e.id.toNat).Nodup := by
    have := hnodup.map (fun a b hab => UInt8.toNat_inj.mp hab : Function.Injective UInt8.toNat)
    rwa [List.map_map] at this
  have hsub : (es.map fun e => e.id.toNat) ⊆ List.range 15 := by
    intro n hn
    obtain ⟨e, he, rfl⟩ := List.mem_map.mp hn
    have := hids e he
    exact List.mem_range.mpr (by omega)
  have hcount : es.length ≤ 15 := by
    have := (List.subperm_of_subset hnat hsub).length_le
    simpa using this
  have hsum : (es.map fun e => e.payload.length).sum ≤ es.length * 255 := by
    have := List.sum_le_card_nsmul (es.map fun e => e.payload.length) 255 (by
      intro n hn
      obtain ⟨e, he, rfl⟩ := List.mem_map.mp hn
      exact hfit e he)
    rwa [List.length_map, Nat.nsmul_eq_mul] at this
  have hheader : elementHeaderLen profile ≤ 2 := by
    unfold elementHeaderLen
    split
    · omega
    · split <;> omega
  have hmul : es.length * elementHeaderLen profile ≤ 15 * 2 := Nat.mul_le_mul hcount hheader
  unfold elementsLen
  omega

section Refines

variable {h : Header} {m : ExtensionMap} {profile : UInt16} {es : List Extension} {pad : Nat}

/-- The header with another extension, all of its own fields kept. -/
def Header.withElements (h : Header) (profile : UInt16) (es : List Extension) (pad : Nat) :
    Header :=
  { h with
    extension := true, extensionProfile := profile, extensions := es, extensionsPadding := pad }

theorem Extension.Fits.payload_le {e : Extension} (h : e.Fits profile) :
    e.payload.length ≤ 255 := by
  unfold Extension.Fits at h
  split at h <;> omega

/-- What has to be known of the new elements. -/
theorem Header.WellFormed.withElements (hw : h.WellFormed)
    (hp : profile = EXTENSION_PROFILE_ONE_BYTE ∨ profile = EXTENSION_PROFILE_TWO_BYTE)
    (hfit : ∀ e ∈ es, e.Fits profile) (hnodup : (es.map Extension.id).Nodup)
    (hids : ∀ e ∈ es, 1 ≤ e.id.toNat ∧ e.id.toNat ≤ 14)
    (hfill : (elementsLen profile es + pad) % 4 = 0) (hpad : pad < 4) :
    (h.withElements profile es pad).WellFormed where
  version := hw.version
  payloadType := hw.payloadType
  csrc := hw.csrc
  none := fun hx => by cases hx
  some := fun _ => ⟨elementsLen_lt (fun e he => (hfit e he).payload_le) hnodup hids, hfill, hpad⟩
  elements := fun _ => hfit
  block := fun _ hone htwo => absurd hp (not_or.mpr ⟨hone, htwo⟩)

theorem Refines.fits (hR : Refines h m) (hx : h.extension = true) :
    ∀ e ∈ h.extensions, e.Fits h.extensionProfile := hR.wellFormed.elements (hR.profile hx)

theorem checkExtension_usual {id : UInt8} {payload : List UInt8}
    (hc : (ExtensionCall.set id payload).Usual)
    (hp : profile = EXTENSION_PROFILE_ONE_BYTE ∨ profile = EXTENSION_PROFILE_TWO_BYTE) :
    (payload.length ≤ profileRoom profile ∧ Extension.Fits profile ⟨id, payload⟩
        ∧ Header.checkExtension profile id payload = .ok (elementHeaderLen profile))
      ∨ (profileRoom profile < payload.length
        ∧ ∃ e, Header.checkExtension profile id payload = .error e) := by
  obtain ⟨hid, hid14, hpos, hlen⟩ := hc
  have hne : EXTENSION_PROFILE_TWO_BYTE ≠ EXTENSION_PROFILE_ONE_BYTE := by decide
  rcases hp with rfl | rfl
  · by_cases hsize : payload.length ≤ 16
    · left
      simp only [profileRoom, Extension.Fits, Header.checkExtension, elementHeaderLen, if_true]
      refine ⟨hsize, ⟨hid, hid14, hpos, hsize⟩, ?_⟩
      rw [if_neg (by simp [hid, hid14]), if_neg (by omega)]
    · right
      simp only [profileRoom, Header.checkExtension, if_true]
      refine ⟨by omega, .errRfc8285oneByteHeaderSize, ?_⟩
      rw [if_neg (by simp [hid, hid14]), if_pos (by omega)]
  · left
    simp only [profileRoom, Extension.Fits, Header.checkExtension, elementHeaderLen, hne, if_false,
      if_true]
    refine ⟨hlen, ⟨hid, hlen⟩, ?_⟩
    rw [if_neg (by omega), if_neg (by omega)]

/-- One more step of the map, from what is known of the new elements. -/
theorem Refines.update (hR : Refines h m) {value : UInt8 → Option (List UInt8)}
    (hp : profile = EXTENSION_PROFILE_ONE_BYTE ∨ profile = EXTENSION_PROFILE_TWO_BYTE)
    (hfit : ∀ e ∈ es, e.Fits profile) (hnodup : (es.map Extension.id).Nodup)
    (hids : ∀ e ∈ es, 1 ≤ e.id.toNat ∧ e.id.toNat ≤ 14)
    (hfill : (elementsLen profile es + pad) % 4 = 0 ∧ pad < 4)
    (hvalue : ∀ id, (es.find? fun e => e.id = id).map Extension.payload = value id) :
    Refines (h.withElements profile es pad) ⟨some (profileRoom profile), value⟩ where
  wellFormed := hR.wellFormed.withElements hp hfit hnodup hids hfill.1 hfill.2
  room := (if_pos rfl).symm
  value := hvalue
  profile := fun _ => hp
  nodup := hnodup
  ids := hids

theorem Refines.room_eq (hR : Refines h m) (hx : h.extension = true) :
    m.room = some (profileRoom h.extensionProfile) := by rw [hR.room, if_pos hx]

theorem Refines.value_eq (hR : Refines h m) (hx : h.extension = true) (id : UInt8) :
    (h.extensions.find? fun e => e.id = id).map Extension.payload = m.value id := by
  rw [← hR.value id, Header.getExtension, if_pos hx]

/-- **Setting an element that is there.** -/
theorem Refines.replace (hR : Refines h m) (hx : h.extension = true) {id : UInt8}
    {payload : List UInt8} {e : Extension}
    (hfind : h.extensions.find? (fun e => e.id = id) = some e)
    (hfit : Extension.Fits h.extensionProfile ⟨id, payload⟩)
    (hid : 1 ≤ id.toNat ∧ id.toNat ≤ 14) :
    Refines (h.withElements h.extensionProfile (replaceFirst id payload h.extensions)
        (Header.paddingAfter h.extensionsPadding ((payload.length : Int) - e.payload.length)))
      ⟨some (profileRoom h.extensionProfile),
        fun id' => if id' = id then some payload else m.value id'⟩ := by
  obtain ⟨_, hfill, hpad⟩ := hR.wellFormed.some hx
  have hlen := elementsLen_replaceFirst h.extensionProfile payload hfind
  have hdelta : (payload.length : Int) - e.payload.length
      = (elementsLen h.extensionProfile (replaceFirst id payload h.extensions) : Int)
        - elementsLen h.extensionProfile h.extensions := by omega
  refine hR.update (hR.profile hx) (fun e' he' => ?_) ?_ (fun e' he' => ?_) ?_ fun id' => ?_
  · exact (mem_replaceFirst he').elim (hR.fits hx e') fun heq => heq ▸ hfit
  · rw [ids_replaceFirst]
    exact hR.nodup
  · exact (mem_replaceFirst he').elim (hR.ids e') fun heq => heq ▸ hid
  · rw [hdelta]
    exact paddingAfter_fills hfill hpad
  · rw [find?_replaceFirst, hfind, hR.value_eq hx]
    simp

/-- **Setting an element that is not there.** -/
theorem Refines.add (hR : Refines h m) (hx : h.extension = true) {id : UInt8}
    {payload : List UInt8} (hfind : h.extensions.find? (fun e => e.id = id) = none)
    (hfit : Extension.Fits h.extensionProfile ⟨id, payload⟩)
    (hid : 1 ≤ id.toNat ∧ id.toNat ≤ 14) :
    Refines (h.withElements h.extensionProfile (h.extensions ++ [⟨id, payload⟩])
        (Header.paddingAfter h.extensionsPadding
          (payload.length + elementHeaderLen h.extensionProfile : Nat)))
      ⟨some (profileRoom h.extensionProfile),
        fun id' => if id' = id then some payload else m.value id'⟩ := by
  obtain ⟨_, hfill, hpad⟩ := hR.wellFormed.some hx
  have hlen := elementsLen_append h.extensionProfile h.extensions ⟨id, payload⟩
  have hdelta : ((payload.length + elementHeaderLen h.extensionProfile : Nat) : Int)
      = (elementsLen h.extensionProfile (h.extensions ++ [⟨id, payload⟩]) : Int)
        - elementsLen h.extensionProfile h.extensions := by
    rw [hlen]
    simp only
    omega
  have hnew : id ∉ h.extensions.map Extension.id := by
    intro hmem
    obtain ⟨e, he, heq⟩ := List.mem_map.mp hmem
    rw [List.find?_eq_none] at hfind
    exact hfind e he (by simpa using heq)
  refine hR.update (hR.profile hx) (fun e' he' => ?_) ?_ (fun e' he' => ?_) ?_ fun id' => ?_
  · rcases List.mem_append.mp he' with he' | he'
    · exact hR.fits hx e' he'
    · exact List.mem_singleton.mp he' ▸ hfit
  · rw [List.map_append, List.map_singleton]
    exact hR.nodup.append (List.nodup_singleton _) (by simpa using hnew)
  · rcases List.mem_append.mp he' with he' | he'
    · exact hR.ids e' he'
    · exact List.mem_singleton.mp he' ▸ hid
  · rw [hdelta]
    exact paddingAfter_fills hfill hpad
  · rw [List.find?_append, ← hR.value_eq hx]
    by_cases hidd : id' = id
    · subst hidd
      rw [hfind]
      simp
    · cases h.extensions.find? fun e => e.id = id' <;> simp [hidd, Ne.symm hidd]

/-- **Deleting an element.** -/
theorem Refines.erase (hR : Refines h m) (hx : h.extension = true) {id : UInt8} {e : Extension}
    (hfind : h.extensions.find? (fun e => e.id = id) = some e) :
    Refines (h.withElements h.extensionProfile (h.extensions.eraseP fun e => e.id = id)
        ((h.extensionsPadding + (e.payload.length + elementHeaderLen h.extensionProfile) % 4) % 4))
      ⟨some (profileRoom h.extensionProfile),
        fun id' => if id' = id then none else m.value id'⟩ := by
  obtain ⟨_, hfill, hpad⟩ := hR.wellFormed.some hx
  have hlen := elementsLen_eraseP h.extensionProfile hfind
  have hsub : (h.extensions.eraseP fun e => e.id = id).Sublist h.extensions := List.eraseP_sublist
  refine hR.update (hR.profile hx) (fun e' he' => hR.fits hx e' (hsub.subset he'))
    (hR.nodup.sublist (hsub.map _)) (fun e' he' => hR.ids e' (hsub.subset he')) ?_ fun id' => ?_
  · rw [getExtensionPayloadLen_eq] at hfill
    omega
  · rw [find?_eraseP hR.nodup, hR.value_eq hx]

/-- **The first element.** -/
theorem Refines.first (hR : Refines h m) (hx : h.extension = false) {id : UInt8}
    {payload : List UInt8} (hfit : Extension.Fits profile ⟨id, payload⟩)
    (hp : profile = EXTENSION_PROFILE_ONE_BYTE ∨ profile = EXTENSION_PROFILE_TWO_BYTE)
    (hid : 1 ≤ id.toNat ∧ id.toNat ≤ 14) :
    Refines (h.withElements profile [⟨id, payload⟩]
        (if 0 < (payload.length + elementHeaderLen profile) % 4
          then 4 - (payload.length + elementHeaderLen profile) % 4 else 0))
      ⟨some (profileRoom profile), fun id' => if id' = id then some payload else m.value id'⟩ := by
  have hlen : elementsLen profile [⟨id, payload⟩] = payload.length + elementHeaderLen profile := by
    simp [elementsLen]
  refine hR.update hp (fun e' he' => List.mem_singleton.mp he' ▸ hfit) (List.nodup_singleton _)
    (fun e' he' => List.mem_singleton.mp he' ▸ hid) ?_ fun id' => ?_
  · rw [hlen]
    split <;> omega
  · have hnone : m.value id' = none := by rw [← hR.value, Header.getExtension, hx]; rfl
    by_cases hidd : id' = id
    · simp [hidd]
    · simp [hidd, Ne.symm hidd, hnone]

/-- **Every call of the header is one of the map.** -/
theorem Refines.call (hR : Refines h m) {c : ExtensionCall} (hc : c.Usual) :
    Refines (h.call c) (m.call c) := by
  cases hx : h.extension with
  | true =>
    cases c with
    | set id payload =>
      simp only [Header.call, Header.setExtension, hx, if_true, ExtensionMap.call, hR.room_eq hx,
        Option.getD_some]
      rcases checkExtension_usual hc (hR.profile hx) with ⟨hroom, hfit, hok⟩ | ⟨hroom, e, herr⟩
      · simp only [hok, bind, Except.bind, hroom, if_true]
        cases hfind : h.extensions.find? fun e => e.id = id with
        | some e =>
          exact hR.replace hx hfind hfit ⟨hc.1, hc.2.1⟩
        | none =>
          exact hR.add hx hfind hfit ⟨hc.1, hc.2.1⟩
      · simp only [herr, bind, Except.bind, Nat.not_le.mpr hroom, if_false]
        exact hR
    | del id =>
      simp only [Header.call, Header.delExtension, hx, if_true, ExtensionMap.call]
      cases hfind : h.extensions.find? fun e => e.id = id with
      | some e =>
        rw [hR.room_eq hx]
        exact hR.erase hx hfind
      | none =>
        -- nothing to delete on either side
        have hvalue : (fun id' => if id' = id then none else m.value id') = m.value := by
          funext id'
          split
          · next heq => rw [← hR.value_eq hx, heq, hfind]; rfl
          · rfl
        rw [hvalue]
        exact hR
  | false =>
    have hempty : h.extensions = [] ∧ h.extensionsPadding = 0 := (hR.wellFormed.none hx).2
    have hroom : m.room = none := by rw [hR.room, hx]; rfl
    cases c with
    | set id payload =>
      have hid : 1 ≤ id.toNat ∧ id.toNat ≤ 14 := ⟨hc.1, hc.2.1⟩
      simp only [Header.call, Header.setExtension, hx, Bool.false_eq_true, if_false,
        ExtensionMap.call,
        hroom, Option.getD_none, hempty.1, hempty.2, List.nil_append, Nat.zero_add, Nat.zero_sub]
      by_cases hsize : payload.length ≤ 16
      · simp only [hsize, if_true]
        exact hR.first hx (by simpa [Extension.Fits] using ⟨hc.1, hc.2.1, hc.2.2.1, hsize⟩)
          (Or.inl rfl) hid
      · have hne : EXTENSION_PROFILE_TWO_BYTE ≠ EXTENSION_PROFILE_ONE_BYTE := by decide
        simp only [hsize, if_false, hc.2.2.2, if_true]
        exact hR.first hx (by simpa [Extension.Fits, hne] using ⟨hc.1, hc.2.2.2⟩) (Or.inr rfl) hid
    | del id =>
      have hvalue : (fun id' => if id' = id then none else m.value id') = m.value := by
        funext id'
        split
        · rw [← hR.value, Header.getExtension, hx]
          rfl
        · rfl
      simp only [Header.call, Header.delExtension, hx, Bool.false_eq_true, if_false,
        ExtensionMap.call, hvalue]
      exact hR

end Refines

/-- A header without an extension is the empty map. -/
theorem refines_empty {h : Header} (hw : h.WellFormed) (hx : h.extension = false) :
    Refines h ExtensionMap.empty where
  wellFormed := hw
  room := by rw [hx]; rfl
  value := fun id => by rw [Header.getExtension, hx]; rfl
  profile := fun hx' => by rw [hx] at hx'; cases hx'
  nodup := by rw [(hw.none hx).2.1]; exact List.nodup_nil
  ids := by rw [(hw.none hx).2.1]; simp

end WebrtcBridge.Rtp
