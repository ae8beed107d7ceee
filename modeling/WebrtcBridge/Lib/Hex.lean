/-
# Bytes in hexadecimal

Every byte is two digits, the high half first, with the letters in lower case.  `unhex_hex`: what is
written is read back; `hex_lower` and `hex_even`: what a written text looks like.
-/
import WebrtcBridge.Lib.Text

namespace WebrtcBridge.Lib

/-- A byte as two digits. -/
def hexByte (b : UInt8) : Text := [Nat.digitChar (b.toNat / 16), Nat.digitChar (b.toNat % 16)]

def hex (bytes : List UInt8) : Text := bytes.flatMap hexByte

/-- A digit that `hexByte` can write. -/
def isLowerHex (c : Char) : Bool := c.isDigit || ('a' ≤ c && c ≤ 'f')

def hexValue (c : Char) : Option Nat :=
  if c.isDigit then some (c.toNat - '0'.toNat)
  else if 'a' ≤ c ∧ c ≤ 'f' then some (c.toNat - 'a'.toNat + 10)
  else none

/-- Two digits to a byte; an odd digit or any other character is refused. -/
def unhex : Text → Option (List UInt8)
  | [] => some []
  | [_] => none
  | a :: b :: rest => do
    let high ← hexValue a
    let low ← hexValue b
    let bytes ← unhex rest
    return UInt8.ofNat (16 * high + low) :: bytes

theorem hexValue_digitChar : ∀ n < 16, hexValue (Nat.digitChar n) = some n := by decide

theorem isLowerHex_digitChar : ∀ n < 16, isLowerHex (Nat.digitChar n) = true := by decide

theorem mem_hex {c : Char} {bytes : List UInt8} (h : c ∈ hex bytes) :
    ∃ n < 16, c = Nat.digitChar n := by
  obtain ⟨b, -, hb⟩ := List.mem_flatMap.mp h
  have hlt : b.toNat < 256 := b.toNat_lt
  rcases List.mem_pair.mp hb with rfl | rfl
  · exact ⟨b.toNat / 16, by omega, rfl⟩
  · exact ⟨b.toNat % 16, by omega, rfl⟩

theorem hex_lower (bytes : List UInt8) : ∀ c ∈ hex bytes, isLowerHex c = true := by
  intro c hc
  obtain ⟨n, hn, rfl⟩ := mem_hex hc
  exact isLowerHex_digitChar n hn

theorem hex_even : ∀ bytes : List UInt8, (hex bytes).length = 2 * bytes.length
  | [] => rfl
  | b :: bytes => by
    have ih := hex_even bytes
    simp only [hex, List.flatMap_cons, List.length_append, List.length_cons] at ih ⊢
    rw [ih]
    simp [hexByte]
    omega

/-- **What is written is read back.** -/
theorem unhex_hex : ∀ bytes : List UInt8, unhex (hex bytes) = some bytes
  | [] => rfl
  | b :: bytes => by
    have hlt : b.toNat < 256 := b.toNat_lt
    have hhigh := hexValue_digitChar (b.toNat / 16) (by omega)
    have hlow := hexValue_digitChar (b.toNat % 16) (by omega)
    have hbyte : UInt8.ofNat (16 * (b.toNat / 16) + b.toNat % 16) = b := by
      rw [Nat.div_add_mod, UInt8.ofNat_toNat]
    have htext : hex (b :: bytes)
        = Nat.digitChar (b.toNat / 16) :: Nat.digitChar (b.toNat % 16) :: hex bytes := rfl
    rw [htext, unhex, hhigh, hlow, unhex_hex bytes]
    show some (UInt8.ofNat (16 * (b.toNat / 16) + b.toNat % 16) :: bytes) = some (b :: bytes)
    rw [hbyte]

end WebrtcBridge.Lib
