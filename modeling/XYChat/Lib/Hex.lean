import Mathlib.Data.List.Basic

/-!
# Hexadecimal

The encoding of bytes in two lower-case digits each, and the lenient decoder that
reads from the end, takes digits of either case and skips everything else.
-/

namespace XYChat.Lib.Hex

def digit (n : Nat) : Char := "0123456789abcdef".toList.getD n '0'

/-- The value of a digit. -/
def value (c : Char) : Option Nat :=
  if '0' ≤ c ∧ c ≤ '9' then some (c.toNat - '0'.toNat)
  else if 'a' ≤ c ∧ c ≤ 'f' then some (c.toNat - 'a'.toNat + 10)
  else if 'A' ≤ c ∧ c ≤ 'F' then some (c.toNat - 'A'.toNat + 10)
  else none

theorem value_digit : ∀ n < 16, value (digit n) = some n := by decide +kernel

theorem digit_ne_colon : ∀ n < 16, digit n ≠ ':' := by decide +kernel

theorem halves : ∀ n < 256, UInt8.ofNat (n % 16) ||| UInt8.ofNat (n / 16 * 16) = UInt8.ofNat n := by
  decide +kernel

/-- `QByteArray::toHex`, as a list of characters. -/
def encodeChars : List UInt8 → List Char
  | [] => []
  | b :: rest => digit (b.toNat / 16) :: digit (b.toNat % 16) :: encodeChars rest

/-- The bytes read so far, and whether the next digit is the low half of a byte. -/
structure Reader where
  bytes : List UInt8 := []
  low : Bool := true

/-- The next character, from the end. -/
def Reader.read (c : Char) (r : Reader) : Reader :=
  match value c with
  | none => r
  | some n =>
      if r.low then { bytes := UInt8.ofNat n :: r.bytes, low := false }
      else
        { bytes := r.bytes.modifyHead fun b => b ||| UInt8.ofNat (n * 16), low := true }

/-- `QByteArray::fromHex`. -/
def decodeChars (text : List Char) : List UInt8 := (text.foldr Reader.read {}).bytes

theorem foldr_read_encodeChars (bytes : List UInt8) :
    (encodeChars bytes).foldr Reader.read {} = { bytes } := by
  induction bytes with
  | nil => rfl
  | cons b rest ih =>
      have hb := b.toNat_lt
      rw [encodeChars, List.foldr_cons, List.foldr_cons, ih]
      unfold Reader.read
      rw [value_digit _ (by omega), value_digit _ (by omega)]
      simp only [if_true, Bool.false_eq_true, if_false, List.modifyHead_cons]
      rw [halves _ hb, UInt8.ofNat_toNat]

/-- **Round trip.** -/
theorem decodeChars_encodeChars (bytes : List UInt8) : decodeChars (encodeChars bytes) = bytes := by
  unfold decodeChars
  rw [foldr_read_encodeChars]

theorem colon_encodeChars (bytes : List UInt8) : ':' ∉ encodeChars bytes := by
  induction bytes with
  | nil => exact List.not_mem_nil
  | cons b rest ih =>
      have hb := b.toNat_lt
      intro h
      rcases List.mem_cons.mp h with h | h
      · exact digit_ne_colon _ (by omega) h.symm
      rcases List.mem_cons.mp h with h | h
      · exact digit_ne_colon _ (by omega) h.symm
      · exact ih h

/-- An odd digit in front is a byte of its own, and what is no digit is skipped. -/
example : decodeChars "F0:a".toList = [0x0F, 0x0A] := by decide +kernel

end XYChat.Lib.Hex
