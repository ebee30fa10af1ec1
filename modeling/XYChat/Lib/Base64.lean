import Mathlib.Data.List.Basic

/-!
# Base64

The encoding of bytes in the standard alphabet, four characters for three bytes,
with `=` where the last group is short, and its decoder on what the encoder writes.
-/

namespace XYChat.Lib.Base64

/-! ## Letters -/

def alphabet : List Char :=
  "ABCDEFGHIJKLMNOPQRSTUVWXYZabcdefghijklmnopqrstuvwxyz0123456789+/".toList

/-- The letter for six bits. -/
def letter (n : Nat) : Char := alphabet.getD n '='

/-- The six bits of a letter. -/
def sextet (c : Char) : Nat := alphabet.idxOf c

theorem sextet_letter : ∀ n < 64, sextet (letter n) = n := by decide +kernel

theorem letter_ne_pad : ∀ n < 64, letter n ≠ '=' := by decide +kernel

theorem letter_mem : ∀ n < 64, letter n ∈ '=' :: alphabet := by decide +kernel

/-! ## Groups -/

/-- `QByteArray::toBase64`, as a list of characters. -/
def encodeChars : List UInt8 → List Char
  | [] => []
  | [a] => [letter (a.toNat / 4), letter (a.toNat % 4 * 16), '=', '=']
  | [a, b] =>
      [ letter (a.toNat / 4), letter (a.toNat % 4 * 16 + b.toNat / 16)
      , letter (b.toNat % 16 * 4), '=' ]
  | a :: b :: c :: rest =>
      letter (a.toNat / 4) :: letter (a.toNat % 4 * 16 + b.toNat / 16)
        :: letter (b.toNat % 16 * 4 + c.toNat / 64) :: letter (c.toNat % 64) :: encodeChars rest

def decodeChars : List Char → List UInt8
  | a :: b :: c :: d :: rest =>
      let first := UInt8.ofNat (sextet a * 4 + sextet b / 16)
      let second := UInt8.ofNat (sextet b % 16 * 16 + sextet c / 4)
      let third := UInt8.ofNat (sextet c % 4 * 64 + sextet d)
      if c = '=' then [first]
      else if d = '=' then [first, second]
      else first :: second :: third :: decodeChars rest
  | _ => []

theorem mem_encodeChars {bytes : List UInt8} :
    ∀ c ∈ encodeChars bytes, c ∈ '=' :: alphabet := by
  have hhigh : ∀ a : UInt8, a.toNat / 4 < 64 := fun a => by have := a.toNat_lt; omega
  have hmid : ∀ a b : UInt8, a.toNat % 4 * 16 + b.toNat / 16 < 64 :=
    fun a b => by have := b.toNat_lt; omega
  have hlow : ∀ b c : UInt8, b.toNat % 16 * 4 + c.toNat / 64 < 64 :=
    fun b c => by have := c.toNat_lt; omega
  induction bytes using encodeChars.induct with
  | case1 => simp [encodeChars]
  | case2 a =>
      simp only [encodeChars, List.forall_mem_cons]
      exact ⟨letter_mem _ (hhigh a), letter_mem _ (by omega), by simp, by simp, by simp⟩
  | case3 a b =>
      simp only [encodeChars, List.forall_mem_cons]
      exact ⟨letter_mem _ (hhigh a), letter_mem _ (hmid a b), letter_mem _ (by omega), by simp,
        by simp⟩
  | case4 a b c rest ih =>
      simp only [encodeChars, List.forall_mem_cons]
      exact ⟨letter_mem _ (hhigh a), letter_mem _ (hmid a b), letter_mem _ (hlow b c),
        letter_mem _ (by omega), ih⟩

/-- **Round trip.** -/
theorem decodeChars_encodeChars (bytes : List UInt8) : decodeChars (encodeChars bytes) = bytes := by
  have hbyte : ∀ {n : Nat} {a : UInt8}, n = a.toNat → UInt8.ofNat n = a := by
    intro n a h
    rw [h, UInt8.ofNat_toNat]
  have hfirst : ∀ a b : UInt8,
      UInt8.ofNat (sextet (letter (a.toNat / 4)) * 4 +
        sextet (letter (a.toNat % 4 * 16 + b.toNat / 16)) / 16) = a := by
    intro a b
    have ha := a.toNat_lt
    have hb := b.toNat_lt
    rw [sextet_letter _ (by omega), sextet_letter _ (by omega)]
    exact hbyte (by omega)
  have hsecond : ∀ a b c : UInt8,
      UInt8.ofNat (sextet (letter (a.toNat % 4 * 16 + b.toNat / 16)) % 16 * 16 +
        sextet (letter (b.toNat % 16 * 4 + c.toNat / 64)) / 4) = b := by
    intro a b c
    have hb := b.toNat_lt
    have hc := c.toNat_lt
    rw [sextet_letter _ (by omega), sextet_letter _ (by omega)]
    exact hbyte (by omega)
  have hthird : ∀ b c : UInt8,
      UInt8.ofNat (sextet (letter (b.toNat % 16 * 4 + c.toNat / 64)) % 4 * 64 +
        sextet (letter (c.toNat % 64))) = c := by
    intro b c
    have hc := c.toNat_lt
    rw [sextet_letter _ (by omega), sextet_letter _ (by omega)]
    exact hbyte (by omega)
  induction bytes using encodeChars.induct with
  | case1 => rfl
  | case2 a =>
      show [UInt8.ofNat _] = [a]
      exact congrArg (fun x => [x]) (hfirst a 0)
  | case3 a b =>
      show (if letter (b.toNat % 16 * 4) = '=' then _ else
        [UInt8.ofNat _, UInt8.ofNat _]) = [a, b]
      rw [if_neg (letter_ne_pad _ (by omega)), hfirst a b]
      exact congrArg (fun x => [a, x]) (hsecond a b 0)
  | case4 a b c rest ih =>
      have hc := c.toNat_lt
      unfold encodeChars decodeChars
      dsimp only
      rw [if_neg (letter_ne_pad _ (by omega)), if_neg (letter_ne_pad _ (by omega)), hfirst,
        hsecond, hthird, ih]

/-! ## Texts -/

/-- An ASCII text is one byte a character. -/
theorem toUTF8_ofList {cs : List Char} (h : ∀ c ∈ cs, c.toNat < 128) :
    (String.ofList cs).toUTF8.data.toList = cs.map fun c => UInt8.ofNat c.toNat := by
  show (String.ofList cs).toByteArray.data.toList = _
  rw [String.toByteArray_ofList]
  induction cs with
  | nil => rfl
  | cons c cs ih =>
      obtain ⟨hc, hrest⟩ := List.forall_mem_cons.mp h
      have hbyte : String.utf8EncodeChar c = [UInt8.ofNat c.toNat] := by
        unfold String.utf8EncodeChar
        rw [if_pos (by show c.toNat ≤ 127; omega)]
        rfl
      rw [List.utf8Encode_cons, List.utf8Encode_singleton, hbyte, ByteArray.data_append,
        Array.toList_append, ih hrest]
      rfl

/-- Letters are ASCII. -/
theorem ascii_encodeChars (bytes : List UInt8) : ∀ c ∈ encodeChars bytes, c.toNat < 128 := by
  have hall : ('=' :: alphabet).all (fun c => c.toNat < 128) = true := by
    decide +kernel
  intro c hc
  exact of_decide_eq_true (List.all_eq_true.mp hall c (mem_encodeChars c hc))

def encode (bytes : List UInt8) : String := String.ofList (encodeChars bytes)

/-- The decoder takes the text byte by byte. -/
def decode (s : String) : List UInt8 :=
  decodeChars (s.toUTF8.data.toList.map fun b => Char.ofNat b.toNat)

theorem decode_encode (bytes : List UInt8) : decode (encode bytes) = bytes := by
  have hascii := ascii_encodeChars bytes
  have hback : (encodeChars bytes).map ((fun b : UInt8 => Char.ofNat b.toNat) ∘
      fun c => UInt8.ofNat c.toNat) = encodeChars bytes := by
    refine (List.map_congr_left fun c hc => ?_).trans (List.map_id _)
    have hlt := hascii c hc
    show Char.ofNat (UInt8.ofNat c.toNat).toNat = c
    rw [UInt8.toNat_ofNat', Nat.mod_eq_of_lt (by omega), Char.ofNat_toNat]
  unfold decode encode
  rw [toUTF8_ofList hascii, List.map_map, hback]
  exact decodeChars_encodeChars bytes

/-- There is no colon in base64. -/
theorem colon_encode (bytes : List UInt8) : ':' ∉ (encode bytes).toList := by
  have hcolon : ':' ∉ '=' :: alphabet := by decide
  show ':' ∉ (String.ofList (encodeChars bytes)).toList
  rw [String.toList_ofList]
  exact fun h => hcolon (mem_encodeChars ':' h)

example : encode [77, 97, 110, 77] = "TWFuTQ==" := by decide +kernel

end XYChat.Lib.Base64
