import XYChat.Common.Crypto
import XYChat.Lib.Base64

/-!
# The text of a JSON value

What `QJsonDocument::toJson` writes in the compact form, with only the digits of a
double left open, and how long it is: the lengths are counted as `QString` counts them
and added up along the layout.
-/

namespace XYChat

/-! ## Lengths -/

@[simp] theorem qsize_append (s t : String) : qsize (s ++ t) = qsize s + qsize t := by
  unfold qsize
  rw [String.toByteArray_append, ByteArray.data_append, Array.toList_append, List.map_append,
    List.sum_append]

/-- An ASCII text is one byte a character. -/
theorem toUtf8_ofList {cs : List Char} (h : ∀ c ∈ cs, c.toNat < 128) :
    toUtf8 (String.ofList cs) = cs.map fun c => UInt8.ofNat c.toNat :=
  Lib.Base64.toUTF8_ofList h

theorem qsize_ofList {cs : List Char} (h : ∀ c ∈ cs, c.toNat < 128) :
    qsize (String.ofList cs) = cs.length := by
  show ((toUtf8 (String.ofList cs)).map _).sum = _
  rw [toUtf8_ofList h]
  induction cs with
  | nil => rfl
  | cons c cs ih =>
      obtain ⟨hc, hrest⟩ := List.forall_mem_cons.mp h
      have hone : (UInt8.ofNat c.toNat) < 0x80 := by
        rw [UInt8.lt_iff_toNat_lt, UInt8.toNat_ofNat']
        show c.toNat % 256 < 128
        omega
      rw [List.map_cons, List.map_cons, List.sum_cons, ih hrest, if_pos hone, List.length_cons]
      omega

/-! ## Base64 -/

theorem length_encodeChars (bytes : Bytes) :
    (Lib.Base64.encodeChars bytes).length = 4 * ((bytes.length + 2) / 3) := by
  induction bytes using Lib.Base64.encodeChars.induct with
  | case1 => rfl
  | case2 a => simp [Lib.Base64.encodeChars]
  | case3 a b => simp [Lib.Base64.encodeChars]
  | case4 a b c rest ih =>
      simp only [Lib.Base64.encodeChars, List.length_cons, ih]
      omega

@[simp] theorem length_toUtf8_base64 (bytes : Bytes) :
    (toUtf8 (Lib.Base64.encode bytes)).length = 4 * ((bytes.length + 2) / 3) := by
  unfold Lib.Base64.encode
  rw [toUtf8_ofList (Lib.Base64.ascii_encodeChars bytes), List.length_map, length_encodeChars]

/-! ## The compact writer -/

namespace Json

/-- A lowercase hexadecimal digit. -/
def hexDigit (n : Nat) : Char := "0123456789abcdef".toList.getD n '0'

/-- A character as it stands between quotes: quote, backslash and control characters
are escaped. -/
def escape (c : Char) : List Char :=
  if c = '\x22' ∨ c = '\x5c' then ['\x5c', c]
  else if c = '\x08' then ['\x5c', 'b']
  else if c = '\x0c' then ['\x5c', 'f']
  else if c = '\x0a' then ['\x5c', 'n']
  else if c = '\x0d' then ['\x5c', 'r']
  else if c = '\x09' then ['\x5c', 't']
  else if c.toNat < 0x20 then
    ['\x5c', 'u', '0', '0', hexDigit (c.toNat / 16), hexDigit (c.toNat % 16)]
  else [c]

def quote (s : String) : String :=
  "\x22" ++ String.ofList (s.toList.flatMap escape) ++ "\x22"

/-- The texts with commas between them. -/
def joined : List String → String
  | [] => ""
  | [s] => s
  | s :: t :: rest => s ++ "," ++ joined (t :: rest)

section

variable (number : Rat → String)

mutual

/-- `QJsonDocument::toJson` in the compact form, given the digits of a double. -/
def compact : Json → String
  | .null => "null"
  | .bool b => if b then "true" else "false"
  | .int n => toString n
  | .double q => number q
  | .str s => quote s
  | .arr vs => "[" ++ joined (compactValues vs) ++ "]"
  | .obj members => "\x7b" ++ joined (compactMembers members) ++ "\x7d"

def compactValues : List Json → List String
  | [] => []
  | v :: rest => compact v :: compactValues rest

def compactMembers : List (String × Json) → List String
  | [] => []
  | (key, v) :: rest => (quote key ++ ":" ++ compact v) :: compactMembers rest

end

@[simp] theorem compactValues_map {α : Type} (f : α → Json) (xs : List α) :
    compactValues number (xs.map f) = xs.map fun x => compact number (f x) := by
  induction xs with
  | nil => rfl
  | cons x xs ih =>
      simp only [List.map_cons, compactValues, ih]

end

/-! ## How long it is -/

/-- A comma after each part but the last. -/
theorem qsize_joined (texts : List String) :
    qsize (joined texts) = (texts.map qsize).sum + (texts.length - 1) := by
  induction texts using joined.induct with
  | case1 => rfl
  | case2 s => simp [joined]
  | case3 s t rest ih =>
      show qsize (s ++ "," ++ joined (t :: rest)) = _
      rw [qsize_append, qsize_append, ih]
      simp only [List.map_cons, List.sum_cons, List.length_cons]
      have hcomma : qsize "," = 1 := by decide +kernel
      omega

/-- Base64 is written as it is. -/
theorem quote_base64 (bytes : Bytes) :
    quote (Lib.Base64.encode bytes) = "\x22" ++ Lib.Base64.encode bytes ++ "\x22" := by
  have hletter : ∀ c ∈ '=' :: Lib.Base64.alphabet, escape c = [c] := by
    have hall : ('=' :: Lib.Base64.alphabet).all (fun c => escape c == [c]) = true := by
      decide +kernel
    intro c hc
    exact beq_iff_eq.mp (List.all_eq_true.mp hall c hc)
  have hescape : ∀ cs : List Char, (∀ c ∈ cs, c ∈ '=' :: Lib.Base64.alphabet) →
      cs.flatMap escape = cs := by
    intro cs h
    induction cs with
    | nil => rfl
    | cons c cs ih =>
        obtain ⟨hc, hrest⟩ := List.forall_mem_cons.mp h
        rw [List.flatMap_cons, hletter c hc, ih hrest]
        rfl
  unfold quote Lib.Base64.encode
  rw [String.toList_ofList, hescape _ Lib.Base64.mem_encodeChars]

@[simp] theorem qsize_quote_base64 (bytes : Bytes) :
    qsize (quote (Lib.Base64.encode bytes)) = 4 * ((bytes.length + 2) / 3) + 2 := by
  have hmark : qsize "\x22" = 1 := by decide +kernel
  rw [quote_base64, qsize_append, qsize_append, hmark]
  unfold Lib.Base64.encode
  rw [qsize_ofList (Lib.Base64.ascii_encodeChars bytes), length_encodeChars]
  omega

end Json

/-- Qt's texts: base64 in the standard alphabet, and JSON in the compact form. -/
structure Qt.Writes (qt : Qt) (number : Rat → String) : Prop where
  toBase64 : qt.toBase64 = Lib.Base64.encode
  toJson : qt.toJson = Json.compact number

/-- The text of a document without doubles. -/
def Json.text (document : Json) : String := document.compact fun _ => "0"

/-- Qt, as far as the texts of the given documents go. -/
def Qt.ofDocuments (documents : List Json) : Qt where
  fromJson text := documents.find? fun document => document.text == text
  toJson := Json.text
  fromBase64 := Lib.Base64.decode
  toBase64 := Lib.Base64.encode
  isoDate _ := ""

end XYChat
