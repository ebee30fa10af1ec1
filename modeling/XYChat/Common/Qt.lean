import Mathlib.Data.Rat.Floor

/-!
# The Qt values the protocol is made of

Strings, byte arrays and JSON values as the sources use them, with the
conversions the handlers and decoders call. The JSON parser and printer and the
base64 codec are Qt's; they are the parameters `Qt` collects.
-/

namespace XYChat

/-- `QByteArray`. -/
abbrev Bytes := List UInt8

/-! ## QString -/

/-- `QString::size`: UTF-16 code units, counted on the UTF-8 bytes. Only a
four-byte character is a surrogate pair. -/
def qsize (s : String) : Nat :=
  (s.toByteArray.data.toList.map fun b =>
    if b < 0x80 then 1 else if b < 0xC0 then 0 else if b < 0xF0 then 1 else 2).sum

/-- `QString::left`: the characters within the first `n` code units. Half a surrogate
pair is no text. -/
def qleft (n : Nat) (s : String) : String := String.ofList (take n s.toList)
where
  take : Nat → List Char → List Char
    | _, [] => []
    | n, c :: rest =>
        let units := if c.toNat < 0x10000 then 1 else 2
        if units ≤ n then c :: take (n - units) rest else []

/-- `QChar::isSpace`. -/
def isSpace (c : Char) : Bool :=
  let n := c.toNat
  (9 ≤ n && n ≤ 13) || n == 0x20 || n == 0x85 || n == 0xA0 || n == 0x1680
    || (0x2000 ≤ n && n ≤ 0x200A) || n == 0x2028 || n == 0x2029 || n == 0x202F
    || n == 0x205F || n == 0x3000

/-- `QString::trimmed`. -/
def trimmed (s : String) : String :=
  String.ofList (((s.toList.dropWhile isSpace).reverse.dropWhile isSpace).reverse)

/-- A 64-bit value or, as every failed conversion gives, nothing. -/
def inInt64 (n : Int) : Bool := -2 ^ 63 ≤ n && n < 2 ^ 63

def inInt32 (n : Int) : Bool := -2 ^ 31 ≤ n && n < 2 ^ 31

/-- Value of a non-empty run of decimal digits. -/
def digits? (cs : List Char) : Option Nat :=
  if cs.isEmpty then none
  else cs.foldl (fun acc c => acc.bind fun n =>
    if c.isDigit then some (10 * n + (c.toNat - '0'.toNat)) else none) (some 0)

/-- `QString::toLongLong`, 0 for what is not a decimal 64-bit number. -/
def stringToLongLong (s : String) : Int :=
  let n : Option Int := match (trimmed s).toList with
    | '-' :: cs => (digits? cs).map fun n => -(n : Int)
    | '+' :: cs => (digits? cs).map fun n => (n : Int)
    | cs => (digits? cs).map fun n => (n : Int)
  match n with
  | some n => if inInt64 n then n else 0
  | none => 0

/-! ## QJsonValue -/

/-- A `QJsonValue`. A number is kept the way Qt keeps it: a 64-bit integer, or
a finite double by its exact value. A missing member reads as `null`. -/
inductive Json where
  | null
  | bool (b : Bool)
  | int (n : Int)
  | double (q : Rat)
  | str (s : String)
  | arr (vs : List Json)
  | obj (members : List (String × Json))

/-- The double nearest to an integer, ties to even. -/
def roundToDouble (n : Int) : Int :=
  let m := n.natAbs
  let unit := 2 ^ (m.log2 + 1 - 53)
  let q := m / unit
  let r := m % unit
  let q' := if unit < 2 * r ∨ (2 * r = unit ∧ q % 2 = 1) then q + 1 else q
  n.sign * ((q' * unit : Nat) : Int)

/-- `static_cast<qint64>` of a double: towards zero; what does not fit becomes
the smallest value, as the hardware conversion has it. -/
def castInt64 (q : Rat) : Int :=
  let n := if 0 ≤ q then ⌊q⌋ else ⌈q⌉
  if inInt64 n then n else -2 ^ 63

/-- `qRound64`. -/
def qRound64 (q : Rat) : Int :=
  let n := if 0 ≤ q then ⌊q + 1 / 2⌋ else ⌈q - 1 / 2⌉
  if inInt64 n then n else -2 ^ 63

namespace Json

/-- `QJsonObject::value`. -/
def value : Json → String → Json
  | .obj members, key => (members.lookup key).getD .null
  | _, _ => .null

/-- `QJsonObject::contains`. -/
def contains : Json → String → Bool
  | .obj members, key => (members.lookup key).isSome
  | _, _ => false

def isObject : Json → Bool
  | .obj _ => true
  | _ => false

def isArray : Json → Bool
  | .arr _ => true
  | _ => false

def isBool : Json → Bool
  | .bool _ => true
  | _ => false

/-- `QJsonValue::isDouble`: any number. -/
def isDouble : Json → Bool
  | .int _ => true
  | .double _ => true
  | _ => false

/-- `QJsonValue::toString`. -/
def toStr (v : Json) (default : String) : String :=
  match v with
  | .str s => s
  | _ => default

/-- `QJsonValue::toBool`. -/
def toBool : Json → Bool
  | .bool b => b
  | _ => false

/-- `QJsonObject::insert`, which replaces a member of the same name. -/
def setMember (v : Json) (key : String) (x : Json) : Json :=
  match v with
  | .obj members => .obj (members.filter (fun m => m.1 != key) ++ [(key, x)])
  | v => v

/-- `QJsonValue::toObject`: anything else is the empty object. -/
def toObject : Json → Json
  | .obj members => .obj members
  | _ => .obj []

def toArray : Json → List Json
  | .arr vs => vs
  | _ => []

/-- `QJsonValue::toInt`: a number that is a 32-bit integer, else the default. -/
def toInt (v : Json) (default : Int) : Int :=
  match v with
  | .int n => if inInt32 n then n else default
  | .double q => if q.den = 1 ∧ inInt32 q.num then q.num else default
  | _ => default

/-- `static_cast<qint64>(QJsonValue::toDouble())`. -/
def doubleAsInt64 : Json → Int
  | .int n => castInt64 (roundToDouble n)
  | .double q => castInt64 q
  | _ => 0

/-- `QJsonValue::toVariant().toLongLong()`. -/
def toLongLong : Json → Int
  | .int n => n
  | .double q => qRound64 q
  | .bool b => if b then 1 else 0
  | .str s => stringToLongLong s
  | _ => 0

/-! ### Setting a member -/

/-- In an object the member that was set is the one read. -/
theorem value_setMember_self {v x : Json} {key : String} (h : v.isObject = true) :
    (v.setMember key x).value key = x := by
  cases v with
  | obj members =>
      show ((List.filter _ members ++ [(key, x)]).lookup key).getD .null = x
      rw [List.lookup_append, List.lookup_eq_none_iff.mpr, List.lookup_cons_self]
      · rfl
      · intro m hm
        have hne : m.1 ≠ key := by simpa using (List.mem_filter.mp hm).2
        simpa using hne.symm
  | _ => cases h

theorem value_setMember_of_ne {v x : Json} {key key' : String} (h : key' ≠ key) :
    (v.setMember key x).value key' = v.value key' := by
  cases v with
  | obj members =>
      show ((List.filter _ members ++ [(key, x)]).lookup key').getD .null =
        (members.lookup key').getD .null
      rw [List.lookup_append, List.lookup_cons, beq_eq_false_iff_ne.mpr h]
      congr 1
      induction members with
      | nil => rfl
      | cons m members ih =>
          obtain ⟨k, y⟩ := m
          by_cases hk : k = key
          · rw [List.filter_cons_of_neg (by simpa using hk), List.lookup_cons, ih,
              beq_eq_false_iff_ne.mpr (hk ▸ h)]
          · rw [List.filter_cons_of_pos (by simpa using hk), List.lookup_cons, List.lookup_cons]
            cases key' == k
            · exact ih
            · rfl
  | _ => rfl

theorem isObject_setMember {v x : Json} {key : String} :
    (v.setMember key x).isObject = v.isObject := by
  cases v <;> rfl

end Json

/-- Qt's codecs, which are not part of the repository: `QJsonDocument::fromJson`
(none when the text does not parse), `toJson` in the compact form,
`QByteArray::fromBase64` (empty on a decoding error), `toBase64`, and the texts of
a time in seconds since the epoch: Qt's ISO form and the one SQLite stores. -/
structure Qt where
  fromJson : String → Option Json
  toJson : Json → String
  fromBase64 : String → Bytes
  toBase64 : Bytes → String
  isoDate : Int → String
  sqlDate : Int → String := fun _ => ""

end XYChat
