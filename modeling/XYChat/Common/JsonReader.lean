import XYChat.Common.JsonText

/-!
# Reading the compact form

A reader of JSON texts that have no blanks between their tokens and no doubles in
them. It gives each value back from the text that the compact writer makes of it, and
nothing that it gives has a double in it.
-/

namespace XYChat.Json

/-! ## Characters -/

/-- A text of ASCII bytes has ASCII characters only. -/
theorem ascii_of_toUtf8 {s : String} (h : ∀ b ∈ toUtf8 s, b < 128) :
    ∀ c ∈ s.toList, c.toNat < 128 := by
  have hbytes : toUtf8 s = s.toList.flatMap String.utf8EncodeChar := by
    show s.toByteArray.data.toList = _
    rw [← String.utf8Encode_toList]
    exact List.toList_data_toByteArray
  intro c hc
  by_contra hge
  -- the last byte of its code is none of ASCII
  have hlast : UInt8.ofNat (c.toNat % 64 + 128) ∈ String.utf8EncodeChar c := by
    unfold String.utf8EncodeChar
    rw [if_neg (by show ¬c.toNat ≤ 127; omega)]
    split
    · exact List.mem_cons_of_mem _ List.mem_cons_self
    split
    · exact List.mem_cons_of_mem _ (List.mem_cons_of_mem _ List.mem_cons_self)
    · exact List.mem_cons_of_mem _ (List.mem_cons_of_mem _ (List.mem_cons_of_mem _
        List.mem_cons_self))
  have hsmall := h _ (hbytes ▸ List.mem_flatMap.mpr ⟨c, hc, hlast⟩)
  rw [UInt8.lt_iff_toNat_lt, UInt8.toNat_ofNat'] at hsmall
  have : (128 : UInt8).toNat = 128 := rfl
  omega

/-- The characters of a text; those of an ASCII text are its bytes. -/
def characters (s : String) : List Char :=
  if (toUtf8 s).all (· < 128) then (toUtf8 s).map fun b => Char.ofNat b.toNat else s.toList

theorem characters_eq (s : String) : characters s = s.toList := by
  unfold characters
  split
  · rename_i hascii
    have hchars := ascii_of_toUtf8 fun b hb => of_decide_eq_true (List.all_eq_true.mp hascii b hb)
    have hbytes : toUtf8 s = s.toList.map fun c => UInt8.ofNat c.toNat := by
      have hlist := toUtf8_ofList hchars
      rwa [String.ofList_toList] at hlist
    rw [hbytes, List.map_map]
    refine (List.map_congr_left fun c hc => ?_).trans (List.map_id _)
    have hlt := hchars c hc
    show Char.ofNat (UInt8.ofNat c.toNat).toNat = c
    rw [UInt8.toNat_ofNat', Nat.mod_eq_of_lt (by omega), Char.ofNat_toNat]
  · rfl

/-! ## The reader -/

/-- What an escaped letter stands for. -/
def unescape (c : Char) : Char :=
  if c = 'b' then '\x08'
  else if c = 'f' then '\x0c'
  else if c = 'n' then '\x0a'
  else if c = 'r' then '\x0d'
  else if c = 't' then '\x09'
  else c

def hexValue (c : Char) : Nat := "0123456789abcdef".toList.idxOf c

/-- Where a quoted text is: after a backslash, or among the four digits of a code. -/
inductive Escaping where
  | none
  | slash
  | code (digits value : Nat)

/-- The characters before the closing quote, and what follows it. -/
def readQuoted : Escaping → List Char → Option (List Char × List Char)
  | _, [] => .none
  | .none, c :: rest =>
      if c = '\x22' then some ([], rest)
      else if c = '\x5c' then readQuoted .slash rest
      else (readQuoted .none rest).map fun p => (c :: p.1, p.2)
  | .slash, c :: rest =>
      if c = 'u' then readQuoted (.code 4 0) rest
      else (readQuoted .none rest).map fun p => (unescape c :: p.1, p.2)
  | .code digits value, c :: rest =>
      if digits ≤ 1 then
        (readQuoted .none rest).map fun p => (Char.ofNat (16 * value + hexValue c) :: p.1, p.2)
      else readQuoted (.code (digits - 1) (16 * value + hexValue c)) rest

/-- The digits there are, at least one, as a number. -/
def readNat (cs : List Char) : Option (Nat × List Char) :=
  if cs.takeWhile Char.isDigit = [] then none
  else some (Nat.ofDigitChars 10 (cs.takeWhile Char.isDigit) 0, cs.dropWhile Char.isDigit)

def readInt (cs : List Char) : Option (Int × List Char) :=
  match cs with
  | '-' :: rest => (readNat rest).map fun p => (-p.1, p.2)
  | _ => (readNat cs).map fun p => (p.1, p.2)

def readWord (word : List Char) (v : Json) (cs : List Char) : Option (Json × List Char) :=
  if word.isPrefixOf cs then some (v, cs.drop word.length) else none

section

variable {α : Type} (item : List Char → Option (α × List Char)) (close : Char)

/-- Items with commas between them, up to the closing character. -/
def readItems : Nat → List Char → Option (List α × List Char)
  | 0, _ => none
  | n + 1, cs =>
      match item cs with
      | none => none
      | some (_, []) => none
      | some (x, c :: rest) =>
          if c = close then some ([x], rest)
          else if c = ',' then (readItems n rest).map fun p => (x :: p.1, p.2)
          else none

/-- The same where there may be none. -/
def readList (n : Nat) (cs : List Char) : Option (List α × List Char) :=
  match cs with
  | [] => none
  | c :: rest => if c = close then some ([], rest) else readItems item close n (c :: rest)

end

/-- A name in quotes, a colon and a value. -/
def readMember (value : List Char → Option (Json × List Char)) (cs : List Char) :
    Option ((String × Json) × List Char) :=
  match cs with
  | '\x22' :: rest =>
      match readQuoted .none rest with
      | some (name, ':' :: rest') =>
          (value rest').map fun p => ((String.ofList name, p.1), p.2)
      | _ => none
  | _ => none

/-- A value, and what follows it. -/
def readValue : Nat → List Char → Option (Json × List Char)
  | 0, _ => none
  | _, [] => none
  | n + 1, c :: rest =>
      if c = '\x22' then (readQuoted .none rest).map fun p => (.str (String.ofList p.1), p.2)
      else if c = '[' then (readList (readValue n) ']' n rest).map fun p => (.arr p.1, p.2)
      else if c = '\x7b' then
        (readList (readMember (readValue n)) '\x7d' n rest).map fun p => (.obj p.1, p.2)
      else if c = 'n' then readWord ['u', 'l', 'l'] .null rest
      else if c = 't' then readWord ['r', 'u', 'e'] (.bool true) rest
      else if c = 'f' then readWord ['a', 'l', 's', 'e'] (.bool false) rest
      else (readInt (c :: rest)).map fun p => (.int p.1, p.2)

/-- The value that a text stands for; blanks before it are skipped. -/
def read (text : String) : Option Json :=
  match readValue ((characters text).length + 1) ((characters text).dropWhile (· == ' ')) with
  | some (v, []) => some v
  | _ => none

/-! ## Values without doubles -/

mutual

def isPlain : Json → Bool
  | .double _ => false
  | .arr vs => arePlain vs
  | .obj members => arePlainMembers members
  | _ => true

def arePlain : List Json → Bool
  | [] => true
  | v :: rest => isPlain v && arePlain rest

def arePlainMembers : List (String × Json) → Bool
  | [] => true
  | (_, v) :: rest => isPlain v && arePlainMembers rest

end

@[simp] theorem arePlain_iff {vs : List Json} : arePlain vs = true ↔ ∀ v ∈ vs, isPlain v = true := by
  induction vs with
  | nil => simp [arePlain]
  | cons v vs ih => simp [arePlain, ih]

@[simp] theorem arePlainMembers_iff {members : List (String × Json)} :
    arePlainMembers members = true ↔ ∀ x ∈ members, isPlain x.2 = true := by
  induction members with
  | nil => simp [arePlainMembers]
  | cons x members ih => simp [arePlainMembers, ih]

theorem isPlain_toObject {v : Json} (h : isPlain v = true) : isPlain v.toObject = true := by
  cases v with
  | obj members => exact h
  | _ => rfl

theorem isPlain_setMember {v x : Json} {key : String} (h : isPlain v = true)
    (hx : isPlain x = true) : isPlain (v.setMember key x) = true := by
  cases v with
  | obj members =>
      refine arePlainMembers_iff.mpr fun y hy => ?_
      rcases List.mem_append.mp hy with hy | hy
      · exact arePlainMembers_iff.mp h y (List.mem_filter.mp hy).1
      · obtain rfl := List.mem_singleton.mp hy
        exact hx
  | _ => exact h

/-! ## Texts -/

theorem readQuoted_escape (c : Char) (rest : List Char) :
    readQuoted .none (escape c ++ rest) = (readQuoted .none rest).map fun p => (c :: p.1, p.2) := by
  have hhex : ∀ n < 16, hexValue (hexDigit n) = n := by decide +kernel
  unfold escape
  split
  · rename_i hmark
    rcases hmark with rfl | rfl <;> rfl
  split
  · rename_i h
    subst h
    rfl
  split
  · rename_i h
    subst h
    rfl
  split
  · rename_i h
    subst h
    rfl
  split
  · rename_i h
    subst h
    rfl
  split
  · rename_i h
    subst h
    rfl
  split
  · rename_i hcontrol
    show (readQuoted .none rest).map (fun p => (Char.ofNat (16 * (16 * (16 * (16 * 0 +
      hexValue '0') + hexValue '0') + hexValue (hexDigit (c.toNat / 16))) +
        hexValue (hexDigit (c.toNat % 16))) :: p.1, p.2)) = _
    have hzero : hexValue '0' = 0 := by decide +kernel
    rw [hzero, hhex _ (by omega), hhex _ (by omega),
      show 16 * (16 * (16 * (16 * 0 + 0) + 0) + c.toNat / 16) + c.toNat % 16 = c.toNat by omega,
      Char.ofNat_toNat]
  · rename_i hmark _ _ _ _ _ _
    obtain ⟨hquote, hslash⟩ := not_or.mp hmark
    show (if c = '\x22' then _ else if c = '\x5c' then _ else _) = _
    rw [if_neg hquote, if_neg hslash]
    rfl

/-- A quoted text reads back. -/
theorem readQuoted_flatMap_escape (cs rest : List Char) :
    readQuoted .none (cs.flatMap escape ++ '\x22' :: rest) = some (cs, rest) := by
  induction cs with
  | nil => rfl
  | cons c cs ih => rw [List.flatMap_cons, List.append_assoc, readQuoted_escape, ih, Option.map_some]

theorem toList_quote (s : String) :
    (quote s).toList = '\x22' :: (s.toList.flatMap escape ++ ['\x22']) := by
  have hmark : "\x22".toList = ['\x22'] := rfl
  unfold quote
  rw [String.toList_append, String.toList_append, hmark, String.toList_ofList]
  rfl

/-! ## Numbers -/

/-- What follows a number does not go on with digits. -/
def Ends (rest : List Char) : Prop := ∀ c ∈ rest.head?, c.isDigit = false

theorem readNat_repr (n : Nat) {rest : List Char} (h : Ends rest) :
    readNat (n.repr.toList ++ rest) = some (n, rest) := by
  have hdigits : ∀ c ∈ Nat.toDigits 10 n, c.isDigit = true := fun c hc =>
    Nat.isDigit_of_mem_toDigits (by decide) (by decide) hc
  have htake : rest.takeWhile Char.isDigit = [] ∧ rest.dropWhile Char.isDigit = rest := by
    cases rest with
    | nil => exact ⟨rfl, rfl⟩
    | cons c rest =>
        have hc := h c rfl
        exact ⟨List.takeWhile_cons_of_neg (by simp [hc]), List.dropWhile_cons_of_neg (by simp [hc])⟩
  unfold readNat
  rw [Nat.toList_repr, List.takeWhile_append_of_pos hdigits, List.dropWhile_append_of_pos hdigits,
    htake.1, htake.2, List.append_nil, if_neg Nat.toDigits_ne_nil,
    Nat.ofDigitChars_toDigits (by decide) (by decide)]

theorem readInt_toString (n : Int) {rest : List Char} (h : Ends rest) :
    readInt ((toString n).toList ++ rest) = some (n, rest) := by
  cases n with
  | ofNat m =>
      show readInt (m.repr.toList ++ rest) = _
      have hread := readNat_repr m h
      obtain ⟨d, ds, hdigits⟩ := List.exists_cons_of_ne_nil (@Nat.toDigits_ne_nil m 10)
      have hd : d.isDigit = true :=
        Nat.isDigit_of_mem_toDigits (by decide) (by decide) (hdigits ▸ List.mem_cons_self)
      rw [Nat.toList_repr, hdigits] at hread ⊢
      unfold readInt
      split
      · rename_i hminus
        rw [(List.cons.inj hminus).1] at hd
        cases hd
      · rw [hread]
        rfl
  | negSucc m =>
      show readInt (("-" ++ (m + 1).repr).toList ++ rest) = _
      rw [String.toList_append]
      show (readNat ((m + 1).repr.toList ++ rest)).map _ = _
      rw [readNat_repr (m + 1) h]
      rfl

/-- A number starts with a digit or a minus sign. -/
theorem toString_head (n : Int) :
    ∃ c cs, (toString n).toList = c :: cs ∧ (c.isDigit = true ∨ c = '-') := by
  cases n with
  | ofNat m =>
      obtain ⟨d, ds, hdigits⟩ := List.exists_cons_of_ne_nil (@Nat.toDigits_ne_nil m 10)
      refine ⟨d, ds, ?_, .inl ?_⟩
      · show m.repr.toList = _
        rw [Nat.toList_repr, hdigits]
      · exact Nat.isDigit_of_mem_toDigits (by decide) (by decide) (hdigits ▸ List.mem_cons_self)
  | negSucc m =>
      refine ⟨'-', (m + 1).repr.toList, ?_, .inr rfl⟩
      show ("-" ++ (m + 1).repr).toList = _
      rw [String.toList_append]
      rfl

/-! ## Lists -/

section

variable {α : Type} {item : List Char → Option (α × List Char)} {close : Char}

theorem joined_cons_cons (s t : String) (texts : List String) :
    (joined (s :: t :: texts)).toList = s.toList ++ ',' :: (joined (t :: texts)).toList := by
  show (s ++ "," ++ joined (t :: texts)).toList = _
  rw [String.toList_append, String.toList_append, List.append_assoc]
  rfl

theorem length_le_joined {texts : List String} {s : String} (h : s ∈ texts) :
    s.toList.length ≤ (joined texts).toList.length := by
  induction texts using joined.induct with
  | case1 => cases h
  | case2 t =>
      obtain rfl := List.mem_singleton.mp h
      exact Nat.le_refl _
  | case3 t u texts ih =>
      rw [joined_cons_cons, List.length_append, List.length_cons]
      rcases List.mem_cons.mp h with rfl | h
      · omega
      · have := ih h
        omega

theorem length_texts (texts : List String) :
    texts.length ≤ (joined texts).toList.length + 1 := by
  induction texts using joined.induct with
  | case1 => exact Nat.zero_le _
  | case2 t => exact Nat.le_add_left _ _
  | case3 t u texts ih =>
      rw [joined_cons_cons, List.length_append, List.length_cons]
      simp only [List.length_cons] at ih ⊢
      omega

/-- Items that read back, with commas between them, read back. -/
theorem readItems_joined {texts : List String} {xs : List α} (hclose : close.isDigit = false)
    (hcomma : close ≠ ',')
    (h : List.Forall₂ (fun text x => ∀ rest, Ends rest → item (text.toList ++ rest) = some (x, rest))
      texts xs) (hne : texts ≠ []) {n : Nat} (hn : texts.length ≤ n) (rest : List Char) :
    readItems item close n ((joined texts).toList ++ close :: rest) = some (xs, rest) := by
  have hends : Ends (close :: rest) := fun c hc => by
    obtain rfl := Option.some.inj hc
    exact hclose
  induction h generalizing n with
  | nil => exact absurd rfl hne
  | @cons s x texts xs hs htexts ih =>
      cases n with
      | zero => exact absurd hn (Nat.not_succ_le_zero _)
      | succ n =>
          cases htexts with
          | nil =>
              show readItems item close (n + 1) (s.toList ++ close :: rest) = _
              unfold readItems
              rw [hs _ hends]
              exact if_pos rfl
          | @cons t y texts xs ht htexts =>
              have hends' : Ends (',' :: ((joined (t :: texts)).toList ++ close :: rest)) :=
                fun c hc => by
                  obtain rfl := Option.some.inj hc
                  rfl
              rw [joined_cons_cons, List.append_assoc, List.cons_append]
              unfold readItems
              rw [hs _ hends']
              show (if ',' = close then _ else if ',' = ',' then _ else _) = _
              rw [if_neg (Ne.symm hcomma), if_pos rfl,
                ih (List.cons_ne_nil _ _) (Nat.le_of_succ_le_succ hn)]
              rfl

/-- And so does a list of them, where none begins with the closing character. -/
theorem readList_joined {texts : List String} {xs : List α} (hclose : close.isDigit = false)
    (hcomma : close ≠ ',')
    (h : List.Forall₂ (fun text x => ∀ rest, Ends rest → item (text.toList ++ rest) = some (x, rest))
      texts xs) (hhead : ∀ text ∈ texts, ∃ c cs, text.toList = c :: cs ∧ c ≠ close) {n : Nat}
    (hn : texts.length ≤ n) (rest : List Char) :
    readList item close n ((joined texts).toList ++ close :: rest) = some (xs, rest) := by
  cases h with
  | nil => exact if_pos rfl
  | @cons s x texts xs hs htexts =>
      obtain ⟨c, cs, hcs, hc⟩ := hhead s List.mem_cons_self
      have hitems := readItems_joined hclose hcomma (.cons hs htexts) (List.cons_ne_nil _ _) hn rest
      obtain ⟨cs', hcs'⟩ : ∃ cs', (joined (s :: texts)).toList = c :: cs' := by
        cases texts with
        | nil => exact ⟨cs, hcs⟩
        | cons t texts =>
            refine ⟨cs ++ ',' :: (joined (t :: texts)).toList, ?_⟩
            rw [joined_cons_cons, hcs]
            rfl
      rw [hcs'] at hitems ⊢
      show (if c = close then _ else readItems item close n _) = _
      rw [if_neg hc]
      exact hitems

end

/-! ## Values -/

section

variable (number : Rat → String)

/-- The value reads back from its text. -/
def ReadsBack (v : Json) : Prop :=
  isPlain v = true → ∀ (n : Nat) (rest : List Char), (compact number v).toList.length ≤ n →
    Ends rest → readValue n ((compact number v).toList ++ rest) = some (v, rest)

variable {number}

theorem toList_null : (compact number .null).toList = ['n', 'u', 'l', 'l'] := by
  unfold compact
  rfl

theorem toList_bool (b : Bool) : (compact number (.bool b)).toList =
    if b then ['t', 'r', 'u', 'e'] else ['f', 'a', 'l', 's', 'e'] := by
  unfold compact
  cases b <;> rfl

theorem toList_arr (vs : List Json) : (compact number (.arr vs)).toList =
    '[' :: ((joined (compactValues number vs)).toList ++ [']']) := by
  show ("[" ++ joined (compactValues number vs) ++ "]").toList = _
  rw [String.toList_append, String.toList_append]
  rfl

theorem toList_obj (members : List (String × Json)) : (compact number (.obj members)).toList =
    '\x7b' :: ((joined (compactMembers number members)).toList ++ ['\x7d']) := by
  show ("\x7b" ++ joined (compactMembers number members) ++ "\x7d").toList = _
  rw [String.toList_append, String.toList_append]
  rfl

theorem compactMembers_eq (members : List (String × Json)) : compactMembers number members =
    members.map fun x => quote x.1 ++ ":" ++ compact number x.2 := by
  induction members with
  | nil => rfl
  | cons x members ih => exact congrArg (_ :: ·) ih

theorem toList_member (x : String × Json) : (quote x.1 ++ ":" ++ compact number x.2).toList =
    '\x22' :: (x.1.toList.flatMap escape ++ '\x22' :: ':' :: (compact number x.2).toList) := by
  have hcolon : ":".toList = [':'] := rfl
  rw [String.toList_append, String.toList_append, toList_quote, hcolon, List.cons_append,
    List.cons_append, List.append_assoc, List.append_assoc]
  rfl

/-- The text of a value has a first character, and it opens the value. -/
theorem compact_head {v : Json} (h : isPlain v = true) :
    ∃ c cs, (compact number v).toList = c :: cs ∧ c ≠ ']' ∧ c ≠ ' ' := by
  cases v with
  | null => exact ⟨'n', ['u', 'l', 'l'], toList_null, by decide, by decide⟩
  | bool b =>
      cases b with
      | false => exact ⟨'f', ['a', 'l', 's', 'e'], toList_bool false, by decide, by decide⟩
      | true => exact ⟨'t', ['r', 'u', 'e'], toList_bool true, by decide, by decide⟩
  | int n =>
      obtain ⟨c, cs, hcs, hc⟩ := toString_head n
      refine ⟨c, cs, hcs, ?_, ?_⟩ <;>
        · rintro rfl
          revert hc
          decide
  | double q => cases h
  | str s => exact ⟨'\x22', _, toList_quote s, by decide, by decide⟩
  | arr vs => exact ⟨'[', _, toList_arr vs, by decide, by decide⟩
  | obj members => exact ⟨'\x7b', _, toList_obj members, by decide, by decide⟩

theorem readsBack_arr {vs : List Json} (h : ∀ v ∈ vs, ReadsBack number v) :
    ReadsBack number (.arr vs) := by
  intro hplain n rest hn hrest
  have hplain' := arePlain_iff.mp hplain
  rw [toList_arr] at hn ⊢
  simp only [List.length_cons, List.length_append, List.length_nil] at hn
  obtain ⟨n, rfl⟩ : ∃ k, n = k + 1 := ⟨n - 1, by omega⟩
  have hvalues : compactValues number vs = vs.map (compact number) := by
    have hmap := compactValues_map number id vs
    rwa [List.map_id] at hmap
  have hlist : readList (readValue n) ']' n
      ((joined (compactValues number vs)).toList ++ ']' :: rest) = some (vs, rest) := by
    refine readList_joined (by decide) (by decide) ?_ ?_ ?_ rest
    · rw [hvalues, List.forall₂_map_left_iff, List.forall₂_same]
      intro v hv rest' hrest'
      refine h v hv (hplain' v hv) n rest' ?_ hrest'
      have hlength := length_le_joined (hvalues ▸ List.mem_map_of_mem hv)
      omega
    · rw [hvalues]
      intro text htext
      obtain ⟨v, hv, rfl⟩ := List.mem_map.mp htext
      obtain ⟨c, cs, hcs, hc, _⟩ := @compact_head number v (hplain' v hv)
      exact ⟨c, cs, hcs, hc⟩
    · have hcount := length_texts (compactValues number vs)
      omega
  show (readList (readValue n) ']' n ((joined (compactValues number vs)).toList ++ [']'] ++ rest)).map
    (fun p => (Json.arr p.1, p.2)) = _
  rw [List.append_assoc]
  show (readList (readValue n) ']' n ((joined (compactValues number vs)).toList ++ ']' :: rest)).map
    _ = _
  rw [hlist]
  rfl

/-- A member reads back where its value does. -/
theorem readMember_toList {x : String × Json} {n : Nat} {rest : List Char}
    (h : readValue n ((compact number x.2).toList ++ rest) = some (x.2, rest)) :
    readMember (readValue n) ((quote x.1 ++ ":" ++ compact number x.2).toList ++ rest) =
      some (x, rest) := by
  rw [toList_member, List.cons_append, List.append_assoc]
  show (match readQuoted .none (x.1.toList.flatMap escape ++ '\x22' :: ':' ::
      ((compact number x.2).toList ++ rest)) with
    | some (name, ':' :: rest') =>
        (readValue n rest').map fun p : Json × List Char => ((String.ofList name, p.1), p.2)
    | _ => none) = _
  rw [readQuoted_flatMap_escape]
  show (readValue n ((compact number x.2).toList ++ rest)).map _ = _
  rw [h, Option.map_some, String.ofList_toList]

theorem readsBack_obj {members : List (String × Json)} (h : ∀ x ∈ members, ReadsBack number x.2) :
    ReadsBack number (.obj members) := by
  intro hplain n rest hn hrest
  have hplain' := arePlainMembers_iff.mp hplain
  rw [toList_obj] at hn ⊢
  simp only [List.length_cons, List.length_append, List.length_nil] at hn
  obtain ⟨n, rfl⟩ : ∃ k, n = k + 1 := ⟨n - 1, by omega⟩
  have hlist : readList (readMember (readValue n)) '\x7d' n
      ((joined (compactMembers number members)).toList ++ '\x7d' :: rest) =
        some (members, rest) := by
    refine readList_joined (by decide) (by decide) ?_ ?_ ?_ rest
    · rw [compactMembers_eq, List.forall₂_map_left_iff, List.forall₂_same]
      intro x hx rest' hrest'
      -- the fuel is enough for the value, which is shorter than the text of the object
      have hlength := length_le_joined
        (@compactMembers_eq number members ▸ List.mem_map_of_mem hx)
      rw [toList_member] at hlength
      simp only [List.length_cons, List.length_append] at hlength
      exact readMember_toList (h x hx (hplain' x hx) n rest' (by omega) hrest')
    · rw [compactMembers_eq]
      intro text htext
      obtain ⟨x, hx, rfl⟩ := List.mem_map.mp htext
      exact ⟨'\x22', _, toList_member x, by decide⟩
    · have hcount := length_texts (compactMembers number members)
      omega
  show (readList (readMember (readValue n)) '\x7d' n
    ((joined (compactMembers number members)).toList ++ ['\x7d'] ++ rest)).map
      (fun p => (Json.obj p.1, p.2)) = _
  rw [List.append_assoc]
  show (readList (readMember (readValue n)) '\x7d' n
    ((joined (compactMembers number members)).toList ++ '\x7d' :: rest)).map _ = _
  rw [hlist]
  rfl

theorem readsBack_str (s : String) : ReadsBack number (.str s) := by
  intro _ n rest hn _
  have htext : (compact number (.str s)).toList = _ := toList_quote s
  rw [htext] at hn ⊢
  obtain ⟨n, rfl⟩ : ∃ k, n = k + 1 := by
    simp only [List.length_cons] at hn
    exact ⟨n - 1, by omega⟩
  show (readQuoted .none (s.toList.flatMap escape ++ ['\x22'] ++ rest)).map
    (fun p => (Json.str (String.ofList p.1), p.2)) = _
  rw [List.append_assoc]
  show (readQuoted .none (s.toList.flatMap escape ++ '\x22' :: rest)).map _ = _
  rw [readQuoted_flatMap_escape, Option.map_some, String.ofList_toList]

theorem readsBack_int (k : Int) : ReadsBack number (.int k) := by
  intro _ n rest hn hrest
  have hread := readInt_toString k hrest
  obtain ⟨c, cs, hcs, hc⟩ := toString_head k
  have htext : (compact number (.int k)).toList = c :: cs := hcs
  rw [hcs] at hread
  rw [htext] at hn ⊢
  obtain ⟨n, rfl⟩ : ∃ k, n = k + 1 := by
    simp only [List.length_cons] at hn
    exact ⟨n - 1, by omega⟩
  -- a number begins with none of the characters that open something else
  have hother : ∀ d, d.isDigit = false → d ≠ '-' → c ≠ d := by
    rintro d hd hminus rfl
    rcases hc with hc | hc
    · exact absurd hc (by simp [hd])
    · exact hminus hc
  rw [List.cons_append]
  unfold readValue
  rw [if_neg (hother _ (by decide) (by decide)), if_neg (hother _ (by decide) (by decide)),
    if_neg (hother _ (by decide) (by decide)), if_neg (hother _ (by decide) (by decide)),
    if_neg (hother _ (by decide) (by decide)), if_neg (hother _ (by decide) (by decide))]
  rw [List.cons_append] at hread
  rw [hread]
  rfl

theorem readsBack_null : ReadsBack number .null := by
  intro _ n rest hn _
  rw [toList_null] at hn ⊢
  cases n with
  | zero => cases hn
  | succ n => rfl

theorem readsBack_bool (b : Bool) : ReadsBack number (.bool b) := by
  intro _ n rest hn _
  rw [toList_bool] at hn ⊢
  cases n with
  | zero => cases b <;> cases hn
  | succ n => cases b <;> rfl

/-- **Round trip.** Every value without doubles reads back from its text. -/
theorem readsBack (number : Rat → String) (v : Json) : ReadsBack number v :=
  @Json.rec (ReadsBack number) (fun vs => ∀ v ∈ vs, ReadsBack number v)
    (fun members => ∀ x ∈ members, ReadsBack number x.2) (fun x => ReadsBack number x.2)
    readsBack_null readsBack_bool readsBack_int
    (fun _ h => absurd h Bool.false_ne_true) readsBack_str (fun _ => readsBack_arr)
    (fun _ => readsBack_obj) (List.forall_mem_nil _)
    (fun _ _ hv hvs => List.forall_mem_cons.mpr ⟨hv, hvs⟩) (List.forall_mem_nil _)
    (fun _ _ hx hxs => List.forall_mem_cons.mpr ⟨hx, hxs⟩) (fun _ _ hv => hv) v

end

theorem read_text {v : Json} (h : isPlain v = true) : read v.text = some v := by
  obtain ⟨c, cs, hcs, _, hblank⟩ := @compact_head (fun _ => "0") v h
  have hread := readsBack (fun _ => "0") v h (v.text.toList.length + 1) []
    (Nat.le_succ _) (fun c hc => by cases hc)
  rw [List.append_nil] at hread
  have hdrop : v.text.toList.dropWhile (· == ' ') = v.text.toList := by
    rw [show v.text.toList = c :: cs from hcs]
    exact List.dropWhile_cons_of_neg (by simpa using hblank)
  unfold read
  rw [characters_eq, hdrop]
  show (match readValue (v.text.toList.length + 1) v.text.toList with
    | some (v, []) => some v
    | _ => none) = _
  rw [show readValue (v.text.toList.length + 1) v.text.toList = some (v, []) from hread]

/-! ## What is read -/

section

variable {α : Type} {item : List Char → Option (α × List Char)} {close : Char}

theorem mem_readItems {n : Nat} {cs rest : List Char} {xs : List α}
    (h : readItems item close n cs = some (xs, rest)) :
    ∀ x ∈ xs, ∃ cs left, item cs = some (x, left) := by
  induction n generalizing cs xs with
  | zero => cases h
  | succ n ih =>
      unfold readItems at h
      split at h
      · cases h
      · cases h
      · rename_i x c left hitem
        split at h
        · obtain ⟨rfl, rfl⟩ := h
          intro y hy
          obtain rfl := List.mem_singleton.mp hy
          exact ⟨cs, _, hitem⟩
        split at h
        · obtain ⟨⟨ys, left'⟩, hrest, heq⟩ := Option.map_eq_some_iff.mp h
          obtain ⟨rfl, rfl⟩ := heq
          intro y hy
          rcases List.mem_cons.mp hy with rfl | hy
          · exact ⟨cs, _, hitem⟩
          · exact ih hrest y hy
        · cases h

theorem mem_readList {n : Nat} {cs rest : List Char} {xs : List α}
    (h : readList item close n cs = some (xs, rest)) :
    ∀ x ∈ xs, ∃ cs left, item cs = some (x, left) := by
  unfold readList at h
  split at h
  · cases h
  · split at h
    · obtain ⟨rfl, rfl⟩ := h
      exact List.forall_mem_nil _
    · exact mem_readItems h

end

theorem isPlain_readMember {value : List Char → Option (Json × List Char)} {cs rest : List Char}
    {x : String × Json} (hvalue : ∀ cs v left, value cs = some (v, left) → isPlain v = true)
    (h : readMember value cs = some (x, rest)) : isPlain x.2 = true := by
  unfold readMember at h
  split at h
  · split at h
    · obtain ⟨⟨v, left⟩, hv, heq⟩ := Option.map_eq_some_iff.mp h
      obtain ⟨rfl, rfl⟩ := heq
      exact hvalue _ v _ hv
    · cases h
  · cases h

theorem isPlain_readWord {word cs rest : List Char} {v w : Json} (hw : isPlain w = true)
    (h : readWord word w cs = some (v, rest)) : isPlain v = true := by
  unfold readWord at h
  split at h
  · obtain ⟨rfl, rfl⟩ := h
    exact hw
  · cases h

theorem isPlain_readValue {n : Nat} {cs rest : List Char} {v : Json}
    (h : readValue n cs = some (v, rest)) : isPlain v = true := by
  induction n generalizing cs v rest with
  | zero => cases h
  | succ n ih =>
      cases cs with
      | nil => cases h
      | cons c cs =>
          unfold readValue at h
          split at h
          -- a text
          · obtain ⟨p, _, heq⟩ := Option.map_eq_some_iff.mp h
            obtain ⟨rfl, rfl⟩ := heq
            rfl
          split at h
          -- an array
          · obtain ⟨⟨vs, left⟩, hlist, heq⟩ := Option.map_eq_some_iff.mp h
            obtain ⟨rfl, rfl⟩ := heq
            refine arePlain_iff.mpr fun w hw => ?_
            obtain ⟨cs', left', hread⟩ := mem_readList hlist w hw
            exact ih hread
          split at h
          -- an object
          · obtain ⟨⟨members, left⟩, hlist, heq⟩ := Option.map_eq_some_iff.mp h
            obtain ⟨rfl, rfl⟩ := heq
            refine arePlainMembers_iff.mpr fun x hx => ?_
            obtain ⟨cs', left', hread⟩ := mem_readList hlist x hx
            exact isPlain_readMember (fun _ _ _ => ih) hread
          split at h
          -- a word
          · exact isPlain_readWord rfl h
          split at h
          · exact isPlain_readWord rfl h
          split at h
          · exact isPlain_readWord rfl h
          -- a number
          · obtain ⟨p, _, heq⟩ := Option.map_eq_some_iff.mp h
            obtain ⟨rfl, rfl⟩ := heq
            rfl

theorem isPlain_read {text : String} {v : Json} (h : read text = some v) : isPlain v = true := by
  unfold read at h
  split at h
  · rename_i w hread
    obtain rfl := Option.some.inj h
    exact isPlain_readValue hread
  · cases h

end XYChat.Json

namespace XYChat

/-- Qt for documents without doubles. -/
def Qt.compact : Qt where
  fromJson := Json.read
  toJson := Json.text
  fromBase64 := Lib.Base64.decode
  toBase64 := Lib.Base64.encode
  isoDate _ := ""

end XYChat
