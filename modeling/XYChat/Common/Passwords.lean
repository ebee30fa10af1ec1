import XYChat.Client.GroupReceive
import XYChat.Lib.Hex
import XYChat.Server.Sessions

/-!
# Passwords

`EncryptionManager`: how a password is hashed for the database and checked against
what is stored there, and the digests of tokens. SHA-256 and PBKDF2 are OpenSSL's and
parameters; what is drawn at random is an argument.
-/

namespace XYChat.EncryptionManager

open XYChat.Lib
open XYChat.Client (stringToInt? stringToInt?_toString)

/-- `SHA256`, and `PKCS5_PBKDF2_HMAC` of a password, a salt and a number of iterations,
whose result is 32 bytes. -/
structure PasswordCrypto where
  sha256 : Bytes → Bytes
  pbkdf2 : Bytes → Bytes → Nat → { derived : Bytes // derived.length = 32 }

section

variable (crypto : PasswordCrypto)

/-- `EncryptionManager::encryptPassword`. -/
def encryptPassword (password : String) : String :=
  String.ofList (Hex.encodeChars (crypto.sha256 (toUtf8 password)))

/-- `EncryptionManager::hashToken`. -/
def hashToken (token : String) : String := encryptPassword crypto token

/-- `EncryptionManager::defaultIterations`. -/
def defaultIterations : Int := 100000

/-- What PBKDF2 makes of the password. -/
def derive (password : String) (salt : Bytes) (iterations : Int) : Bytes :=
  (crypto.pbkdf2 (toUtf8 password) salt iterations.toNat).val

/-- `EncryptionManager::hashPasswordWithSalt`, with the salt it draws:
`v1:<iterations>:<salt-hex>:<hash-hex>`. -/
def hashPasswordWithSalt (salt : Bytes) (password : String) (iterations : Int) : String :=
  String.ofList
    ("v1".toList ++ ':' :: (toString iterations).toList ++ ':' :: Hex.encodeChars salt
      ++ ':' :: Hex.encodeChars (derive crypto password salt iterations))

/-- The loop of the comparison in constant time. -/
def difference : Bytes → Bytes → UInt8 → UInt8
  | a :: as, b :: bs, diff => difference as bs (diff ||| (a ^^^ b))
  | _, _, diff => diff

/-- `EncryptionManager::verifyPassword`. -/
def verifyPassword (password storedHash : String) : Bool :=
  match storedHash.toList.splitOn ':' with
  | [version, iterations, salt, hash] =>
      if version ≠ "v1".toList then false
      else match stringToInt? (String.ofList iterations) with
        | none => false
        | some iterations =>
            let saltBytes := Hex.decodeChars salt
            let expectedHash := Hex.decodeChars hash
            if iterations ≤ 0 then false
            else if saltBytes.isEmpty || expectedHash.isEmpty then false
            else
              let derived := derive crypto password saltBytes iterations
              derived.length == expectedHash.length && difference derived expectedHash 0 == 0
  | _ => false

end

variable {crypto : PasswordCrypto}

/-! ## The comparison -/

theorem difference_eq_zero {a b : Bytes} (hlength : a.length = b.length) (diff : UInt8) :
    difference a b diff = 0 ↔ diff = 0 ∧ a = b := by
  induction a generalizing b diff with
  | nil =>
      rw [List.length_nil, eq_comm, List.length_eq_zero_iff] at hlength
      subst hlength
      exact ⟨fun h => ⟨h, rfl⟩, fun h => h.1⟩
  | cons x xs ih =>
      cases b with
      | nil => cases hlength
      | cons y ys =>
          rw [difference, ih (Nat.succ.inj hlength), UInt8.or_eq_zero_iff, UInt8.xor_eq_zero_iff,
            List.cons.injEq, and_assoc]

/-- Nothing but the derived bytes themselves is accepted, and those always are. -/
theorem compare_iff {a b : Bytes} :
    (a.length == b.length && difference a b 0 == 0) = true ↔ a = b := by
  rw [Bool.and_eq_true, beq_iff_eq, beq_iff_eq]
  constructor
  · rintro ⟨hlength, hdiff⟩
    exact ((difference_eq_zero hlength 0).mp hdiff).2
  · rintro rfl
    exact ⟨rfl, (difference_eq_zero rfl 0).mpr ⟨rfl, rfl⟩⟩

/-! ## What is stored -/

/-- The four parts of a hash are found again. -/
theorem splitOn_hash (salt : Bytes) (password : String) {iterations : Int} (hpos : 0 < iterations) :
    (hashPasswordWithSalt crypto salt password iterations).toList.splitOn ':' =
      [ "v1".toList, (toString iterations).toList, Hex.encodeChars salt
      , Hex.encodeChars (derive crypto password salt iterations) ] := by
  have hdigits : ':' ∉ (toString iterations).toList := by
    obtain ⟨n, rfl⟩ := Int.eq_ofNat_of_zero_le hpos.le
    have htext : toString (n : Int) = String.ofList (Nat.toDigits 10 n) :=
      Nat.toString_eq_ofList_toDigits
    rw [htext, String.toList_ofList]
    intro h
    exact absurd (Nat.isDigit_of_mem_toDigits (by omega) (by omega) h) (by decide)
  have hparts : (hashPasswordWithSalt crypto salt password iterations).toList =
      [':'].intercalate
        [ "v1".toList, (toString iterations).toList, Hex.encodeChars salt
        , Hex.encodeChars (derive crypto password salt iterations) ] := by
    unfold hashPasswordWithSalt
    rw [String.toList_ofList]
    simp [List.intercalate]
  rw [hparts]
  refine List.splitOn_intercalate ':' ?_ (by simp)
  intro part hpart
  simp only [List.mem_cons, List.not_mem_nil, or_false] at hpart
  rcases hpart with rfl | rfl | rfl | rfl
  · decide
  · exact hdigits
  · exact Hex.colon_encodeChars _
  · exact Hex.colon_encodeChars _

/-- **Passwords.** Against the hash of a password, exactly those are accepted of which
PBKDF2 derives the same bytes: the password itself, and what collides with it. -/
theorem verifyPassword_hash {salt : Bytes} (hsalt : salt ≠ []) {iterations : Int}
    (hpos : 0 < iterations) (hlt : iterations < 2 ^ 31) (password attempt : String) :
    verifyPassword crypto attempt (hashPasswordWithSalt crypto salt password iterations) = true ↔
      derive crypto attempt salt iterations = derive crypto password salt iterations := by
  have hderived : derive crypto password salt iterations ≠ [] := by
    intro h
    have hlength := (crypto.pbkdf2 (toUtf8 password) salt iterations.toNat).property
    unfold derive at h
    rw [h] at hlength
    cases hlength
  unfold verifyPassword
  rw [splitOn_hash salt password hpos]
  dsimp only
  rw [if_neg (by simp), String.ofList_toList, stringToInt?_toString hpos hlt]
  dsimp only
  rw [Hex.decodeChars_encodeChars, Hex.decodeChars_encodeChars, if_neg (by omega), if_neg]
  · exact compare_iff
  · simp [hsalt, hderived]

/-- A stored text of another version is accepted for no password. -/
theorem verifyPassword_otherVersion {password storedHash : String} {version : List Char}
    {rest : List (List Char)} (hparts : storedHash.toList.splitOn ':' = version :: rest)
    (hversion : version ≠ "v1".toList) : verifyPassword crypto password storedHash = false := by
  unfold verifyPassword
  rw [hparts]
  split
  · rename_i heq
    rw [List.cons.injEq] at heq
    rw [if_pos (by rw [← heq.1]; exact hversion)]
  · rfl

/-! ## As the server uses it -/

/-- The sixteen bytes of a salt, from what was drawn. -/
def saltOf (drawn : String) : Bytes :=
  (drawn.toList.map (fun c : Char => UInt8.ofNat c.toNat) ++ List.replicate 16 0).take 16

theorem length_saltOf (drawn : String) : (saltOf drawn).length = 16 := by
  unfold saltOf
  rw [List.length_take, List.length_append, List.length_replicate]
  omega

theorem saltOf_ne_nil (drawn : String) : saltOf drawn ≠ [] := by
  intro h
  have hlength := length_saltOf drawn
  rw [h] at hlength
  cases hlength

/-- `EncryptionManager` as the handlers call it. -/
def hashes (crypto : PasswordCrypto) : Server.Hashes where
  hashToken := hashToken crypto
  hashPasswordWithSalt drawn password :=
    hashPasswordWithSalt crypto (saltOf drawn) password defaultIterations
  verifyPassword := verifyPassword crypto

@[simp] theorem hashes_verifyPassword :
    (hashes crypto).verifyPassword = verifyPassword crypto := rfl

@[simp] theorem hashes_hashPasswordWithSalt (drawn password : String) :
    (hashes crypto).hashPasswordWithSalt drawn password =
      hashPasswordWithSalt crypto (saltOf drawn) password defaultIterations := rfl

theorem hashes_verify (drawn password attempt : String) :
    (hashes crypto).verifyPassword attempt ((hashes crypto).hashPasswordWithSalt drawn password) =
        true ↔
      derive crypto attempt (saltOf drawn) defaultIterations =
        derive crypto password (saltOf drawn) defaultIterations := by
  have hpos : 0 < defaultIterations := by unfold defaultIterations; omega
  have hlt : defaultIterations < 2 ^ 31 := by unfold defaultIterations; omega
  rw [hashes_verifyPassword, hashes_hashPasswordWithSalt,
    verifyPassword_hash (saltOf_ne_nil drawn) hpos hlt]

end XYChat.EncryptionManager
