import XYChat.Common.Passwords
import XYChat.Server.LoginSafety
import XYChat.Server.Migrations

/-!
# Accounts

What becomes of an account: once registered, its name leads to it and its password, and
no other but one that PBKDF2 cannot tell from it, is accepted for it, at every later
moment. The accounts that the first migration copies can never be logged in to.
-/

namespace XYChat.Server

open XYChat.Lib
open EncryptionManager (PasswordCrypto derive defaultIterations)

/-! ## Accounts in the database -/

/-- The rows start with the old ones, and each that is new is an account, the first row
of its name. -/
structure Registered (hashes : Hashes) (old rows : List UserRow) : Prop where
  starts : old <+: rows
  account : ∀ user ∈ rows, user ∉ old → AccountOf hashes user.username user.passwordHash
  first : ∀ user ∈ rows, user ∉ old → rows.find? (·.username == user.username) = some user

variable {hashes : Hashes} {old rows : List UserRow}

theorem Registered.refl (hashes : Hashes) (old : List UserRow) : Registered hashes old old :=
  ⟨List.prefix_refl _, fun _ hin hout => absurd hin hout, fun _ hin hout => absurd hin hout⟩

/-- Somebody registers under a name nobody has. -/
theorem Registered.snoc {new : UserRow} (h : Registered hashes old rows)
    (hnew : AccountOf hashes new.username new.passwordHash)
    (hname : rows.any (·.username == new.username) = false) :
    Registered hashes old (rows ++ [new]) := by
  refine ⟨h.starts.trans (List.prefix_append _ _), fun user hin hout => ?_,
    fun user hin hout => ?_⟩
  · rcases List.mem_append.mp hin with hin | hin
    · exact h.account user hin hout
    · rw [List.mem_singleton.mp hin]
      exact hnew
  · rw [List.find?_append]
    rcases List.mem_append.mp hin with hin | hin
    · rw [h.first user hin hout]
      rfl
    · rw [List.mem_singleton.mp hin]
      have hnone : rows.find? (·.username == new.username) = none := by
        rw [List.find?_eq_none]
        intro user huser hsame
        exact absurd (List.any_eq_true.mpr ⟨user, huser, hsame⟩) (by rw [hname]; simp)
      rw [hnone]
      simp

theorem registered_of_writes {s s' : ServerDb} (h : s.Writes hashes s')
    (hs : Registered hashes old s.users.rows) : Registered hashes old s'.users.rows := by
  induction h with
  | refl s => exact hs
  | trans _ _ ih ih' => exact ih' (ih hs)
  | tables s h =>
      show Registered hashes old (Db.users _).rows
      rw [h.kept.2]
      exact hs
  | registerUser s h =>
      unfold ServerDb.registerUser Db.registerUser
      split
      · exact hs
      · rename_i hfree
        exact hs.snoc h (by simpa [Db.userExists] using hfree)
  | registerDevice userId deviceId deviceName platform s =>
      obtain ⟨devices, hdb⟩ := s.toDb.registerDevice_eq userId deviceId deviceName platform
      unfold ServerDb.registerDevice
      rw [hdb]
      exact hs
  | createSession userId deviceId tokenHash loginIp s =>
      unfold ServerDb.createSession
      split <;> exact hs
  | _ => exact hs

section

variable {qt : Qt} {s s₀ : ServerState}

theorem run_registered (qt : Qt) (h : s.Writing hashes)
    (hs : Registered hashes old s.pool.store.users.rows) (ops : List ServerOp) :
    Registered hashes old ((chatServer qt hashes).run s ops).pool.store.users.rows :=
  (run_related (R := fun a b => Registered hashes old a.users.rows →
      Registered hashes old b.users.rows) (fun _ h => h) (fun h h' hs => h' (h hs))
    (fun _ _ => registered_of_writes) (fun _ _ h => h) h ops).1 hs

/-! ## With the passwords -/

/-- The name of the account leads to it, and its hash is that of a password of at least 6
under the salt the hash names; the password is accepted for it, and nothing else but
what PBKDF2 derives the same from. -/
structure Account (crypto : PasswordCrypto) (db : ServerDb) (user : UserRow) : Prop where
  trimmed : ∃ text, user.username = trimmed text
  length : 3 ≤ qsize user.username ∧ qsize user.username ≤ 32
  found : db.getUserByUsername user.username = some user
  password : ∃ salt password, salt.length = 16 ∧ 6 ≤ qsize password ∧
    user.passwordHash =
      EncryptionManager.hashPasswordWithSalt crypto salt password defaultIterations ∧
    ∀ attempt, EncryptionManager.verifyPassword crypto attempt user.passwordHash = true ↔
      derive crypto attempt salt defaultIterations = derive crypto password salt defaultIterations

/-- **Accounts.** Whoever has registered by some moment of a run has an account at each
later one. -/
theorem accounts_kept {crypto : PasswordCrypto}
    (h : s₀.Started (EncryptionManager.hashes crypto)) (ops later : List ServerOp) {user : UserRow}
    (huser : user ∈
      ((chatServer qt (EncryptionManager.hashes crypto)).run s₀ ops).pool.store.users.rows)
    (hnew : user ∉ s₀.pool.store.users.rows) :
    Account crypto
      ((chatServer qt (EncryptionManager.hashes crypto)).run s₀
        (ops ++ later)).pool.store user := by
  have hlater := run_registered qt h.writing (.refl _ _) (ops ++ later)
  have hstill : user ∈ ((chatServer qt (EncryptionManager.hashes crypto)).run s₀
      (ops ++ later)).pool.store.users.rows := by
    rw [Machine.run_append]
    exact (run_endures qt (run_endures qt h.writing ops).2 later).1.users.rows.subset huser
  obtain ⟨htrimmed, hlength, salt, password, hsize, hhash⟩ := hlater.account user hstill hnew
  have hverify := @EncryptionManager.hashes_verify crypto salt password
  rw [← hhash] at hverify
  rw [EncryptionManager.hashes_hashPasswordWithSalt] at hhash
  exact ⟨htrimmed, hlength, hlater.first user hstill hnew, EncryptionManager.saltOf salt, password,
    EncryptionManager.length_saltOf salt, hsize, hhash, hverify⟩

end

/-- Thirty-two bytes of the password, whatever the salt. -/
def padded : PasswordCrypto where
  sha256 bytes := bytes
  pbkdf2 password _ _ := ⟨(password ++ List.replicate 32 0).take 32, by simp⟩

theorem recordedServer_started' :
    recordedServer.Started (EncryptionManager.hashes padded) :=
  ⟨fun _ => rfl, rfl, rfl, by simp [recordedServer, Table.empty],
    by simp [recordedServer, Table.empty]⟩

/-- Bob registers, and a day later his account is there. -/
theorem accounts_kept_bob :
    ∃ user, user.username = "bob" ∧ user ∉ recordedServer.pool.store.users.rows ∧
      Account padded
        ((chatServer registerQt (EncryptionManager.hashes padded)).run recordedServer
          (bobRegisters ++ [.tick 86400])).pool.store user := by
  have hname : "bob" ∈ ((chatServer registerQt (EncryptionManager.hashes padded)).run recordedServer
      bobRegisters).pool.store.users.rows.map (·.username) := by decide +kernel
  obtain ⟨user, huser, hbob⟩ := List.mem_map.mp hname
  have hnew : user ∉ recordedServer.pool.store.users.rows := by
    intro hold
    rw [show user = { id := 1, username := "alice" } from List.mem_singleton.mp hold] at hbob
    exact absurd hbob (by decide)
  exact ⟨user, hbob, hnew,
    accounts_kept recordedServer_started' bobRegisters [.tick 86400] huser hnew⟩

/-! ## Accounts of old -/

/-- What the first migration makes of an old password is accepted for no password. -/
theorem verifyPassword_legacy {crypto : PasswordCrypto} {value : Migration.Value} {hash : String}
    (hlegacy : Migration.legacyHash value = .text hash) (password : String) :
    EncryptionManager.verifyPassword crypto password hash = false := by
  have hsplit : ∀ text : String,
      ("v0:0::" ++ text).toList.splitOn ':' =
        "v0".toList :: ("0::" ++ text).toList.splitOn ':' := by
    intro text
    have hparts : ("v0:0::" ++ text).toList = "v0".toList ++ ':' :: ("0::" ++ text).toList := by
      simp
    rw [hparts]
    exact List.splitOn_append_cons_self_of_not_mem (by decide) _
  have hversion : "v0".toList ≠ "v1".toList := by decide
  cases value with
  | null => cases hlegacy
  | int n =>
      obtain rfl := Migration.Value.text.inj hlegacy
      exact EncryptionManager.verifyPassword_otherVersion (hsplit _) hversion
  | text s =>
      obtain rfl := Migration.Value.text.inj hlegacy
      exact EncryptionManager.verifyPassword_otherVersion (hsplit _) hversion

section

variable {qt : Qt} {s₀ : ServerState}

/-- **Locked out.** For a user whose stored hash is the first migration's, no run creates
a session, and no connection ever becomes this user's. -/
theorem legacyUser_lockedOut {crypto : PasswordCrypto}
    (h : s₀.Started (EncryptionManager.hashes crypto)) {user : UserRow}
    (huser : user ∈ s₀.pool.store.users.rows) {value : Migration.Value}
    (hlegacy : Migration.legacyHash value = .text user.passwordHash) (ops : List ServerOp) :
    (∀ session ∈
      ((chatServer qt (EncryptionManager.hashes crypto)).run s₀ ops).pool.store.sessions.rows,
      session.userId = user.id →
        ∃ old ∈ s₀.pool.store.sessions.rows, old.id = session.id ∧ old.userId = session.userId) ∧
    ∀ c, (((chatServer qt (EncryptionManager.hashes crypto)).run s₀ ops).pool.workers
      c).here.authenticatedUserId ≠ user.id := by
  have hnever : ¬LoggedIn (EncryptionManager.hashes crypto)
      ((chatServer qt (EncryptionManager.hashes crypto)).run s₀ ops) user.id := by
    rintro ⟨login, _, _, row, hrow, hid, hidentifies⟩
    have hstill := (run_endures qt h.writing ops).1.users.rows.subset huser
    rw [Table.key_inj hrow hstill hid] at hidentifies
    have haccepted := hidentifies.password
    rw [EncryptionManager.hashes_verifyPassword, verifyPassword_legacy hlegacy] at haccepted
    cases haccepted
  obtain ⟨g, hauthentic⟩ := run_authentic qt h ops
  have hpos : 0 < user.id := (s₀.pool.store.users.bounded user huser).1
  constructor
  · intro session hsession huserId
    rcases hauthentic.sessions session hsession with hold | hlogged
    · exact hold
    · rw [huserId] at hlogged
      exact absurd hlogged hnever
  · intro c hc
    have hlogged := hauthentic.connections c (by rw [hc]; exact hpos)
    rw [hc] at hlogged
    exact hnever hlogged

end

/-- A server with a user whose password the first migration has taken over. -/
def migratedServer : ServerState where
  pool :=
    { store :=
        { now := 1
          users := .ofRows [{ id := 1, username := "alice", passwordHash := "v0:0::pw" }] }
      workers := fun _ => { here := {} } }

/-- Alice brings her old password, and has no session. -/
theorem legacyUser_lockedOut_alice :
    (((chatServer sessionQt (EncryptionManager.hashes padded)).run migratedServer
      loginAgain).pool.store.loginAudit.rows.map (·.success)) = [false] ∧
    ∀ c, (((chatServer sessionQt (EncryptionManager.hashes padded)).run migratedServer
      loginAgain).pool.workers c).here.authenticatedUserId ≠ 1 := by
  have hstarted : migratedServer.Started (EncryptionManager.hashes padded) :=
    ⟨fun _ => rfl, rfl, rfl, by simp [migratedServer, Table.empty],
      by simp [migratedServer, Table.empty]⟩
  have hlegacy : Migration.legacyHash (.text "pw") = .text "v0:0::pw" := rfl
  exact ⟨by decide +kernel, (legacyUser_lockedOut hstarted (List.mem_singleton_self _)
    hlegacy loginAgain).2⟩

end XYChat.Server
