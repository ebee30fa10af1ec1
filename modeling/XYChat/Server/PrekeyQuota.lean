import XYChat.Common.JsonReader
import XYChat.Server.PrekeyLifecycle

/-!
# The quota of unused prekeys

A device may have `maxPrekeysPerDevice` unused prekeys. `RegisterKeys` counts the unused
ones before it uploads more, but not those that are claimed and may come back: a claim
that nobody used within the timeout is taken back by the next claim. The quota holds
throughout a history exactly when whatever a claim takes back still fits in.
-/

namespace XYChat.Server

open XYChat.Lib

/-! ## Histories -/

/-- A RegisterKeys request of a connection, a claim (which takes back stale claims first),
a consumption, a change of an identity key, the removal of a device's keys, or time. -/
inductive QuotaOp where
  | registerKeys (requestId : Nat) (conn : Connection) (request : Json)
  | claim (userId : Int)
  | consume (prekeyIds : List Int)
  | upsertIdentity (userId : Int) (deviceId identityPub : String)
  | removeDevice (userId : Int) (deviceId : String)
  | tick (seconds : Nat)

def QuotaOp.exec (qt : Qt) (db : Db) : QuotaOp → Db
  | .registerKeys requestId conn request =>
      ((processRegisterKeysRequest qt requestId conn request).exec db).1
  | .claim userId => (db.claimPrekeys userId).1
  | .consume prekeyIds => (db.consumePrekeys prekeyIds).1
  | .upsertIdentity userId deviceId identityPub =>
      ((upsertIdentityKey userId deviceId identityPub).exec db).1
  | .removeDevice userId deviceId => ((removeDeviceKeys userId deviceId).exec db).1
  | .tick seconds => { db with now := db.now + seconds }

/-- A database no prekey was ever uploaded to. -/
def quotaMachine (qt : Qt) : Machine Db QuotaOp where
  init db := db.prekeys = .empty
  step := QuotaOp.exec qt

/-- No device has more unused prekeys than the quota. -/
def WithinQuota (db : Db) : Prop := ∀ u d, db.prekeyCount u d ≤ maxPrekeysPerDevice

/-- A prekey of the device whose claim has run out. -/
def Db.isStale (db : Db) (userId : Int) (deviceId : String) (p : PrekeyRow) : Bool :=
  p.userId == userId && p.deviceId == deviceId
    && (p.status == .claimed && p.claimedAt.any (· ≤ db.now - Db.claimTimeout))

def Db.staleCount (db : Db) (userId : Int) (deviceId : String) : Nat :=
  db.prekeys.rows.countP (db.isStale userId deviceId)

/-- What a claim takes back fits in beside the unused prekeys, where one prekey goes out
again for each device of the user that the claim is for. -/
def TakesBackWithin (db : Db) : QuotaOp → Prop
  | .claim userId => ∀ u d, db.prekeyCount u d + db.staleCount u d ≤
      maxPrekeysPerDevice + if u = userId then 1 else 0
  | _ => True

/-! ## What each function does to the count -/

namespace Db

variable {db : Db} {userId u : Int} {deviceId d : String}

/-- An unused prekey of the device. -/
def isUnused (userId : Int) (deviceId : String) (p : PrekeyRow) : Bool :=
  p.userId == userId && p.deviceId == deviceId && p.status == .unused

theorem prekeyCount_eq : db.prekeyCount u d = db.prekeys.rows.countP (isUnused u d) := rfl

/-- Rows that go, or are unused no more, are not counted any more. -/
theorem prekeyCount_update_le {p : PrekeyRow → Bool} {f : PrekeyRow → PrekeyRow}
    (hused : ∀ row, (f row).status ≠ .unused) {db' : Db}
    (h : db'.prekeys.rows = db.prekeys.rows.map fun row => if p row then f row else row) :
    db'.prekeyCount u d ≤ db.prekeyCount u d := by
  rw [prekeyCount_eq, prekeyCount_eq, h, List.countP_map]
  refine List.countP_mono_left fun row _ hrow => ?_
  rw [Function.comp_apply] at hrow
  split at hrow
  · unfold isUnused at hrow
    rw [Bool.and_eq_true, beq_iff_eq] at hrow
    exact absurd hrow.2 (hused row)
  · exact hrow

theorem prekeyCount_delete_le {p : PrekeyRow → Bool} {db' : Db}
    (h : db'.prekeys = db.prekeys.delete p) : db'.prekeyCount u d ≤ db.prekeyCount u d := by
  rw [prekeyCount_eq, prekeyCount_eq, h]
  exact List.filter_sublist.countP_le

theorem prekeyCount_of_eq {db' : Db} (h : db'.prekeys = db.prekeys) :
    db'.prekeyCount u d = db.prekeyCount u d := by
  rw [prekeyCount_eq, prekeyCount_eq, h]

/-- The stale claims are unused prekeys again. -/
theorem prekeyCount_reclaimPrekeys :
    db.reclaimPrekeys.prekeyCount u d = db.prekeyCount u d + db.staleCount u d := by
  rw [prekeyCount_eq, prekeyCount_eq, staleCount]
  show List.countP _ (List.map _ db.prekeys.rows) = _
  induction db.prekeys.rows with
  | nil => rfl
  | cons row rows ih =>
      rw [List.map_cons, List.countP_cons, List.countP_cons, List.countP_cons, ih]
      -- a row is unused, or stale, or neither, before
      have hrow : (if isUnused u d (if row.status == .claimed
            && row.claimedAt.any (· ≤ db.now - claimTimeout)
          then { row with status := .unused, claimedAt := none } else row) = true then 1 else 0) =
          (if isUnused u d row = true then 1 else 0)
            + if db.isStale u d row = true then 1 else 0 := by
        unfold isUnused isStale
        cases hstale : row.status == .claimed && row.claimedAt.any (· ≤ db.now - claimTimeout) with
        | true =>
            have hstatus : (row.status == .unused) = false := by
              rw [Bool.and_eq_true, beq_iff_eq] at hstale
              rw [hstale.1]
              rfl
            simp [hstatus]
        | false => simp
      dsimp only
      rw [hrow]
      omega

/-- One prekey of the device goes out, if it has one. -/
theorem prekeyCount_claimPrekey : (db.claimPrekey userId deviceId).1.prekeyCount u d =
    db.prekeyCount u d - if u = userId ∧ d = deviceId then 1 else 0 := by
  unfold claimPrekey
  split
  · rename_i hnone
    have hzero : u = userId ∧ d = deviceId → db.prekeyCount u d = 0 := by
      rintro ⟨rfl, rfl⟩
      exact List.countP_eq_zero.mpr (List.find?_eq_none.mp hnone)
    split
    · rename_i hsame
      rw [hzero hsame]
    · rfl
  · rename_i row hfind
    obtain ⟨hrow, before, after, hrows, -⟩ := List.find?_eq_some_iff_append.mp hfind
    have hnodup := db.prekeys.keys_nodup
    rw [hrows, List.map_append, List.map_cons, List.nodup_middle, List.nodup_cons] at hnodup
    have hothers : ∀ r ∈ before ++ after, (r.id == row.id) = false := by
      intro r hr
      rw [beq_eq_false_iff_ne]
      intro hid
      refine hnodup.1 ?_
      have hkey : key row = key r := hid.symm
      rw [← List.map_append, hkey]
      exact List.mem_map_of_mem hr
    have hsame : ∀ l : List PrekeyRow, (∀ r ∈ l, r ∈ before ++ after) →
        (l.map fun r => if r.id == row.id then
          { r with status := .claimed, claimedAt := some db.now } else r) = l := by
      intro l hl
      refine (List.map_congr_left fun r hr => ?_).trans (List.map_id l)
      rw [hothers r (hl r hr), if_neg Bool.false_ne_true, id]
    rw [prekeyCount_eq, prekeyCount_eq]
    dsimp only
    rw [Table.rows_update, hrows, List.map_append, List.map_cons,
      hsame before fun r hr => List.mem_append_left _ hr,
      hsame after fun r hr => List.mem_append_right _ hr, List.countP_append, List.countP_append,
      List.countP_cons, List.countP_cons, beq_self_eq_true, if_pos rfl]
    have hclaimed : isUnused u d { row with status := .claimed, claimedAt := some db.now } = false := by
      simp [isUnused]
    have hwas : isUnused u d row = true ↔ u = userId ∧ d = deviceId := by
      simp only [Bool.and_eq_true, beq_iff_eq] at hrow
      simp only [isUnused, Bool.and_eq_true, beq_iff_eq, hrow]
      exact ⟨fun h => ⟨h.1.1.symm, h.1.2.symm⟩, fun h => ⟨⟨h.1.symm, h.2.symm⟩, trivial⟩⟩
    rw [hclaimed, if_neg Bool.false_ne_true]
    by_cases hpair : u = userId ∧ d = deviceId
    · rw [if_pos (hwas.mpr hpair), if_pos hpair]
      omega
    · rw [if_neg (mt hwas.mp hpair), if_neg hpair]
      rfl

theorem prekeyCount_claimDevices {deviceIds : List String} (hnodup : deviceIds.Nodup) :
    (db.claimDevices userId deviceIds).1.prekeyCount u d =
      db.prekeyCount u d - if u = userId ∧ d ∈ deviceIds then 1 else 0 := by
  induction deviceIds generalizing db with
  | nil => simp [claimDevices]
  | cons deviceId rest ih =>
      rw [List.nodup_cons] at hnodup
      show ((db.claimPrekey userId deviceId).1.claimDevices userId rest).1.prekeyCount u d = _
      rw [ih hnodup.2, prekeyCount_claimPrekey]
      by_cases hd : d = deviceId
      · subst hd
        simp [hnodup.1]
      · simp [hd]

/-- A claim leaves of each device what it had unused or stale, less one for the user's. -/
theorem prekeyCount_claimPrekeys : (db.claimPrekeys userId).1.prekeyCount u d =
    db.prekeyCount u d + db.staleCount u d - if u = userId then 1 else 0 := by
  have hclaim : (db.claimPrekeys userId).1 =
    (db.reclaimPrekeys.claimDevices userId (db.reclaimPrekeys.devicesWithPrekeys userId)).1 := rfl
  rw [hclaim, prekeyCount_claimDevices nodup_devicesWithPrekeys, prekeyCount_reclaimPrekeys]
  by_cases hu : u = userId
  · subst hu
    -- a device that is not looked up has none
    have hdevice : d ∈ db.reclaimPrekeys.devicesWithPrekeys u ∨
        db.prekeyCount u d + db.staleCount u d = 0 := by
      rw [← prekeyCount_reclaimPrekeys, prekeyCount_eq, List.countP_eq_zero]
      by_cases hnone : ∀ row ∈ db.reclaimPrekeys.prekeys.rows, ¬isUnused u d row = true
      · exact .inr hnone
      · simp only [not_forall, not_not] at hnone
        obtain ⟨row, hrow, hunused⟩ := hnone
        simp only [isUnused, Bool.and_eq_true, beq_iff_eq] at hunused
        exact .inl (mem_devicesWithPrekeys.mpr
          ⟨row, hrow, ⟨hunused.1.1, hunused.2⟩, hunused.1.2⟩)
    rcases hdevice with hin | hzero
    · rw [if_pos ⟨rfl, hin⟩, if_pos rfl]
    · rw [hzero, Nat.zero_sub, Nat.zero_sub]
  · rw [if_neg hu, if_neg fun h => hu h.1]

/-- An upload adds the keys it is given to its device, the empty ones apart. -/
theorem prekeyCount_insertPrekeys_le (pubs : List String) :
    (db.insertPrekeys userId deviceId pubs).1.prekeyCount u d ≤
      db.prekeyCount u d + if u = userId ∧ d = deviceId then pubs.length else 0 := by
  induction pubs generalizing db with
  | nil => exact Nat.le_add_right _ _
  | cons pub pubs ih =>
      unfold insertPrekeys
      split
      · refine ih.trans ?_
        split
        · rw [List.length_cons]
          omega
        · exact le_refl _
      · refine ih.trans ?_
        have hone : List.countP (isUnused u d)
            (db.prekeys.rows ++ [{ id := db.prekeys.lastId + 1, userId, deviceId, pub }]) =
              db.prekeyCount u d + if u = userId ∧ d = deviceId then 1 else 0 := by
          rw [List.countP_append, List.countP_singleton, prekeyCount_eq]
          refine congrArg _ (if_congr ?_ rfl rfl)
          simp only [isUnused, beq_self_eq_true, Bool.and_true, Bool.and_eq_true, beq_iff_eq]
          exact ⟨fun h => ⟨h.1.symm, h.2.symm⟩, fun h => ⟨h.1.symm, h.2.symm⟩⟩
        rw [prekeyCount_eq]
        dsimp only [Table.insert]
        rw [hone, List.length_cons]
        split <;> omega

theorem prekeyCount_uploadPrekeys_le (pubs : List String) :
    (db.uploadPrekeys userId deviceId pubs).1.prekeyCount u d ≤
      db.prekeyCount u d + if u = userId ∧ d = deviceId then pubs.length else 0 := by
  unfold uploadPrekeys
  split
  · exact Nat.le_add_right _ _
  split
  · exact Nat.le_add_right _ _
  exact prekeyCount_insertPrekeys_le pubs

theorem prekeyCount_upsertIdentityKey_le {identityPub : String} :
    ((upsertIdentityKey userId deviceId identityPub).exec db).1.prekeyCount u d ≤
      db.prekeyCount u d := by
  rcases upsertIdentityKey_cases userId deviceId identityPub db with h | ⟨-, h⟩ | h
  · rw [h]
  · rw [h, prekeyCount_of_eq (setIdentityKey_prekeys userId deviceId identityPub db)]
  · rw [h, prekeyCount_of_eq (setIdentityKey_prekeys userId deviceId identityPub _)]
    exact prekeyCount_delete_le rfl

end Db

/-! ## Histories within the quota -/

section

open Prog

variable {qt : Qt} {db : Db}

theorem WithinQuota.of_le {db' : Db} (h : WithinQuota db)
    (hle : ∀ u d, db'.prekeyCount u d ≤ db.prekeyCount u d) : WithinQuota db' :=
  fun u d => (hle u d).trans (h u d)

/-- A RegisterKeys request uploads no more than fits in beside the unused prekeys. -/
theorem processRegisterKeysRequest_withinQuota {requestId : Nat} {conn : Connection}
    {request : Json} (h : WithinQuota db) :
    (processRegisterKeysRequest qt requestId conn request).wp (fun _ => WithinQuota) db := by
  unfold processRegisterKeysRequest
  dsimp only
  refine wp_ite (fun _ => h) fun _ => ?_
  rw [wp_bind]
  have hstored : (upsertIdentityKey conn.authenticatedUserId conn.currentDeviceId
      (trimmed ((request.value "identityPub").toStr ""))).wp (fun _ => WithinQuota) db :=
    h.of_le fun _ _ => Db.prekeyCount_upsertIdentityKey_le
  refine wp_mono hstored fun stored db₁ hkey => ?_
  refine wp_ite (fun _ => hkey) fun _ => wp_ite (fun _ => hkey) fun _ => ?_
  refine wp_ite (fun _ => hkey) fun _ => ?_
  rw [wp_bind, wp_query]
  refine wp_ite (fun _ => hkey) fun hroom => wp_ite (fun _ => hkey) fun _ => ?_
  rw [wp_bind, wp_call]
  generalize hpubs : List.map _ ((request.value "prekeys").toArray) = pubs
  have hlength : pubs.length = ((request.value "prekeys").toArray).length := by
    rw [← hpubs, List.length_map]
  have hupload : WithinQuota (db₁.uploadPrekeys conn.authenticatedUserId conn.currentDeviceId
      pubs).1 := by
    intro u d
    refine (Db.prekeyCount_uploadPrekeys_le pubs).trans ?_
    have hu := hkey u d
    split
    · rename_i hsame
      obtain ⟨rfl, rfl⟩ := hsame
      omega
    · omega
  cases (db₁.uploadPrekeys conn.authenticatedUserId conn.currentDeviceId pubs).2 with
  | none => exact hupload
  | some uploaded => exact hupload

/-- **One step.** Within the quota, a step stays so exactly when what it takes back fits
in. -/
theorem quotaStep_iff (op : QuotaOp) (h : WithinQuota db) :
    WithinQuota ((quotaMachine qt).step db op) ↔ TakesBackWithin db op := by
  cases op with
  | registerKeys requestId conn request =>
      have hkeeps := @processRegisterKeysRequest_withinQuota qt db requestId conn request h
      unfold Prog.wp at hkeeps
      unfold quotaMachine TakesBackWithin
      dsimp only
      unfold QuotaOp.exec
      exact iff_of_true hkeeps trivial
  | claim userId =>
      refine forall₂_congr fun u d => ?_
      show (db.claimPrekeys userId).1.prekeyCount u d ≤ _ ↔ _
      rw [Db.prekeyCount_claimPrekeys, Nat.sub_le_iff_le_add]
  | consume prekeyIds =>
      refine iff_of_true (h.of_le fun _ _ => Db.prekeyCount_update_le ?_ rfl) trivial
      exact fun _ => nofun
  | upsertIdentity userId deviceId identityPub =>
      exact iff_of_true (h.of_le fun _ _ => Db.prekeyCount_upsertIdentityKey_le) trivial
  | removeDevice userId deviceId =>
      exact iff_of_true (h.of_le fun _ _ => Db.prekeyCount_delete_le rfl) trivial
  | tick seconds => exact iff_of_true h trivial

/-- **The prekey quota.** From a database without prekeys, it is kept throughout a history
exactly when whatever a claim takes back fits in beside the unused prekeys. -/
theorem prekeyQuota_iff (qt : Qt) (db : Db) (ops : List QuotaOp) :
    (quotaMachine qt).Always WithinQuota { db with prekeys := .empty } ops ↔
      (quotaMachine qt).Along TakesBackWithin { db with prekeys := .empty } ops := by
  refine Machine.always_iff_along (W := fun _ => True) (fun _ _ _ => trivial)
    (fun db op _ h => quotaStep_iff op h) trivial ?_
  exact fun u d => Nat.zero_le _

end

/-! ## Refilled while claims are out -/

/-- A key, as it is uploaded. -/
def keyText : String := Lib.Base64.encode (List.replicate 32 0)

def onPhone : Connection := { authenticatedUserId := 1, currentDeviceId := "phone" }

/-- Alice's phone uploads `n` prekeys. -/
def uploadFromPhone (n : Nat) : QuotaOp :=
  .registerKeys 1 onPhone
    (.obj [("identityPub", .str keyText), ("prekeys", .arr (List.replicate n (.str keyText)))])

def aliceAlone : Db where
  users := .ofRows [{ id := 1, username := "alice" }]

/-- Five hundred prekeys, two of them claimed and replaced; ten minutes later the next
claim takes both back and hands one out. -/
def refilled : List QuotaOp :=
  List.replicate 5 (uploadFromPhone 100) ++
    [.claim 1, .claim 1, uploadFromPhone 2, .tick 600, .claim 1]

theorem prekeyQuota_exceeded :
    ¬(quotaMachine Qt.compact).Always WithinQuota { aliceAlone with prekeys := .empty } refilled := by
  intro h
  have hcount : ((quotaMachine Qt.compact).run { aliceAlone with prekeys := .empty }
      refilled).prekeyCount 1 "phone" = 501 := by
    decide +kernel
  have hquota := h.last 1 "phone"
  rw [hcount] at hquota
  exact absurd hquota (by decide)

end XYChat.Server
