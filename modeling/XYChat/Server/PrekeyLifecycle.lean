import Mathlib.Data.List.Dedup
import Mathlib.Logic.Relation
import XYChat.Server.PrekeySpecs

/-!
# The life of a prekey

Prekeys are uploaded, claimed, consumed and taken back by five functions of the
database. What one call may do to the rows is said once, and from it follows what a
whole history of calls keeps: a used prekey stays used, a claim holds for the claim
timeout, and a change of the identity key ends the prekeys uploaded before it.
-/

namespace XYChat.Server

open XYChat.Lib

/-! ## What a call may do to a row -/

/-- One move of a prekey at a time of the clock. -/
inductive PrekeyMove (now : Int) : PrekeyRow → PrekeyRow → Prop
  | claim {row : PrekeyRow} : row.status = .unused →
      PrekeyMove now row { row with status := .claimed, claimedAt := some now }
  | consume {row : PrekeyRow} : row.status = .claimed →
      PrekeyMove now row { row with status := .used }
  | reclaim {row : PrekeyRow} {t : Int} : row.status = .claimed → row.claimedAt = some t →
      t + Db.claimTimeout ≤ now →
      PrekeyMove now row { row with status := .unused, claimedAt := none }

/-- The rows of `t'` are those of `t` moved on, less the deleted ones, and new ones,
which start unused under ids that were never given out. -/
structure PrekeysMove (now : Int) (t t' : Table PrekeyRow) : Prop where
  lastId : t.lastId ≤ t'.lastId
  moved : ∀ id row, t.get id = some row →
    t'.get id = none ∨
      ∃ row', t'.get id = some row' ∧ Relation.ReflTransGen (PrekeyMove now) row row'
  uploaded : ∀ id row', t.get id = none → t'.get id = some row' →
    t.lastId < id ∧
      ∃ row, row.status = .unused ∧ Relation.ReflTransGen (PrekeyMove now) row row'

namespace PrekeysMove

variable {now : Int} {t t' t'' : Table PrekeyRow}

theorem refl (t : Table PrekeyRow) : PrekeysMove now t t where
  lastId := Int.le_refl _
  moved := fun _ row hrow => .inr ⟨row, hrow, .refl⟩
  uploaded := fun id row' hnone hsome => by
    rw [hnone] at hsome
    cases hsome

theorem trans (h : PrekeysMove now t t') (h' : PrekeysMove now t' t'') :
    PrekeysMove now t t'' where
  lastId := h.lastId.trans h'.lastId
  moved := by
    intro id row hrow
    rcases h.moved id row hrow with hgone | ⟨row', hrow', hmoves⟩
    · cases hlast : t''.get id with
      | none => exact .inl rfl
      | some row'' =>
          -- an id that is gone is not given out again
          have hnew := (h'.uploaded id row'' hgone hlast).1
          have hold := (t.bounded row (Table.get_eq_some.mp hrow).1).2
          rw [(Table.get_eq_some.mp hrow).2] at hold
          have := h.lastId
          omega
    · rcases h'.moved id row' hrow' with hgone | ⟨row'', hrow'', hmoves'⟩
      · exact .inl hgone
      · exact .inr ⟨row'', hrow'', hmoves.trans hmoves'⟩
  uploaded := by
    intro id row'' hnone hlast
    cases hmid : t'.get id with
    | none =>
        obtain ⟨hid, hrow⟩ := h'.uploaded id row'' hmid hlast
        exact ⟨lt_of_le_of_lt h.lastId hid, hrow⟩
    | some row' =>
        obtain ⟨hid, row, hunused, hmoves⟩ := h.uploaded id row' hnone hmid
        rcases h'.moved id row' hmid with hgone | ⟨row₂, hrow₂, hmoves'⟩
        · rw [hgone] at hlast
          cases hlast
        · rw [hlast] at hrow₂
          cases hrow₂
          exact ⟨hid, row, hunused, hmoves.trans hmoves'⟩

theorem delete (p : PrekeyRow → Bool) : PrekeysMove now t (t.delete p) where
  lastId := Int.le_refl _
  moved := by
    intro id row hrow
    cases hlast : (t.delete p).get id with
    | none => exact .inl rfl
    | some row' =>
        obtain ⟨hmem, hkey⟩ := Table.get_eq_some.mp hlast
        have hsame : t.get id = some row' :=
          Table.get_eq_some.mpr ⟨(Table.mem_delete.mp hmem).1, hkey⟩
        rw [hrow] at hsame
        cases hsame
        exact .inr ⟨row, rfl, .refl⟩
  uploaded := by
    intro id row' hnone hlast
    obtain ⟨hmem, hkey⟩ := Table.get_eq_some.mp hlast
    exact absurd hkey (Table.get_eq_none.mp hnone row' (Table.mem_delete.mp hmem).1)

theorem insert {mk : Int → PrekeyRow} (hrows : t'.rows = t.rows ++ [mk (t.lastId + 1)])
    (hlast : t'.lastId = t.lastId + 1) (hmk : ∀ id, key (mk id) = id)
    (h : ∀ id, (mk id).status = .unused) : PrekeysMove now t t' := by
  have hget : ∀ id, t'.get id = (t.insert mk hmk).get id := by
    intro id
    unfold Table.get
    rw [hrows]
    rfl
  refine ⟨by omega, fun id row hrow => .inr ⟨row, ?_, .refl⟩, fun id row' hnone hrow' => ?_⟩
  · have hold := (t.bounded row (Table.get_eq_some.mp hrow).1).2
    rw [(Table.get_eq_some.mp hrow).2] at hold
    rw [hget, Table.get_insert, if_neg (by omega)]
    exact hrow
  · rw [hget, Table.get_insert] at hrow'
    by_cases hid : id = t.lastId + 1
    · rw [if_pos hid] at hrow'
      cases hrow'
      exact ⟨by omega, _, h id, .refl⟩
    · rw [if_neg hid, hnone] at hrow'
      cases hrow'

theorem update {p : PrekeyRow → Bool} {f : PrekeyRow → PrekeyRow}
    (hrows : t'.rows = t.rows.map fun row => if p row then f row else row)
    (hlast : t'.lastId = t.lastId) (hf : ∀ row, key (f row) = key row)
    (h : ∀ row ∈ t.rows, p row = true → PrekeyMove now row (f row)) : PrekeysMove now t t' := by
  have hget : ∀ id, t'.get id = (t.update p f hf).get id := by
    intro id
    unfold Table.get
    rw [hrows]
    rfl
  refine ⟨hlast.ge, fun id row hrow => ?_, fun id row' hnone hrow' => ?_⟩
  · rw [hget, Table.get_update, hrow]
    refine .inr ⟨_, rfl, ?_⟩
    dsimp only
    by_cases hp : p row = true
    · rw [if_pos hp]
      exact .single (h row (Table.get_eq_some.mp hrow).1 hp)
    · rw [if_neg hp]
  · rw [hget, Table.get_update, hnone] at hrow'
    cases hrow'

end PrekeysMove

namespace Db

theorem insertPrekeys_move {now : Int} (userId : Int) (deviceId : String) (pubs : List String)
    (db : Db) :
    PrekeysMove now db.prekeys (db.insertPrekeys userId deviceId pubs).1.prekeys := by
  induction pubs generalizing db with
  | nil => exact .refl _
  | cons pub pubs ih =>
      unfold insertPrekeys
      split
      · exact ih db
      · have hrest := ih
          { db with prekeys := db.prekeys.insert fun id => { id, userId, deviceId, pub } }
        exact PrekeysMove.trans
          (@PrekeysMove.insert _ _ _ (fun id => { id, userId, deviceId, pub }) rfl rfl
            (fun _ => rfl) fun _ => rfl) hrest

theorem uploadPrekeys_move {now : Int} (userId : Int) (deviceId : String) (pubs : List String)
    (db : Db) :
    PrekeysMove now db.prekeys (db.uploadPrekeys userId deviceId pubs).1.prekeys := by
  unfold uploadPrekeys
  split
  · exact .refl _
  split
  · exact .refl _
  exact insertPrekeys_move userId deviceId pubs db

theorem reclaimPrekeys_move (db : Db) :
    PrekeysMove db.now db.prekeys db.reclaimPrekeys.prekeys := by
  refine .update rfl rfl (fun _ => rfl) fun row _ hp => ?_
  obtain ⟨hclaimed, hlate⟩ := Bool.and_eq_true_iff.mp hp
  cases ht : row.claimedAt with
  | none =>
      rw [ht] at hlate
      cases hlate
  | some t =>
      rw [ht] at hlate
      have hle : t ≤ db.now - claimTimeout := by simpa using hlate
      exact .reclaim (by simpa using hclaimed) ht (by omega)

theorem claimPrekey_move (userId : Int) (deviceId : String) (db : Db) :
    PrekeysMove db.now db.prekeys (db.claimPrekey userId deviceId).1.prekeys := by
  unfold claimPrekey
  split
  · exact .refl _
  · rename_i row hfind
    refine .update rfl rfl (fun _ => rfl) fun r hr hp => ?_
    have hsame : r = row :=
      Table.key_inj hr (List.mem_of_find?_eq_some hfind) (by simpa using hp)
    subst hsame
    have hunused := List.find?_some hfind
    simp only [Bool.and_eq_true, beq_iff_eq] at hunused
    exact .claim hunused.2

theorem claimPrekey_now (userId : Int) (deviceId : String) (db : Db) :
    (db.claimPrekey userId deviceId).1.now = db.now := by
  unfold claimPrekey
  split <;> rfl

theorem claimDevices_move (userId : Int) (deviceIds : List String) (db : Db) :
    PrekeysMove db.now db.prekeys (db.claimDevices userId deviceIds).1.prekeys := by
  induction deviceIds generalizing db with
  | nil => exact .refl _
  | cons deviceId rest ih =>
      have hrest := ih (db.claimPrekey userId deviceId).1
      rw [claimPrekey_now] at hrest
      exact (claimPrekey_move userId deviceId db).trans hrest

theorem claimPrekeys_move (userId : Int) (db : Db) :
    PrekeysMove db.now db.prekeys (db.claimPrekeys userId).1.prekeys :=
  (reclaimPrekeys_move db).trans (claimDevices_move userId _ db.reclaimPrekeys)

theorem consumePrekeys_move {now : Int} (prekeyIds : List Int) (db : Db) :
    PrekeysMove now db.prekeys (db.consumePrekeys prekeyIds).1.prekeys := by
  refine .update rfl rfl (fun _ => rfl) fun row _ hp => .consume ?_
  exact by simpa using (Bool.and_eq_true_iff.mp hp).2

end Db

theorem Db.setIdentityKey_prekeys (userId : Int) (deviceId identityPub : String) (db : Db) :
    (db.setIdentityKey userId deviceId identityPub).1.prekeys = db.prekeys := by
  unfold setIdentityKey
  split
  · rfl
  split <;> rfl

/-- Uploading and claiming leave the clock and the identity keys alone. -/
theorem Db.insertPrekeys_frame (userId : Int) (deviceId : String) (pubs : List String) (db : Db) :
    (db.insertPrekeys userId deviceId pubs).1.now = db.now ∧
      (db.insertPrekeys userId deviceId pubs).1.deviceIdentityKeys = db.deviceIdentityKeys := by
  induction pubs generalizing db with
  | nil => exact ⟨rfl, rfl⟩
  | cons pub pubs ih =>
      unfold insertPrekeys
      split
      · exact ih db
      · exact ih { db with prekeys := db.prekeys.insert fun id => { id, userId, deviceId, pub } }

theorem Db.uploadPrekeys_frame (userId : Int) (deviceId : String) (pubs : List String) (db : Db) :
    (db.uploadPrekeys userId deviceId pubs).1.now = db.now ∧
      (db.uploadPrekeys userId deviceId pubs).1.deviceIdentityKeys = db.deviceIdentityKeys := by
  unfold uploadPrekeys
  split
  · exact ⟨rfl, rfl⟩
  split
  · exact ⟨rfl, rfl⟩
  exact insertPrekeys_frame userId deviceId pubs db

theorem Db.claimPrekeys_identityKeys (userId : Int) (db : Db) :
    (db.claimPrekeys userId).1.now = db.now ∧
      (db.claimPrekeys userId).1.deviceIdentityKeys = db.deviceIdentityKeys := by
  have hloop : ∀ (deviceIds : List String) (db : Db),
      (db.claimDevices userId deviceIds).1.now = db.now ∧
        (db.claimDevices userId deviceIds).1.deviceIdentityKeys = db.deviceIdentityKeys := by
    intro deviceIds
    induction deviceIds with
    | nil => exact fun db => ⟨rfl, rfl⟩
    | cons deviceId rest ih =>
        intro db
        have hone : (db.claimPrekey userId deviceId).1.deviceIdentityKeys =
            db.deviceIdentityKeys := by
          unfold claimPrekey
          split <;> rfl
        obtain ⟨hnow, hkeys⟩ := ih (db.claimPrekey userId deviceId).1
        exact ⟨hnow.trans (claimPrekey_now userId deviceId db), hkeys.trans hone⟩
  exact hloop _ db.reclaimPrekeys

theorem Db.setIdentityKey_now (userId : Int) (deviceId identityPub : String) (db : Db) :
    (db.setIdentityKey userId deviceId identityPub).1.now = db.now := by
  unfold setIdentityKey
  split
  · rfl
  split <;> rfl

/-- **Inversion.** A call is refused, or the device has no identity key or this one
already, or its prekeys are purged before the key is replaced. -/
theorem upsertIdentityKey_cases (userId : Int) (deviceId identityPub : String) (db : Db) :
    let db' := ((upsertIdentityKey userId deviceId identityPub).exec db).1
    db' = db ∨
      (db.identityPub userId deviceId = none ∨
          db.identityPub userId deviceId = some identityPub) ∧
        db' = (db.setIdentityKey userId deviceId identityPub).1 ∨
      db' = ((db.purgePrekeys userId deviceId).setIdentityKey userId deviceId identityPub).1 := by
  dsimp only
  unfold upsertIdentityKey
  simp only [Prog.exec_ite, Prog.exec_bind, Prog.exec_query, Prog.exec_pure]
  split
  · exact .inl rfl
  cases db.identityPub userId deviceId with
  | none => exact .inr (.inl ⟨.inl rfl, rfl⟩)
  | some oldPub =>
      simp only [Prog.exec_ite, Prog.exec_bind, Prog.exec_call, Prog.exec_update]
      by_cases hsame : oldPub = identityPub
      · subst hsame
        rw [if_neg (not_not.mpr rfl)]
        exact .inr (.inl ⟨.inr rfl, rfl⟩)
      · rw [if_pos hsame]
        exact .inr (.inr rfl)

theorem upsertIdentityKey_move {now : Int} (userId : Int) (deviceId identityPub : String) (db : Db) :
    PrekeysMove now db.prekeys
      ((upsertIdentityKey userId deviceId identityPub).exec db).1.prekeys := by
  rcases upsertIdentityKey_cases userId deviceId identityPub db with h | ⟨-, h⟩ | h
  · rw [h]
    exact .refl _
  · rw [h, Db.setIdentityKey_prekeys]
    exact .refl _
  · rw [h, Db.setIdentityKey_prekeys]
    exact .delete _

theorem removeDeviceKeys_move {now : Int} (userId : Int) (deviceId : String) (db : Db) :
    PrekeysMove now db.prekeys ((removeDeviceKeys userId deviceId).exec db).1.prekeys :=
  .delete _

/-! ## What a claim returns -/

namespace Db

/-- A claimed prekey was unused and is now claimed. -/
structure Handed (db db' : Db) (userId : Int) (c : ClaimedPrekey) : Prop where
  unused : ∃ row, db.prekeys.get c.prekeyId = some row ∧ row.status = .unused ∧
    row.userId = userId ∧ row.deviceId = c.deviceId
  claimed : ∃ row, db'.prekeys.get c.prekeyId = some row ∧ row.status = .claimed ∧
    row.claimedAt = some db.now

/-- What one device gets, and that the other rows stay. -/
theorem claimPrekey_handed {userId : Int} {deviceId : String} {db : Db} {c : ClaimedPrekey}
    (h : (db.claimPrekey userId deviceId).2 = some c) :
    Handed db (db.claimPrekey userId deviceId).1 userId c ∧ c.deviceId = deviceId ∧
      ∀ id, id ≠ c.prekeyId →
        (db.claimPrekey userId deviceId).1.prekeys.get id = db.prekeys.get id := by
  unfold claimPrekey at h ⊢
  cases hfind : db.prekeys.rows.find? fun p =>
      p.userId == userId && p.deviceId == deviceId && p.status == .unused with
  | none =>
      rw [hfind] at h
      cases h
  | some row =>
      rw [hfind] at h
      cases h
      have hrow := Table.get_mem (List.mem_of_find?_eq_some hfind)
      have hunused := List.find?_some hfind
      simp only [Bool.and_eq_true, beq_iff_eq] at hunused
      refine ⟨⟨⟨row, hrow, hunused.2, hunused.1.1, hunused.1.2⟩,
        { row with status := .claimed, claimedAt := some db.now }, ?_, rfl, rfl⟩, rfl,
        fun id hid => ?_⟩
      · dsimp only
        rw [Table.get_update]
        refine (congrArg _ hrow).trans ?_
        simp
      · dsimp only
        rw [Table.get_update]
        cases hget : db.prekeys.get id with
        | none => rfl
        | some other =>
            have hother : other.id = id := (Table.get_eq_some.mp hget).2
            have hne : other.id ≠ row.id := fun hsame => hid (hother.symm.trans hsame)
            simp [hne]

theorem claimPrekey_none {userId : Int} {deviceId : String} {db : Db}
    (h : (db.claimPrekey userId deviceId).2 = none) :
    (db.claimPrekey userId deviceId).1 = db := by
  unfold claimPrekey at h ⊢
  split at h
  · rfl
  · cases h

/-- Only unused prekeys are claimed. -/
theorem claimDevices_keeps {userId : Int} (deviceIds : List String) {db : Db} {id : Int}
    {row : PrekeyRow} (hrow : db.prekeys.get id = some row) (h : row.status ≠ .unused) :
    (db.claimDevices userId deviceIds).1.prekeys.get id = some row := by
  induction deviceIds generalizing db with
  | nil => exact hrow
  | cons deviceId rest ih =>
      refine @ih (db.claimPrekey userId deviceId).1 ?_
      cases hfirst : (db.claimPrekey userId deviceId).2 with
      | none =>
          rw [claimPrekey_none hfirst]
          exact hrow
      | some first =>
          obtain ⟨hhead, -, hframe⟩ := claimPrekey_handed hfirst
          obtain ⟨row', hrow', hunused, -⟩ := hhead.unused
          have hne : id ≠ first.prekeyId := by
            rintro rfl
            rw [hrow] at hrow'
            cases hrow'
            exact h hunused
          rw [hframe id hne]
          exact hrow

/-- The loop hands out at most one prekey for each device, and each was unused. -/
theorem claimDevices_handed (userId : Int) (deviceIds : List String) (db : Db) :
    ((db.claimDevices userId deviceIds).2.map (·.deviceId)).Sublist deviceIds ∧
      ∀ c ∈ (db.claimDevices userId deviceIds).2,
        Handed db (db.claimDevices userId deviceIds).1 userId c := by
  induction deviceIds generalizing db with
  | nil => exact ⟨List.Sublist.refl _, fun c hc => by cases hc⟩
  | cons deviceId rest ih =>
      obtain ⟨hsub, hhanded⟩ := ih (db.claimPrekey userId deviceId).1
      have hnow := claimPrekey_now userId deviceId db
      unfold claimDevices
      dsimp only
      cases hfirst : (db.claimPrekey userId deviceId).2 with
      | none =>
          rw [claimPrekey_none hfirst] at hsub hhanded ⊢
          exact ⟨hsub.cons _, hhanded⟩
      | some first =>
          obtain ⟨hhead, hdevice, hframe⟩ := claimPrekey_handed hfirst
          obtain ⟨claimedRow, hclaimedRow, hclaimed, hat⟩ := hhead.claimed
          refine ⟨?_, fun c hc => ?_⟩
          · show (first.deviceId :: _).Sublist _
            rw [hdevice]
            exact hsub.cons_cons _
          rcases List.mem_cons.mp hc with rfl | hc
          · -- what was claimed first is not looked at again: the others pick unused rows
            refine ⟨hhead.unused, claimedRow, claimDevices_keeps rest hclaimedRow ?_, hclaimed, hat⟩
            rw [hclaimed]
            decide
          · obtain ⟨⟨row, hrow, hunused, hrest⟩, hclaimed'⟩ := hhanded c hc
            have hne : c.prekeyId ≠ first.prekeyId := by
              intro hsame
              rw [hsame, hclaimedRow] at hrow
              cases hrow
              rw [hclaimed] at hunused
              cases hunused
            rw [hframe _ hne] at hrow
            rw [hnow] at hclaimed'
            exact ⟨⟨row, hrow, hunused, hrest⟩, hclaimed'⟩

/-- **One call.** The devices that get a prekey get one. -/
theorem claimPrekeys_handed (userId : Int) (db : Db) :
    ((db.claimPrekeys userId).2.map (·.deviceId)).Nodup ∧
      ∀ c ∈ (db.claimPrekeys userId).2,
        Handed db.reclaimPrekeys (db.claimPrekeys userId).1 userId c := by
  obtain ⟨hsub, hhanded⟩ := claimDevices_handed userId
    (db.reclaimPrekeys.devicesWithPrekeys userId) db.reclaimPrekeys
  exact ⟨hsub.nodup nodup_devicesWithPrekeys, hhanded⟩

end Db

/-! ## Histories -/

/-- A call of one of the five functions, or the clock. -/
inductive PrekeyCall where
  | upload (userId : Int) (deviceId : String) (pubs : List String)
  | claim (userId : Int)
  | consume (prekeyIds : List Int)
  | upsertIdentity (userId : Int) (deviceId identityPub : String)
  | removeDevice (userId : Int) (deviceId : String)
  | tick (seconds : Nat)

/-- The database after a call. -/
def PrekeyCall.exec (db : Db) : PrekeyCall → Db
  | .upload userId deviceId pubs => (db.uploadPrekeys userId deviceId pubs).1
  | .claim userId => (db.claimPrekeys userId).1
  | .consume prekeyIds => (db.consumePrekeys prekeyIds).1
  | .upsertIdentity userId deviceId identityPub =>
      ((upsertIdentityKey userId deviceId identityPub).exec db).1
  | .removeDevice userId deviceId => ((removeDeviceKeys userId deviceId).exec db).1
  | .tick seconds => { db with now := db.now + seconds }

/-- What a call returns to those who want to send. -/
def PrekeyCall.claimed (db : Db) : PrekeyCall → List Db.ClaimedPrekey
  | .claim userId => (db.claimPrekeys userId).2
  | _ => []

/-- A database and what has happened to its prekeys: which were handed out and when,
which have been used, which were uploaded for which device while it had an identity
key, and of which of these the identity key is no longer that one. -/
structure PrekeyHistory where
  db : Db
  handed : List (Int × Int) := []
  used : List Int := []
  uploaded : List (Int × Int × String) := []
  retired : List Int := []

/-- The rows that a call has added for devices with an identity key. -/
def newlyUploaded (db db' : Db) : List (Int × Int × String) :=
  (db'.prekeys.rows.filter fun row =>
    db.prekeys.lastId < row.id && (db'.identityPub row.userId row.deviceId).isSome).map
      fun row => (row.id, row.userId, row.deviceId)

/-- The device had an identity key, and has it no more. -/
def identityEnded (db db' : Db) (userId : Int) (deviceId : String) : Bool :=
  (db.identityPub userId deviceId).isSome
    && db'.identityPub userId deviceId != db.identityPub userId deviceId

def PrekeyHistory.step (s : PrekeyHistory) (call : PrekeyCall) : PrekeyHistory :=
  let db := call.exec s.db
  { db
    handed := s.handed ++ (call.claimed s.db).map fun c => (c.prekeyId, s.db.now)
    used := s.used ++ (db.prekeys.rows.filter (·.status == .used)).map (·.id)
    uploaded := s.uploaded ++ newlyUploaded s.db db
    retired := s.retired ++
      (s.uploaded.filter fun u => identityEnded s.db db u.2.1 u.2.2).map (·.1) }

/-- A database no prekey was ever uploaded to. -/
def prekeyMachine : Machine PrekeyHistory PrekeyCall where
  init := fun s => ∃ db : Db, s = { db := { db with prekeys := .empty } }
  step := PrekeyHistory.step

/-- What a history promises of the next call. -/
structure Lawful (s : PrekeyHistory) (call : PrekeyCall) : Prop where
  moves : PrekeysMove s.db.now s.db.prekeys (call.exec s.db).prekeys
  oncePerDevice : ((call.claimed s.db).map (·.deviceId)).Nodup
  notUsed : ∀ c ∈ call.claimed s.db, c.prekeyId ∉ s.used
  notHeld : ∀ c ∈ call.claimed s.db, ∀ h ∈ s.handed, h.1 = c.prekeyId →
    h.2 + Db.claimTimeout ≤ s.db.now
  notRetired : ∀ c ∈ call.claimed s.db, c.prekeyId ∉ s.retired

/-! ## The identity keys -/

namespace Db

variable {db : Db} {userId userId' : Int} {deviceId deviceId' pub : String}

/-- Setting the identity key of one device leaves the others'. -/
theorem identityPub_setIdentityKey_of_ne (h : ¬(userId' = userId ∧ deviceId' = deviceId)) :
    (db.setIdentityKey userId deviceId pub).1.identityPub userId' deviceId' =
      db.identityPub userId' deviceId' := by
  unfold setIdentityKey
  split
  · rfl
  split
  · unfold identityPub
    show ((db.deviceIdentityKeys.rows.map _).find? _).map _ = _
    induction db.deviceIdentityKeys.rows with
    | nil => rfl
    | cons k rows ih =>
        rw [List.map_cons, List.find?_cons, List.find?_cons]
        by_cases hk : k.userId = userId ∧ k.deviceId = deviceId
        · have hother : (k.userId == userId' && k.deviceId == deviceId') = false := by
            rw [hk.1, hk.2]
            simp only [Bool.and_eq_false_iff, beq_eq_false_iff_ne]
            by_contra hsame
            simp only [not_or, not_not] at hsame
            exact h ⟨hsame.1.symm, hsame.2.symm⟩
          simp only [hk.1, hk.2, beq_self_eq_true, Bool.and_self, if_true] at hother ⊢
          rw [hother]
          exact ih
        · have hkept : (k.userId == userId && k.deviceId == deviceId) = false := by
            simpa using hk
          simp only [hkept, Bool.false_eq_true, if_false]
          cases k.userId == userId' && k.deviceId == deviceId'
          · exact ih
          · rfl
  · unfold identityPub
    show ((db.deviceIdentityKeys.rows ++ [_]).find? _).map _ = _
    have hother : (userId == userId' && deviceId == deviceId') = false := by
      simp only [Bool.and_eq_false_iff, beq_eq_false_iff_ne]
      by_contra hsame
      simp only [not_or, not_not] at hsame
      exact h ⟨hsame.1.symm, hsame.2.symm⟩
    rw [List.find?_append, List.find?_cons, hother]
    simp

/-- The device itself has the new key, where it is set. -/
theorem identityPub_setIdentityKey_self :
    (db.setIdentityKey userId deviceId pub).1.identityPub userId deviceId =
        db.identityPub userId deviceId ∨
      (db.setIdentityKey userId deviceId pub).1.identityPub userId deviceId = some pub := by
  unfold setIdentityKey
  split
  · exact .inl rfl
  split
  · rename_i hsome
    right
    obtain ⟨oldPub, hold⟩ := Option.isSome_iff_exists.mp hsome
    obtain ⟨k, hk, -⟩ := Option.map_eq_some_iff.mp hold
    have hsame : ((fun k : IdentityKeyRow => k.userId == userId && k.deviceId == deviceId) ∘
        fun k => if k.userId == userId && k.deviceId == deviceId then
          { k with identityPub := pub } else k) =
        fun k => k.userId == userId && k.deviceId == deviceId := by
      funext k
      dsimp only [Function.comp_apply]
      split <;> rfl
    unfold identityPub
    show ((db.deviceIdentityKeys.rows.map _).find? _).map _ = _
    rw [List.find?_map, hsame, hk, Option.map_some, Option.map_some,
      if_pos (by simpa using List.find?_some hk)]
  · rename_i hnone
    right
    have hfind : db.deviceIdentityKeys.rows.find?
        (fun k => k.userId == userId && k.deviceId == deviceId) = none := by
      unfold identityPub at hnone
      simpa using hnone
    unfold identityPub
    show ((db.deviceIdentityKeys.rows ++ [_]).find? _).map _ = _
    rw [List.find?_append, hfind, List.find?_cons]
    simp

/-- Where a new identity key ends the one before, the prekeys left are used ones. -/
theorem upsertIdentityKey_ended {u : Int} {d : String}
    (h : identityEnded db ((upsertIdentityKey userId deviceId pub).exec db).1 u d = true) :
    ∀ row ∈ ((upsertIdentityKey userId deviceId pub).exec db).1.prekeys.rows,
      row.userId = u → row.deviceId = d → row.status = .used := by
  obtain ⟨hsome, hended⟩ := Bool.and_eq_true_iff.mp h
  have hchanged : ((upsertIdentityKey userId deviceId pub).exec db).1.identityPub u d ≠
      db.identityPub u d := by simpa using hended
  by_cases hdevice : u = userId ∧ d = deviceId
  · obtain ⟨rfl, rfl⟩ := hdevice
    rcases upsertIdentityKey_cases u d pub db with heq | ⟨hbefore, heq⟩ | heq
    · exact absurd (congrArg (identityPub · u d) heq) hchanged
    · rw [heq] at hchanged
      rcases @identityPub_setIdentityKey_self db u d pub with hsame | hnew
      · exact absurd hsame hchanged
      · rcases hbefore with hnone | hsame
        · rw [hnone] at hsome
          cases hsome
        · exact absurd (hnew.trans hsame.symm) hchanged
    · intro row hrow hu hd
      rw [heq, setIdentityKey_prekeys] at hrow
      have hkept := (Table.mem_delete.mp hrow).2
      simpa [hu, hd] using hkept
  · rcases upsertIdentityKey_cases userId deviceId pub db with heq | ⟨-, heq⟩ | heq
    · exact absurd (congrArg (identityPub · u d) heq) hchanged
    · rw [heq, identityPub_setIdentityKey_of_ne hdevice] at hchanged
      exact absurd rfl hchanged
    · rw [heq, identityPub_setIdentityKey_of_ne hdevice] at hchanged
      exact absurd rfl hchanged

theorem removeDeviceKeys_ended {u : Int} {d : String}
    (h : identityEnded db ((removeDeviceKeys userId deviceId).exec db).1 u d = true) :
    ∀ row ∈ ((removeDeviceKeys userId deviceId).exec db).1.prekeys.rows,
      ¬(row.userId = u ∧ row.deviceId = d) := by
  by_cases hdevice : u = userId ∧ d = deviceId
  · obtain ⟨rfl, rfl⟩ := hdevice
    rintro row hrow ⟨rfl, rfl⟩
    have hkept := (Table.mem_delete.mp hrow).2
    simp at hkept
  · have hended := (Bool.and_eq_true_iff.mp h).2
    have hchanged : ((removeDeviceKeys userId deviceId).exec db).1.identityPub u d ≠
        db.identityPub u d := by simpa using hended
    refine absurd ?_ hchanged
    unfold identityPub
    show ((db.deviceIdentityKeys.rows.filter _).find? _).map _ = _
    rw [List.find?_filter]
    congr 2
    funext k
    by_cases hk : k.userId = u ∧ k.deviceId = d
    · simpa [hk] using not_and_or.mp hdevice
    · have hfalse : (k.userId == u && k.deviceId == d) = false := by simpa using hk
      simp [hfalse]

end Db

/-! ## Every history -/

/-- A claim at time `t` is settled, or holds, or has run out. -/
def HeldSince (now t : Int) (row : PrekeyRow) : Prop :=
  row.status = .used ∨ (row.status = .claimed ∧ ∃ t', row.claimedAt = some t' ∧ t ≤ t') ∨
    t + Db.claimTimeout ≤ now

theorem HeldSince.move {now t : Int} {row row' : PrekeyRow}
    (hmove : PrekeyMove now row row') (h : HeldSince now t row) : HeldSince now t row' := by
  rcases h with hused | ⟨hclaimed, t', ht', hle⟩ | hlate
  · cases hmove with
    | claim hunused =>
        rw [hused] at hunused
        cases hunused
    | consume hclaimed => exact .inl rfl
    | reclaim hclaimed hat hlate =>
        rw [hused] at hclaimed
        cases hclaimed
  · cases hmove with
    | claim hunused =>
        rw [hclaimed] at hunused
        cases hunused
    | consume _ => exact .inl rfl
    | reclaim _ hat hlate =>
        rw [ht'] at hat
        cases hat
        exact .inr (.inr (by omega))
  · exact .inr (.inr hlate)

theorem used_move {now : Int} {row row' : PrekeyRow} (hmove : PrekeyMove now row row')
    (h : row.status = .used) : row'.status = .used := by
  cases hmove with
  | claim hunused =>
      rw [h] at hunused
      cases hunused
  | consume _ => rfl
  | reclaim hclaimed _ _ =>
      rw [h] at hclaimed
      cases hclaimed

/-- What the moves keep of a row is kept of it from table to table, for an id that has
been given out. -/
theorem PrekeysMove.keeps {now : Int} {t t' : Table PrekeyRow} (h : PrekeysMove now t t')
    {P : PrekeyRow → Prop} (hP : ∀ row row', PrekeyMove now row row' → P row → P row') {id : Int}
    (hid : id ≤ t.lastId) (hrow : ∀ row, t.get id = some row → P row) :
    id ≤ t'.lastId ∧ ∀ row, t'.get id = some row → P row := by
  refine ⟨hid.trans h.lastId, fun row' hrow' => ?_⟩
  cases hget : t.get id with
  | none =>
      have := (h.uploaded id row' hget hrow').1
      omega
  | some row =>
      rcases h.moved id row hget with hgone | ⟨row₂, hrow₂, hmoves⟩
      · rw [hgone] at hrow'
        cases hrow'
      · rw [hrow'] at hrow₂
        cases hrow₂
        clear hrow'
        induction hmoves with
        | refl => exact hrow row hget
        | tail _ hmove ih => exact hP _ _ hmove ih

/-- What a history knows about the rows it speaks of. -/
structure PrekeyHistory.Tracked (s : PrekeyHistory) : Prop where
  handed : ∀ h ∈ s.handed, h.1 ≤ s.db.prekeys.lastId ∧
    ∀ row, s.db.prekeys.get h.1 = some row → HeldSince s.db.now h.2 row
  used : ∀ id ∈ s.used, id ≤ s.db.prekeys.lastId ∧
    ∀ row, s.db.prekeys.get id = some row → row.status = .used
  uploaded : ∀ u ∈ s.uploaded, u.1 ≤ s.db.prekeys.lastId ∧
    ∀ row, s.db.prekeys.get u.1 = some row → row.userId = u.2.1 ∧ row.deviceId = u.2.2
  retired : ∀ id ∈ s.retired, id ≤ s.db.prekeys.lastId ∧
    ∀ row, s.db.prekeys.get id = some row → row.status = .used

section

variable {s : PrekeyHistory} {call : PrekeyCall}

theorem PrekeyCall.exec_move (db : Db) (call : PrekeyCall) :
    PrekeysMove db.now db.prekeys (call.exec db).prekeys := by
  cases call with
  | upload userId deviceId pubs => exact Db.uploadPrekeys_move userId deviceId pubs db
  | claim userId => exact Db.claimPrekeys_move userId db
  | consume prekeyIds => exact Db.consumePrekeys_move prekeyIds db
  | upsertIdentity userId deviceId identityPub =>
      exact upsertIdentityKey_move userId deviceId identityPub db
  | removeDevice userId deviceId => exact removeDeviceKeys_move userId deviceId db
  | tick seconds => exact .refl _

theorem PrekeyCall.exec_now (db : Db) (call : PrekeyCall) : db.now ≤ (call.exec db).now := by
  cases call with
  | upload userId deviceId pubs => exact (Db.uploadPrekeys_frame userId deviceId pubs db).1.ge
  | claim userId => exact (Db.claimPrekeys_identityKeys userId db).1.ge
  | consume prekeyIds => exact Int.le_refl _
  | upsertIdentity userId deviceId identityPub =>
      show db.now ≤ ((upsertIdentityKey userId deviceId identityPub).exec db).1.now
      rcases upsertIdentityKey_cases userId deviceId identityPub db with h | ⟨-, h⟩ | h
      · rw [h]
      · rw [h, Db.setIdentityKey_now]
      · rw [h, Db.setIdentityKey_now]
        exact Int.le_refl _
  | removeDevice userId deviceId => exact Int.le_refl _
  | tick seconds =>
      show db.now ≤ db.now + seconds
      omega

/-- An identity key ends in two calls only, and neither leaves a prekey of the device
that could be handed out. -/
theorem PrekeyCall.exec_ended {db : Db} {u : Int} {d : String}
    (h : identityEnded db (call.exec db) u d = true) :
    ∀ row ∈ (call.exec db).prekeys.rows, row.userId = u → row.deviceId = d →
      row.status = .used := by
  -- the other calls leave the identity keys alone
  have hsame : (call.exec db).deviceIdentityKeys = db.deviceIdentityKeys →
      ∀ row ∈ (call.exec db).prekeys.rows, row.userId = u → row.deviceId = d →
        row.status = .used := by
    intro hkeys
    have hended := (Bool.and_eq_true_iff.mp h).2
    have heq : (call.exec db).identityPub u d = db.identityPub u d := by
      unfold Db.identityPub
      rw [hkeys]
    rw [heq] at hended
    simp at hended
  cases call with
  | upload userId deviceId pubs => exact hsame (Db.uploadPrekeys_frame userId deviceId pubs db).2
  | claim userId => exact hsame (Db.claimPrekeys_identityKeys userId db).2
  | consume prekeyIds => exact hsame rfl
  | upsertIdentity userId deviceId identityPub => exact Db.upsertIdentityKey_ended h
  | removeDevice userId deviceId =>
      exact fun row hrow hu hd => absurd ⟨hu, hd⟩ (Db.removeDeviceKeys_ended h row hrow)
  | tick seconds => exact hsame rfl

/-- A prekey that is handed out was unused once stale claims were taken back. -/
theorem PrekeyCall.claimed_unused {db : Db} {c : Db.ClaimedPrekey} (hc : c ∈ call.claimed db) :
    ∃ row, db.reclaimPrekeys.prekeys.get c.prekeyId = some row ∧ row.status = .unused := by
  cases call with
  | claim userId =>
      obtain ⟨row, hrow, hunused, -⟩ := ((Db.claimPrekeys_handed userId db).2 c hc).unused
      exact ⟨row, hrow, hunused⟩
  | _ => cases hc

theorem PrekeyHistory.Tracked.lawful (h : s.Tracked) : Lawful s call where
  moves := call.exec_move s.db
  oncePerDevice := by
    cases call with
    | claim userId => exact (Db.claimPrekeys_handed userId s.db).1
    | _ => exact List.nodup_nil
  notUsed := by
    intro c hc hused
    obtain ⟨row, hrow, hunused⟩ := call.claimed_unused hc
    obtain ⟨hid, hall⟩ := h.used _ hused
    have hstill := ((Db.reclaimPrekeys_move s.db).keeps
      (fun _ _ => used_move) hid hall).2 row hrow
    rw [hunused] at hstill
    cases hstill
  notHeld := by
    intro c hc held hheld hsame
    obtain ⟨row, hrow, hunused⟩ := call.claimed_unused hc
    obtain ⟨hid, hall⟩ := h.handed _ hheld
    rw [← hsame] at hrow
    rcases ((Db.reclaimPrekeys_move s.db).keeps
      (fun _ _ hmove => HeldSince.move hmove) hid hall).2 row hrow with hused | ⟨hclaimed, -⟩ | hlate
    · rw [hunused] at hused
      cases hused
    · rw [hunused] at hclaimed
      cases hclaimed
    · exact hlate
  notRetired := by
    intro c hc hretired
    obtain ⟨row, hrow, hunused⟩ := call.claimed_unused hc
    obtain ⟨hid, hall⟩ := h.retired _ hretired
    have hstill := ((Db.reclaimPrekeys_move s.db).keeps
      (fun _ _ => used_move) hid hall).2 row hrow
    rw [hunused] at hstill
    cases hstill

/-- A prekey that is handed out is claimed as of now. -/
theorem PrekeyCall.claimed_held {db : Db} {c : Db.ClaimedPrekey} (hc : c ∈ call.claimed db) :
    ∃ row, (call.exec db).prekeys.get c.prekeyId = some row ∧ HeldSince db.now db.now row := by
  cases call with
  | claim userId =>
      obtain ⟨row, hrow, hclaimed, hat⟩ := ((Db.claimPrekeys_handed userId db).2 c hc).claimed
      exact ⟨row, hrow, .inr (.inl ⟨hclaimed, _, hat, Int.le_refl _⟩)⟩
  | _ => cases hc

/-- **Step lemma.** -/
theorem PrekeyHistory.Tracked.step (h : s.Tracked) : (s.step call).Tracked := by
  have hmove := call.exec_move s.db
  have hlater : ∀ {t : Int} {row : PrekeyRow}, HeldSince s.db.now t row →
      HeldSince (call.exec s.db).now t row := by
    intro t row hheld
    exact hheld.imp_right fun hheld => hheld.imp_right fun hlate =>
      hlate.trans (call.exec_now s.db)
  refine ⟨fun x hx => ?_, fun id hid => ?_, fun u hu => ?_, fun id hid => ?_⟩
  · rcases List.mem_append.mp hx with hold | hnew
    · obtain ⟨hid, hall⟩ := h.handed x hold
      obtain ⟨hid', hall'⟩ := hmove.keeps (fun _ _ hmove => HeldSince.move hmove) hid hall
      exact ⟨hid', fun row hrow => hlater (hall' row hrow)⟩
    · obtain ⟨c, hc, rfl⟩ := List.mem_map.mp hnew
      obtain ⟨row, hrow, hheld⟩ := call.claimed_held hc
      obtain ⟨hmem, hkey⟩ := Table.get_eq_some.mp hrow
      refine ⟨hkey ▸ ((call.exec s.db).prekeys.bounded row hmem).2, fun row' hrow' => ?_⟩
      have hsame := hrow.symm.trans hrow'
      cases hsame
      exact hlater hheld
  · rcases List.mem_append.mp hid with hold | hnew
    · obtain ⟨hid, hall⟩ := h.used id hold
      exact hmove.keeps (fun _ _ => used_move) hid hall
    · obtain ⟨row, hrow, rfl⟩ := List.mem_map.mp hnew
      obtain ⟨hmem, hused⟩ := List.mem_filter.mp hrow
      refine ⟨((call.exec s.db).prekeys.bounded row hmem).2, fun row' hrow' => ?_⟩
      obtain ⟨hmem', hkey⟩ := Table.get_eq_some.mp hrow'
      rw [Table.key_inj hmem' hmem hkey]
      simpa using hused
  · rcases List.mem_append.mp hu with hold | hnew
    · obtain ⟨hid, hall⟩ := h.uploaded u hold
      refine hmove.keeps (fun row row' hmove hrow => ?_) hid hall
      cases hmove <;> exact hrow
    · obtain ⟨row, hrow, rfl⟩ := List.mem_map.mp hnew
      have hmem := (List.mem_filter.mp hrow).1
      refine ⟨((call.exec s.db).prekeys.bounded row hmem).2, fun row' hrow' => ?_⟩
      obtain ⟨hmem', hkey⟩ := Table.get_eq_some.mp hrow'
      rw [Table.key_inj hmem' hmem hkey]
      exact ⟨rfl, rfl⟩
  · rcases List.mem_append.mp hid with hold | hnew
    · obtain ⟨hid, hall⟩ := h.retired id hold
      exact hmove.keeps (fun _ _ => used_move) hid hall
    · obtain ⟨u, hu, rfl⟩ := List.mem_map.mp hnew
      obtain ⟨hmem, hended⟩ := List.mem_filter.mp hu
      obtain ⟨hid, hall⟩ := h.uploaded u hmem
      have hdevice : ∀ row row', PrekeyMove s.db.now row row' →
          row.userId = u.2.1 ∧ row.deviceId = u.2.2 →
          row'.userId = u.2.1 ∧ row'.deviceId = u.2.2 := by
        intro row row' hmove hrow
        cases hmove <;> exact hrow
      obtain ⟨hid', hall'⟩ := hmove.keeps hdevice hid hall
      refine ⟨hid', fun row hrow => ?_⟩
      obtain ⟨hsameUser, hsameDevice⟩ := hall' row hrow
      exact PrekeyCall.exec_ended hended row (Table.get_eq_some.mp hrow).1 hsameUser hsameDevice

end

/-- **The life of a prekey.** In every history of calls on a database without prekeys
each call moves the rows on as a prekey moves, hands out at most one prekey a device, no
prekey that was used, none that was handed out less than the claim timeout ago, and none
that was uploaded under an identity key the device has no more. -/
theorem prekeys_lifecycle (db : Db) (calls : List PrekeyCall) :
    prekeyMachine.Along Lawful { db := { db with prekeys := .empty } } calls :=
  Machine.along_of_step (fun _ _ h => PrekeyHistory.Tracked.step h) (fun _ _ h => h.lawful)
    { handed := fun _ h => by cases h
      used := fun _ h => by cases h
      uploaded := fun _ h => by cases h
      retired := fun _ h => by cases h }

end XYChat.Server
