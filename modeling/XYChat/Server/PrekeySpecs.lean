import XYChat.Server.Keys
import XYChat.Server.MessageSpecs

/-!
# What the statements do to the prekeys

The status of a prekey moves from unused to claimed to used, and back from
claimed to unused. No statement of a send or of a fetch takes a used prekey back
or deletes a row.
-/

namespace XYChat.Server

open XYChat.Lib

/-- The status of a prekey; `none` when there is no row. -/
def Db.prekeyStatus (db : Db) (id : Int) : Option PrekeyStatus :=
  (db.prekeys.get id).map (·.status)

/-- Every prekey of `db` is still there, and those that were used are used. -/
def PrekeysKept (db db' : Db) : Prop :=
  ∀ id status, db.prekeyStatus id = some status →
    ∃ status', db'.prekeyStatus id = some status' ∧ (status = .used → status' = .used)

namespace PrekeysKept

theorem of_eq {db db' : Db} (h : db'.prekeys = db.prekeys) : PrekeysKept db db' := by
  intro id status hstatus
  refine ⟨status, ?_, fun hused => hused⟩
  unfold Db.prekeyStatus at hstatus ⊢
  rwa [h]

theorem refl (db : Db) : PrekeysKept db db := of_eq rfl

theorem trans {db₁ db₂ db₃ : Db} (h : PrekeysKept db₁ db₂) (h' : PrekeysKept db₂ db₃) :
    PrekeysKept db₁ db₃ := by
  intro id status hstatus
  obtain ⟨status', hstatus', hused⟩ := h id status hstatus
  obtain ⟨status'', hstatus'', hused'⟩ := h' id status' hstatus'
  exact ⟨status'', hstatus'', fun heq => hused' (hused heq)⟩

/-- A used prekey stays used. -/
theorem used {db db' : Db} (h : PrekeysKept db db') {id : Int}
    (hused : db.prekeyStatus id = some .used) : db'.prekeyStatus id = some .used := by
  obtain ⟨status', hstatus', hkept⟩ := h id .used hused
  rw [hstatus', hkept rfl]

/-- An update that leaves the used rows it selects used. -/
theorem of_update {db db' : Db} {p : PrekeyRow → Bool} {f : PrekeyRow → PrekeyRow}
    (h : db'.prekeys.rows = db.prekeys.rows.map fun r => if p r then f r else r)
    (hf : ∀ r, key (f r) = key r)
    (hused : ∀ r ∈ db.prekeys.rows, p r = true → r.status = .used → (f r).status = .used) :
    PrekeysKept db db' := by
  intro id status hstatus
  have hupdate : db'.prekeys.get id = (db.prekeys.update p f hf).get id := by
    unfold Table.get
    rw [h]
    rfl
  unfold Db.prekeyStatus at hstatus ⊢
  obtain ⟨row, hget, rfl⟩ := Option.map_eq_some_iff.mp hstatus
  rw [hupdate, Table.get_update, hget]
  by_cases hp : p row = true
  · refine ⟨(f row).status, ?_, hused row (Table.get_eq_some.mp hget).1 hp⟩
    simp [hp]
  · refine ⟨row.status, ?_, fun heq => heq⟩
    simp [hp]

end PrekeysKept

namespace Db

theorem prekeysKept_reclaimPrekeys (db : Db) : PrekeysKept db db.reclaimPrekeys := by
  refine .of_update rfl (fun _ => rfl) fun r _ hp hused => ?_
  rw [hused] at hp
  cases hp

theorem prekeysKept_claimPrekey (userId : Int) (deviceId : String) (db : Db) :
    PrekeysKept db (db.claimPrekey userId deviceId).1 := by
  unfold claimPrekey
  split
  · exact .refl db
  · rename_i row hfind
    refine .of_update rfl (fun _ => rfl) fun r hr hp hused => ?_
    have hunused := List.find?_some hfind
    have hrow : r = row :=
      Table.key_inj hr (List.mem_of_find?_eq_some hfind) (by simpa using hp)
    subst hrow
    simp [hused] at hunused

theorem prekeysKept_claimDevices (userId : Int) (deviceIds : List String) (db : Db) :
    PrekeysKept db (db.claimDevices userId deviceIds).1 := by
  induction deviceIds generalizing db with
  | nil => exact .refl db
  | cons deviceId rest ih => exact (prekeysKept_claimPrekey userId deviceId db).trans (ih _)

theorem prekeysKept_claimPrekeys (userId : Int) (db : Db) :
    PrekeysKept db (db.claimPrekeys userId).1 :=
  (prekeysKept_reclaimPrekeys db).trans (prekeysKept_claimDevices userId _ _)

theorem prekeysKept_consumePrekeys (prekeyIds : List Int) (db : Db) :
    PrekeysKept db (db.consumePrekeys prekeyIds).1 :=
  .of_update rfl (fun _ => rfl) fun _ _ _ _ => rfl

/-- Consuming makes the claimed ones used. -/
theorem prekeyStatus_consumePrekeys {prekeyIds : List Int} {db : Db} {id : Int}
    (hid : id ∈ prekeyIds) (hclaimed : db.prekeyStatus id = some .claimed) :
    (db.consumePrekeys prekeyIds).1.prekeyStatus id = some .used := by
  unfold prekeyStatus at hclaimed ⊢
  obtain ⟨row, hget, hstatus⟩ := Option.map_eq_some_iff.mp hclaimed
  have hkey : row.id = id := (Table.get_eq_some.mp hget).2
  show ((db.prekeys.update _ _).get id).map (·.status) = some .used
  rw [Table.get_update, hget]
  simp [hkey, hid, hstatus]

/-- Claiming changes nothing but prekeys. -/
theorem claimDevices_frame (userId : Int) (deviceIds : List String) (db : Db) :
    db.Extends (db.claimDevices userId deviceIds).1 ∧
      (db.claimDevices userId deviceIds).1.messages = db.messages := by
  induction deviceIds generalizing db with
  | nil => exact ⟨.refl db, rfl⟩
  | cons deviceId rest ih =>
      have hone : db.Extends (db.claimPrekey userId deviceId).1 ∧
          (db.claimPrekey userId deviceId).1.messages = db.messages := by
        unfold claimPrekey
        split
        · exact ⟨.refl db, rfl⟩
        · exact ⟨.of_eq rfl rfl, rfl⟩
      have hrest := ih (db.claimPrekey userId deviceId).1
      exact ⟨hone.1.trans hrest.1, hrest.2.trans hone.2⟩

theorem claimPrekeys_frame (userId : Int) (db : Db) :
    db.Extends (db.claimPrekeys userId).1 ∧ (db.claimPrekeys userId).1.messages = db.messages := by
  have hclaimed := claimDevices_frame userId (db.reclaimPrekeys.devicesWithPrekeys userId)
    db.reclaimPrekeys
  have hreclaimed : db.Extends db.reclaimPrekeys := .of_eq rfl rfl
  exact ⟨hreclaimed.trans hclaimed.1, hclaimed.2⟩

end Db

/-- The private transaction makes the claimed ones of the prekeys it was given
used when it stores its row. -/
theorem storePrivateMessage_prekeys (convId senderId : Int) (content contentType clientMessageId
    senderDeviceId : String) (prekeyIds : List Int) (db : Db) :
    (storePrivateMessage convId senderId content contentType clientMessageId senderDeviceId
        prekeyIds).wp
      (fun _ db' => db.Extends db' ∧ PrekeysKept db db' ∧
        (db'.messages = db.messages ∨
          Appended db db' (newMessage db convId senderId content contentType clientMessageId
            senderDeviceId) ∧
          ∀ id ∈ prekeyIds, db.prekeyStatus id = some .claimed →
            db'.prekeyStatus id = some .used)) db := by
  unfold storePrivateMessage
  simp only [Prog.wp_atomically, Prog.wp_bind]
  refine Prog.wp_mono (sendMessage_spec convId senderId content contentType clientMessageId
    senderDeviceId db) fun r db' h => ?_
  obtain ⟨hext, hprekeys, hrows⟩ := h
  have hkept : PrekeysKept db db' := .of_eq hprekeys
  cases r with
  | none => exact ⟨hext, hkept, .inl (hrows.elim And.right fun h => absurd h.2.1 (by simp))⟩
  | some msgId =>
      have hconsume : db'.Extends (db'.consumePrekeys prekeyIds).1 := .of_eq rfl rfl
      refine ⟨hext.trans hconsume, hkept.trans (Db.prekeysKept_consumePrekeys prekeyIds db'), ?_⟩
      refine hrows.imp And.right fun h => ⟨h.2.2.of_after hconsume rfl, fun id hid hclaimed => ?_⟩
      refine Db.prekeyStatus_consumePrekeys hid ?_
      unfold Db.prekeyStatus at hclaimed ⊢
      rwa [hprekeys]

end XYChat.Server
