import XYChat.Client.Decryption
import XYChat.Common.JsonReader

/-!
# The protected key file

The identity key and the prekeys of a device share one file, which the operating
system's protection service seals and opens; both calls can fail. Each save reads
the file, sets its own part and writes the whole back, and a bootstrap that cannot
load an identity key makes a new one. Here the file is its bytes, and every call to
the service comes out as the environment has it; reading and writing the bytes works.
-/

namespace XYChat.Client.KeyProtection

open Lib
open E2eeCrypto (KeyPair)

/-! ## KeyStorage -/

/-- The service: DPAPI on Windows, and on other systems nothing. -/
structure Protection where
  protectData : Bytes → Bytes
  unprotectData : Bytes → Option Bytes

/-- Whether the service works when a save opens the file and when it seals it. -/
structure Attempt where
  unprotects : Bool := true
  protects : Bool := true
  deriving DecidableEq

/-- The two parts of the file. -/
inductive Part where
  | identity
  | prekeys
  deriving DecidableEq

def Part.member : Part → String
  | .identity => "identityPriv"
  | .prekeys => "prekeys"

def Part.other : Part → Part
  | .identity => .prekeys
  | .prekeys => .identity

section

variable (qt : Qt) (service : Protection)

/-- `KeyStorage::protect`. -/
def protect (works : Bool) (data : Bytes) : Bytes := if works then service.protectData data else []

/-- `KeyStorage::unprotect`. -/
def unprotect (works : Bool) (data : Bytes) : Bytes :=
  if works then (service.unprotectData data).getD [] else []

/-- The object in the file; empty where nothing can be read. -/
def readRoot (works : Bool) (file : Bytes) : Json :=
  let existing := unprotect service works file
  if existing = [] then .obj [] else ((qt.fromJson (fromUtf8 existing)).getD .null).toObject

/-- A save of one part: the file after it, and what it returns. -/
def savePart (part : Part) (x : Json) (o : Attempt) (file : Bytes) : Bytes × Bool :=
  let root := (readRoot qt service o.unprotects file).setMember part.member x
  let blob := protect service o.protects (toUtf8 (qt.toJson root))
  if blob = [] then (file, false) else (blob, true)

def identityJson (privateKey : Bytes) : Json := .str (qt.toBase64 privateKey)

/-- `KeyStorage::saveIdentityPrivateKey`. -/
def saveIdentityPrivateKey (privateKey : Bytes) : Attempt → Bytes → Bytes × Bool :=
  savePart qt service .identity (identityJson qt privateKey)

def prekeysJson (prekeys : List KeyPair) : Json :=
  .arr (prekeys.map fun entry => .obj
    [ ("priv", .str (qt.toBase64 entry.privateKey)), ("pub", .str (qt.toBase64 entry.publicKey)) ])

/-- `KeyStorage::savePrekeys`. -/
def savePrekeys (prekeys : List KeyPair) : Attempt → Bytes → Bytes × Bool :=
  savePart qt service .prekeys (prekeysJson qt prekeys)

/-- `KeyStorage::loadIdentityPrivateKey`. -/
def loadIdentityPrivateKey (works : Bool) (file : Bytes) : Bytes :=
  if unprotect service works file = [] then []
  else qt.fromBase64 (((readRoot qt service works file).value "identityPriv").toStr "")

/-- An entry of the file, as `loadPrekeys` reads it. -/
def prekeyEntry (value : Json) : KeyPair where
  publicKey := qt.fromBase64 ((value.value "pub").toStr "")
  privateKey := qt.fromBase64 ((value.value "priv").toStr "")
  valid := true

/-- `KeyStorage::loadPrekeys`. -/
def loadPrekeys (works : Bool) (file : Bytes) : List KeyPair :=
  if unprotect service works file = [] then []
  else
    (((readRoot qt service works file).value "prekeys").toArray.map (prekeyEntry qt)).filter
      fun entry => entry.publicKey != [] && entry.privateKey != []

end

/-! ## The device -/

/-- A save: which part, and the file before and after it. -/
structure Save where
  part : Part
  before : Bytes
  after : Bytes

/-- The file and the memory of the client. `stored` is the history of the identity
key: the last one that `saveIdentityPrivateKey` was called for, or that a bootstrap
saved where there was none; `saves` is the history of the file. -/
structure KeyDevice where
  file : Bytes := []
  memory : Memory := {}
  stored : Option Bytes := none
  saves : List Save := []

/-- How the calls to the service come out in a bootstrap. -/
structure BootstrapOutcomes where
  loadIdentity : Bool := true
  saveIdentity : Attempt := {}
  loadPrekeys : Bool := true
  savePrekeys : Attempt := {}

/-- A key that `keyPairFromPrivateKey` takes. -/
def wellFormed (crypto : Crypto) (privateKey : Bytes) : Bool :=
  (keyPairFromPrivateKey crypto privateKey).valid

namespace KeyDevice

variable (qt : Qt) (crypto : Crypto) (service : Protection)

def save (part : Part) (r : Bytes × Bool) (s : KeyDevice) : KeyDevice :=
  { s with file := r.1, saves := ⟨part, s.file, r.1⟩ :: s.saves }

/-- A new identity key: the prekeys of the old one are dropped from memory. -/
def regenerateIdentity (draws : Memory.Draws) (o : Attempt) (s : KeyDevice) : KeyDevice :=
  let s := { s with memory := { s.memory with identityKey := draws.identityKey } }
  if s.memory.identityKey.valid = false then s
  else
    let privateKey := s.memory.identityKey.privateKey
    let r := saveIdentityPrivateKey qt service privateKey o s.file
    { s.save .identity r with
      memory := { s.memory with localPrekeys := [] }
      stored :=
        if r.2 && s.stored.all fun stored => !wellFormed crypto stored then some privateKey
        else s.stored }

/-- The first half of `bootstrapE2ee`: load or generate the identity key. -/
def bootstrapIdentity (draws : Memory.Draws) (o : BootstrapOutcomes) (s : KeyDevice) : KeyDevice :=
  if s.memory.identityKey.valid then s
  else
    let priv := loadIdentityPrivateKey qt service o.loadIdentity s.file
    let identityKey := keyPairFromPrivateKey crypto priv
    if priv ≠ [] ∧ identityKey.valid then { s with memory := { s.memory with identityKey } }
    else s.regenerateIdentity qt crypto service draws o.saveIdentity

/-- The server has few prekeys left. -/
def serverLow (m : Memory) : Prop :=
  0 ≤ m.serverPrekeyRemaining ∧ m.serverPrekeyRemaining < Memory.prekeyLowWatermark

instance (m : Memory) : Decidable (serverLow m) := by
  unfold serverLow
  infer_instance

/-- Prekeys are to be drawn. -/
def runsLow (m : Memory) : Prop :=
  (m.localPrekeys.length : Int) < Memory.prekeyLowWatermark ∨ serverLow m

instance (m : Memory) : Decidable (runsLow m) := by
  unfold runsLow
  infer_instance

/-- `sendRegisterKeysRequest`: prekeys that run low are drawn and saved. -/
def sendRegisterKeysRequest (draws : Memory.Draws) (o : Attempt) (s : KeyDevice) : KeyDevice :=
  let localCount : Int := s.memory.localPrekeys.length
  if runsLow s.memory then
    let uploadCount := Memory.prekeyTarget -
      if serverLow s.memory then s.memory.serverPrekeyRemaining else localCount
    let drawn := ((List.range uploadCount.toNat).map draws.prekeys).takeWhile (·.valid)
    let localPrekeys := s.memory.localPrekeys ++ drawn
    { s.save .prekeys (savePrekeys qt service localPrekeys o s.file) with
      memory := { s.memory with localPrekeys } }
  else s

/-- The second half of `bootstrapE2ee`: the prekeys and the cache are loaded. -/
def bootstrapLoads (cacheFile : IntMap String) (works : Bool) (s : KeyDevice) : KeyDevice :=
  let m := s.memory
  let m := if m.localPrekeys = [] then { m with localPrekeys := loadPrekeys qt service works s.file }
    else m
  let m := if m.decryptCacheLoaded = false ∧ m.storeOpen = false then
      { m with decryptCache := cacheFile } else m
  { s with memory := { m with decryptCacheLoaded := true, e2eeBootstrapPending := true } }

/-- `bootstrapE2ee`; `cacheFile` is what `loadDecryptCache` returns. -/
def bootstrapE2ee (draws : Memory.Draws) (cacheFile : IntMap String) (o : BootstrapOutcomes)
    (s : KeyDevice) : KeyDevice :=
  if s.memory.e2eeBootstrapPending then s
  else
    let s := s.bootstrapIdentity qt crypto service draws o
    if s.memory.identityKey.valid = false then s
    else
      (s.bootstrapLoads qt service cacheFile o.loadPrekeys).sendRegisterKeysRequest qt service draws
        o.savePrekeys

end KeyDevice

/-- The calls. What else the client does, a new launch included, may leave it with
any memory. -/
inductive KeyCall where
  | saveIdentityPrivateKey (privateKey : Bytes) (o : Attempt)
  | savePrekeys (prekeys : List KeyPair) (o : Attempt)
  | loadIdentityPrivateKey (works : Bool)
  | loadPrekeys (works : Bool)
  | bootstrapE2ee (draws : Memory.Draws) (cacheFile : IntMap String) (o : BootstrapOutcomes)
  | elsewhere (memory : Memory)

section

variable (qt : Qt) (crypto : Crypto) (service : Protection)

def KeyDevice.step (s : KeyDevice) : KeyCall → KeyDevice
  | .saveIdentityPrivateKey privateKey o =>
      let r := Client.KeyProtection.saveIdentityPrivateKey qt service privateKey o s.file
      { s.save .identity r with stored := if r.2 then some privateKey else s.stored }
  | .savePrekeys prekeys o =>
      s.save .prekeys (Client.KeyProtection.savePrekeys qt service prekeys o s.file)
  | .loadIdentityPrivateKey _ => s
  | .loadPrekeys _ => s
  | .bootstrapE2ee draws cacheFile o => s.bootstrapE2ee qt crypto service draws cacheFile o
  | .elsewhere memory => { s with memory }

/-! ## What is kept -/

/-- The save leaves the other part of the file as it was. -/
def Save.LeavesOther (x : Save) : Prop :=
  (readRoot qt service true x.after).value x.part.other.member =
    (readRoot qt service true x.before).value x.part.other.member

/-- The stored identity key, if it is well-formed, can be read from the file as soon
as the service works, and every save has left the other part of the file alone. -/
structure IdentityKept (s : KeyDevice) : Prop where
  recoverable : ∀ privateKey, s.stored = some privateKey → wellFormed crypto privateKey = true →
    loadIdentityPrivateKey qt service true s.file = privateKey
  leaves : ∀ x ∈ s.saves, x.LeavesOther qt service

def keyMachine : Machine KeyDevice KeyCall where
  init := fun s => IdentityKept qt crypto service s
  step := fun s => s.step qt crypto service

/-- A save can read the file; or it cannot write it either; or the file has no other
part to lose. -/
def ReadsBack (part : Part) (o : Attempt) (file : Bytes) : Prop :=
  o.unprotects = true ∨ o.protects = false ∨
    (readRoot qt service true file).value part.other.member = .null

/-- A bootstrap that can save a new identity key draws one only where the file has no
well-formed one, and its saves can read the file. -/
structure BootstrapReadsBack (draws : Memory.Draws) (cacheFile : IntMap String)
    (o : BootstrapOutcomes) (s : KeyDevice) : Prop where
  load : s.memory.identityKey.valid = false → draws.identityKey.valid = true →
    o.saveIdentity.protects = true → o.loadIdentity = true ∨
      wellFormed crypto (loadIdentityPrivateKey qt service true s.file) = false
  saveIdentity : s.memory.identityKey.valid = false → draws.identityKey.valid = true →
    wellFormed crypto (loadIdentityPrivateKey qt service o.loadIdentity s.file) = false →
    ReadsBack qt service .identity o.saveIdentity s.file
  savePrekeys :
    let s' := s.bootstrapIdentity qt crypto service draws o
    s'.memory.identityKey.valid = true →
      KeyDevice.runsLow (s'.bootstrapLoads qt service cacheFile o.loadPrekeys).memory →
      ReadsBack qt service .prekeys o.savePrekeys s'.file

/-- What a call needs of the service. -/
def Spared (s : KeyDevice) : KeyCall → Prop
  | .saveIdentityPrivateKey _ o => ReadsBack qt service .identity o s.file
  | .savePrekeys _ o => ReadsBack qt service .prekeys o s.file
  | .bootstrapE2ee draws cacheFile o =>
      s.memory.e2eeBootstrapPending = false →
        BootstrapReadsBack qt crypto service draws cacheFile o s
  | .loadIdentityPrivateKey _ | .loadPrekeys _ | .elsewhere _ => True

/-! ## Saves -/

/-- The two parts as they are saved. -/
def Written (part : Part) (x : Json) : Prop :=
  (part = .identity ∧ ∃ privateKey, x = identityJson qt privateKey) ∨
    (part = .prekeys ∧ ∃ prekeys, x = prekeysJson qt prekeys)

/-- What the service opens is what it has sealed, and that is not nothing. -/
structure Protection.Sound : Prop where
  opens : ∀ data, service.unprotectData (service.protectData data) = some data
  nonempty : ∀ data, data ≠ [] → service.protectData data ≠ []

/-- A text that a save writes reads back, member by member. -/
structure KeyFileCodec : Prop where
  base64 : ∀ bytes, qt.fromBase64 (qt.toBase64 bytes) = bytes
  base64Empty : qt.fromBase64 "" = []
  empty : qt.fromJson "" = none
  readsBack : ∀ (root : Json) (part : Part) (x : Json),
    (root = .obj [] ∨ ∃ text document, qt.fromJson text = some document ∧
      root = document.toObject) →
    Written qt part x →
    ∃ document, qt.fromJson (qt.toJson (root.setMember part.member x)) = some document ∧
      document.isObject = true ∧
      ∀ key, document.value key = (root.setMember part.member x).value key

variable {qt crypto service}

theorem isObject_toObject (v : Json) : v.toObject.isObject = true := by
  cases v <;> rfl

theorem isObject_readRoot (works : Bool) (file : Bytes) :
    (readRoot qt service works file).isObject = true := by
  unfold readRoot
  dsimp only
  split
  · rfl
  · exact isObject_toObject _

/-- The root is nothing, or what some text parses to. -/
theorem readRoot_document (works : Bool) (file : Bytes) :
    readRoot qt service works file = .obj [] ∨ ∃ text document, qt.fromJson text = some document ∧
      readRoot qt service works file = document.toObject := by
  unfold readRoot
  dsimp only
  split
  · exact .inl rfl
  · cases hjson : qt.fromJson (fromUtf8 (unprotect service works file)) with
    | none => exact .inl rfl
    | some document => exact .inr ⟨_, document, hjson, rfl⟩

/-- The identity key is read from its member. -/
theorem loadIdentityPrivateKey_eq (hq : KeyFileCodec qt) (works : Bool) (file : Bytes) :
    loadIdentityPrivateKey qt service works file =
      qt.fromBase64 (((readRoot qt service works file).value "identityPriv").toStr "") := by
  unfold loadIdentityPrivateKey
  split
  · rename_i hempty
    unfold readRoot
    dsimp only
    rw [if_pos hempty]
    exact hq.base64Empty.symm
  · rfl

/-- A text that parses is read back from its blob. -/
theorem readRoot_protectData (hs : service.Sound) (hq : KeyFileCodec qt) {text : String}
    {document : Json} (hjson : qt.fromJson text = some document)
    (hobject : document.isObject = true) :
    toUtf8 text ≠ [] ∧
      readRoot qt service true (service.protectData (toUtf8 text)) = document := by
  have hne : toUtf8 text ≠ [] := by
    intro hnil
    have hback := fromUtf8_toUtf8 text
    rw [hnil, show fromUtf8 [] = "" from rfl] at hback
    rw [← hback, hq.empty] at hjson
    cases hjson
  refine ⟨hne, ?_⟩
  unfold readRoot unprotect
  rw [if_pos rfl, hs.opens]
  dsimp only [Option.getD_some]
  rw [if_neg hne, fromUtf8_toUtf8, hjson]
  cases document <;> first | rfl | cases hobject

/-- **A save**: without a sealed blob it changes nothing; else the members are those it
read, with its own part set. -/
theorem savePart_spec (hs : service.Sound) (hq : KeyFileCodec qt) {part : Part} {x : Json}
    (hx : Written qt part x) (o : Attempt) (file : Bytes) :
    (o.protects = false ∧ savePart qt service part x o file = (file, false)) ∨
      (o.protects = true ∧ (savePart qt service part x o file).2 = true ∧
        ∀ key, (readRoot qt service true (savePart qt service part x o file).1).value key =
          ((readRoot qt service o.unprotects file).setMember part.member x).value key) := by
  unfold savePart
  dsimp only
  cases hprotects : o.protects with
  | false => exact .inl ⟨rfl, if_pos rfl⟩
  | true =>
      obtain ⟨document, hjson, hobject, hmembers⟩ :=
        hq.readsBack _ part x (@readRoot_document qt service o.unprotects file) hx
      obtain ⟨hne, hback⟩ := readRoot_protectData hs hq hjson hobject
      have hblob : protect service true (toUtf8 (qt.toJson
          ((readRoot qt service o.unprotects file).setMember part.member x))) ≠ [] :=
        hs.nonempty _ hne
      rw [if_neg hblob]
      refine .inr ⟨rfl, rfl, fun key => ?_⟩
      rw [← hmembers key]
      exact congrArg (Json.value · key) hback

/-- **When a save leaves the other part alone.** -/
theorem leavesOther_iff (hs : service.Sound) (hq : KeyFileCodec qt) {part : Part} {x : Json}
    (hx : Written qt part x) (o : Attempt) (file : Bytes) :
    Save.LeavesOther qt service ⟨part, file, (savePart qt service part x o file).1⟩ ↔
      ReadsBack qt service part o file := by
  have hother : part.other.member ≠ part.member := by
    cases part <;> decide
  unfold Save.LeavesOther ReadsBack
  dsimp only
  rcases savePart_spec hs hq hx o file with ⟨hprotects, hsave⟩ | ⟨hprotects, -, hmembers⟩
  · rw [hsave]
    exact ⟨fun _ => .inr (.inl hprotects), fun _ => rfl⟩
  · rw [hmembers, Json.value_setMember_of_ne hother, hprotects]
    cases hunprotects : o.unprotects with
    | true => simp
    | false =>
        have hnothing : readRoot qt service false file = .obj [] := rfl
        rw [hnothing]
        constructor
        · intro h
          exact .inr (.inr h.symm)
        · rintro (h | h | h)
          · cases h
          · cases h
          · exact h.symm

theorem written_identity (privateKey : Bytes) :
    Written qt .identity (identityJson qt privateKey) := .inl ⟨rfl, privateKey, rfl⟩

theorem written_prekeys (prekeys : List KeyPair) :
    Written qt .prekeys (prekeysJson qt prekeys) := .inr ⟨rfl, prekeys, rfl⟩

/-- A stored identity key can be loaded. -/
theorem saveIdentityPrivateKey_stores (hs : service.Sound) (hq : KeyFileCodec qt)
    {privateKey : Bytes} {o : Attempt} {file : Bytes}
    (hsaved : (saveIdentityPrivateKey qt service privateKey o file).2 = true) :
    loadIdentityPrivateKey qt service true
      (saveIdentityPrivateKey qt service privateKey o file).1 = privateKey := by
  rcases savePart_spec hs hq (written_identity privateKey) o file with
    ⟨-, hnot⟩ | ⟨-, -, hmembers⟩
  · unfold saveIdentityPrivateKey at hsaved
    rw [hnot] at hsaved
    cases hsaved
  · unfold saveIdentityPrivateKey
    rw [loadIdentityPrivateKey_eq hq]
    rw [show "identityPriv" = Part.identity.member from rfl, hmembers,
      Json.value_setMember_self (isObject_readRoot _ _)]
    exact hq.base64 privateKey

/-- A save that fails has not touched the file. -/
theorem saveIdentityPrivateKey_fails (hs : service.Sound) (hq : KeyFileCodec qt)
    {privateKey : Bytes} {o : Attempt} {file : Bytes}
    (hfailed : (saveIdentityPrivateKey qt service privateKey o file).2 = false) :
    (saveIdentityPrivateKey qt service privateKey o file).1 = file := by
  unfold saveIdentityPrivateKey at hfailed ⊢
  rcases savePart_spec hs hq (written_identity privateKey) o file with
    ⟨-, hnot⟩ | ⟨-, hsaved, -⟩
  · rw [hnot]
  · rw [hsaved] at hfailed
    cases hfailed

/-- Saved prekeys leave the identity key as it was. -/
theorem savePrekeys_loads (hs : service.Sound) (hq : KeyFileCodec qt) {prekeys : List KeyPair}
    {o : Attempt} {file : Bytes} (hreads : ReadsBack qt service .prekeys o file) :
    loadIdentityPrivateKey qt service true (savePrekeys qt service prekeys o file).1 =
      loadIdentityPrivateKey qt service true file := by
  have hleaves := (leavesOther_iff hs hq (written_prekeys prekeys) o file).mpr hreads
  rw [loadIdentityPrivateKey_eq hq, loadIdentityPrivateKey_eq hq]
  exact congrArg (fun v : Json => qt.fromBase64 (v.toStr "")) hleaves

/-! ### The files of a service that works -/

/-- The file says what the record says. -/
structure Says (qt : Qt) (service : Protection) (file : Bytes) (root : KeyFile) : Prop where
  identity : loadIdentityPrivateKey qt service true file = root.identityPriv
  prekeys : loadPrekeys qt service true file = KeyStorage.usablePrekeys root

/-- The prekeys are read from their member. -/
theorem loadPrekeys_eq (file : Bytes) :
    loadPrekeys qt service true file =
      (((readRoot qt service true file).value "prekeys").toArray.map (prekeyEntry qt)).filter
        fun entry => entry.publicKey != [] && entry.privateKey != [] := by
  unfold loadPrekeys
  split
  · rename_i hempty
    unfold readRoot
    dsimp only
    rw [if_pos hempty]
    rfl
  · rfl

/-- A save that works does to the file what `KeyStorage.saveIdentityPrivateKey` does to
the record, -/
theorem Says.saveIdentityPrivateKey (hs : service.Sound) (hq : KeyFileCodec qt) {file : Bytes}
    {root : KeyFile} (h : Says qt service file root) (privateKey : Bytes) :
    Says qt service (saveIdentityPrivateKey qt service privateKey {} file).1
      { root with identityPriv := privateKey } := by
  have hleaves := (leavesOther_iff hs hq (written_identity privateKey) {} file).mpr (.inl rfl)
  have hprekeys := h.prekeys
  rw [loadPrekeys_eq] at hprekeys
  refine ⟨saveIdentityPrivateKey_stores hs hq ?_, ?_⟩
  · rcases savePart_spec hs hq (written_identity privateKey) {} file with
      ⟨hfails, -⟩ | ⟨-, hok, -⟩
    · cases hfails
    · exact hok
  · rw [loadPrekeys_eq]
    exact (congrArg (fun v : Json => (v.toArray.map (prekeyEntry qt)).filter _) hleaves).trans hprekeys

/-- and to the prekeys what `KeyStorage.savePrekeys` does. -/
theorem Says.savePrekeys (hs : service.Sound) (hq : KeyFileCodec qt) {file : Bytes}
    {root : KeyFile} (h : Says qt service file root) {prekeys : List KeyPair}
    (hvalid : ∀ entry ∈ prekeys, entry.valid = true) :
    Says qt service (savePrekeys qt service prekeys {} file).1 { root with prekeys } := by
  refine ⟨(savePrekeys_loads hs hq (.inl rfl)).trans h.identity, ?_⟩
  rcases savePart_spec hs hq (written_prekeys prekeys) {} file with
    ⟨hfails, -⟩ | ⟨-, -, hmembers⟩
  · cases hfails
  have hmember := (hmembers "prekeys").trans (Json.value_setMember_self (isObject_readRoot _ _))
  have hentries : (prekeysJson qt prekeys).toArray.map (prekeyEntry qt) = prekeys := by
    show (prekeys.map _).map _ = prekeys
    rw [List.map_map]
    refine (List.map_congr_left fun entry hentry => ?_).trans (List.map_id prekeys)
    obtain ⟨publicKey, privateKey, valid⟩ := entry
    have hthis := hvalid _ hentry
    dsimp only at hthis
    subst hthis
    show ({ publicKey := qt.fromBase64 (qt.toBase64 publicKey)
            privateKey := qt.fromBase64 (qt.toBase64 privateKey), valid := true } : KeyPair) = _
    rw [hq.base64, hq.base64]
    rfl
  rw [loadPrekeys_eq]
  refine (congrArg (fun v : Json => (v.toArray.map (prekeyEntry qt)).filter _) hmember).trans ?_
  rw [hentries]
  rfl

namespace IdentityKept

variable {s : KeyDevice}

theorem savePrekeys (h : IdentityKept qt crypto service s) (hs : service.Sound)
    (hq : KeyFileCodec qt) {prekeys : List KeyPair} {o : Attempt}
    (hreads : ReadsBack qt service .prekeys o s.file) :
    IdentityKept qt crypto service
      (s.save .prekeys (KeyProtection.savePrekeys qt service prekeys o s.file)) := by
  refine ⟨fun privateKey hstored hformed => ?_, fun x hx => ?_⟩
  · exact (savePrekeys_loads hs hq hreads).trans (h.recoverable privateKey hstored hformed)
  · rcases List.mem_cons.mp hx with rfl | hold
    · exact (leavesOther_iff hs hq (written_prekeys prekeys) o s.file).mpr hreads
    · exact h.leaves x hold

/-- An identity key is saved: it is the stored one from then on, or, where the save
fails, nothing has changed. -/
theorem saveIdentity (h : IdentityKept qt crypto service s) (hs : service.Sound)
    (hq : KeyFileCodec qt) {privateKey : Bytes} {o : Attempt} {stored : Option Bytes}
    (hreads : ReadsBack qt service .identity o s.file)
    (hsaved : (saveIdentityPrivateKey qt service privateKey o s.file).2 = true →
      stored = some privateKey)
    (hfailed : (saveIdentityPrivateKey qt service privateKey o s.file).2 = false →
      stored = s.stored) :
    IdentityKept qt crypto service
      { s.save .identity (saveIdentityPrivateKey qt service privateKey o s.file) with stored } := by
  refine ⟨fun privateKey' hstored hformed => ?_, fun x hx => ?_⟩
  · cases hok : (saveIdentityPrivateKey qt service privateKey o s.file).2 with
    | true =>
        have hthis := (hsaved hok).symm.trans hstored
        cases hthis
        exact saveIdentityPrivateKey_stores hs hq hok
    | false =>
        have hsame := (congrArg (loadIdentityPrivateKey qt service true)
          (saveIdentityPrivateKey_fails hs hq hok))
        exact hsame.trans (h.recoverable privateKey' ((hfailed hok).symm.trans hstored) hformed)
  · rcases List.mem_cons.mp hx with rfl | hold
    · exact (leavesOther_iff hs hq (written_identity privateKey) o s.file).mpr hreads
    · exact h.leaves x hold

/-- What is kept is in the file and the history only. -/
theorem memory (h : IdentityKept qt crypto service s) (m : Memory) :
    IdentityKept qt crypto service { s with memory := m } :=
  ⟨h.recoverable, h.leaves⟩

/-- Where the file has no well-formed identity key, none is stored. -/
theorem none_stored (h : IdentityKept qt crypto service s)
    (hnone : wellFormed crypto (loadIdentityPrivateKey qt service true s.file) = false) :
    (s.stored.all fun stored => !wellFormed crypto stored) = true := by
  cases hstored : s.stored with
  | none => rfl
  | some stored =>
      cases hformed : wellFormed crypto stored with
      | false => simp [hformed]
      | true =>
          rw [h.recoverable stored hstored hformed, hformed] at hnone
          cases hnone

/-- The identity step of a bootstrap. -/
theorem bootstrapIdentity (h : IdentityKept qt crypto service s) (hs : service.Sound)
    (hq : KeyFileCodec qt) {draws : Memory.Draws} {cacheFile : IntMap String}
    {o : BootstrapOutcomes} (hreads : BootstrapReadsBack qt crypto service draws cacheFile o s) :
    IdentityKept qt crypto service (s.bootstrapIdentity qt crypto service draws o) := by
  unfold KeyDevice.bootstrapIdentity
  split
  · exact h
  rename_i hinvalid
  dsimp only
  split
  · exact h.memory _
  rename_i hnotLoaded
  unfold KeyDevice.regenerateIdentity
  dsimp only
  split
  · exact h.memory _
  rename_i hdrawn
  have hvalid : s.memory.identityKey.valid = false := by simpa using hinvalid
  have hdrawn' : draws.identityKey.valid = true := by simpa using hdrawn
  have hill : wellFormed crypto (loadIdentityPrivateKey qt service o.loadIdentity s.file) = false := by
    by_contra hformed
    have hformed' : (keyPairFromPrivateKey crypto
        (loadIdentityPrivateKey qt service o.loadIdentity s.file)).valid = true := by
      simpa [wellFormed] using hformed
    refine hnotLoaded ⟨fun hnil => ?_, hformed'⟩
    rw [hnil] at hformed'
    cases hformed'
  refine ((h.memory _).saveIdentity hs hq (hreads.saveIdentity hvalid hdrawn' hill)
    (fun hsaved => ?_) fun hfailed => ?_).memory _
  · have hprotects : o.saveIdentity.protects = true := by
      rcases savePart_spec hs hq (written_identity draws.identityKey.privateKey)
        o.saveIdentity s.file with ⟨-, hnot⟩ | ⟨hprotects, -, -⟩
      · unfold saveIdentityPrivateKey at hsaved
        rw [hnot] at hsaved
        cases hsaved
      · exact hprotects
    have hnone : wellFormed crypto (loadIdentityPrivateKey qt service true s.file) = false := by
      rcases hreads.load hvalid hdrawn' hprotects with hworks | hnone
      · rwa [hworks] at hill
      · exact hnone
    rw [hsaved, h.none_stored hnone]
    rfl
  · rw [hfailed]
    rfl

theorem bootstrapE2ee (h : IdentityKept qt crypto service s) (hs : service.Sound)
    (hq : KeyFileCodec qt) {draws : Memory.Draws} {cacheFile : IntMap String}
    {o : BootstrapOutcomes} (hreads : s.memory.e2eeBootstrapPending = false →
      BootstrapReadsBack qt crypto service draws cacheFile o s) :
    IdentityKept qt crypto service (s.bootstrapE2ee qt crypto service draws cacheFile o) := by
  unfold KeyDevice.bootstrapE2ee
  split
  · exact h
  rename_i hpending
  have hreads' := hreads (by simpa using hpending)
  have hidentity := h.bootstrapIdentity hs hq hreads'
  dsimp only
  split
  · exact hidentity
  rename_i hvalid
  unfold KeyDevice.sendRegisterKeysRequest
  dsimp only
  split
  · rename_i hlow
    refine IdentityKept.memory (IdentityKept.savePrekeys (hidentity.memory _) hs hq ?_) _
    exact hreads'.savePrekeys (by simpa using hvalid) hlow
  · exact hidentity.memory _

theorem step (h : IdentityKept qt crypto service s) (hs : service.Sound) (hq : KeyFileCodec qt)
    (op : KeyCall) (hspared : Spared qt crypto service s op) :
    IdentityKept qt crypto service (s.step qt crypto service op) := by
  cases op with
  | saveIdentityPrivateKey privateKey o =>
      exact h.saveIdentity hs hq hspared (fun hsaved => if_pos hsaved)
        fun hfailed => if_neg (by rw [hfailed]; decide)
  | savePrekeys prekeys o => exact h.savePrekeys hs hq hspared
  | loadIdentityPrivateKey works => exact h
  | loadPrekeys works => exact h
  | bootstrapE2ee draws cacheFile o => exact h.bootstrapE2ee hs hq hspared
  | elsewhere memory => exact h.memory memory

end IdentityKept

/-- **The identity key is kept.** In every run of calls whose saves can read the file,
and whose bootstraps make a new identity key only where there is none, the stored
identity key can be recovered and each save leaves the other part of the file alone. -/
theorem identityKept_of_spared (hs : service.Sound) (hq : KeyFileCodec qt) (s : KeyDevice)
    (ops : List KeyCall) (hinit : (keyMachine qt crypto service).init s)
    (hspared : (keyMachine qt crypto service).Along (Spared qt crypto service) s ops) :
    (keyMachine qt crypto service).Always (IdentityKept qt crypto service) s ops :=
  Machine.always_of_along (fun _ op h hop => h.step hs hq op hop) hinit hspared

end

/-! ## A key file -/

theorem isPlain_written {part : Part} {x : Json} (h : Written Qt.compact part x) :
    x.isPlain = true := by
  rcases h with ⟨rfl, privateKey, rfl⟩ | ⟨rfl, prekeys, rfl⟩
  · rfl
  · refine Json.arePlain_iff.mpr fun v hv => ?_
    obtain ⟨entry, -, rfl⟩ := List.mem_map.mp hv
    rfl

theorem compact_keyFile : KeyFileCodec Qt.compact where
  base64 := Base64.decode_encode
  base64Empty := rfl
  empty := rfl
  readsBack root part x hroot hx := by
    have hobject : root.isObject = true ∧ root.isPlain = true := by
      rcases hroot with rfl | ⟨text, document, hread, rfl⟩
      · exact ⟨rfl, rfl⟩
      · exact ⟨isObject_toObject document, Json.isPlain_toObject (Json.isPlain_read hread)⟩
    have hread := Json.read_text
      (@Json.isPlain_setMember _ _ part.member hobject.2 (isPlain_written hx))
    refine ⟨_, hread, ?_, fun _ => rfl⟩
    rw [Json.isObject_setMember]
    exact hobject.1

/-- A service that seals nothing, as on systems without one. -/
def plainProtection : Protection where
  protectData data := data
  unprotectData data := some data

theorem plainProtection_sound : plainProtection.Sound where
  opens _ := rfl
  nonempty _ h := h

/-- Primitives in which every private key of the right size has a public key. -/
def keyedCrypto : Crypto where
  hkdf _ _ _ := []
  gcmSeal _ _ _ := []
  gcmOpen _ _ _ := none
  ed25519Sign _ _ := []
  ed25519Verify _ _ _ := false
  x25519 _ _ := some (List.replicate 32 0)

/-- An identity key is stored, and the prekeys are saved. -/
def savesBoth (privateKey : Bytes) (o : Attempt) : List KeyCall :=
  [.saveIdentityPrivateKey privateKey {}, .savePrekeys [] o]

/-- A service that cannot open the file when the prekeys are saved costs the identity
key, whatever the service and the codec. -/
theorem savesBoth_loses {qt : Qt} {crypto : Crypto} {service : Protection} (hs : service.Sound)
    (hq : KeyFileCodec qt) (privateKey : Bytes) :
    ¬IdentityKept qt crypto service ((keyMachine qt crypto service).run {}
      (savesBoth privateKey { unprotects := false })) := by
  intro h
  have hreads := (leavesOther_iff hs hq (written_prekeys []) { unprotects := false } _).mp
    (h.leaves _ List.mem_cons_self)
  rcases hreads with hworks | hfails | hnothing
  · cases hworks
  · cases hfails
  · rcases savePart_spec hs hq (written_identity privateKey) {} [] with
      ⟨hfails, -⟩ | ⟨-, -, hmembers⟩
    · cases hfails
    · have hkey := (hmembers "identityPriv").trans
        (Json.value_setMember_self (isObject_readRoot _ _))
      cases hkey.symm.trans hnothing

theorem identityKept_savesBoth :
    (keyMachine Qt.compact keyedCrypto plainProtection).Always
      (IdentityKept Qt.compact keyedCrypto plainProtection) {}
      (savesBoth (List.replicate 32 1) {}) := by
  refine identityKept_of_spared plainProtection_sound compact_keyFile {} _ ⟨?_, ?_⟩
    ⟨.inl rfl, .inl rfl, trivial⟩
  · intro privateKey hstored
    cases hstored
  · intro x hx
    cases hx

/-- **The defect**: the prekeys are saved while the service cannot open the file. -/
theorem identityKept_unopened :
    ¬(keyMachine Qt.compact keyedCrypto plainProtection).Always
      (IdentityKept Qt.compact keyedCrypto plainProtection) {}
      (savesBoth (List.replicate 32 1) { unprotects := false }) :=
  fun h => savesBoth_loses plainProtection_sound compact_keyFile _ h.last

end XYChat.Client.KeyProtection
