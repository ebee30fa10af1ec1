import XYChat.Client.SenderKeys
import XYChat.Lib.Durable

/-!
# Decrypting private messages

What a device does with the private messages it receives, write by write: the
key file and the cache file of `KeyStorage`, the `decrypt_cache` table of
`LocalStore`, and the handlers of `NetworkManager` that read and write them. A
file, once it is there, can be read; every write may fail. The temporary file
of `writeFileAtomic` is never read and not kept here.
-/

namespace XYChat.Client

open Lib
open E2eeCrypto (KeyPair EnvelopeEntry)

/-! ## What outlives the process -/

/-- The members of the key file; a missing one reads as empty. -/
structure KeyFile where
  identityPriv : Bytes := []
  prekeys : List KeyPair := []
  deriving DecidableEq, Repr

/-- A message the device has decrypted: what it said, and the keys it was opened
with. -/
structure Opened where
  messageId : Int
  content : String
  plaintext : String
  identityKey : KeyPair
  prekey : Option KeyPair
  deriving DecidableEq, Repr

/-- The message a handler has decrypted last, and the map in memory at that moment. -/
structure Hand where
  messageId : Int
  map : IntMap String

/-- The two files and the table of one account on one device. The rest is history:
what was decrypted, and of the running handler which message it has in hand and
whether an entry could not be written to the table. -/
structure Device where
  keyFile : Option KeyFile := none
  cacheFile : Option (IntMap String) := none
  decryptCache : IntMap String := .empty
  opened : List Opened := []
  hand : Option Hand := none
  saveFailed : Bool := false

/-- The calls of `writeFileAtomic`; the last one is told whether the file was
removed to make place. -/
inductive FileWrite (α : Type) where
  | writeTmp (new : α)
  | remove
  | rename (new : α) (replaced : Bool)

inductive DeviceWrite where
  | keyFile (w : FileWrite KeyFile)
  | cacheFile (w : FileWrite (IntMap String))
  | removeDecryptCacheFile
  | saveDecryptedContent (messageId : Int) (plaintext : String)
  | messagesRow
  | opened (o : Opened) (map : IntMap String)

/-- How a write comes out: whether the system call works, and the random iv a
text is encrypted under. -/
structure Outcome where
  works : Bool
  iv : Nat := 0
  deriving DecidableEq, Repr

/-- The file after the call, and what the call returns. A file is never renamed
over another. -/
def FileWrite.apply {α : Type} (works : Bool) (file : Option α) : FileWrite α → Option α × Bool
  | .writeTmp _ => (file, works)
  | .remove => if works then (none, true) else (file, false)
  | .rename new _ => if works && file.isNone then (some new, true) else (file, false)

def Device.write (cipher : TextCipher) (e : Outcome) (d : Device) : DeviceWrite → Device × Bool
  | .keyFile w =>
      let r := w.apply e.works d.keyFile
      ({ d with keyFile := r.1 }, r.2)
  | .cacheFile w =>
      let r := w.apply e.works d.cacheFile
      ({ d with cacheFile := r.1 }, r.2)
  | .removeDecryptCacheFile => if e.works then ({ d with cacheFile := none }, true) else (d, false)
  | .saveDecryptedContent messageId plaintext =>
      let enc := cipher.encryptText e.iv plaintext
      if enc = "" ∨ e.works = false then ({ d with saveFailed := true }, false)
      else ({ d with decryptCache := d.decryptCache.insert messageId enc }, true)
  | .messagesRow => (d, e.works)
  | .opened o map =>
      let opened := if 0 < o.messageId then o :: d.opened else d.opened
      ({ d with opened, hand := some ⟨o.messageId, map⟩ }, true)

def deviceMedium (cipher : TextCipher) : Medium Device DeviceWrite Outcome where
  write w e d := d.write cipher e w
  enter d := { d with hand := none, saveFailed := false }

abbrev DeviceJob := Job Device DeviceWrite

/-! ## KeyStorage -/

namespace KeyStorage

/-- `writeFileAtomic`. -/
def writeFileAtomic {α : Type} (file : FileWrite α → DeviceWrite) (present : Device → Bool)
    (data : α) : DeviceJob Bool := do
  if ← .perform (file (.writeTmp data)) then
    if ← .query present then
      let _ ← .perform (file .remove)
      .perform (file (.rename data true))
    else .perform (file (.rename data false))
  else return false

def loadIdentityPrivateKey (d : Device) : Bytes := (d.keyFile.getD {}).identityPriv

/-- `saveIdentityPrivateKey`, which keeps the prekeys of the file. -/
def saveIdentityPrivateKey (privateKey : Bytes) : DeviceJob Bool := do
  let root ← .query fun d => d.keyFile.getD {}
  writeFileAtomic .keyFile (·.keyFile.isSome) { root with identityPriv := privateKey }

/-- The entries of a key file that `loadPrekeys` takes. -/
def usablePrekeys (root : KeyFile) : List KeyPair :=
  root.prekeys.filter fun entry => entry.publicKey != [] && entry.privateKey != []

def loadPrekeys (d : Device) : List KeyPair := usablePrekeys (d.keyFile.getD {})

/-- `savePrekeys`, which keeps the identity key of the file. -/
def savePrekeys (prekeys : List KeyPair) : DeviceJob Bool := do
  let root ← .query fun d => d.keyFile.getD {}
  writeFileAtomic .keyFile (·.keyFile.isSome) { root with prekeys }

/-- The entries of a cache file that `loadDecryptCache` takes. -/
def usableEntries (root : IntMap String) : IntMap String where
  entries := root.entries.filter fun e => 0 < e.1
  sorted := root.sorted.filter _

def loadDecryptCache (d : Device) : IntMap String := usableEntries (d.cacheFile.getD .empty)

def saveDecryptCache (cache : IntMap String) : DeviceJob Bool :=
  writeFileAtomic .cacheFile (·.cacheFile.isSome) cache

end KeyStorage

/-! ## Opening an envelope -/

section

variable (qt : Qt) (crypto : Crypto) (localDeviceId : String)

/-- The base point of X25519. -/
def x25519BasePoint : Bytes := 9 :: List.replicate 31 0

/-- `E2eeCrypto::keyPairFromPrivateKey`; the public half is the private half
times the base point. -/
def keyPairFromPrivateKey (privateKey : Bytes) : KeyPair :=
  if privateKey.length ≠ E2eeCrypto.x25519KeySize then {}
  else
    match crypto.x25519 privateKey x25519BasePoint with
    | none => {}
    | some publicKey => { publicKey, privateKey, valid := true }

/-- What an entry decrypts to under a prekey and the identity key. -/
def openUnderPrekey (identityKey : KeyPair) (entry : EnvelopeEntry) (prekey : KeyPair) : Bytes :=
  let shared := E2eeCrypto.ecdh crypto prekey.privateKey entry.ephemeralPublicKey
    ++ E2eeCrypto.ecdh crypto identityKey.privateKey entry.ephemeralPublicKey
  E2eeCrypto.aesGcmDecrypt crypto (E2eeCrypto.deriveMessageKey crypto shared) entry.iv
    entry.ciphertext

/-- What the copy for the own device decrypts to. -/
def openSelfCopy (identityKey : KeyPair) (entry : EnvelopeEntry) : Bytes :=
  let dh := E2eeCrypto.ecdh crypto identityKey.privateKey entry.ephemeralPublicKey
  if dh.length ≠ 32 then []
  else
    E2eeCrypto.aesGcmDecrypt crypto (E2eeCrypto.deriveMessageKey crypto (dh ++ dh)) entry.iv
      entry.ciphertext

/-- The loop over the local prekeys: the plaintext, the prekey that opened the
entry, and the prekeys without it. -/
def tryPrekeys (identityKey : KeyPair) (entry : EnvelopeEntry) :
    List KeyPair → Option (Bytes × KeyPair × List KeyPair)
  | [] => none
  | prekey :: rest =>
      let plain := openUnderPrekey crypto identityKey entry prekey
      if plain ≠ [] then some (plain, prekey, rest)
      else (tryPrekeys identityKey entry rest).map fun (plain, used, kept) =>
        (plain, used, prekey :: kept)

/-- One turn of the loop over the entries. The copy for the own device uses up no
prekey. -/
def openEntry (identityKey : KeyPair) (localPrekeys : List KeyPair) (entry : EnvelopeEntry) :
    Option (Bytes × Option (KeyPair × List KeyPair)) :=
  if entry.deviceId ≠ localDeviceId then none
  else if identityKey.valid = false then none
  else if entry.prekeyId = E2eeCrypto.selfCopyPrekeyId then
    let plain := openSelfCopy crypto identityKey entry
    if plain ≠ [] then some (plain, none) else none
  else (tryPrekeys crypto identityKey entry localPrekeys).map fun (plain, used) =>
    (plain, some used)

/-- What `decryptIncomingContent` makes of a content: its plaintext, and the
prekey it uses up with those it leaves. `none` is `undecryptable`. -/
def openContent (identityKey : KeyPair) (localPrekeys : List KeyPair) (content : String) :
    Option (String × Option (KeyPair × List KeyPair)) :=
  if E2eeCrypto.looksLikeEnvelope qt content = false then some (content, none)
  else
    match E2eeCrypto.decodeEnvelope qt content with
    | none => none
    | some entries =>
        (entries.findSome? (openEntry crypto localDeviceId identityKey localPrekeys)).map
          fun (plain, used) => (fromUtf8 plain, used)

/-! ## NetworkManager -/

/-- The members of `NetworkManager` that the handlers below use. -/
structure Memory where
  identityKey : KeyPair := {}
  localPrekeys : List KeyPair := []
  decryptCache : IntMap String := .empty
  decryptCacheLoaded : Bool := false
  storeOpen : Bool := false
  serverPrekeyRemaining : Int := -1
  e2eeBootstrapPending : Bool := false

namespace Memory

/-- `LocalStore::loadDecryptedContent`; empty where there is none. -/
def loadDecryptedContent (cipher : TextCipher) (m : Memory) (messageId : Int) (d : Device) :
    String :=
  if m.storeOpen = false ∨ messageId ≤ 0 then ""
  else
    match d.decryptCache.find messageId with
    | none => ""
    | some enc => cipher.decryptText enc

/-- `LocalStore::saveDecryptedContent`. -/
def saveDecryptedContent (m : Memory) (messageId : Int) (plaintext : String) : DeviceJob Bool :=
  if m.storeOpen = false ∨ messageId ≤ 0 ∨ plaintext = "" then return false
  else .perform (.saveDecryptedContent messageId plaintext)

/-- `NetworkManager::decryptIncomingContent`. -/
def decryptIncomingContent (m : Memory) (content : String) : DeviceJob (Memory × Option String) :=
  match openContent qt crypto localDeviceId m.identityKey m.localPrekeys content with
  | none => return (m, none)
  | some (plain, none) => return (m, some plain)
  | some (plain, some (_, localPrekeys)) => do
      -- the used prekey is gone from the file before its plaintext is kept anywhere
      let _ ← KeyStorage.savePrekeys localPrekeys
      return ({ m with localPrekeys }, some plain)

/-- The history: the content is about to be opened under the message's id. -/
def noteOpened (m : Memory) (messageId : Int) (content : String) : DeviceJob Bool :=
  match openContent qt crypto localDeviceId m.identityKey m.localPrekeys content with
  | none => return false
  | some (plaintext, used) =>
      .perform (.opened
        { messageId, content, plaintext, identityKey := m.identityKey
          prekey := used.map (·.1) } m.decryptCache)

/-- The map in memory is emptied where it outgrows this size. -/
def decryptCacheLimit : Nat := 2000

/-- A plaintext goes to the map, and to the local store or else, with all the map
holds, to the cache file. -/
def cachePlaintext (m : Memory) (messageId : Int) (plain : String) : DeviceJob Memory :=
  if messageId ≤ 0 then return m
  else do
    let cache := m.decryptCache.insert messageId plain
    let cache := if decryptCacheLimit < cache.size then .empty else cache
    let m := { m with decryptCache := cache }
    if ← m.saveDecryptedContent messageId plain then return m
    else
      let _ ← KeyStorage.saveDecryptCache m.decryptCache
      return m

/-- `NetworkManager::decryptMessageObject` on a private message: the message with
its content decrypted. -/
def decryptMessageObject (cipher : TextCipher) (m : Memory) (msg : Json) :
    DeviceJob (Memory × Json) := do
  let msgId := (msg.value "messageId").toLongLong
  match if 0 < msgId then m.decryptCache.find msgId else none with
  | some cached => return (m, msg.setMember "content" (.str cached))
  | none =>
      let cached ← .query (m.loadDecryptedContent cipher msgId)
      if cached ≠ "" then
        return ({ m with decryptCache := m.decryptCache.insert msgId cached },
          msg.setMember "content" (.str cached))
      else
        let content := (msg.value "content").toStr ""
        let _ ← m.noteOpened qt crypto localDeviceId msgId content
        let (m, plain) ← m.decryptIncomingContent qt crypto localDeviceId content
        match plain with
        | none =>
            return (m, (msg.setMember "content" (.str "")).setMember "undecryptable" (.bool true))
        | some plain =>
            let m ← m.cachePlaintext msgId plain
            return (m, msg.setMember "content" (.str plain))

/-- `LocalStore::upsertMessage`, for what it does to the decryption cache: a
readable content is cached once more. -/
def upsertMessage (m : Memory) (msg : Json) : DeviceJob Unit :=
  let messageId := (msg.value "messageId").toLongLong
  let content := readableContent qt msg
  if m.storeOpen = false ∨ messageId ≤ 0 ∨ (msg.value "conversationId").toLongLong ≤ 0
      ∨ content = "" then return ()
  else do
    if ← .perform .messagesRow then
      let _ ← m.saveDecryptedContent messageId content
      return ()
    else return ()

/-- The messages of a page one by one, as `handleSyncMessagesResponse` and
`handleNewMessageNotification` take them: decrypt it, then store it. -/
def receive (cipher : TextCipher) (m : Memory) : List Json → DeviceJob Memory
  | [] => return m
  | msg :: rest => do
      let (m, msg) ← m.decryptMessageObject qt crypto localDeviceId cipher msg
      m.upsertMessage qt msg
      receive cipher m rest

/-- The first loop of `handleSyncEventsResponse`: decrypt every message. -/
def decryptAll (cipher : TextCipher) (m : Memory) : List Json → DeviceJob (Memory × List Json)
  | [] => return (m, [])
  | msg :: rest => do
      let (m, msg) ← m.decryptMessageObject qt crypto localDeviceId cipher msg
      let (m, msgs) ← decryptAll cipher m rest
      return (m, msg :: msgs)

/-- The messages of `ingestSyncEvents`. -/
def upsertAll (m : Memory) : List Json → DeviceJob Unit
  | [] => return ()
  | msg :: rest => do
      m.upsertMessage qt msg
      upsertAll m rest

/-! ### Keys -/

def prekeyTarget : Int := 20
def prekeyLowWatermark : Int := 5

/-- What a bootstrap draws: an identity key pair, and prekeys as far as
`generateX25519KeyPair` succeeds. -/
structure Draws where
  identityKey : KeyPair := {}
  prekeys : Nat → KeyPair := fun _ => {}

/-- `sendRegisterKeysRequest`: prekeys that run low are drawn and saved. -/
def sendRegisterKeysRequest (draws : Draws) (m : Memory) : DeviceJob Memory :=
  let localCount : Int := m.localPrekeys.length
  let serverLow := 0 ≤ m.serverPrekeyRemaining ∧ m.serverPrekeyRemaining < prekeyLowWatermark
  if localCount < prekeyLowWatermark ∨ serverLow then do
    let uploadCount := prekeyTarget - if serverLow then m.serverPrekeyRemaining else localCount
    let drawn := ((List.range uploadCount.toNat).map draws.prekeys).takeWhile (·.valid)
    let localPrekeys := m.localPrekeys ++ drawn
    let _ ← KeyStorage.savePrekeys localPrekeys
    return { m with localPrekeys }
  else return m

/-- A new identity key: the prekeys of the old one are dropped from memory. -/
def regenerateIdentity (draws : Draws) (m : Memory) : DeviceJob Memory := do
  let m := { m with identityKey := draws.identityKey }
  if m.identityKey.valid = false then return m
  else
    let _ ← KeyStorage.saveIdentityPrivateKey m.identityKey.privateKey
    return { m with localPrekeys := [] }

/-- The first half of `bootstrapE2ee`: load or generate the identity key. -/
def bootstrapIdentity (draws : Draws) (m : Memory) : DeviceJob Memory := do
  if m.identityKey.valid then return m
  else
    let priv ← .query KeyStorage.loadIdentityPrivateKey
    let identityKey := keyPairFromPrivateKey crypto priv
    if priv ≠ [] ∧ identityKey.valid then return { m with identityKey }
    else m.regenerateIdentity draws

/-- `bootstrapE2ee`. -/
def bootstrapE2ee (draws : Draws) (m : Memory) : DeviceJob Memory := do
  if m.e2eeBootstrapPending then return m
  else
    let m ← m.bootstrapIdentity crypto draws
    if m.identityKey.valid = false then return m
    else
      let stored ← .query KeyStorage.loadPrekeys
      let m := if m.localPrekeys = [] then { m with localPrekeys := stored } else m
      let file ← .query KeyStorage.loadDecryptCache
      let m :=
        if m.decryptCacheLoaded = false ∧ m.storeOpen = false then { m with decryptCache := file }
        else m
      m.sendRegisterKeysRequest draws
        |> Functor.map fun m => { m with decryptCacheLoaded := true, e2eeBootstrapPending := true }

/-! ### The store -/

/-- The order a hash is walked in. -/
structure HashOrder where
  walk : List (Int × String) → List (Int × String)
  perm : ∀ entries, (walk entries).Perm entries

/-- The loop of `importLegacyDecryptCache`. -/
def importEntries (m : Memory) : List (Int × String) → DeviceJob Unit
  | [] => return ()
  | (messageId, plaintext) :: rest => do
      let _ ← m.saveDecryptedContent messageId plaintext
      importEntries m rest

/-- `LocalStore::importLegacyDecryptCache`. -/
def importLegacyDecryptCache (order : HashOrder) (m : Memory) : DeviceJob Unit := do
  let legacy ← .query KeyStorage.loadDecryptCache
  if m.storeOpen = false ∨ legacy.entries = [] then return ()
  else
    m.importEntries (order.walk legacy.entries)
    let _ ← .perform .removeDecryptCacheFile
    return ()

/-- `openLocalStore`; `opens` is whether the database can be opened. -/
def openLocalStore (opens : Bool) (order : HashOrder) (m : Memory) : DeviceJob Memory := do
  let m := { m with storeOpen := m.storeOpen || opens }
  m.importLegacyDecryptCache order
  return m

end Memory

/-! ## The client -/

/-- What the client handles, as far as it touches the keys and the caches. -/
inductive ClientEvent where
  | loginResponse (opens : Bool) (order : Memory.HashOrder)
  | bootstrapE2ee (draws : Memory.Draws)
  | registerKeysResponse (remaining : Option Int)
  | newMessageNotification (msg : Json)
  | syncMessagesResponse (msgs : List Json)
  | syncEventsResponse (msgs : List Json)
  | storeLost
  | resetAuthState

/-- Neither a distribution nor a group message. -/
def isPrivate (msg : Json) : Bool :=
  let content := (msg.value "content").toStr ""
  (msg.value "contentType").toStr "" != "sender_key_distribution"
    && !GroupE2eeCrypto.looksLikeDistribution qt content
    && !GroupE2eeCrypto.looksLikeGroupMessage qt content

/-- The handler of an event. Only the private messages of a page are followed. -/
def ClientEvent.handle (cipher : TextCipher) (m : Memory) : ClientEvent → DeviceJob Memory
  | .loginResponse opens order => m.openLocalStore opens order
  | .bootstrapE2ee draws => m.bootstrapE2ee crypto draws
  | .registerKeysResponse remaining =>
      return { m with
        e2eeBootstrapPending := false
        serverPrekeyRemaining := remaining.getD m.serverPrekeyRemaining }
  | .newMessageNotification msg =>
      m.receive qt crypto localDeviceId cipher ([msg].filter (isPrivate qt))
  | .syncMessagesResponse msgs =>
      m.receive qt crypto localDeviceId cipher (msgs.filter (isPrivate qt))
  | .syncEventsResponse msgs => do
      let (m, msgs) ← m.decryptAll qt crypto localDeviceId cipher (msgs.filter (isPrivate qt))
      m.upsertAll qt msgs
      return m
  | .storeLost => return { m with storeOpen := false }
  | .resetAuthState => return {}

abbrev ClientProcess := Process Device DeviceWrite Memory

/-- The client of one account on one device, from the launch of the process on. -/
def receivingMachine (cipher : TextCipher) : Machine ClientProcess (Event ClientEvent Outcome) where
  init p := p.job = none ∧ p.memory = {} ∧ p.medium.opened = []
  step := Process.step (deviceMedium cipher)
    (fun e m => e.handle qt crypto localDeviceId cipher m) {}

end

end XYChat.Client
