import XYChat.Common.Qt

/-!
# Replay protection

The nonce cache all connections share, and the check that every packet but one
headed `Pong` passes before it is dispatched.
-/

namespace XYChat.Server

/-- `NonceCache`: each nonce with the second it was first seen at. -/
structure NonceCache where
  nonces : List (String × Int) := []
  ttlSeconds : Int := 600
  maxEntries : Int := 100000

namespace NonceCache

/-- The second a nonce was seen at. -/
def find (c : NonceCache) (nonce : String) : Option Int := c.nonces.lookup nonce

def size (c : NonceCache) : Int := c.nonces.length

/-- `NonceCache::purgeExpired`. -/
def purgeExpired (c : NonceCache) (now : Int) : NonceCache :=
  { c with nonces := c.nonces.filter fun e => !decide (c.ttlSeconds < now - e.2) }

/-- The lazy cleaning at half the capacity. -/
def clean (c : NonceCache) (now : Int) : NonceCache :=
  if c.maxEntries.tdiv 2 < c.size then c.purgeExpired now else c

/-- At capacity, drop what is older than half the time to live. -/
def evict (c : NonceCache) (now : Int) : NonceCache :=
  if c.maxEntries ≤ c.size then
    let cutoff := now - c.ttlSeconds.tdiv 2
    { c with nonces := c.nonces.filter fun e => !decide (e.2 < cutoff) }
  else c

def insert (c : NonceCache) (nonce : String) (now : Int) : NonceCache :=
  { c with nonces := (nonce, now) :: c.nonces.filter fun e => e.1 != nonce }

/-- `NonceCache::checkAndInsert` at second `now`. -/
def checkAndInsert (c : NonceCache) (nonce : String) (now : Int) : NonceCache × Bool :=
  if nonce = "" then (c, false)
  else
    let c := c.clean now
    if (c.find nonce).any fun seen => now - seen ≤ c.ttlSeconds then (c, false)
    else ((c.evict now).insert nonce now, true)

section Fields

variable {c : NonceCache} {now : Int}

@[simp] theorem ttlSeconds_clean : (c.clean now).ttlSeconds = c.ttlSeconds := by
  unfold clean
  split <;> rfl

@[simp] theorem ttlSeconds_evict : (c.evict now).ttlSeconds = c.ttlSeconds := by
  unfold evict
  split <;> rfl

@[simp] theorem maxEntries_clean : (c.clean now).maxEntries = c.maxEntries := by
  unfold clean
  split <;> rfl

@[simp] theorem maxEntries_evict : (c.evict now).maxEntries = c.maxEntries := by
  unfold evict
  split <;> rfl

end Fields

end NonceCache

/-- Tolerance of a request's timestamp, in seconds. -/
def replayTimestampToleranceSecs : Int := 300

/-- A request's timestamp as the check reads it. -/
def timestampOf (request : Json) : Int := (request.value "timestamp").toLongLong

/-- A request's nonce as the check reads it. -/
def nonceOf (request : Json) : String := trimmed ((request.value "nonce").toStr "")

/-- `RequestHandler::checkReplayProtection`. The clock is read twice: the check
itself reads `checkedAt`, and the cache `seenAt`, once it holds the mutex. -/
def checkReplayProtection (request : Json) (checkedAt seenAt : Int) (c : NonceCache) :
    NonceCache × Bool :=
  if !(request.contains "timestamp" && (request.value "timestamp").isDouble) then (c, false)
  else if timestampOf request ≤ 0 then (c, false)
  else if replayTimestampToleranceSecs < |checkedAt - timestampOf request| then (c, false)
  else if nonceOf request = "" ∨ 128 < qsize (nonceOf request) then (c, false)
  else c.checkAndInsert (nonceOf request) seenAt

end XYChat.Server
