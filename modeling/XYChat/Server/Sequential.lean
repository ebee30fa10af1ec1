import XYChat.Lib.Machine
import XYChat.Server.Handlers

/-!
# Requests one at a time

The server with all its handlers, where a packet is handled to its end before the
next one is taken up. What a handler that works on the tables of `Db` does there
is what it does when it runs alone.
-/

namespace XYChat.Server

open XYChat.Lib

/-- The database, the connections and the nonce cache. -/
structure SequentialServer where
  db : ServerDb
  conns : Nat → Connection := fun _ => {}
  nonces : NonceCache := {}

/-- A client connects in slot `c`, a packet of a connection is handled (after a
wait for the nonce cache), time passes. -/
inductive SequentialOp where
  | connect (c : Nat) (peerAddress : String)
  | packet (c : Nat) (packet : Packet) (random : Random) (wait : Nat := 0)
  | tick (seconds : Nat)

section

variable (qt : Qt) (hashes : Hashes)

namespace SequentialServer

/-- The decision on a packet of connection `c`. -/
def admits (s : SequentialServer) (c : Nat) (packet : Packet) (wait : Nat) :
    NonceCache × Admission :=
  admission qt hashes (s.conns c) packet wait s.db s.nonces

/-- What handling the packet leaves. -/
def process (s : SequentialServer) (c : Nat) (packet : Packet) (random : Random) (wait : Nat) :
    ServerDb × Outcome :=
  (processAdmitted qt hashes (otherHandlers qt) random packet.requestId (s.conns c)
    (s.admits qt hashes c packet wait).2).exec s.db

def step (s : SequentialServer) : SequentialOp → SequentialServer
  | .connect c peerAddress => { s with conns := Function.update s.conns c { peerAddress } }
  | .packet c packet random wait =>
      let done := s.process qt hashes c packet random wait
      { db := done.1
        conns := Function.update s.conns c done.2.conn
        nonces := (s.admits qt hashes c packet wait).1 }
  | .tick seconds => { s with db := { s.db with now := s.db.now + seconds } }

end SequentialServer

/-- The server, from any state. -/
def sequentialMachine : Machine SequentialServer SequentialOp where
  init := fun _ => True
  step := SequentialServer.step qt hashes

end

/-- `P` holds of the handler and the request a packet is admitted to, if it is. -/
def Admission.Meets (P : Handler → Json → Prop) : Admission → Prop
  | .handle handler request => P handler request
  | .pong | .reject .. | .unknown _ => True

instance (P : Handler → Json → Prop) [∀ handler request, Decidable (P handler request)] :
    ∀ a : Admission, Decidable (a.Meets P)
  | .handle handler request => inferInstanceAs (Decidable (P handler request))
  | .pong => isTrue trivial
  | .reject .. => isTrue trivial
  | .unknown _ => isTrue trivial

theorem Admission.meets_congr {P P' : Handler → Json → Prop} {a : Admission}
    (h : ∀ handler request, a = .handle handler request →
      (P handler request ↔ P' handler request)) : a.Meets P ↔ a.Meets P' := by
  cases a with
  | handle handler request => exact h handler request rfl
  | pong => exact Iff.rfl
  | reject code message => exact Iff.rfl
  | unknown type => exact Iff.rfl

/-! ## What a handler does when it runs alone -/

/-- The program of a handler that works on the tables of `Db` alone; `none` for
those that need the session tables. -/
def Handler.program (qt : Qt) (requestId : Nat) (conn : Connection) (request : Json) :
    Handler → Option (Prog Db Outcome)
  | .register | .login | .logout | .tokenRenew | .terminateSession => none
  | .sendMessage => some (processSendMessageRequest qt requestId conn request)
  | .editMessage => some (processEditMessageRequest qt requestId conn request)
  | .deleteMessage => some (processDeleteMessageRequest qt requestId conn request)
  | .registerKeys => some (processRegisterKeysRequest qt requestId conn request)
  | .fetchKeys => some (processFetchKeysRequest requestId conn request)
  | .fetchGroupKeys => some (processFetchGroupKeysRequest requestId conn request)
  | handler => some (otherHandlers qt handler requestId conn request)

theorem exec_zoom {α : Type} (p : Prog Db α) (s : ServerDb) :
    (p.zoom (·.toDb) fun db (server : ServerDb) => { server with toDb := db }).exec s =
      ({ s with toDb := (p.exec s.toDb).1 }, (p.exec s.toDb).2) := by
  induction p generalizing s with
  | ret a => rfl
  | stmt upd next ih => exact ih s.toDb _

section

variable {qt : Qt} {hashes : Hashes} {random : Random} {requestId : Nat} {conn : Connection}
  {request : Json} {handler : Handler} {p : Prog Db Outcome} {s : ServerDb}

theorem handle_eq_business (hp : handler.program qt requestId conn request = some p) :
    handle qt hashes (otherHandlers qt) random requestId conn request handler =
      business conn p := by
  cases handler with
  | register => exact nomatch hp
  | login => exact nomatch hp
  | logout => exact nomatch hp
  | tokenRenew => exact nomatch hp
  | terminateSession => exact nomatch hp
  | _ =>
      rw [← Option.some.inj hp]
      rfl

/-- The handler leaves the tables as its program does and answers what it
answers. -/
theorem handle_program (hp : handler.program qt requestId conn request = some p) :
    ((handle qt hashes (otherHandlers qt) random requestId conn request handler).exec s).1 =
        { s with toDb := (p.exec s.toDb).1 } ∧
      ((handle qt hashes (otherHandlers qt) random requestId conn request handler).exec s).2.response =
        (p.exec s.toDb).2.response := by
  rw [handle_eq_business hp]
  unfold business
  rw [Prog.exec_bind, exec_zoom]
  exact ⟨rfl, rfl⟩

/-- A packet that reaches the handler changes the tables as its program does, and
is answered as it answers. -/
theorem process_program {s : SequentialServer} {c : Nat} {packet : Packet} {wait : Nat}
    (hadmits : (s.admits qt hashes c packet wait).2 = .handle handler request)
    (hp : handler.program qt packet.requestId (s.conns c) request = some p) :
    (s.process qt hashes c packet random wait).1.toDb = (p.exec s.db.toDb).1 ∧
      (s.process qt hashes c packet random wait).2.response = (p.exec s.db.toDb).2.response := by
  unfold SequentialServer.process processAdmitted
  rw [hadmits]
  dsimp only
  split
  · obtain ⟨hdb, hresponse⟩ :=
      @handle_program qt hashes random packet.requestId (s.conns c) request handler p
      (s.db.updateSessionLastActive (s.conns c).currentSessionId) hp
    rw [Prog.exec_bind, Prog.exec_update, hdb, hresponse]
    exact ⟨rfl, rfl⟩
  · obtain ⟨hdb, hresponse⟩ :=
      @handle_program qt hashes random packet.requestId (s.conns c) request handler p
      s.db hp
    rw [hdb, hresponse]
    exact ⟨rfl, rfl⟩

end

end XYChat.Server
