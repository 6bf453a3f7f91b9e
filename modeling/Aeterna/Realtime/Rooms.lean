import Aeterna.Core.Types
import Aeterna.Lib.Runs
import Mathlib.Data.Finset.Basic

namespace Aeterna.Realtime
open Lib (Along Throughout)
open Function Option Finset

abbrev ClientId := BitVec 128

structure AuthToken where
  (userId tenantId : String)

structure ClientInfo where
  clientId : ClientId
  (userId tenantId : String)
  rooms : Finset String
  connectedAt : Int

inductive WsError where
  | authFailed (reason : String)
  | connectionClosed
  | webSocket (error : String)
  | serialization (error : String)
  | send (message : String)

inductive WsClientMessage where
  | authenticate (token : String)
  | subscribe (room : String)
  | unsubscribe (room : String)
  | ping

inductive WsServerMessage where
  | authenticated (clientId : ClientId)
  | subscribed (room : String)
  | unsubscribed (room : String)
  | roomMessage (room : String) (payload : Json)
  | error (message : String)
  | pong

/-- `rooms` are the members of each room. -/
structure WsServer where
  clients : ClientId → Option ClientInfo := fun _ => none
  rooms : String → Option (Finset ClientId) := fun _ => none
  clientSenders : Finset ClientId := ∅

namespace WsServer
variable (server : WsServer) (clientId : ClientId) (room : String)

def roomMembers : Finset ClientId := (server.rooms room).getD ∅

def clientRooms : Finset String := ((server.clients clientId).map ClientInfo.rooms).getD ∅

def insertClient (info : ClientInfo) : WsServer :=
  { server with clients := update server.clients clientId (some info) }

def removeClient : WsServer := { server with clients := update server.clients clientId none }

def updateRooms (f : Finset String → Finset String) : WsServer :=
  let client := (server.clients clientId).map (fun client => { client with rooms := f client.rooms })
  { server with clients := update server.clients clientId client }

def insertSender : WsServer := { server with clientSenders := insert clientId server.clientSenders }

def removeSender : WsServer := { server with clientSenders := server.clientSenders.erase clientId }

/-- The write of `subscribe_to_room` to the rooms. -/
def insertMember : WsServer :=
  { server with rooms := update server.rooms room (some (insert clientId (server.roomMembers room))) }

/-- The write of `unsubscribe_from_room` to the rooms, and of `disconnect_client` to each room. -/
def removeMember : WsServer :=
  { server with rooms := update server.rooms room ((server.rooms room).map (fun members => members.erase clientId)) }

def Absent : Prop := server.clients clientId = none ∧ clientId ∉ server.clientSenders ∧ ∀ room,
    clientId ∉ server.roomMembers room

end WsServer

/-- `handle_connection` and `handle_axum_socket`. -/
inductive Listener where
  | tungstenite
  | axum

/-- What the client's side of the connection brings. -/
inductive Incoming where
  | timeout
  | none
  | failed (error : String)
  | text (message : Except String WsClientMessage)
  | close
  | ping
  | other

def receiveFailed : Listener → String → WsError
  | .tungstenite, e => .webSocket e
  | .axum, e => .send ("WebSocket auth receive failed: " ++ e)

def sendFailed : Listener → String → String → WsError
  | .tungstenite, _, e => .webSocket e
  | .axum, action, e => .send ("Failed to send " ++ action ++ ": " ++ e)

def authMsg (listener : Listener) : Incoming → Except WsError String
  | .timeout => .error (.authFailed "Authentication timeout")
  | .none => .error .connectionClosed
  | .failed e => .error (receiveFailed listener e)
  | .text (.error e) => .error (.serialization e)
  | .text (.ok (.authenticate token)) => .ok token
  | .text (.ok _) => .error (.authFailed "First message must be Authenticate")
  | .close | .ping | .other => .error (.authFailed "Expected text message")

inductive Handler where
  | accepted
  | registered (clientId : ClientId)
  | authenticated (clientId : ClientId)
  | serving (clientId : ClientId)
  | subscribing (clientId : ClientId) (room : String)
  | unsubscribing (clientId : ClientId) (room : String)
  | responding (clientId : ClientId) (response : WsServerMessage)
  | disconnecting (clientId : ClientId) (result : Except WsError Unit)
  | cleaning (clientId : ClientId) (rooms : Finset String) (result : Except WsError Unit)
  | ended (clientId : Option ClientId) (result : Except WsError Unit)

inductive Occurrence where
  | refused (error : String)
  | first (message : Incoming) (validated : Except WsError AuthToken) (clientId : ClientId) (now : Int)
  | incoming (message : Incoming) (pong : Except String Unit)
  | outgoing (message : Option WsServerMessage) (sent : Except String Unit)
  | sent (outcome : Except String Unit)
  | write
  | leave (room : String)

namespace Handler
variable (listener : Listener) (server : WsServer)

def receive (clientId : ClientId) : WsClientMessage → WsServer × Handler
  | .subscribe room => (server.insertMember clientId room, .subscribing clientId room)
  | .unsubscribe room => (server.removeMember clientId room, .unsubscribing clientId room)
  | .ping => (server, .responding clientId .pong)
  | .authenticate _ => (server, .responding clientId (.error "Already authenticated"))

def afterSend (clientId : ClientId) (action : String) : Except String Unit → Handler
  | .ok () => .serving clientId
  | .error e => .disconnecting clientId (.error (sendFailed listener action e))

/-- One turn of the loop. -/
def serve (clientId : ClientId) (pong : Except String Unit) : Incoming → Option (WsServer × Handler)
  | .text (.ok message) => some (receive server clientId message)
  | .text (.error e) => some (server, .disconnecting clientId (.error (.serialization e)))
  | .close | .none | .failed _ => some (server, .disconnecting clientId (.ok ()))
  | .ping => some (server, afterSend listener clientId "pong" pong)
  | .other => some (server, .serving clientId)
  | .timeout => none

def step : Handler → Occurrence → Option (WsServer × Handler)
  | .accepted, .refused e =>
    match listener with
    | .tungstenite => some (server, .ended none (.error (.webSocket e)))
    | .axum => none
  | .accepted, .first message validated clientId now =>
    match authMsg listener message, validated with
    | .error e, _ => some (server, .ended none (.error e))
    | .ok _, .error e => some (server, .ended none (.error e))
    | .ok _, .ok token =>
      some (server.insertClient clientId ⟨clientId, token.userId, token.tenantId, ∅, now⟩, .registered clientId)
  | .registered clientId, .sent (.ok ()) => some (server, .authenticated clientId)
  -- the reply of the handshake is sent outside the block that ends in `disconnect_client`
  | .registered clientId, .sent (.error e) =>
      some (server, .ended (some clientId) (.error (sendFailed listener "auth response" e)))
  | .authenticated clientId, .write => some (server.insertSender clientId, .serving clientId)
  | .serving clientId, .incoming message pong => serve listener server clientId pong message
  | .serving clientId, .outgoing none _ => some (server, .disconnecting clientId (.ok ()))
  | .serving clientId, .outgoing (some _) sent =>
      some (server, afterSend listener clientId "outbound room message" sent)
  | .subscribing clientId room, .write =>
      some (server.updateRooms clientId (insert room), .responding clientId (.subscribed room))
  | .unsubscribing clientId room, .write =>
    some (server.updateRooms clientId (fun rooms => rooms.erase room), .responding clientId (.unsubscribed room))
  | .responding clientId _, .sent outcome => some (server, afterSend listener clientId "response" outcome)
  | .disconnecting clientId result, .write =>
      some (server.removeClient clientId, .cleaning clientId (server.clientRooms clientId) result)
  | .cleaning clientId rooms result, .leave room =>
    if room ∈ rooms then some (server.removeMember clientId room, .cleaning clientId (rooms.erase room) result)
      else none
  | .cleaning clientId rooms result, .write =>
    if rooms = ∅ then some (server.removeSender clientId, .ended (some clientId) result) else none
  | _, _ => none

def client : Handler → Option ClientId
  | .accepted => none
  | .registered clientId | .authenticated clientId | .serving clientId | .subscribing clientId _ | .unsubscribing clientId _
  | .responding clientId _ | .disconnecting clientId _ | .cleaning clientId _ _ => some clientId
  | .ended clientId _ => clientId

def Busy (clientId : ClientId) : Handler → Prop
  | .subscribing busy _ | .unsubscribing busy _ | .cleaning busy _ _ => busy = clientId
  | _ => False

end Handler

namespace WsServer

structure Same (clientId : ClientId) (server next : WsServer) : Prop where
  clients : next.clients clientId = server.clients clientId
  members : ∀ room, clientId ∈ next.roomMembers room ↔ clientId ∈ server.roomMembers room
  senders : clientId ∈ next.clientSenders ↔ clientId ∈ server.clientSenders

variable {server next : WsServer} {clientId other : ClientId} {room : String}

theorem Same.rfl : Same other server server := ⟨Eq.refl _, fun _ => Iff.rfl, Iff.rfl⟩

theorem Same.rooms (same : Same other server next) : next.clientRooms other = server.clientRooms other := by
  unfold clientRooms
  rw [same.clients]

theorem Same.absent (same : Same other server next) (absent : server.Absent other) : next.Absent other := by
  obtain ⟨client, sender, member⟩ := absent
  exact ⟨same.clients.trans client, fun present => sender (same.senders.mp present), fun room present =>
    member room ((same.members room).mp present)⟩

theorem roomMembers_insertMember : (server.insertMember clientId room).roomMembers =
    update server.roomMembers room (insert clientId (server.roomMembers room)) := by
  funext asked
  unfold insertMember
  by_cases here : asked = room
  · subst here
    simp only [roomMembers, update_self, getD_some]
  · simp only [roomMembers, update_of_ne here]

theorem roomMembers_removeMember : (server.removeMember clientId room).roomMembers =
    update server.roomMembers room ((server.roomMembers room).erase clientId) := by
  funext asked
  unfold removeMember
  by_cases here : asked = room
  · subst here
    simp only [roomMembers, update_self]
    cases server.rooms asked with
    | none => rfl
    | some members => rfl
  · simp only [roomMembers, update_of_ne here]

theorem mem_insertMember {asked : String} : other ∈ (server.insertMember clientId room).roomMembers asked ↔
    other = clientId ∧ asked = room ∨ other ∈ server.roomMembers asked := by
  rw [roomMembers_insertMember]
  by_cases here : asked = room
  · subst here
    rw [update_self, mem_insert]
    exact or_congr_left (and_iff_left rfl).symm
  · rw [update_of_ne here]
    exact (or_iff_right (fun entered => here entered.2)).symm

theorem mem_removeMember {asked : String} : other ∈ (server.removeMember clientId room).roomMembers asked ↔
    ¬ (other = clientId ∧ asked = room) ∧ other ∈ server.roomMembers asked := by
  rw [roomMembers_removeMember]
  by_cases here : asked = room
  · subst here
    rw [update_self, mem_erase]
    exact and_congr_left' (not_congr (and_iff_left rfl).symm)
  · rw [update_of_ne here]
    exact (and_iff_right (fun left => here left.2)).symm

section
variable (apart : other ≠ clientId)
include apart

theorem same_updateClient {client : Option ClientInfo} :
    Same other server { server with clients := update server.clients clientId client } :=
  ⟨update_of_ne apart _ _, fun _ => Iff.rfl, Iff.rfl⟩

theorem same_insertMember : Same other server (server.insertMember clientId room) :=
  ⟨rfl, fun _ => mem_insertMember.trans (or_iff_right (fun entered => apart entered.1)), Iff.rfl⟩

theorem same_removeMember : Same other server (server.removeMember clientId room) :=
  ⟨rfl, fun _ => mem_removeMember.trans (and_iff_right (fun left => apart left.1)), Iff.rfl⟩

theorem same_insertSender : Same other server (server.insertSender clientId) :=
  ⟨rfl, fun _ => Iff.rfl, mem_insert.trans (or_iff_right apart)⟩

theorem same_removeSender : Same other server (server.removeSender clientId) :=
  ⟨rfl, fun _ => Iff.rfl, mem_erase.trans (and_iff_right apart)⟩

end

variable {f : Finset String → Finset String}

theorem clientRooms_updateRooms (present : (server.clients clientId).isSome) :
    (server.updateRooms clientId f).clientRooms clientId = f (server.clientRooms clientId) := by
  obtain ⟨info, found⟩ := isSome_iff_exists.mp present
  simp only [clientRooms, updateRooms, found, update_self, map_some, getD_some]

theorem isSome_updateRooms (present : (server.clients clientId).isSome) :
    ((server.updateRooms clientId f).clients clientId).isSome := by
  obtain ⟨info, found⟩ := isSome_iff_exists.mp present
  simp only [updateRooms, found, update_self, map_some, isSome_some]

end WsServer

namespace Handler

def Calm (clientId : ClientId) : Handler → Prop
  | .registered own | .authenticated own | .serving own | .responding own _ | .disconnecting own _ => own = clientId
  | _ => False

def Fits (server : WsServer) : Handler → Prop
  | .accepted | .ended none _ => True
  | .registered own | .authenticated own | .serving own | .responding own _ | .disconnecting own _ =>
    (server.clients own).isSome ∧ ∀ room, own ∈ server.roomMembers room ↔ room ∈ server.clientRooms own
  | .subscribing own joined =>
    (server.clients own).isSome ∧ ∀ room, own ∈ server.roomMembers room ↔
      room = joined ∨ room ∈ server.clientRooms own
  | .unsubscribing own left =>
    (server.clients own).isSome ∧ ∀ room, own ∈ server.roomMembers room ↔ room ≠ left ∧ room ∈ server.clientRooms own
  | .cleaning own rooms _ => server.clients own = none ∧ ∀ room, own ∈ server.roomMembers room ↔ room ∈ rooms
  | .ended (some own) _ => server.Absent own

/-- The steps of a handler, but for one that loses the reply of the handshake. -/
inductive Moves (server : WsServer) : Handler → WsServer → Handler → Prop where
  | turnAway (result : Except WsError Unit) : Moves server .accepted server (.ended none result)
  | register (own : ClientId) (info : ClientInfo) (empty : info.rooms = ∅) :
      Moves server .accepted (server.insertClient own info) (.registered own)
  | goOn {own : ClientId} {before after : Handler} (calm : before.Calm own) (still : after.Calm own) :
      Moves server before server after
  | insertSender (own : ClientId) : Moves server (.authenticated own) (server.insertSender own) (.serving own)
  | subscribe (own : ClientId) (room : String) : Moves server (.serving own) (server.insertMember own room)
      (.subscribing own room)
  | subscribed {own : ClientId} {room : String} {after : Handler} (calm : after.Calm own) :
    Moves server (.subscribing own room) (server.updateRooms own (insert room)) after
  | unsubscribe (own : ClientId) (room : String) : Moves server (.serving own) (server.removeMember own room)
      (.unsubscribing own room)
  | unsubscribed {own : ClientId} {room : String} {after : Handler} (calm : after.Calm own) :
    Moves server (.unsubscribing own room) (server.updateRooms own (fun rooms => rooms.erase room)) after
  | disconnect (own : ClientId) (result : Except WsError Unit) :
    Moves server (.disconnecting own result) (server.removeClient own) (.cleaning own (server.clientRooms own) result)
  | leave {own : ClientId} {rooms : Finset String} {room : String} {result : Except WsError Unit}
      (member : room ∈ rooms) :
    Moves server (.cleaning own rooms result) (server.removeMember own room) (.cleaning own (rooms.erase room) result)
  | finish (own : ClientId) (result : Except WsError Unit) :
    Moves server (.cleaning own ∅ result) (server.removeSender own) (.ended (some own) result)

def LosesReply : Handler → Occurrence → Prop
  | .registered _, .sent (.error _) => True
  | _, _ => False

variable {listener : Listener} {server next : WsServer} {handler after : Handler} {occurrence : Occurrence}
  {own : ClientId}

theorem afterSend_calm {action : String} {sent : Except String Unit} :
    (afterSend listener own action sent).Calm own := by
  cases sent with
  | ok _ => exact rfl
  | error _ => exact rfl

theorem serve_moves {pong : Except String Unit} {message : Incoming}
    (served : serve listener server own pong message = some (next, after)) :
    Moves server (.serving own) next after := by
  have calm : (Handler.serving own).Calm own := rfl
  cases message with
  | timeout => cases served
  | text message =>
    rcases message with e | token | room | room | _
    all_goals cases served
    · exact .goOn calm rfl
    · exact .goOn calm rfl
    · exact .subscribe own room
    · exact .unsubscribe own room
    · exact .goOn calm rfl
  | ping =>
    cases served
    exact .goOn calm afterSend_calm
  | _ =>
    cases served
    exact .goOn calm rfl

theorem step_moves (stepped : step listener server handler occurrence = some (next, after))
    (arrives : ¬ handler.LosesReply occurrence) :
    Moves server handler next after := by
  unfold step at stepped
  split at stepped
  · split at stepped
    all_goals cases stepped
    exact .turnAway _
  · split at stepped
    all_goals cases stepped
    · exact .turnAway _
    · exact .turnAway _
    · exact .register _ _ rfl
  · cases stepped
    exact .goOn rfl rfl
  · exact absurd trivial arrives
  · cases stepped
    exact .insertSender _
  · exact serve_moves stepped
  · cases stepped
    exact .goOn rfl rfl
  · cases stepped
    exact .goOn rfl afterSend_calm
  · cases stepped
    exact .subscribed rfl
  · cases stepped
    exact .unsubscribed rfl
  · cases stepped
    exact .goOn rfl afterSend_calm
  · cases stepped
    exact .disconnect _ _
  · obtain ⟨member, moved⟩ := ite_none_right_eq_some.mp stepped
    cases moved
    exact .leave member
  · obtain ⟨empty, moved⟩ := ite_none_right_eq_some.mp stepped
    cases moved
    subst empty
    exact .finish _ _
  · cases stepped

theorem fits_iff_of_calm (calm : handler.Calm own) : handler.Fits server ↔
    (server.clients own).isSome ∧ ∀ room, own ∈ server.roomMembers room ↔ room ∈ server.clientRooms own := by
  cases handler with
  | accepted | subscribing _ _ | unsubscribing _ _ | cleaning _ _ _ | ended _ _ => exact calm.elim
  | _ =>
    cases calm
    exact Iff.rfl

theorem client_of_calm (calm : handler.Calm own) : handler.client = some own := by
  cases handler with
  | accepted | subscribing _ _ | unsubscribing _ _ | cleaning _ _ _ | ended _ _ => exact calm.elim
  | _ =>
    cases calm
    rfl

theorem Fits.of_same (fits : handler.Fits server)
    (same : ∀ own, handler.client = some own → WsServer.Same own server next) :
    handler.Fits next := by
  have calm : ∀ own, handler.Calm own → handler.Fits next := by
    intro own calm
    have same := same own (client_of_calm calm)
    obtain ⟨present, agree⟩ := (fits_iff_of_calm calm).mp fits
    refine (fits_iff_of_calm calm).mpr ⟨same.clients ▸ present, fun room => ?_⟩
    rw [same.members, same.rooms]
    exact agree room
  cases handler with
  | accepted => trivial
  | subscribing own joined =>
    have same := same own rfl
    refine ⟨same.clients ▸ fits.1, fun room => ?_⟩
    rw [same.members, same.rooms]
    exact fits.2 room
  | unsubscribing own left =>
    have same := same own rfl
    refine ⟨same.clients ▸ fits.1, fun room => ?_⟩
    rw [same.members, same.rooms]
    exact fits.2 room
  | cleaning own rooms result =>
    have same := same own rfl
    exact ⟨same.clients.trans fits.1, fun room => (same.members room).trans (fits.2 room)⟩
  | ended own result =>
    cases own with
    | none => trivial
    | some own => exact (same own rfl).absent fits
  | registered own | authenticated own | serving own | responding own _ | disconnecting own _ => exact calm own rfl

section
variable (moves : Moves server handler next after)
include moves

theorem Moves.client : handler.client = none ∨ handler.client = after.client := by
  cases moves with
  | turnAway | register => exact .inl rfl
  | goOn calm still => exact .inr ((client_of_calm calm).trans (client_of_calm still).symm)
  | subscribed calm | unsubscribed calm => exact .inr (client_of_calm calm).symm
  | _ => exact .inr rfl

theorem Moves.same {other : ClientId} (apart : after.client ≠ some other) : WsServer.Same other server next := by
  have differs : ∀ own, after.client = some own → other ≠ own := by
    rintro own same rfl
    exact apart same
  cases moves with
  | turnAway | goOn => exact .rfl
  | register own => exact WsServer.same_updateClient (differs own rfl)
  | insertSender own => exact WsServer.same_insertSender (differs own rfl)
  | subscribe own => exact WsServer.same_insertMember (differs own rfl)
  | subscribed calm | unsubscribed calm => exact WsServer.same_updateClient (differs _ (client_of_calm calm))
  | unsubscribe own => exact WsServer.same_removeMember (differs own rfl)
  | disconnect own => exact WsServer.same_updateClient (differs own rfl)
  | leave member => exact WsServer.same_removeMember (differs _ rfl)
  | finish own => exact WsServer.same_removeSender (differs own rfl)

theorem Moves.fits (fits : handler.Fits server)
    (fresh : ∀ own, handler.client = none → after.client = some own → server.Absent own) : after.Fits next := by
  cases moves with
  | turnAway => trivial
  | register own info empty =>
    obtain ⟨_, _, member⟩ := fresh own rfl rfl
    refine ⟨?_, fun room => iff_of_false (member room) ?_⟩
    · simp only [WsServer.insertClient, update_self, isSome_some]
    · simp only [WsServer.clientRooms, WsServer.insertClient, update_self, map_some,
        getD_some, empty]
      exact notMem_empty room
  | goOn calm still => exact (fits_iff_of_calm still).mpr ((fits_iff_of_calm calm).mp fits)
  | insertSender own => exact fits
  | subscribe own joined =>
    refine ⟨fits.1, fun room => ?_⟩
    rw [WsServer.mem_insertMember, fits.2]
    exact or_congr_left (and_iff_right rfl)
  | unsubscribe own left =>
    refine ⟨fits.1, fun room => ?_⟩
    rw [WsServer.mem_removeMember, fits.2]
    exact and_congr_left' (not_congr (and_iff_right rfl))
  | subscribed calm =>
    refine (fits_iff_of_calm calm).mpr ⟨WsServer.isSome_updateRooms fits.1, fun room => ?_⟩
    rw [WsServer.clientRooms_updateRooms fits.1, mem_insert]
    exact fits.2 room
  | unsubscribed calm =>
    refine (fits_iff_of_calm calm).mpr ⟨WsServer.isSome_updateRooms fits.1, fun room => ?_⟩
    rw [WsServer.clientRooms_updateRooms fits.1, mem_erase]
    exact fits.2 room
  | disconnect own result => exact ⟨update_self _ _ _, fits.2⟩
  | @leave own rooms left result member =>
    refine ⟨fits.1, fun room => ?_⟩
    rw [WsServer.mem_removeMember, fits.2, mem_erase]
    exact and_congr_left' (not_congr (and_iff_right rfl))
  | finish own result =>
    exact ⟨fits.1, notMem_erase own _, fun room member => notMem_empty room ((fits.2 room).mp member)⟩

end

theorem agree_of_absent (absent : server.Absent own) (room : String) : own ∈ server.roomMembers room ↔
    room ∈ server.clientRooms own := by
  obtain ⟨client, _, member⟩ := absent
  refine iff_of_false (member room) ?_
  unfold WsServer.clientRooms
  rw [client]
  exact notMem_empty room

theorem Fits.agree (fits : handler.Fits server) (mine : handler.client = some own) (idle : ¬ handler.Busy own)
    (room : String) :
    own ∈ server.roomMembers room ↔ room ∈ server.clientRooms own := by
  cases handler with
  | accepted => cases mine
  | subscribing | unsubscribing | cleaning =>
    cases mine
    exact absurd rfl idle
  | ended =>
    cases mine
    exact agree_of_absent fits room
  | _ =>
    cases mine
    exact fits.2 room

end Handler

/-- The server with the handlers of its connections. `issued` are the client ids drawn so far, of which none
is drawn again. -/
structure Connections (ι : Type) where
  server : WsServer := {}
  handlers : ι → Handler := fun _ => .accepted
  issued : List ClientId := []

namespace Connections
variable {ι : Type} [DecidableEq ι] (listeners : ι → Listener) (w : Connections ι)

structure Label (ι : Type) where
  connection : ι
  occurrence : Occurrence

def step (label : Label ι) : Option (Connections ι) :=
  match Handler.step (listeners label.connection) w.server (w.handlers label.connection) label.occurrence with
  | none => none
  | some (server, handler) =>
    let handlers := update w.handlers label.connection handler
    match (w.handlers label.connection).client, handler.client with
    | none, some clientId => if clientId ∈ w.issued then none else some ⟨server, handlers, clientId :: w.issued⟩
    | _, _ => some ⟨server, handlers, w.issued⟩

def Busy (clientId : ClientId) : Prop := ∃ i, (w.handlers i).Busy clientId

def Symmetric : Prop :=
  ∀ clientId, ¬ w.Busy clientId → ∀ room, clientId ∈ w.server.roomMembers room ↔ room ∈ w.server.clientRooms clientId

def CleanedUp : Prop :=
  ∀ i clientId result, w.handlers i = .ended (some clientId) result → w.server.Absent clientId

/-- The step does not lose the reply of a handshake. -/
def RepliesArrive (label : Label ι) : Prop := ¬ (w.handlers label.connection).LosesReply label.occurrence

def Tidy : Prop := w.Symmetric ∧ w.CleanedUp

structure Kept : Prop where
  fits : ∀ i, (w.handlers i).Fits w.server
  apart : ∀ i j own, (w.handlers i).client = some own → (w.handlers j).client = some own → i = j
  issued : ∀ own, own ∈ w.issued ↔ ∃ i, (w.handlers i).client = some own
  absent : ∀ own, own ∉ w.issued → w.server.Absent own

variable {listeners w} {next : Connections ι} {label : Label ι}

theorem step_cases (stepped : w.step listeners label = some next) :
    ∃ after, Handler.step (listeners label.connection) w.server (w.handlers label.connection) label.occurrence = some
      (next.server, after) ∧
      next.handlers = update w.handlers label.connection after ∧
      ((∃ own, (w.handlers label.connection).client = none ∧ after.client = some own ∧ own ∉ w.issued ∧
        next.issued = own :: w.issued) ∨
        ((w.handlers label.connection).client = none → after.client = none) ∧ next.issued = w.issued) := by
  unfold step at stepped
  split at stepped
  · cases stepped
  · rename_i server after moved
    dsimp only at stepped
    split at stepped
    · rename_i own unregistered registered
      obtain ⟨fresh, same⟩ := ite_none_left_eq_some.mp stepped
      cases same
      exact ⟨after, moved, rfl, .inl ⟨own, unregistered, registered, fresh, rfl⟩⟩
    · rename_i other
      cases stepped
      refine ⟨after, moved, rfl, .inr ⟨fun unregistered => ?_, rfl⟩⟩
      cases registered : after.client with
      | none => rfl
      | some own => exact (other own unregistered registered).elim

omit [DecidableEq ι] in
theorem Kept.tidy (kept : w.Kept) : w.Tidy := by
  constructor
  · intro own idle room
    by_cases known : own ∈ w.issued
    · obtain ⟨i, mine⟩ := (kept.issued own).mp known
      exact (kept.fits i).agree mine (fun busy => idle ⟨i, busy⟩) room
    · exact Handler.agree_of_absent (kept.absent own known) room
  · intro i own result ended
    have fits := kept.fits i
    rw [ended] at fits
    exact fits

structure Effect (w next : Connections ι) (i : ι) (after : Handler) : Prop where
  moves : Handler.Moves w.server (w.handlers i) next.server after
  own : next.handlers i = after
  others : ∀ j, j ≠ i → next.handlers j = w.handlers j
  issued : ∀ id, id ∈ next.issued ↔ id ∈ w.issued ∨ after.client = some id
  foreign : ∀ j id, j ≠ i → (w.handlers j).client = some id → after.client ≠ some id
  fresh : ∀ id, (w.handlers i).client = none → after.client = some id → w.server.Absent id

theorem Kept.effect (kept : w.Kept) (arrives : w.RepliesArrive label) (stepped : w.step listeners label = some next) :
    ∃ after, Effect w next label.connection after := by
  obtain ⟨after, moved, handlers, issuing⟩ := step_cases stepped
  have moves := Handler.step_moves moved arrives
  have own : next.handlers label.connection = after := by rw [handlers, update_self]
  have others : ∀ j, j ≠ label.connection → next.handlers j = w.handlers j := by
    intro j different
    rw [handlers, update_of_ne different]
  rcases issuing with ⟨drawn, unregistered, registered, fresh, same⟩ | ⟨unregistered, same⟩
  · refine ⟨after, moves, own, others, fun id => ?_, fun j id different theirs mine => ?_, fun id _ mine => ?_⟩
    · rw [same, List.mem_cons, registered, some_inj, or_comm, eq_comm]
    · rw [registered] at mine
      cases mine
      exact fresh ((kept.issued drawn).mpr ⟨j, theirs⟩)
    · rw [registered] at mine
      cases mine
      exact kept.absent drawn fresh
  · have before : ∀ id, after.client = some id → (w.handlers label.connection).client = some id := by
      intro id mine
      rcases moves.client with none | before
      · rw [unregistered none] at mine
        cases mine
      · exact before.trans mine
    refine ⟨after, moves, own, others, fun id => ?_, fun j id different theirs mine => ?_, fun id none mine => ?_⟩
    · rw [same]
      exact (or_iff_left_of_imp fun mine => (kept.issued id).mpr ⟨label.connection, before id mine⟩).symm
    · exact different (kept.apart j label.connection id theirs (before id mine))
    · rw [unregistered none] at mine
      cases mine

section
omit [DecidableEq ι]
variable {i : ι} {after : Handler} (effect : Effect w next i after) (kept : w.Kept)
include effect kept

theorem Effect.fits (j : ι) : (next.handlers j).Fits next.server := by
  by_cases same : j = i
  · subst same
    rw [effect.own]
    exact effect.moves.fits (kept.fits j) effect.fresh
  · rw [effect.others j same]
    exact (kept.fits j).of_same (fun id theirs => effect.moves.same (effect.foreign j id same theirs))

theorem Effect.apart (j k : ι) (id : ClientId) (first : (next.handlers j).client = some id)
    (second : (next.handlers k).client = some id) :
    j = k := by
  have mixed : ∀ a b, a = i → b ≠ i → (next.handlers a).client = some id → (next.handlers b).client = some id →
      a = b := by
    rintro a b rfl different mine theirs
    rw [effect.own] at mine
    rw [effect.others b different] at theirs
    exact absurd mine (effect.foreign b id different theirs)
  by_cases left : j = i
  · by_cases right : k = i
    · exact left.trans right.symm
    · exact mixed j k left right first second
  · by_cases right : k = i
    · exact (mixed k j right left second first).symm
    · rw [effect.others j left] at first
      rw [effect.others k right] at second
      exact kept.apart j k id first second

theorem Effect.issued_iff (id : ClientId) : id ∈ next.issued ↔ ∃ j, (next.handlers j).client = some id := by
  rw [effect.issued]
  constructor
  · rintro (known | mine)
    · obtain ⟨j, theirs⟩ := (kept.issued id).mp known
      refine ⟨j, ?_⟩
      by_cases same : j = i
      · subst same
        rcases effect.moves.client with none | before
        · rw [none] at theirs
          cases theirs
        · rw [effect.own, ← before]
          exact theirs
      · rw [effect.others j same]
        exact theirs
    · exact ⟨i, effect.own ▸ mine⟩
  · rintro ⟨j, theirs⟩
    by_cases same : j = i
    · subst same
      exact .inr (effect.own ▸ theirs)
    · rw [effect.others j same] at theirs
      exact .inl ((kept.issued id).mpr ⟨j, theirs⟩)

theorem Effect.absent (id : ClientId) (unknown : id ∉ next.issued) : next.server.Absent id := by
  obtain ⟨before, foreign⟩ := not_or.mp (fun known => unknown ((effect.issued id).mpr known))
  exact (effect.moves.same foreign).absent (kept.absent id before)

end

theorem Kept.step (kept : w.Kept) (arrives : w.RepliesArrive label) (stepped : w.step listeners label = some next) :
    next.Kept := by
  obtain ⟨after, effect⟩ := kept.effect arrives stepped
  exact ⟨effect.fits kept, effect.apart kept, effect.issued_iff kept, effect.absent kept⟩

theorem Kept.not_tidy (kept : w.Kept) (lost : ¬ w.RepliesArrive label)
    (stepped : w.step listeners label = some next) : ¬ next.Tidy := by
  obtain ⟨i, occurrence⟩ := label
  obtain ⟨after, moved, handlers, -⟩ := step_cases stepped
  have loses := not_not.mp lost
  have fits := kept.fits i
  dsimp only at moved handlers loses
  generalize w.handlers i = handler at moved loses fits
  unfold Handler.LosesReply at loses
  split at loses
  · rename_i own e
    obtain ⟨same, rfl⟩ := Prod.mk.inj (Option.some.inj moved)
    intro tidy
    have ended : next.handlers i = .ended (some own) (.error (sendFailed (listeners i) "auth response" e)) := by
      rw [handlers, update_self]
    obtain ⟨client, _⟩ := tidy.2 i own _ ended
    obtain ⟨present, _⟩ := fits
    rw [same, client] at present
    cases present
  · exact loses.elim

theorem lost_possible (lost : ¬ w.RepliesArrive label) : (w.step listeners label).isSome := by
  obtain ⟨i, occurrence⟩ := label
  have loses := not_not.mp lost
  unfold step
  dsimp only at loses ⊢
  generalize w.handlers i = handler at loses ⊢
  unfold Handler.LosesReply at loses
  split at loses
  · rfl
  · exact loses.elim

omit [DecidableEq ι] in
theorem Kept.init : ({} : Connections ι).Kept where
  fits _ := trivial
  apart _ _ _ mine := nomatch mine
  issued _ := ⟨fun known => absurd known List.not_mem_nil, fun ⟨_, mine⟩ => nomatch mine⟩
  absent _ _ := ⟨rfl, notMem_empty _, fun _ => notMem_empty _⟩

/-- Membership is symmetric and cleaned up throughout a run exactly when no reply of a handshake is lost in it. -/
theorem tidy_iff_replies_arrive {listeners : ι → Listener} {labels : List (Label ι)} :
    Throughout (step listeners) Tidy {} labels ↔ Along (step listeners) RepliesArrive {} labels := by
  have kept : ∀ {w next : Connections ι} {label : Label ι}, w.Kept → w.RepliesArrive label →
      w.step listeners label = some next → next.Kept :=
    fun kept arrives stepped => kept.step arrives stepped
  have forced : ∀ {w next : Connections ι} {label : Label ι}, w.Kept → w.step listeners label = some next →
      next.Tidy → w.RepliesArrive label :=
    fun kept stepped tidy => by_contra (fun lost => kept.not_tidy lost stepped tidy)
  rw [Lib.throughout_iff_possible (fun kept => Kept.tidy kept) kept forced Kept.init]
  constructor
  · exact Lib.along_mono (fun _ _ arrives => by_contra (fun lost => lost (arrives (lost_possible lost))))
  · exact Lib.along_mono (fun _ _ arrives _ => arrives)

def goneBeforeReply : List (Label Unit) :=
  [⟨(), .first (.text (.ok (.authenticate "token"))) (.ok ⟨"ada", "acme"⟩) 1 0⟩, ⟨(), .sent (.error "broken pipe")⟩]

theorem a_lost_reply_leaves_the_client : ¬ Throughout (step (fun _ => .axum)) Tidy {} goneBeforeReply := by
  intro held
  have cleaned := (held goneBeforeReply [] _ rfl rfl).2
  obtain ⟨client, _⟩ := cleaned () 1 _ rfl
  cases client

end Connections

end Aeterna.Realtime
