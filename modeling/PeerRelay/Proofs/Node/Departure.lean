import PeerRelay.Proofs.Json.Listing
import PeerRelay.Proofs.Node.Closing

/-!
What a node keeps of a connection after its departure: nothing, in any of its stores, nor in the
list of rooms that it serves. What belongs to others stays, and to report the departure once more
makes no difference.
-/
namespace PeerRelay.Node

def resolve? (n : Node) (token : String) (source : Net.SocketAddress) : Option ConnectionId :=
  n.rendezvous.bind fun r => (r.resolve token source).1

/-- The node after the departure of a connection, store by store. -/
structure Departed (n : Node) (c : ConnectionId) (after : Node) : Prop where
  sessions : ∀ x, after.sessions.get? x = if x = c then none else n.sessions.get? x
  endpoints : ∀ x, after.endpoint? x = if x = c then none else n.endpoint? x
  tokens : ∀ token source x, after.resolve? token source = some x ↔
    x ≠ c ∧ n.resolve? token source = some x
  indexes : after.lobby.hosts[c]? = none ∧ after.lobby.members[c]? = none
  seats : ∀ (id : String) (room : Room), after.lobby.rooms[id]? = some room →
    room.host ≠ c ∧ c ∉ room.clients
  /-- Where it was neither host nor client, a room or the lack of one stays. -/
  rooms : ∀ id : String,
    (∀ room : Room, n.lobby.rooms[id]? = some room → room.host ≠ c ∧ c ∉ room.clients) →
      after.lobby.rooms[id]? = n.lobby.rooms[id]?
  served : Probe.readRooms after.board.json = .ok after.board.listings
  listed : ∀ entry ∈ after.board.listings, entry.hostId ≠ c.index

variable {n : Node} {c : ConnectionId}

theorem not_seats_iff {room : Room} : ¬ room.Seats c ↔ room.host ≠ c ∧ c ∉ room.clients := not_or

theorem dismiss_resolve? (tracked : n.peers.Tracked) (token : String)
    (source : Net.SocketAddress) (x : ConnectionId) :
    (n.dismiss c).1.resolve? token source = some x ↔
      x ≠ c ∧ n.resolve? token source = some x := by
  rw [resolve?, resolve?, dismiss_rendezvous]
  cases here : n.rendezvous with
  | none => simp
  | some r => exact Rendezvous.forget_resolve (tracked.matched here)

@[simp] theorem dismiss_endpoint? (n : Node) (c x : ConnectionId) :
    (n.dismiss c).1.endpoint? x = if x = c then none else n.endpoint? x := by
  rw [endpoint?, endpoint?, dismiss_rendezvous]
  cases n.rendezvous with
  | none => simp
  | some r => exact Rendezvous.forget_endpoint?

theorem listed_host_seated (rooms : n.lobby.Consistent) {entry : RoomListing}
    (listed : entry ∈ n.lobby.listings n.relay) (host : entry.hostId = c.index) :
    n.lobby.Seated c := by
  obtain ⟨room, stored, _, rfl⟩ := (Lobby.mem_listings_iff rooms).mp listed
  have same : room.host = c := congrArg ConnectionId.mk host
  exact ⟨_, room, stored, Or.inl same⟩

theorem dismiss_departed (rooms : n.lobby.Consistent) (tracked : n.peers.Tracked)
    (posted : n.front.Posted) (now : Nat) :
    Departed n c (n.handle now (.transport (.disconnected c))).1 := by
  obtain ⟨peers, lobby⟩ := Prod.mk.inj (n.dismiss_stores c)
  have sessions : (n.dismiss c).1.sessions = n.sessions.disconnect c := (Peers.mk.inj peers).1
  have later : (n.dismiss c).1.front.Posted :=
    (n.handle_turn now (.transport (.disconnected c))).posted posted
  have board : (n.dismiss c).1.board = _ := later
  have unseated : ¬ (n.dismiss c).1.lobby.Seated c := by
    rw [lobby]
    exact Lobby.leave_not_seated rooms c
  have consistent : (n.dismiss c).1.lobby.Consistent := by
    rw [lobby]
    exact Lobby.leave_consistent rooms c none
  constructor
  case sessions =>
    intro x
    exact (congrArg (·.get? x) sessions).trans SessionTable.get?_disconnect
  case endpoints => exact n.dismiss_endpoint? c
  case tokens => exact dismiss_resolve? tracked
  case indexes =>
    show (n.dismiss c).1.lobby.hosts[c]? = none ∧ (n.dismiss c).1.lobby.members[c]? = none
    rw [lobby]
    exact Lobby.leave_absent rooms c
  case seats =>
    exact fun id room stored => not_seats_iff.mp fun seat => unseated ⟨id, room, stored, seat⟩
  case rooms =>
    intro id away
    show (n.dismiss c).1.lobby.rooms[id]? = _
    rw [lobby]
    exact Lobby.leave_elsewhere rooms none fun room stored => not_seats_iff.mpr (away room stored)
  case served =>
    show Probe.readRooms (n.dismiss c).1.board.json = .ok (n.dismiss c).1.board.listings
    rw [board]
    exact Probe.readRooms_listText _
  case listed =>
    intro entry listed host
    have current : (n.dismiss c).1.board.listings =
        (n.dismiss c).1.lobby.listings (n.dismiss c).1.relay := congrArg RoomBoard.listings board
    exact unseated (listed_host_seated consistent (current ▸ listed) host)

/-- Who has no session has left nothing else behind. -/
theorem stranger_untraced (accounted : n.Accounted fun _ => True) (tracked : n.peers.Tracked)
    (stranger : n.sessions.get? c = none) : ¬ n.Traces c := by
  rintro (seated | ⟨r, here, known⟩)
  · obtain ⟨s, found, _⟩ := accounted.seats seated
    rw [stranger] at found
    contradiction
  · exact tracked.present here known stranger

theorem dismiss_again (accounted : n.Accounted fun _ => True) (tracked : n.peers.Tracked)
    (stranger : n.sessions.get? c = none) : n.dismiss c = (n, []) := by
  have absent : n.sessions.disconnect c = n.sessions :=
    SessionTable.disconnect_absent stranger
  rw [dismiss_untraced accounted.rooms (stranger_untraced accounted tracked stranger), absent]

/-- After any history the departure of a connection takes everything that the node keeps of it, and
    nothing of anybody else. Until another connection comes under its id, a further report of the
    departure changes nothing and nothing is sent. -/
theorem departure_leaves_no_trace (config : NodeConfig) (authenticator : Authenticator)
    (port : Option UInt16) (uplink : Option Uplink) (dice : Dice) (started : Nat)
    (past : List Happening) (now : Nat) (c : ConnectionId) :
    let n := (start config authenticator (port.map .new) uplink dice started).after past
    let report : NodeEvent := .transport (.disconnected c)
    let gone := (n.handle now report).1
    Departed n c gone ∧
      ∀ later : List Happening, later.any (·.arrives c) = false →
        ∀ time, (gone.after later).handle time report = (gone.after later, []) := by
  intro n report gone
  have accounted : n.Accounted fun _ => True :=
    after_accounted (fun _ => trivial) start_accounted (Or.inr fun _ => trivial)
  have tracked : n.peers.Tracked := after_tracked start_tracked past
  refine ⟨dismiss_departed accounted.rooms tracked (after_posted start_posted past) now, ?_⟩
  intro later away time
  have kept : (gone.after later).Accounted fun _ => True :=
    after_accounted (fun _ => trivial) (dismiss_sound accounted c).accounted
      (Or.inr fun _ => trivial)
  have stranger : (gone.after later).sessions.get? c = none :=
    after_stranger (n.dismiss_stranger c) away
  exact dismiss_again kept (after_tracked (dismiss_tracked tracked c) later) stranger

end PeerRelay.Node
