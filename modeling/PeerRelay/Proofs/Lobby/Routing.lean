import PeerRelay.Proofs.Lobby.Operations

/-!
Where relayed data goes: from a host to the client it names, and from a client to its host. So data
stays in the room of its sender, never comes back to it and never goes from client to client, and
only a host is told who has sent it.
-/
namespace PeerRelay

inductive Room.Passes (room : Room) (payload : Wire.Bytes) (target : ConnectionId) :
    ConnectionId → Outbound → Prop where
  | toClient (client : target ∈ room.clients) :
      room.Passes payload target room.host ⟨target, .receivedData payload none⟩
  | toHost {sender : ConnectionId} (client : sender ∈ room.clients) :
      room.Passes payload target sender ⟨room.host, .receivedData payload (some sender)⟩

namespace Lobby
open Map

variable {l : Lobby} {id : String} {room : Room} {sender target : ConnectionId}
  {payload : Wire.Bytes} {o : Outbound}

theorem route_host (h : l.Consistent) (stored : l.rooms[id]? = some room) :
    l.route room.host payload target =
      if target ∈ room.clients then .ok ⟨target, .receivedData payload none⟩
      else .error (.notInRoom target) := by
  have hosted : l.hostedBy? room.host = some room := h.hostedBy?_iff.mpr ⟨id, stored, rfl⟩
  simp [route, hosted, Room.hasClient]

theorem route_client (h : l.Consistent) (stored : l.rooms[id]? = some room)
    (client : sender ∈ room.clients) :
    l.route sender payload target = .ok ⟨room.host, .receivedData payload (some sender)⟩ := by
  have joined : l.joinedBy? sender = some room := h.joinedBy?_iff.mpr ⟨id, stored, client⟩
  have no_host : l.hostedBy? sender = none := by
    cases hosted : l.hostedBy? sender with
    | none => rfl
    | some other =>
      obtain ⟨id', found, host⟩ := h.hostedBy?_iff.mp hosted
      exact (h.not_both_roles (host ▸ h.host_indexed found) (h.client_indexed stored client)).elim
  rw [route, no_host, joined]

theorem route_ok_iff (h : l.Consistent) :
    l.route sender payload target = .ok o ↔
      ∃ (id : String) (room : Room), l.rooms[id]? = some room ∧
        room.Passes payload target sender o := by
  constructor
  · intro routed
    cases hosted : l.hostedBy? sender with
    | some room =>
      obtain ⟨id, stored, rfl⟩ := h.hostedBy?_iff.mp hosted
      rw [route_host h stored] at routed
      split at routed
      · rename_i client
        obtain rfl := Except.ok.inj routed
        exact ⟨id, room, stored, .toClient client⟩
      · contradiction
    | none =>
      cases joined : l.joinedBy? sender with
      | some room =>
        obtain ⟨id, stored, client⟩ := h.joinedBy?_iff.mp joined
        rw [route_client h stored client] at routed
        obtain rfl := Except.ok.inj routed
        exact ⟨id, room, stored, .toHost client⟩
      | none =>
        rw [route, hosted, joined] at routed
        contradiction
  · rintro ⟨id, room, stored, client | client⟩
    · rw [route_host h stored, if_pos client]
    · exact route_client h stored client

/-- What is delivered stays in the one room of the sender, between its host and another in it. -/
structure Confined (l : Lobby) (sender : ConnectionId) (payload : Wire.Bytes) (o : Outbound) :
    Prop where
  not_back : o.recipient ≠ sender
  same_room : ∀ {id : String} {room : Room}, l.rooms[id]? = some room → room.Seats sender →
    room.Seats o.recipient
  not_between_clients : ∀ {id id' : String} {room room' : Room}, l.rooms[id]? = some room →
    l.rooms[id']? = some room' → sender ∈ room.clients → o.recipient ∉ room'.clients
  tagged : ∃ tag : Option ConnectionId, o.frame = .receivedData payload tag ∧
    (tag ≠ none ↔ ∃ (id : String) (room : Room),
      l.rooms[id]? = some room ∧ room.host = o.recipient) ∧
    ∀ c, tag = some c → c = sender ∧ ∃ (id : String) (room : Room),
      l.rooms[id]? = some room ∧ room.host = o.recipient ∧ c ∈ room.clients

theorem passes_confined (h : l.Consistent) (stored : l.rooms[id]? = some room)
    (passes : room.Passes payload target sender o) : l.Confined sender payload o := by
  have own_room : ∀ {id' : String} {room' : Room} {c : ConnectionId}, room.Seats c →
      l.rooms[id']? = some room' → room'.Seats c → room' = room := by
    intro id' room' c seat stored' seat'
    obtain rfl := h.seat_unique stored stored' seat seat'
    exact found_unique stored' stored
  cases passes with
  | toClient client =>
    refine ⟨?_, ?_, ?_, none, rfl, ?_, by simp⟩
    · rintro (rfl : target = room.host)
      exact h.host_not_client stored client
    · intro id' room' stored' seat
      rw [own_room (Or.inl rfl) stored' seat]
      exact Or.inr client
    · intro id' _ room' _ stored' _ client' _
      rw [own_room (Or.inl rfl) stored' (Or.inr client')] at client'
      exact h.host_not_client stored client'
    · refine ⟨fun some => (some rfl).elim, ?_⟩
      rintro ⟨id', room', stored', host⟩
      rw [own_room (Or.inr client) stored' (Or.inl host)] at host
      exact (h.host_not_client stored (host ▸ client)).elim
  | toHost client =>
    refine ⟨?_, ?_, ?_, some sender, rfl, ?_, ?_⟩
    · rintro (rfl : room.host = sender)
      exact h.host_not_client stored client
    · intro id' room' stored' seat
      rw [own_room (Or.inr client) stored' seat]
      exact Or.inl rfl
    · intro _ id' _ room' _ stored' _ client'
      rw [own_room (Or.inl rfl) stored' (Or.inr client')] at client'
      exact h.host_not_client stored client'
    · exact ⟨fun _ => ⟨id, room, stored, rfl⟩, fun _ => by simp⟩
    · intro c same
      obtain rfl := Option.some.inj same
      exact ⟨rfl, id, room, stored, rfl, client⟩

/-- After every history data gets through exactly from a host to a client of its room and from a
    client to its host, and whatever gets through is confined to the room. -/
theorem data_stays_in_room (requests : List LobbyRequest) (sender target : ConnectionId)
    (payload : Wire.Bytes) :
    let l := (empty.serveAll requests).1
    (∀ o, l.route sender payload target = .ok o ↔
      ∃ (id : String) (room : Room), l.rooms[id]? = some room ∧
        room.Passes payload target sender o) ∧
      ((∃ o, l.route sender payload target = .ok o) ↔
        ∃ (id : String) (room : Room), l.rooms[id]? = some room ∧
          (room.host = sender ∧ target ∈ room.clients ∨ sender ∈ room.clients)) ∧
      ∀ o, l.route sender payload target = .ok o → l.Confined sender payload o := by
  have h := history_consistent requests
  refine ⟨fun o => route_ok_iff h, ⟨?_, ?_⟩, ?_⟩
  · rintro ⟨o, routed⟩
    obtain ⟨id, room, stored, client | client⟩ := (route_ok_iff h).mp routed
    · exact ⟨id, room, stored, Or.inl ⟨rfl, client⟩⟩
    · exact ⟨id, room, stored, Or.inr client⟩
  · rintro ⟨id, room, stored, ⟨rfl, client⟩ | client⟩
    · exact ⟨_, (route_ok_iff h).mpr ⟨id, room, stored, .toClient client⟩⟩
    · exact ⟨_, (route_ok_iff h).mpr ⟨id, room, stored, .toHost client⟩⟩
  · intro o routed
    obtain ⟨id, room, stored, passes⟩ := (route_ok_iff h).mp routed
    exact passes_confined h stored passes

end Lobby

end PeerRelay
