import PeerRelay.Room.Lobby
import PeerRelay.Proofs.Collections

/-!
What it means that the two indexes of a lobby say exactly what its rooms say, and three ways of
changing a lobby that keep it so. That nobody has two seats follows from the indexes.
-/
namespace PeerRelay

def Room.Seats (r : Room) (c : ConnectionId) : Prop := r.host = c ∨ c ∈ r.clients

namespace Lobby
open Map

/-- Rooms and indexes agree, and every room by itself is in order. -/
structure Consistent (l : Lobby) : Prop where
  own_id : ∀ {id : String} {room : Room}, l.rooms[id]? = some room → room.id = id
  hosts_iff : ∀ {c : ConnectionId} {id : String},
    l.hosts[c]? = some id ↔ ∃ room : Room, l.rooms[id]? = some room ∧ room.host = c
  members_iff : ∀ {c : ConnectionId} {id : String},
    l.members[c]? = some id ↔ ∃ room : Room, l.rooms[id]? = some room ∧ c ∈ room.clients
  clients_nodup : ∀ {id : String} {room : Room}, l.rooms[id]? = some room → room.clients.Nodup
  host_not_client : ∀ {id : String} {room : Room}, l.rooms[id]? = some room →
    room.host ∉ room.clients
  one_role : ∀ {c : ConnectionId} {id : String}, l.hosts[c]? = some id → l.members[c]? = none
  direct_endpoint : ∀ {id : String} {room : Room}, l.rooms[id]? = some room →
    room.supportsDirect = true → room.hostEndpoint.isSome = true

variable {l : Lobby}

theorem empty_consistent : Consistent empty := by
  constructor <;> simp [empty]

namespace Consistent

theorem host_indexed (h : l.Consistent) {id : String} {room : Room}
    (stored : l.rooms[id]? = some room) : l.hosts[room.host]? = some id :=
  h.hosts_iff.mpr ⟨room, stored, rfl⟩

theorem client_indexed (h : l.Consistent) {id : String} {room : Room} {c : ConnectionId}
    (stored : l.rooms[id]? = some room) (client : c ∈ room.clients) : l.members[c]? = some id :=
  h.members_iff.mpr ⟨room, stored, client⟩

theorem not_both_roles (h : l.Consistent) {c : ConnectionId} {hosted joined : String}
    (host : l.hosts[c]? = some hosted) (member : l.members[c]? = some joined) : False := by
  rw [h.one_role host] at member
  contradiction

theorem client_hosts_none (h : l.Consistent) {c : ConnectionId} {id : String} {room : Room}
    (stored : l.rooms[id]? = some room) (client : c ∈ room.clients) : l.hosts[c]? = none := by
  cases role : l.hosts[c]? with
  | none => rfl
  | some other => exact (h.not_both_roles role (h.client_indexed stored client)).elim

theorem seat_unique (h : l.Consistent) {c : ConnectionId} {id id' : String} {room room' : Room}
    (stored : l.rooms[id]? = some room) (stored' : l.rooms[id']? = some room')
    (seat : room.Seats c) (seat' : room'.Seats c) : id = id' := by
  rcases seat with host | client <;> rcases seat' with host' | client'
  · exact found_unique (host ▸ h.host_indexed stored) (host' ▸ h.host_indexed stored')
  · exact (h.not_both_roles (host ▸ h.host_indexed stored) (h.client_indexed stored' client')).elim
  · exact (h.not_both_roles (host' ▸ h.host_indexed stored') (h.client_indexed stored client)).elim
  · exact found_unique (h.client_indexed stored client) (h.client_indexed stored' client')

/-! What is found by way of the indexes -/

theorem hostedBy?_iff (h : l.Consistent) {c : ConnectionId} {room : Room} :
    l.hostedBy? c = some room ↔ ∃ id : String, l.rooms[id]? = some room ∧ room.host = c := by
  rw [hostedBy?, Option.bind_eq_some_iff]
  constructor
  · rintro ⟨id, listed, stored⟩
    obtain ⟨other, found, host⟩ := h.hosts_iff.mp listed
    obtain rfl := found_unique found stored
    exact ⟨id, found, host⟩
  · rintro ⟨id, stored, rfl⟩
    exact ⟨id, h.host_indexed stored, stored⟩

theorem joinedBy?_iff (h : l.Consistent) {c : ConnectionId} {room : Room} :
    l.joinedBy? c = some room ↔ ∃ id : String, l.rooms[id]? = some room ∧ c ∈ room.clients := by
  rw [joinedBy?, Option.bind_eq_some_iff]
  constructor
  · rintro ⟨id, listed, stored⟩
    obtain ⟨other, found, client⟩ := h.members_iff.mp listed
    obtain rfl := found_unique found stored
    exact ⟨id, found, client⟩
  · rintro ⟨id, stored, client⟩
    exact ⟨id, h.client_indexed stored client, stored⟩

theorem roomOf?_eq (h : l.Consistent) {c : ConnectionId} {id : String} {room : Room}
    (stored : l.rooms[id]? = some room) (seat : room.Seats c) : l.roomOf? c = some room := by
  rw [roomOf?, Option.bind_eq_some_iff]
  refine ⟨id, ?_, stored⟩
  rcases seat with rfl | client
  · rw [h.host_indexed stored]
    rfl
  · rw [h.client_hosts_none stored client]
    exact h.client_indexed stored client

/-! Three ways of changing a lobby that keep it consistent: other clients in a room, a room less,
    a room more. -/

theorem reseat (h : l.Consistent) {id : String} {room changed : Room}
    {members : ConnectionMap String} (stored : l.rooms[id]? = some room)
    (same_id : changed.id = room.id) (same_host : changed.host = room.host)
    (same_direct : changed.supportsDirect = room.supportsDirect)
    (same_endpoint : changed.hostEndpoint = room.hostEndpoint)
    (nodup : changed.clients.Nodup)
    (newcomers : ∀ c ∈ changed.clients,
      c ∈ room.clients ∨ l.hosts[c]? = none ∧ l.members[c]? = none)
    (index : ∀ c, members[c]? =
      if c ∈ changed.clients then some id else if c ∈ room.clients then none else l.members[c]?) :
    Consistent { l with rooms := l.rooms.insert id changed, members } := by
  have hosted := h.host_indexed stored
  have no_host : ∀ c ∈ changed.clients, l.hosts[c]? = none := by
    intro c mem
    rcases newcomers c mem with old | ⟨free, _⟩
    · exact h.client_hosts_none stored old
    · exact free
  constructor
  case own_id =>
    intro id' room' found
    rcases found_insert_iff.mp found with ⟨rfl, rfl⟩ | ⟨_, found⟩
    · exact same_id.trans (h.own_id stored)
    · exact h.own_id found
  case hosts_iff =>
    intro c id'
    rw [h.hosts_iff]
    constructor
    · rintro ⟨other, found, host⟩
      by_cases same : id' = id
      · subst same
        obtain rfl := found_unique stored found
        exact ⟨changed, found_insert_iff.mpr (Or.inl ⟨rfl, rfl⟩), same_host.trans host⟩
      · exact ⟨other, found_insert_iff.mpr (Or.inr ⟨same, found⟩), host⟩
    · rintro ⟨other, found, host⟩
      rcases found_insert_iff.mp found with ⟨rfl, rfl⟩ | ⟨_, found⟩
      · exact ⟨room, stored, same_host.symm.trans host⟩
      · exact ⟨other, found, host⟩
  case members_iff =>
    intro c id'
    rw [index]
    constructor
    · intro listed
      split at listed
      · rename_i mem
        obtain rfl := Option.some.inj listed
        exact ⟨changed, found_insert_iff.mpr (Or.inl ⟨rfl, rfl⟩), mem⟩
      · split at listed
        · contradiction
        · rename_i gone
          obtain ⟨other, found, mem⟩ := h.members_iff.mp listed
          refine ⟨other, found_insert_iff.mpr (Or.inr ⟨?_, found⟩), mem⟩
          rintro rfl
          exact gone (found_unique stored found ▸ mem)
    · rintro ⟨other, found, mem⟩
      rcases found_insert_iff.mp found with ⟨rfl, rfl⟩ | ⟨elsewhere, found⟩
      · rw [if_pos mem]
      · have listed := h.client_indexed found mem
        have outside : c ∉ room.clients := fun inside =>
          elsewhere (found_unique listed (h.client_indexed stored inside))
        have stranger : c ∉ changed.clients := by
          intro inside
          rcases newcomers c inside with old | ⟨_, unlisted⟩
          · exact outside old
          · rw [unlisted] at listed
            contradiction
        rw [if_neg stranger, if_neg outside, listed]
  case clients_nodup =>
    intro id' room' found
    rcases found_insert_iff.mp found with ⟨rfl, rfl⟩ | ⟨_, found⟩
    · exact nodup
    · exact h.clients_nodup found
  case host_not_client =>
    intro id' room' found
    rcases found_insert_iff.mp found with ⟨rfl, rfl⟩ | ⟨_, found⟩
    · intro mem
      have free := no_host _ mem
      rw [same_host, hosted] at free
      contradiction
    · exact h.host_not_client found
  case one_role =>
    intro c id' host
    rw [index]
    split
    · rename_i mem
      rw [no_host c mem] at host
      contradiction
    · split
      · rfl
      · exact h.one_role host
  case direct_endpoint =>
    intro id' room' found
    rcases found_insert_iff.mp found with ⟨rfl, rfl⟩ | ⟨_, found⟩
    · rw [same_direct, same_endpoint]
      exact h.direct_endpoint stored
    · exact h.direct_endpoint found

theorem dissolve (h : l.Consistent) {id : String} {room : Room} {members : ConnectionMap String}
    (stored : l.rooms[id]? = some room)
    (index : ∀ c, members[c]? = if c ∈ room.clients then none else l.members[c]?) :
    Consistent { rooms := l.rooms.erase id, hosts := l.hosts.erase room.host, members } := by
  constructor
  case own_id =>
    intro id' room' found
    exact h.own_id (found_erase_iff.mp found).2
  case hosts_iff =>
    intro c id'
    rw [found_erase_iff, h.hosts_iff]
    constructor
    · rintro ⟨other_host, other, found, host⟩
      refine ⟨other, found_erase_iff.mpr ⟨?_, found⟩, host⟩
      rintro rfl
      exact other_host (found_unique stored found ▸ host.symm)
    · rintro ⟨other, found, host⟩
      obtain ⟨elsewhere, found⟩ := found_erase_iff.mp found
      refine ⟨?_, other, found, host⟩
      rintro rfl
      exact elsewhere (h.seat_unique found stored (Or.inl host) (Or.inl rfl))
  case members_iff =>
    intro c id'
    rw [index]
    constructor
    · intro listed
      split at listed
      · contradiction
      · rename_i outside
        obtain ⟨other, found, mem⟩ := h.members_iff.mp listed
        refine ⟨other, found_erase_iff.mpr ⟨?_, found⟩, mem⟩
        rintro rfl
        exact outside (found_unique stored found ▸ mem)
    · rintro ⟨other, found, mem⟩
      obtain ⟨elsewhere, found⟩ := found_erase_iff.mp found
      have outside : c ∉ room.clients := fun inside =>
        elsewhere (h.seat_unique found stored (Or.inr mem) (Or.inr inside))
      rw [if_neg outside]
      exact h.client_indexed found mem
  case clients_nodup =>
    intro id' room' found
    exact h.clients_nodup (found_erase_iff.mp found).2
  case host_not_client =>
    intro id' room' found
    exact h.host_not_client (found_erase_iff.mp found).2
  case one_role =>
    intro c id' host
    rw [index]
    split
    · rfl
    · exact h.one_role (found_erase_iff.mp host).2
  case direct_endpoint =>
    intro id' room' found
    exact h.direct_endpoint (found_erase_iff.mp found).2

theorem install (h : l.Consistent) (room : Room) (free : l.rooms[room.id]? = none)
    (no_host : l.hosts[room.host]? = none) (no_client : l.members[room.host]? = none)
    (no_clients : room.clients = [])
    (direct : room.supportsDirect = true → room.hostEndpoint.isSome = true) :
    Consistent { l with
      rooms := l.rooms.insert room.id room, hosts := l.hosts.insert room.host room.id } := by
  constructor
  case own_id =>
    intro id' room' found
    rcases found_insert_iff.mp found with ⟨rfl, rfl⟩ | ⟨_, found⟩
    · rfl
    · exact h.own_id found
  case hosts_iff =>
    intro c id'
    constructor
    · intro host
      rcases found_insert_iff.mp host with ⟨rfl, rfl⟩ | ⟨_, host⟩
      · exact ⟨room, found_insert_iff.mpr (Or.inl ⟨rfl, rfl⟩), rfl⟩
      · obtain ⟨other, found, same⟩ := h.hosts_iff.mp host
        refine ⟨other, found_insert_iff.mpr (Or.inr ⟨?_, found⟩), same⟩
        rintro rfl
        rw [free] at found
        contradiction
    · rintro ⟨other, found, host⟩
      rcases found_insert_iff.mp found with ⟨rfl, rfl⟩ | ⟨_, found⟩
      · exact found_insert_iff.mpr (Or.inl ⟨host.symm, rfl⟩)
      · have listed := h.hosts_iff.mpr ⟨other, found, host⟩
        refine found_insert_iff.mpr (Or.inr ⟨?_, listed⟩)
        rintro rfl
        rw [no_host] at listed
        contradiction
  case members_iff =>
    intro c id'
    show l.members[c]? = some id' ↔ _
    rw [h.members_iff]
    constructor
    · rintro ⟨other, found, mem⟩
      refine ⟨other, found_insert_iff.mpr (Or.inr ⟨?_, found⟩), mem⟩
      rintro rfl
      rw [free] at found
      contradiction
    · rintro ⟨other, found, mem⟩
      rcases found_insert_iff.mp found with ⟨rfl, rfl⟩ | ⟨_, found⟩
      · simp [no_clients] at mem
      · exact ⟨other, found, mem⟩
  case clients_nodup =>
    intro id' room' found
    rcases found_insert_iff.mp found with ⟨rfl, rfl⟩ | ⟨_, found⟩
    · simp [no_clients]
    · exact h.clients_nodup found
  case host_not_client =>
    intro id' room' found
    rcases found_insert_iff.mp found with ⟨rfl, rfl⟩ | ⟨_, found⟩
    · simp [no_clients]
    · exact h.host_not_client found
  case one_role =>
    intro c id' host
    rcases found_insert_iff.mp host with ⟨rfl, _⟩ | ⟨_, host⟩
    · exact no_client
    · exact h.one_role host
  case direct_endpoint =>
    intro id' room' found
    rcases found_insert_iff.mp found with ⟨rfl, rfl⟩ | ⟨_, found⟩
    · exact direct
    · exact h.direct_endpoint found

end Consistent

end Lobby

end PeerRelay
