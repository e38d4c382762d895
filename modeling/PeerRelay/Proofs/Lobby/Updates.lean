import PeerRelay.Proofs.Lobby.Operations

/-!
Changes of a room by its host. A change replaces the fields that are present in it and nothing else
of the lobby, so two changes in a row are one, in which the later fields go before the earlier ones.
Nobody else can change a room, its clients included.
-/
namespace PeerRelay

inductive Replaced {α : Type} : Option α → α → α → Prop where
  | kept (value : α) : Replaced none value value
  | named (old new : α) : Replaced (some new) old new

theorem replaced_getD {α : Type} (change : Option α) (old : α) :
    Replaced change old (change.getD old) := by
  cases change with
  | none => exact .kept old
  | some new => exact .named old new

def RoomUpdate.NamesSome (u : RoomUpdate) : Prop :=
  u.name.isSome ∨ u.data.isSome ∨ u.isPublic.isSome ∨ u.maxPlayers.isSome

@[simp] theorem RoomUpdate.isEmpty_eq_false {u : RoomUpdate} : u.isEmpty = false ↔ u.NamesSome := by
  simp only [isEmpty, NamesSome, Bool.and_eq_false_iff, Option.isNone_eq_false_iff, or_assoc]

namespace Room

/-- A room before and after a change. What a change cannot name is as it was. -/
structure Revised (u : RoomUpdate) (before after : Room) : Prop where
  name : Replaced u.name before.name after.name
  data : Replaced u.data before.data after.data
  isPublic : Replaced u.isPublic before.isPublic after.isPublic
  maxPlayers : Replaced u.maxPlayers before.maxPlayers after.maxPlayers
  others : after = { before with
    name := after.name, data := after.data, isPublic := after.isPublic,
    maxPlayers := after.maxPlayers }

theorem updated_revised (u : RoomUpdate) (room : Room) : Revised u room (room.updated u) where
  name := replaced_getD ..
  data := replaced_getD ..
  isPublic := replaced_getD ..
  maxPlayers := replaced_getD ..
  others := rfl

/-- A field is what the later change has for it, else what the earlier one has, else what it was. -/
@[simp] theorem updated_updated (room : Room) (first second : RoomUpdate) :
    (room.updated first).updated second = room.updated (first.andThen second) := by
  simp only [updated, RoomUpdate.andThen, Option.getD_or]

end Room

namespace Lobby
open Map

variable {l : Lobby} {caller : ConnectionId} {id : String} {room : Room} {u : RoomUpdate}

/-- What a change of a room makes of the lobby. Nothing is sent, and the public list is out of date
    unless the change is empty. -/
structure Revised (l : Lobby) (room : Room) (u : RoomUpdate) (result : Lobby × Effects) :
    Prop where
  own : ∃ later, result.1.rooms[room.id]? = some later ∧ room.Revised u later
  elsewhere : ∀ id : String, id ≠ room.id → result.1.rooms[id]? = l.rooms[id]?
  hosts : result.1.hosts = l.hosts
  members : result.1.members = l.members
  silent : result.2.outbound = []
  changed_iff : result.2.roomsChanged = true ↔ u.NamesSome

def Refuses (l : Lobby) (caller : ConnectionId) (u : RoomUpdate) : Prop :=
  l.update caller u = .error (.notHost caller) ∧ l.serve (.update caller u) = (l, {})

def revise (l : Lobby) (room : Room) (u : RoomUpdate) : Lobby :=
  { l with rooms := l.rooms.insert room.id (room.updated u) }

theorem update_host (h : l.Consistent) (stored : l.rooms[id]? = some room)
    (host : room.host = caller) (u : RoomUpdate) :
    l.update caller u = .ok (l.revise room u, { roomsChanged := !u.isEmpty }) := by
  have own := h.own_id stored
  exact update_ok_iff.mpr
    ⟨id, room, host ▸ h.host_indexed stored, stored, by rw [revise, own]⟩

theorem update_stranger (h : l.Consistent)
    (none_hosted : ∀ (id : String) (room : Room), l.rooms[id]? = some room → room.host ≠ caller)
    (u : RoomUpdate) : l.Refuses caller u := by
  have unlisted : l.hosts[caller]? = none := by
    rw [Option.eq_none_iff_forall_ne_some]
    intro id listed
    obtain ⟨room, stored, host⟩ := h.hosts_iff.mp listed
    exact none_hosted id room stored host
  have refused : l.update caller u = .error (.notHost caller) := by
    simp only [update, unlisted]
  refine ⟨refused, ?_⟩
  rw [serve, refused]
  rfl

theorem client_hosts_nothing (h : l.Consistent) (stored : l.rooms[id]? = some room)
    (client : caller ∈ room.clients) :
    ∀ (id : String) (room : Room), l.rooms[id]? = some room → room.host ≠ caller := by
  rintro id' room' stored' rfl
  exact h.not_both_roles (h.host_indexed stored')
    (h.client_indexed stored client)

theorem revise_revised (l : Lobby) (room : Room) (u : RoomUpdate) :
    l.Revised room u (l.revise room u, { roomsChanged := !u.isEmpty }) where
  own := ⟨room.updated u, Std.ExtTreeMap.getElem?_insert_self, room.updated_revised u⟩
  elsewhere id other := by
    have different : room.id ≠ id := Ne.symm other
    simp [revise, Std.ExtTreeMap.getElem?_insert, different]
  hosts := rfl
  members := rfl
  silent := rfl
  changed_iff := by rw [← RoomUpdate.isEmpty_eq_false, Bool.not_eq_true']

theorem revise_revise (l : Lobby) (room : Room) (first second : RoomUpdate) :
    (l.revise room first).revise (room.updated first) second =
      l.revise room (first.andThen second) := by
  have own : (room.updated first).id = room.id := rfl
  simp only [revise, own, insert_insert, Room.updated_updated]

/-- After every history, the host of a room can change it. A change replaces in this room the fields
    that are present, leaves everything else, sends nothing and asks for a new public list exactly
    if a field is present. Two changes in a row end in the same lobby as the one change that has
    the fields of the second where they are present and those of the first elsewhere. A connection
    that hosts no room, be it a client of one, is refused and nothing changes. -/
theorem changes_compose (requests : List LobbyRequest) (caller : ConnectionId) :
    let l := (empty.serveAll requests).1
    (∀ (id : String) (room : Room), l.rooms[id]? = some room → room.host = caller →
      (∀ u, ∃ result, l.update caller u = .ok result ∧ l.Revised room u result) ∧
      ∀ first second, ∃ between last effects, l.update caller first = .ok between ∧
        between.1.update caller second = .ok last ∧
        l.update caller (first.andThen second) = .ok (last.1, effects)) ∧
      ((∀ (id : String) (room : Room), l.rooms[id]? = some room → room.host ≠ caller) →
        ∀ u, l.Refuses caller u) ∧
      ∀ (id : String) (room : Room), l.rooms[id]? = some room → caller ∈ room.clients →
        ∀ u, l.Refuses caller u := by
  intro l
  have h : l.Consistent := history_consistent requests
  refine ⟨fun id room stored host => ⟨fun u => ?_, fun first second => ?_⟩, ?_, ?_⟩
  · exact ⟨_, update_host h stored host u, l.revise_revised room u⟩
  · have changed := update_host h stored host first
    have later : (l.revise room first).rooms[room.id]? = some (room.updated first) :=
      Std.ExtTreeMap.getElem?_insert_self
    have again := update_host (update_consistent h changed) later host second
    have once := update_host h stored host (first.andThen second)
    rw [← revise_revise] at once
    exact ⟨_, _, _, changed, again, once⟩
  · exact update_stranger h
  · exact fun id room stored client =>
      update_stranger h (client_hosts_nothing h stored client)

end Lobby

end PeerRelay
