import PeerRelay.Proofs.Lobby.Operations
import PeerRelay.Proofs.Text.ByteOrder

/-!
The public list of a lobby. It has one entry for each public room, in the order of the bytes of
their ids, whichever order the rooms come in, and no request changes it without saying so.
-/
namespace PeerRelay
open Map

variable {relay : RelayAddress}

/-! Sorted lists -/

theorem isLE_compare_iff {a b : String} : (compare a b).isLE = true ↔ a ≤ b :=
  isLE_compareOfLessAndEq String.le_antisymm String.not_le String.le_total

theorem publicListings_perm (relay : RelayAddress) (rooms : List Room) :
    (publicListings relay rooms).Perm ((rooms.filter Room.isPublic).map fun r => r.listing relay) :=
  List.mergeSort_perm _ _

theorem publicListings_sorted (relay : RelayAddress) (rooms : List Room) :
    (publicListings relay rooms).Pairwise fun a b => a.serverId ≤ b.serverId := by
  have sorted : (publicListings relay rooms).Pairwise
      fun a b => (compare a.serverId b.serverId).isLE = true := by
    apply List.pairwise_mergeSort
    · exact fun a b c first second => Std.TransOrd.isLE_trans first second
    · intro a b
      rw [Bool.or_eq_true, isLE_compare_iff, isLE_compare_iff]
      exact String.le_total a.serverId b.serverId
  exact sorted.imp isLE_compare_iff.mp

theorem publicListings_ascending {rooms : List Room} (distinct : (rooms.map Room.id).Nodup) :
    (publicListings relay rooms).Pairwise fun a b => a.serverId < b.serverId := by
  have ids : ((publicListings relay rooms).map RoomListing.serverId).Nodup := by
    rw [((publicListings_perm relay rooms).map RoomListing.serverId).nodup_iff, List.map_map]
    exact distinct.sublist (List.filter_sublist.map Room.id)
  refine ((publicListings_sorted relay rooms).and (List.pairwise_map.mp ids)).imp fun {a b} h => ?_
  exact String.not_le.mp fun reversed => h.2 (String.le_antisymm h.1 reversed)

theorem publicListings_of_perm {rooms others : List Room} (distinct : (rooms.map Room.id).Nodup)
    (same : others.Perm rooms) : publicListings relay others = publicListings relay rooms := by
  have perm : (publicListings relay others).Perm (publicListings relay rooms) :=
    (publicListings_perm relay others).trans
      (((same.filter _).map _).trans (publicListings_perm relay rooms).symm)
  have others_distinct : (others.map Room.id).Nodup := (same.map Room.id).nodup_iff.mpr distinct
  refine List.Perm.eq_of_pairwise ?_ (publicListings_ascending others_distinct)
    (publicListings_ascending distinct) perm
  intro a b _ _ less greater
  exact (String.lt_asymm less greater).elim

/-! Entries -/

structure RoomListing.Describes (entry : RoomListing) (relay : RelayAddress) (room : Room) :
    Prop where
  serverId : entry.serverId = room.id
  hostId : entry.hostId = room.host.index
  serverName : entry.serverName = room.name
  serverData : entry.serverData = room.data
  isPublic : entry.isPublic = room.isPublic
  maxPlayers : entry.maxPlayers = room.maxPlayers
  currentPlayers : entry.currentPlayers.toInt = room.clients.length + 1
  relay : entry.relay = relay

theorem Room.currentPlayers_toInt {room : Room} (small : room.clients.length < Wire.maxCount) :
    room.currentPlayers.toInt = room.clients.length + 1 := by
  unfold Wire.maxCount at small
  rw [Room.currentPlayers, Wire.maxCount, Nat.min_eq_left (by omega),
    Int32.toInt_ofNat_of_lt (by omega)]
  rfl

theorem RoomListing.describes_iff {room : Room} {entry : RoomListing}
    (small : room.clients.length < Wire.maxCount) :
    entry.Describes relay room ↔ room.listing relay = entry := by
  constructor
  · intro h
    have players : room.currentPlayers = entry.currentPlayers :=
      Int32.toInt_inj.mp ((Room.currentPlayers_toInt small).trans h.currentPlayers.symm)
    cases entry
    simp only [Room.listing, RoomListing.mk.injEq]
    exact ⟨h.serverId.symm, h.hostId.symm, h.serverName.symm, h.serverData.symm, h.isPublic.symm,
      h.maxPlayers.symm, players, h.relay.symm⟩
  · rintro rfl
    exact ⟨rfl, rfl, rfl, rfl, rfl, rfl, Room.currentPlayers_toInt small, rfl⟩

/-- Where there is a free slot, there is also a number for one player more. -/
theorem Room.hasFreeSlot_small {room : Room} (free : room.hasFreeSlot = true) :
    room.clients.length + 1 < Wire.maxCount := by
  have less : room.currentPlayers < room.maxPlayers := by simpa [Room.hasFreeSlot] using free
  rw [Int32.lt_iff_toInt_lt] at less
  have bound := Int32.toInt_lt room.maxPlayers
  unfold Room.currentPlayers Wire.maxCount at *
  rw [Int32.toInt_ofNat_of_lt (by omega)] at less
  omega

namespace Lobby

variable {l : Lobby}

/-! What is in the list -/

theorem Consistent.ids_nodup (h : l.Consistent) : (l.rooms.values.map Room.id).Nodup := by
  have keys : l.rooms.values.map Room.id = l.rooms.keys := by
    rw [values_eq_map_toList, List.map_map, ← Std.ExtTreeMap.map_fst_toList_eq_keys]
    apply List.map_congr_left
    intro entry listed
    exact h.own_id (Std.ExtTreeMap.mem_toList_iff_getElem?_eq_some.mp listed)
  rw [keys]
  exact Std.ExtTreeMap.nodup_keys

theorem mem_listings_iff (h : l.Consistent) {entry : RoomListing} :
    entry ∈ l.listings relay ↔ ∃ room : Room, l.rooms[entry.serverId]? = some room ∧
      room.isPublic = true ∧ room.listing relay = entry := by
  rw [listings, (publicListings_perm relay l.rooms.values).mem_iff, List.mem_map]
  constructor
  · rintro ⟨room, mem, rfl⟩
    obtain ⟨stored, isPublic⟩ := List.mem_filter.mp mem
    obtain ⟨id, stored⟩ := mem_values_iff.mp stored
    obtain rfl := h.own_id stored
    exact ⟨room, stored, isPublic, rfl⟩
  · rintro ⟨room, stored, isPublic, rfl⟩
    exact ⟨room, List.mem_filter.mpr ⟨mem_values_iff.mpr ⟨_, stored⟩, isPublic⟩, rfl⟩

@[simp] theorem empty_listings (relay : RelayAddress) : empty.listings relay = [] := by
  apply List.eq_nil_iff_forall_not_mem.mpr
  intro entry mem
  obtain ⟨room, stored, _⟩ := (mem_listings_iff empty_consistent).mp mem
  simp [empty] at stored

/-! Numbers of players -/

def Uncrowded (l : Lobby) : Prop :=
  ∀ (id : String) (room : Room), l.rooms[id]? = some room → room.clients.length < Wire.maxCount

theorem serve_uncrowded (h : l.Consistent) (small : l.Uncrowded) (r : LobbyRequest) :
    (l.serve r).1.Uncrowded := by
  refine serve_every_room h ?_ ?_ ?_ ?_ small
  · exact fun id host s endpoint => (by decide : 0 < Wire.maxCount)
  · exact fun room c less => Nat.lt_of_le_of_lt (List.length_filter_le _ _) less
  · intro room c free _
    rw [List.length_append]
    exact Room.hasFreeSlot_small free
  · exact fun caller u room _ _ less => less

theorem history_uncrowded (requests : List LobbyRequest) :
    (empty.serveAll requests).1.Uncrowded := by
  have step : ∀ (l : Lobby) (r : LobbyRequest), l.Consistent ∧ l.Uncrowded →
      (l.serve r).1.Consistent ∧ (l.serve r).1.Uncrowded :=
    fun l r h => ⟨l.serve_consistent r h.1, serve_uncrowded h.1 h.2 r⟩
  refine (serveAll_invariant step requests ⟨empty_consistent, ?_⟩).2
  intro id room stored
  simp [empty] at stored

/-! What a request tells about the list -/

@[simp] theorem closeRoom_changed (l : Lobby) (host : ConnectionId) (id : String) :
    (l.closeRoom host id).2.roomsChanged = true := by
  unfold closeRoom
  dsimp only
  split <;> rfl

theorem leave_rooms (l : Lobby) (c : ConnectionId) (required : Option ConnectionId) :
    (l.leave c required).2.roomsChanged = true ∨ (l.leave c required).1.rooms = l.rooms := by
  unfold leave
  split
  · split
    · exact Or.inl (l.closeRoom_changed c _)
    · exact Or.inr rfl
  · split
    · exact Or.inr rfl
    · split
      · exact Or.inr rfl
      · split
        · exact Or.inl rfl
        · exact Or.inr rfl

theorem enter_rooms (l : Lobby) (c : ConnectionId) (req : JoinRequest) :
    (l.enter c req).2.roomsChanged = true ∨ (l.enter c req).1.rooms = l.rooms := by
  have a := enter_admission l c req
  generalize l.enter c req = result at a
  cases a with
  | refused full => exact Or.inr rfl
  | admitted stored free => exact Or.inl rfl

theorem updated_empty {u : RoomUpdate} (empty : u.isEmpty = true) (room : Room) :
    room.updated u = room := by
  simp only [RoomUpdate.isEmpty, Bool.and_eq_true, Option.isNone_iff_eq_none] at empty
  obtain ⟨⟨⟨name, data⟩, isPublic⟩, maxPlayers⟩ := empty
  simp [Room.updated, name, data, isPublic, maxPlayers]

theorem serve_rooms (l : Lobby) (r : LobbyRequest) :
    (l.serve r).2.roomsChanged = true ∨ (l.serve r).1.rooms = l.rooms := by
  cases r with
  | create host id settings endpoint =>
    rcases l.serve_create_cases host id settings endpoint with refused | created
    · exact Or.inr (by rw [refused])
    · obtain ⟨_, shape⟩ := create_ok_iff.mp created
      exact Or.inl (by rw [shape])
  | join caller request =>
    rcases l.leave_rooms caller none with changed | left
    · exact Or.inl (Bool.or_eq_true_iff.mpr (Or.inl changed))
    · rcases (l.leave caller none).1.enter_rooms caller request with changed | entered
      · exact Or.inl (Bool.or_eq_true_iff.mpr (Or.inr changed))
      · exact Or.inr (entered.trans left)
  | leave c required => exact l.leave_rooms c required
  | kick caller target => exact l.leave_rooms target (some caller)
  | update caller change =>
    rcases l.serve_update_cases caller change with refused | updated
    · exact Or.inr (by rw [refused])
    · obtain ⟨id, room, _, stored, shape⟩ := update_ok_iff.mp updated
      rw [shape]
      cases empty : change.isEmpty with
      | false => exact Or.inl rfl
      | true =>
        refine Or.inr ?_
        show l.rooms.insert id (room.updated change) = l.rooms
        rw [updated_empty empty, insert_found stored]

theorem serve_listings {l : Lobby} {r : LobbyRequest} (relay : RelayAddress)
    (silent : (l.serve r).2.roomsChanged = false) :
    (l.serve r).1.listings relay = l.listings relay := by
  rcases l.serve_rooms r with changed | same
  · rw [silent] at changed
    contradiction
  · rw [listings, same, listings]

end Lobby

end PeerRelay
