import PeerRelay.Proofs.Lobby.Listings
import PeerRelay.Proofs.Lobby.Seats

/-!
How many get into a room. Who asks for a room is first taken out of the one it is in; then it gets
in exactly if the room is there and has a place, and otherwise the departure is all that happened.
As long as no host lowers its limit no room has more clients than its limit admits.
-/
namespace PeerRelay

/-- One player more fits in beside the host and the clients. -/
def Room.HasPlace (r : Room) : Prop := (r.clients.length : Int) + 1 < r.maxPlayers.toInt

instance (r : Room) : Decidable r.HasPlace :=
  inferInstanceAs (Decidable ((r.clients.length : Int) + 1 < r.maxPlayers.toInt))

theorem Room.hasFreeSlot_iff {room : Room} : room.hasFreeSlot = true ↔ room.HasPlace := by
  have counted : room.hasFreeSlot = true ↔ room.currentPlayers.toInt < room.maxPlayers.toInt := by
    simp [Room.hasFreeSlot, Int32.lt_iff_toInt_lt]
  constructor
  · intro free
    have small := Room.hasFreeSlot_small free
    rw [counted, Room.currentPlayers_toInt (by omega)] at free
    exact free
  · intro place
    have bound := Int32.toInt_lt room.maxPlayers
    have small : room.clients.length < Wire.maxCount := by
      unfold Wire.maxCount
      unfold Room.HasPlace at place
      omega
    rw [counted, Room.currentPlayers_toInt small]
    exact place

namespace Lobby
open Map

def HasPlace (l : Lobby) (id : String) : Prop :=
  ∃ room : Room, l.rooms[id]? = some room ∧ room.HasPlace

def seat (l : Lobby) (c : ConnectionId) (id : String) (room : Room) : Lobby :=
  { l with
    rooms := l.rooms.insert id { room with clients := room.clients ++ [c] }
    members := l.members.insert c id }

variable {l : Lobby} {c : ConnectionId} {req : JoinRequest}

/-! Admission -/

theorem enter_place (h : l.Consistent) {room : Room} (stored : l.rooms[req.room]? = some room)
    (place : room.HasPlace) :
    l.enter c req =
      (l.seat c req.room room, { outbound := introductions room c req, roomsChanged := true }) := by
  have found : l.get? req.room = some room := stored
  simp [enter, found, Room.hasFreeSlot_iff.mpr place, seat, h.own_id stored]

theorem enter_no_place (full : ¬ l.HasPlace req.room) :
    l.enter c req = (l, { outbound := [⟨c, .roomLeft⟩] }) := by
  have a := enter_admission l c req
  generalize l.enter c req = result at a
  cases a with
  | refused => rfl
  | @admitted room stored free => exact (full ⟨room, stored, Room.hasFreeSlot_iff.mp free⟩).elim

theorem enter_seated_iff (h : l.Consistent) (outside : ¬ l.Seated c) :
    (l.enter c req).1.Seated c ↔ l.HasPlace req.room := by
  constructor
  · intro seated
    by_cases place : l.HasPlace req.room
    · exact place
    · rw [enter_no_place place] at seated
      exact (outside seated).elim
  · rintro ⟨room, stored, place⟩
    rw [enter_place h stored place]
    exact ⟨req.room, _, found_insert_iff.mpr (Or.inl ⟨rfl, rfl⟩), Or.inr (by simp)⟩

/-- What comes of the request of `c` for a room, once `c` has left its own: it is seated as the last
    client and there is still room for the host, or the lobby stays and `c` is told once. -/
structure Decided (left : Lobby × Effects) (c : ConnectionId) (req : JoinRequest)
    (result : Lobby × Effects) : Prop where
  seated_iff : result.1.Seated c ↔ left.1.HasPlace req.room
  admitted : ∀ {room : Room}, left.1.rooms[req.room]? = some room → room.HasPlace →
    result = (left.1.seat c req.room room,
      { outbound := left.2.outbound ++ introductions room c req, roomsChanged := true }) ∧
    ((room.clients ++ [c]).length : Int) < room.maxPlayers.toInt
  refused : ¬ left.1.HasPlace req.room →
    result = (left.1,
      { outbound := left.2.outbound ++ [⟨c, .roomLeft⟩], roomsChanged := left.2.roomsChanged })

theorem join_decided (h : l.Consistent) (c : ConnectionId) (req : JoinRequest) :
    Decided (l.leave c none) c req (l.join c req) where
  seated_iff := enter_seated_iff (leave_consistent h c none) (leave_not_seated h c)
  admitted {room} stored place := by
    refine ⟨?_, by simpa [Room.HasPlace] using place⟩
    simp [join, enter_place (leave_consistent h c none) stored place]
  refused full := by
    simp [join, enter_no_place full]

/-! Limits -/

def WithinLimits (l : Lobby) : Prop :=
  ∀ (id : String) (room : Room), l.rooms[id]? = some room →
    room.clients = [] ∨ (room.clients.length : Int) < room.maxPlayers.toInt

def lowersLimit (l : Lobby) : LobbyRequest → Bool
  | .update caller change =>
    (l.hostedBy? caller).any fun room => change.maxPlayers.any (· < room.maxPlayers)
  | _ => false

def limitsKept (l : Lobby) : List LobbyRequest → Bool
  | [] => true
  | r :: rest => !l.lowersLimit r && (l.serve r).1.limitsKept rest

theorem updated_limit {caller : ConnectionId} {u : RoomUpdate} {room : Room}
    (hosted : l.hostedBy? caller = some room) (kept : l.lowersLimit (.update caller u) = false) :
    room.maxPlayers.toInt ≤ (room.updated u).maxPlayers.toInt := by
  simp only [Room.updated]
  cases change : u.maxPlayers with
  | none => exact Int.le_refl _
  | some limit =>
    simp only [lowersLimit, hosted, change, Option.any_some, decide_eq_false_iff_not,
      Int32.lt_iff_toInt_lt] at kept
    exact Int.not_lt.mp kept

theorem serve_within (h : l.Consistent) (within : l.WithinLimits) {r : LobbyRequest}
    (kept : l.lowersLimit r = false) : (l.serve r).1.WithinLimits := by
  refine serve_every_room h ?_ ?_ ?_ ?_ within
  · exact fun id host s endpoint => Or.inl rfl
  · intro room c within
    rcases within with none | below
    · exact Or.inl (by simp [none])
    · have fewer := List.length_filter_le (· != c) room.clients
      exact Or.inr (Int.lt_of_le_of_lt (Int.ofNat_le.mpr fewer) below)
  · intro room c free _
    exact Or.inr (by simpa [Room.HasPlace] using Room.hasFreeSlot_iff.mp free)
  · rintro caller u room rfl hosted within
    exact within.imp_right fun below => Int.lt_of_lt_of_le below (updated_limit hosted kept)

theorem history_within (requests : List LobbyRequest) (h : l.Consistent)
    (within : l.WithinLimits) (kept : l.limitsKept requests = true) :
    (l.serveAll requests).1.WithinLimits := by
  induction requests generalizing l with
  | nil => exact within
  | cons r rest ih =>
    obtain ⟨first, others⟩ := Bool.and_eq_true_iff.mp kept
    rw [serveAll_cons]
    exact ih (serve_consistent l r h) (serve_within h within (by simpa using first)) others

theorem limitsKept_earlier {earlier requests : List LobbyRequest} (begins : earlier <+: requests)
    (kept : l.limitsKept requests = true) : l.limitsKept earlier = true := by
  induction earlier generalizing l requests with
  | nil => rfl
  | cons r rest ih =>
    obtain ⟨later, rfl⟩ := begins
    obtain ⟨first, others⟩ := Bool.and_eq_true_iff.mp kept
    exact Bool.and_eq_true_iff.mpr ⟨first, ih (List.prefix_append rest later) others⟩

/-- After every history: a request for a room is decided by whether the room has a place once the
    one who asks has left its own; the number of players of a room is exact; and if no host has
    ever lowered its limit, every room has been within its limit all along. -/
theorem admission_by_place (requests : List LobbyRequest) :
    let l := (empty.serveAll requests).1
    (∀ c req, Decided (l.leave c none) c req (l.join c req)) ∧
      (∀ (id : String) (room : Room), l.rooms[id]? = some room →
        room.currentPlayers.toInt = room.clients.length + 1) ∧
      (empty.limitsKept requests = true → ∀ earlier, earlier <+: requests →
        (empty.serveAll earlier).1.WithinLimits) := by
  have h := history_consistent requests
  refine ⟨join_decided h, fun id room stored => ?_, fun kept earlier begins => ?_⟩
  · exact Room.currentPlayers_toInt (history_uncrowded requests id room stored)
  · refine history_within earlier empty_consistent ?_ (limitsKept_earlier begins kept)
    intro id room stored
    simp [empty] at stored

def fullRoom : List LobbyRequest :=
  let into : JoinRequest := ⟨"A", true, "", none⟩
  [.create ⟨1⟩ "A" ⟨2, "Lobby", true, "", false, "", false, 0⟩ none, .join ⟨2⟩ into, .join ⟨3⟩ into,
   .join ⟨2⟩ into]

theorem full_room_decided :
    let l := (empty.serveAll fullRoom).1
    let into : JoinRequest := ⟨"A", true, "", none⟩
    empty.limitsKept fullRoom = true ∧ l.WithinLimits ∧
      (l.join ⟨2⟩ into).1.Seated ⟨2⟩ ∧ ¬ (l.join ⟨3⟩ into).1.Seated ⟨3⟩ := by
  intro l into
  let room (clients : List ConnectionId) : Room :=
    ⟨"A", ⟨1⟩, clients, "Lobby", "", true, 2, none, "", false, false, 0⟩
  obtain ⟨decided, -, within⟩ := admission_by_place fullRoom
  have kept : empty.limitsKept fullRoom = true := by decide +kernel
  refine ⟨kept, within kept fullRoom (List.prefix_refl _),
    (decided ⟨2⟩ into).seated_iff.mpr ⟨room [], ?_, by decide⟩, ?_⟩
  · show (l.leave ⟨2⟩ none).1.rooms["A"]? = some (room [])
    decide +kernel
  · rw [(decided ⟨3⟩ into).seated_iff]
    rintro ⟨other, stored, place⟩
    have full : (l.leave ⟨3⟩ none).1.rooms["A"]? = some (room [⟨2⟩]) := by decide +kernel
    rw [found_unique stored full] at place
    exact absurd place (by decide)

end Lobby

end PeerRelay
