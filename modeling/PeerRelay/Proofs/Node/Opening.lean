import PeerRelay.Proofs.Dice
import PeerRelay.Proofs.Frame.RoundTrip
import PeerRelay.Proofs.Lobby.Seats
import PeerRelay.Proofs.Node.Board
import PeerRelay.Proofs.Node.Pooling
import PeerRelay.Proofs.Node.Service
import PeerRelay.Proofs.Uplink.Prefetch

/-!
What a request for a room comes to. The id is found before anything else is touched, and an id that
was found is free. So either there is none and nothing has happened, or the room is open: its host
has left what it was in, as by leaving, and is told the id last.
-/
namespace PeerRelay

namespace Lobby

variable {l : Lobby} {host : ConnectionId} {id : String} {settings : RoomSettings}
  {endpoint : Option Net.SocketAddress} {result : Lobby × Effects}

theorem create_seats (h : l.Consistent) (created : l.create host id settings endpoint = .ok result)
    {other : String} {room : Room} (stored : result.1.rooms[other]? = some room) :
    room.Seats host ↔ other = id := by
  have consistent := create_consistent h created
  have own : result.1.rooms[id]? = some (Room.opened id host settings endpoint) := by
    rw [(create_ok_iff.mp created).2]
    simp
  constructor
  · exact fun seat => consistent.seat_unique stored own seat (Or.inl rfl)
  · rintro rfl
    exact Map.found_unique own stored ▸ Or.inl rfl

end Lobby

namespace Node
open Wire (Bytes)

variable {n : Node} {now : Nat} {host : ConnectionId} {settings : RoomSettings}

/-! The id -/

def candidate (n : Node) (k : Nat) : String :=
  n.config.idAlphabet.word n.config.idLength (n.dice.roll k)

/-- The node uses ids of its balancer, and this is the oldest in stock that was fetched less than
    thirty seconds ago. -/
def Ready (n : Node) (now : Nat) (id : String) : Prop :=
  (∃ u, n.uplink = some u ∧ u.issuesRoomIds = true) ∧
    ∃ stale i rest, n.roomIds.ids = stale ++ i :: rest ∧ i.id = id ∧ now < i.fetched + 30000 ∧
      ∀ old ∈ stale, old.fetched + 30000 ≤ now

/-- An id of the balancer is ready, and no room of the node has it. -/
def Offered (n : Node) (now : Nat) (id : String) : Prop :=
  n.Ready now id ∧ n.lobby.rooms[id]? = none

/-- The first word that no room has, among as many as are looked at. -/
def FirstFree (n : Node) (id : String) : Prop :=
  ∃ k < 10000, n.candidate k = id ∧ n.lobby.rooms[id]? = none ∧
    ∀ j < k, n.lobby.rooms[n.candidate j]? ≠ none

def Exhausted (n : Node) (now : Nat) : Prop :=
  (∀ id, ¬ n.Offered now id) ∧ ∀ k < 10000, n.lobby.rooms[n.candidate k]? ≠ none

def Chosen (n : Node) (now : Nat) (id : String) : Prop :=
  n.Offered now id ∨ (∀ other, ¬ n.Offered now other) ∧ n.FirstFree id

theorem Chosen.new {id : String} (h : n.Chosen now id) : n.lobby.rooms[id]? = none := by
  rcases h with ⟨_, free⟩ | ⟨_, _, _, _, free, _⟩
  · exact free
  · exact free

theorem drawnId_eq (n : Node) :
    n.drawnId.1 = (n.dice.drawFree (n.config.idAlphabet.word n.config.idLength)
      n.lobby.contains maxIdAttempts).1 := by
  unfold drawnId drawRoomId
  generalize n.dice.drawFree _ _ _ = draw
  rfl

theorem drawnId_iff (n : Node) (id : String) : n.drawnId.1 = some id ↔ n.FirstFree id := by
  rw [drawnId_eq, Dice.drawFree_iff]
  simp only [Lobby.contains_eq_false, Lobby.contains_eq_true]
  rfl

theorem drawnId_none (n : Node) :
    n.drawnId.1 = none ↔ ∀ k < 10000, n.lobby.rooms[n.candidate k]? ≠ none := by
  rw [drawnId_eq, Dice.drawFree_none]
  simp only [Lobby.contains_eq_true]
  rfl

theorem newRoomId_eq (n : Node) (now : Nat) :
    (n.newRoomId now).1 =
      ((n.offeredId now).1.filter fun id => !n.lobby.contains id).or n.drawnId.1 := by
  obtain ⟨roomIds, offering⟩ := n.offeredId_state now
  have drawn : (n.offeredId now).2.drawnId.1 = n.drawnId.1 := by
    rw [offering, drawnId_eq, drawnId_eq]
  have lobby : (n.offeredId now).2.lobby = n.lobby := by rw [offering]
  unfold newRoomId
  generalize n.offeredId now = offer at drawn lobby
  obtain ⟨offered, m⟩ := offer
  dsimp only at drawn lobby ⊢
  cases offered with
  | none => exact drawn
  | some id =>
    cases free : n.lobby.contains id with
    | true => simp [lobby, free, drawn, Option.filter_some]
    | false => simp [lobby, free, Option.filter_some]

theorem offeredId_iff {id : String} : (n.offeredId now).1 = some id ↔ n.Ready now id := by
  rw [Ready, ← Option.any_eq_true, offeredId]
  split
  · rename_i uses
    exact IdStock.take_eq_some.trans (iff_and_self.mpr fun _ => uses)
  · rename_i unused
    exact ⟨nofun, fun ready => (unused ready.1).elim⟩

theorem offered_iff {id : String} :
    ((n.offeredId now).1.filter fun id => !n.lobby.contains id) = some id ↔ n.Offered now id := by
  rw [Option.filter_eq_some_iff, Bool.not_eq_true', Lobby.contains_eq_false, offeredId_iff, Offered]

theorem unoffered_iff :
    ((n.offeredId now).1.filter fun id => !n.lobby.contains id) = none ↔
      ∀ id, ¬ n.Offered now id := by
  simp only [Option.eq_none_iff_forall_ne_some, ne_eq, offered_iff]

theorem newRoomId_some (n : Node) (now : Nat) (id : String) :
    (n.newRoomId now).1 = some id ↔ n.Chosen now id := by
  rw [newRoomId_eq, Option.or_eq_some_iff, offered_iff, unoffered_iff, drawnId_iff, Chosen]

theorem newRoomId_none (n : Node) (now : Nat) :
    (n.newRoomId now).1 = none ↔ n.Exhausted now := by
  rw [newRoomId_eq, Option.or_eq_none_iff, unoffered_iff, drawnId_none, Exhausted]

/-! The room -/

theorem apply_changed (n : Node) {effects : Effects} (changed : effects.roomsChanged = true) :
    ∃ buffers, (n.apply effects).1 =
      { n with
        buffers
        board := RoomBoard.post (n.lobby.listings n.relay)
        boardChanged := true } := by
  obtain ⟨buffers, state⟩ := n.deliverAll_state effects.outbound
  refine ⟨buffers, ?_⟩
  unfold apply
  simp only [changed, if_true, state, refreshBoard]
  rfl

structure Opened (n : Node) (now packet : Nat) (host : ConnectionId) (settings : RoomSettings)
    (id : String) (answer : Node × List Action) : Prop where
  chosen : n.Chosen now id
  new : n.lobby.rooms[id]? = none
  room : answer.1.lobby.rooms[id]? = some (Room.opened id host settings (n.endpoint? host))
  seat : ∀ {other : String} {room : Room}, answer.1.lobby.rooms[other]? = some room →
    (room.Seats host ↔ other = id)
  /-- Everything else in the lobby is as after the host has left. -/
  left : answer.1.lobby =
    { (n.lobby.leave host none).1 with
      rooms := (n.lobby.leave host none).1.rooms.insert id
        (Room.opened id host settings (n.endpoint? host))
      hosts := (n.lobby.leave host none).1.hosts.insert host id }
  elsewhere : ∀ {other : String} {room : Room}, n.lobby.rooms[other]? = some room →
    ¬ room.Seats host → answer.1.lobby.rooms[other]? = some room
  /-- The frames of the departure are followed by the one that tells the host the id. -/
  sends : answer.2 = ((n.lobby.leave host none).2.outbound ++
    [(⟨host, .roomCreated id⟩ : Outbound)]).filterMap fun o => o.packet? packet
  /-- Beside the lobby and its list only the sources of ids and the pooled buffers change. -/
  rest : ∃ roomIds dice buffers, answer.1 =
    { n with
      roomIds, dice, buffers
      lobby := answer.1.lobby
      board := RoomBoard.post (answer.1.lobby.listings n.relay)
      boardChanged := true }

theorem openRoom_exhausted (exhausted : n.Exhausted now) (host : ConnectionId)
    (settings : RoomSettings) :
    ∃ roomIds dice, n.openRoom now host settings = ({ n with roomIds, dice }, []) := by
  obtain ⟨roomIds, dice, state⟩ := n.newRoomId_state now
  have none := (n.newRoomId_none now).mpr exhausted
  refine ⟨roomIds, dice, ?_⟩
  unfold openRoom
  generalize n.newRoomId now = draw at state none
  obtain ⟨drawn, m⟩ := draw
  cases none
  cases state
  rfl

theorem openRoom_chosen {id : String} (chosen : n.Chosen now id)
    (drawn : (n.newRoomId now).1 = some id) (host : ConnectionId) (settings : RoomSettings) :
    ∃ roomIds dice result, n.lobby.create host id settings (n.endpoint? host) = .ok result ∧
      n.openRoom now host settings =
        { n with roomIds, dice, lobby := result.1 }.apply result.2 := by
  obtain ⟨roomIds, dice, state⟩ := n.newRoomId_state now
  obtain ⟨result, created⟩ : ∃ result,
      n.lobby.create host id settings (n.endpoint? host) = .ok result :=
    ⟨_, Lobby.create_ok_iff.mpr ⟨chosen.new, rfl⟩⟩
  refine ⟨roomIds, dice, result, created, ?_⟩
  unfold openRoom
  generalize n.newRoomId now = draw at state drawn
  obtain ⟨found, m⟩ := draw
  cases drawn
  cases state
  dsimp only
  split
  · rename_i lobby effects same
    obtain rfl := Except.ok.inj (created.symm.trans same)
    rfl
  · rename_i refused
    exact nomatch created.symm.trans refused

theorem openRoom_opened (consistent : n.lobby.Consistent) (uniform : n.buffers.Uniform)
    {id : String} (chosen : n.Chosen now id) (host : ConnectionId) (settings : RoomSettings) :
    Opened n now n.buffers.bufferSize host settings id (n.openRoom now host settings) := by
  obtain ⟨roomIds, dice, result, created, opening⟩ :=
    openRoom_chosen chosen ((n.newRoomId_some now id).mpr chosen) host settings
  obtain ⟨new, shape⟩ := Lobby.create_ok_iff.mp created
  have lobby : (n.openRoom now host settings).1.lobby = result.1 := by
    rw [opening, apply_lobby]
  constructor
  case chosen => exact chosen
  case new => exact new
  case room =>
    rw [lobby, shape]
    simp
  case seat =>
    intro other room stored
    exact Lobby.create_seats consistent created (lobby ▸ stored)
  case left => rw [lobby, shape]
  case elsewhere =>
    intro other room stored away
    have kept : (n.lobby.leave host none).1.rooms[other]? = n.lobby.rooms[other]? :=
      Lobby.leave_elsewhere consistent none fun found here => Map.found_unique stored here ▸ away
    have differs : other ≠ id := by
      rintro rfl
      rw [new] at stored
      contradiction
    rw [lobby, shape]
    exact Map.found_insert_iff.mpr (Or.inr ⟨differs, kept.trans stored⟩)
  case sends =>
    rw [opening, apply_packets (by exact uniform), shape]
  case rest =>
    obtain ⟨buffers, state⟩ :=
      ({ n with roomIds, dice, lobby := result.1 } : Node).apply_changed
        (show result.2.roomsChanged = true by rw [shape])
    refine ⟨roomIds, dice, buffers, ?_⟩
    rw [lobby, opening, state]
    rfl

/-- A room is opened whenever there is an id for it. If no id of the balancer is ready and free, and
    the ten thousand words that are looked at all name rooms, then the request changes nothing but
    what ids are drawn from, and nobody is told. In every other case the room is open, and its host
    has left its former room: under the oldest id of the balancer that is not too old, if there is
    one and no room has it, or else under the first free word. An id that was found is never refused
    for being taken. -/
theorem room_creation_all_or_nothing (config : NodeConfig) (authenticator : Authenticator)
    (rendezvous : Option Rendezvous) (uplink : Option Uplink) (dice : Dice) (started : Nat)
    (past : List Happening) (now : Nat) (host : ConnectionId) (bytes : Bytes) (channel : Channel)
    (settings : RoomSettings) :
    let n := (start config authenticator rendezvous uplink dice started).after past
    let answer := n.handle now (.transport (.data host bytes channel))
    n.sessions.isAuthenticated host = true →
      ClientFrame.decode bytes = .ok (.createRoom settings) →
        (n.Exhausted now → ∃ roomIds dice, answer = ({ n with roomIds, dice }, [])) ∧
          (¬ n.Exhausted now → ∃ id, Opened n now config.maxPacket host settings id answer) ∧
          ∀ id, (n.newRoomId now).1 = some id → ∃ result,
            (n.newRoomId now).2.lobby.create host id settings
              ((n.newRoomId now).2.endpoint? host) = .ok result := by
  intro n answer known read
  have opening : answer = n.openRoom now host settings :=
    (n.receive_frame now host channel read nofun).trans (if_pos known)
  obtain ⟨uniform, size⟩ : n.buffers.Uniform ∧ n.buffers.bufferSize = config.maxPacket :=
    reached_pool config authenticator rendezvous uplink dice started past
  have consistent : n.lobby.Consistent := by
    obtain ⟨requests, lobby⟩ := after_lobby _ past
    exact lobby ▸ Lobby.history_consistent requests
  rw [opening, ← size]
  refine ⟨fun exhausted => openRoom_exhausted exhausted host settings, ?_, ?_⟩
  · intro available
    obtain ⟨id, drawn⟩ := Option.ne_none_iff_exists'.mp (mt (n.newRoomId_none now).mp available)
    have chosen := (n.newRoomId_some now id).mp drawn
    exact ⟨id, openRoom_opened consistent uniform chosen host settings⟩
  · intro id drawn
    obtain ⟨roomIds, dice, state⟩ := n.newRoomId_state now
    rw [state]
    exact ⟨_, Lobby.create_ok_iff.mpr ⟨((n.newRoomId_some now id).mp drawn).new, rfl⟩⟩

/-- A small node has two ids in stock, and its first peer has the key accepted. -/
def idsStocked : List Happening :=
  [.upkeep ⟨[⟨"41", 0⟩, ⟨"42", 5⟩]⟩ 0 false, .event 6 (arrived ⟨1⟩),
   .event 7 (spoken ⟨1⟩ (.keyResponse "key"))]

/-- When the first id is too old, the room is opened under the second, though the first word of the
    dice is free. -/
theorem stocked_id_opens_room :
    let n := smallNode.after idsStocked
    let settings : RoomSettings := ⟨4, "Lobby", true, "", false, "", false, 0⟩
    n.sessions.isAuthenticated ⟨1⟩ = true ∧ n.FirstFree "01" ∧
      Opened n 30001 64 ⟨1⟩ settings "42"
        (n.handle 30001 (spoken ⟨1⟩ (.createRoom settings))) := by
  intro n settings
  have known : n.sessions.isAuthenticated ⟨1⟩ = true := by decide +kernel
  have drawn : n.FirstFree "01" := ⟨0, by decide, by decide +kernel, by decide +kernel, nofun⟩
  have ready : (n.offeredId 30001).1 = some "42" := by decide +kernel
  have offered : n.Offered 30001 "42" := ⟨offeredId_iff.mp ready, by decide +kernel⟩
  have read : ClientFrame.decode ((ClientFrame.createRoom settings).fields.flatMap
      Wire.Field.bytes) = .ok (.createRoom settings) := by
    have fits : Wire.Fits (ClientFrame.createRoom settings).fields
        (List.replicate 64 (0 : UInt8)).length := by decide +kernel
    exact ClientFrame.decode_encoded _ (Wire.encodeInto_ok_iff.mpr ⟨fits, rfl⟩)
  have opening := room_creation_all_or_nothing smallNode.config smallNode.authenticator none
    smallNode.uplink ⟨fun _ i => i, 0⟩ 0 idsStocked 30001 ⟨1⟩ _ .reliable settings known read
  obtain ⟨id, opened⟩ := opening.2.1 fun exhausted => exhausted.1 "42" offered
  rcases opened.chosen with ⟨other, _⟩ | ⟨none, _⟩
  · obtain rfl := Option.some.inj (ready.symm.trans (offeredId_iff.mpr other))
    exact ⟨known, drawn, opened⟩
  · exact (none "42" offered).elim

end Node

end PeerRelay
