import PeerRelay.Proofs.Lobby.Listings
import PeerRelay.Proofs.Node.History
import PeerRelay.Proofs.Node.Peers

/-!
The board of a node. An event leaves rooms and board as they are, or it makes one request to the
lobby and has the board posted anew if the request tells of a change. So the lobby of a node has a
history of requests, and the board is always the list of its rooms.
-/
namespace PeerRelay.Node
open Wire (Bytes)

variable {n : Node}

structure Front where
  lobby : Lobby
  board : RoomBoard
  relay : RelayAddress

def front (n : Node) : Front := ⟨n.lobby, n.board, n.relay⟩

inductive Turn (n : Node) : Front → Prop where
  | kept : Turn n n.front
  | served (r : LobbyRequest) :
      Turn n
        ⟨(n.lobby.serve r).1,
         if (n.lobby.serve r).2.roomsChanged then
           RoomBoard.post ((n.lobby.serve r).1.listings n.relay)
         else n.board,
         n.relay⟩

@[simp] theorem deliver_front (n : Node) (o : Outbound) : (n.deliver o).1.front = n.front := by
  obtain ⟨buffers, state⟩ := n.deliver_state o
  rw [state]
  rfl

theorem apply_front (n : Node) (effects : Effects) :
    (n.apply effects).1.front =
      ⟨n.lobby,
       if effects.roomsChanged then RoomBoard.post (n.lobby.listings n.relay) else n.board,
       n.relay⟩ := by
  obtain ⟨buffers, state⟩ := n.deliverAll_state effects.outbound
  unfold apply
  cases effects.roomsChanged with
  | true =>
    simp only [state]
    rfl
  | false =>
    show (n.deliverAll effects.outbound).1.front = _
    rw [state]
    rfl

@[simp] theorem invite_front (n : Node) (c : ConnectionId) : (n.invite c).1.front = n.front := by
  unfold invite
  split
  · rfl
  · split
    · rfl
    · exact deliver_front _ _

@[simp] theorem authenticate_front (n : Node) (c : ConnectionId) (key : String) :
    (n.authenticate c key).1.front = n.front := by
  have v := n.authenticate_verdict c key
  generalize n.authenticate c key = answer at v
  cases v with
  | refused => rfl
  | admitted accepted =>
    rw [invite_front, deliver_front]
    rfl

theorem obey_turn (n : Node) (now : Nat) (c : ConnectionId) (channel : Channel)
    (frame : ClientFrame) : Turn n (n.obey now c channel frame).1.front := by
  have o := n.obey_obedience now c channel frame
  generalize n.obey now c channel frame = answer at o
  cases o with
  | drawn roomIds dice => exact .kept
  | named =>
    rw [apply_front]
    exact .kept
  | @served roomIds dice r actor =>
    rw [settle, apply_front]
    exact .served r
  | passed payload target =>
    obtain ⟨buffers, state⟩ := n.forward_state c payload target channel
    rw [state]
    exact .kept

theorem handle_turn (n : Node) (now : Nat) (e : NodeEvent) : Turn n (n.handle now e).1.front := by
  cases e with
  | transport t =>
    cases t with
    | connected id remote =>
      simpa [handle, welcome] using .kept
    | data id bytes channel =>
      rw [handle]
      rcases n.receive_cases now id bytes channel with dropped | ⟨key, read⟩ | ⟨_, frame, read⟩
      · rw [dropped]
        exact .kept
      · rw [read, authenticate_front]
        exact .kept
      · rw [read]
        exact n.obey_turn now id channel frame
    | disconnected id =>
      rw [handle, dismiss, apply_front]
      exact .served (.leave id none)
  | datagram bytes source =>
    rw [handle]
    unfold receiveDatagram
    split <;> exact .kept
  | heartbeat => exact .kept

theorem undergo_turn (n : Node) (happening : Happening) :
    Turn n (n.undergo happening).1.front := by
  cases happening with
  | event now e => exact n.handle_turn now e
  | upkeep => exact .kept

def Front.Posted (f : Front) : Prop := f.board = RoomBoard.post (f.lobby.listings f.relay)

theorem Turn.posted {f : Front} (t : Turn n f) (h : n.front.Posted) : f.Posted := by
  cases t with
  | kept => exact h
  | served r =>
    show (if _ then _ else n.board) = RoomBoard.post _
    split
    · rfl
    · rename_i silent
      have same := Lobby.serve_listings n.relay (Bool.not_eq_true _ ▸ silent)
      rw [same]
      exact h

theorem start_posted {config : NodeConfig} {authenticator : Authenticator}
    {rendezvous : Option Rendezvous} {uplink : Option Uplink} {dice : Dice} {now : Nat} :
    (start config authenticator rendezvous uplink dice now).front.Posted := by
  show RoomBoard.empty = RoomBoard.post (Lobby.empty.listings config.relay)
  rw [Lobby.empty_listings]
  rfl

theorem after_posted (h : n.front.Posted) (past : List Happening) :
    (n.after past).front.Posted := by
  induction past generalizing n with
  | nil => exact h
  | cons first rest ih => exact ih ((n.undergo_turn first).posted h)

theorem after_lobby (n : Node) (past : List Happening) :
    ∃ requests, (n.after past).lobby = (n.lobby.serveAll requests).1 := by
  induction past generalizing n with
  | nil => exact ⟨[], rfl⟩
  | cons first rest ih =>
    obtain ⟨requests, later⟩ := ih (n.undergo first).1
    have t := n.undergo_turn first
    generalize lobby_eq : (n.undergo first).1.front = f at t
    have lobby : (n.undergo first).1.lobby = f.lobby := congrArg Front.lobby lobby_eq
    rw [lobby] at later
    cases t with
    | kept => exact ⟨requests, later⟩
    | served r => exact ⟨r :: requests, later⟩

/-- After any history the board is the list of the rooms as they are, and what is served is the text
    of this list. The list has an entry for each public room and no other, which tells about that
    room, in strictly ascending order of the bytes of the ids, whichever order the rooms are looked
    at. A request to any lobby that changes its list tells of a change. -/
theorem board_never_stale (config : NodeConfig) (authenticator : Authenticator)
    (rendezvous : Option Rendezvous) (uplink : Option Uplink) (dice : Dice) (started : Nat)
    (past : List Happening) :
    let n := (start config authenticator rendezvous uplink dice started).after past
    n.board = RoomBoard.post (n.lobby.listings n.relay) ∧
      n.board.json = RoomListing.listText (n.lobby.listings n.relay) ∧
      (n.board.listings.Pairwise fun a b => Pack.utf8 a.serverId < Pack.utf8 b.serverId) ∧
      (∀ entry, entry ∈ n.board.listings ↔ ∃ room : Room,
        n.lobby.get? entry.serverId = some room ∧ room.isPublic = true ∧
          entry.Describes n.relay room) ∧
      (∀ rooms : List Room, rooms.Perm n.lobby.rooms.values →
        publicListings n.relay rooms = n.board.listings) ∧
      (∀ (l : Lobby) (r : LobbyRequest) (relay : RelayAddress),
        (l.serve r).1.listings relay ≠ l.listings relay → (l.serve r).2.roomsChanged = true) := by
  intro n
  have posted : n.board = RoomBoard.post (n.lobby.listings n.relay) :=
    after_posted start_posted past
  have shown : n.board.listings = n.lobby.listings n.relay :=
    congrArg RoomBoard.listings posted
  obtain ⟨requests, lobby⟩ :=
    after_lobby (start config authenticator rendezvous uplink dice started) past
  have consistent : n.lobby.Consistent := lobby ▸ Lobby.history_consistent requests
  have small : n.lobby.Uncrowded := lobby ▸ Lobby.history_uncrowded requests
  have text : n.board.json = RoomListing.listText (n.lobby.listings n.relay) :=
    congrArg RoomBoard.json posted
  rw [shown]
  refine ⟨posted, text, ?_, ?_, ?_, ?_⟩
  · exact (publicListings_ascending consistent.ids_nodup).imp Text.utf8_lt_iff.mpr
  · intro entry
    rw [Lobby.mem_listings_iff consistent]
    refine exists_congr fun room => and_congr_right fun stored => and_congr_right fun _ => ?_
    exact (RoomListing.describes_iff (small _ room stored)).symm
  · exact fun rooms same => publicListings_of_perm consistent.ids_nodup same
  · intro l r relay changed
    apply Decidable.of_not_not
    exact fun silent => changed (Lobby.serve_listings relay (Bool.not_eq_true _ ▸ silent))

end PeerRelay.Node
