import PeerRelay.Proofs.Lobby.Request
import PeerRelay.Proofs.Node.Delivery

/-!
What the handlers of a node can come to. There are four ways to follow a frame (`Obedience`) and
two answers to a key (`Verdict`); the proofs about handlers go by these cases.
-/
namespace PeerRelay.Node
open Wire (Bytes)

theorem offeredId_state (n : Node) (now : Nat) :
    ∃ roomIds, (n.offeredId now).2 = { n with roomIds } := by
  unfold offeredId
  split
  · exact ⟨(n.roomIds.take now).2, rfl⟩
  · exact ⟨n.roomIds, rfl⟩

theorem drawnId_state (n : Node) : ∃ dice, n.drawnId.2 = { n with dice } := by
  unfold drawnId
  generalize drawRoomId n.config.idLength n.config.idAlphabet n.lobby.contains n.dice = draw
  exact ⟨draw.2, rfl⟩

theorem newRoomId_state (n : Node) (now : Nat) :
    ∃ roomIds dice, (n.newRoomId now).2 = { n with roomIds, dice } := by
  obtain ⟨roomIds, offering⟩ := n.offeredId_state now
  obtain ⟨dice, drawing⟩ := (n.offeredId now).2.drawnId_state
  have drawn : (n.offeredId now).2.drawnId.2 = { n with roomIds, dice } := by
    rw [drawing, offering]
  unfold newRoomId
  generalize n.offeredId now = offer at offering drawn
  obtain ⟨offered, m⟩ := offer
  cases offered with
  | none => exact ⟨roomIds, dice, drawn⟩
  | some id =>
    dsimp only
    split
    · exact ⟨roomIds, dice, drawn⟩
    · exact ⟨roomIds, n.dice, offering⟩

/-- The ways to follow a frame. A request for a room draws ids even if it is refused. -/
inductive Obedience (n : Node) (c : ConnectionId) (channel : Channel) :
    Node × List Action → Prop where
  | drawn (roomIds : IdStock) (dice : Dice) : Obedience n c channel ({ n with roomIds, dice }, [])
  | named : Obedience n c channel (n.apply { outbound := [⟨c, .givenId c⟩] })
  | served (roomIds : IdStock) (dice : Dice) {r : LobbyRequest} (actor : r.actor = c) :
      Obedience n c channel ({ n with roomIds, dice }.settle (n.lobby.serve r))
  | passed (payload : Bytes) (target : ConnectionId) :
      Obedience n c channel (n.forward c payload target channel)

theorem openRoom_obedience (n : Node) (now : Nat) (host : ConnectionId) (channel : Channel)
    (settings : RoomSettings) : Obedience n host channel (n.openRoom now host settings) := by
  obtain ⟨roomIds, dice, state⟩ := n.newRoomId_state now
  unfold openRoom
  generalize n.newRoomId now = draw at state
  obtain ⟨drawn, m⟩ := draw
  obtain rfl : m = { n with roomIds, dice } := state
  cases drawn with
  | none => exact .drawn roomIds dice
  | some id =>
    dsimp only
    split
    · rename_i lobby effects created
      have served : n.lobby.serve (.create host id settings (n.endpoint? host)) =
          (lobby, effects) := Lobby.serve_create_ok created
      have o : Obedience n host channel ({ n with roomIds, dice }.settle
          (n.lobby.serve (.create host id settings (n.endpoint? host)))) := .served roomIds dice rfl
      rw [served] at o
      exact o
    · exact .drawn roomIds dice

theorem obey_obedience (n : Node) (now : Nat) (c : ConnectionId) (channel : Channel)
    (frame : ClientFrame) : Obedience n c channel (n.obey now c channel frame) := by
  cases frame with
  | blank | keyResponse => exact .drawn n.roomIds n.dice
  | requestId => exact .named
  | createRoom settings => exact n.openRoom_obedience now c channel settings
  | joinRoom room canDirect localIp =>
    exact .served n.roomIds n.dice (r := .join c ⟨room, canDirect, localIp, n.endpoint? c⟩) rfl
  | leaveRoom => exact .served n.roomIds n.dice (r := .leave c none) rfl
  | kickPeer target => exact .served n.roomIds n.dice (r := .kick c target) rfl
  | sendData payload target => exact .passed payload target
  | updateRoom u =>
    simp only [obey]
    split
    · rename_i change updated
      rw [← Lobby.serve_update_ok updated]
      exact .served n.roomIds n.dice rfl
    · exact .drawn n.roomIds n.dice

inductive Verdict (n : Node) (c : ConnectionId) : Node × List Action → Prop where
  | refused {actions : List Action} (only : actions = [] ∨ actions = [.close c]) :
      Verdict n c (n, actions)
  | admitted {key : String} {sessions : SessionTable}
      (accepted : n.sessions.authenticate c key n.authenticator = .ok sessions) :
      Verdict n c
        ((({ n with sessions }.deliver ⟨c, .authenticated⟩).1.invite c).1,
          ({ n with sessions }.deliver ⟨c, .authenticated⟩).2 ++
            (({ n with sessions }.deliver ⟨c, .authenticated⟩).1.invite c).2)

theorem authenticate_verdict (n : Node) (c : ConnectionId) (key : String) :
    Verdict n c (n.authenticate c key) := by
  unfold authenticate
  split
  · rename_i sessions accepted
    have v := Verdict.admitted accepted
    generalize { n with sessions }.deliver ⟨c, .authenticated⟩ = greeted at v
    obtain ⟨m, sent⟩ := greeted
    dsimp only at v ⊢
    generalize m.invite c = invited at v
    exact v
  · split
    · exact .refused (Or.inr rfl)
    · exact .refused (Or.inl rfl)
  · exact .refused (Or.inl rfl)

theorem receive_cases (n : Node) (now : Nat) (c : ConnectionId) (bytes : Bytes)
    (channel : Channel) :
    n.receive now c bytes channel = (n, []) ∨
      (∃ key, n.receive now c bytes channel = n.authenticate c key) ∨
      (n.sessions.isAuthenticated c = true ∧
        ∃ frame, n.receive now c bytes channel = n.obey now c channel frame) := by
  unfold receive
  split
  · exact Or.inl rfl
  · split
    · exact Or.inl rfl
    · exact Or.inr (Or.inl ⟨_, rfl⟩)
    · split
      · rename_i known
        exact Or.inr (Or.inr ⟨known, _, rfl⟩)
      · exact Or.inl rfl

theorem receive_frame (n : Node) (now : Nat) (c : ConnectionId) (channel : Channel)
    {bytes : Bytes} {frame : ClientFrame} (read : ClientFrame.decode bytes = .ok frame)
    (keyless : ∀ key, frame ≠ .keyResponse key) :
    n.receive now c bytes channel =
      if n.sessions.isAuthenticated c then n.obey now c channel frame else (n, []) := by
  have message : bytes ≠ [heartbeatByte] := by
    rintro rfl
    cases read
  rw [receive, if_neg message, read]
  cases frame with
  | keyResponse key => exact (keyless key rfl).elim
  | _ => rfl

theorem forward_state (n : Node) (sender : ConnectionId) (payload : Bytes)
    (target : ConnectionId) (channel : Channel) :
    ∃ buffers, (n.forward sender payload target channel).1 = { n with buffers } := by
  unfold forward
  split
  · exact ⟨n.buffers, rfl⟩
  · rename_i o routed
    obtain ⟨buffers, state⟩ := n.encode_state o.frame
    refine ⟨buffers, ?_⟩
    split <;> rename_i outcome <;> rw [outcome] at state <;> exact state

theorem forward_actions {n : Node} {sender : ConnectionId} {payload : Bytes}
    {target : ConnectionId} {channel : Channel} {a : Action}
    (taken : a ∈ (n.forward sender payload target channel).2) :
    a = .close sender ∨ ∃ o bytes, n.lobby.route sender payload target = .ok o ∧
      a = .send o.recipient channel bytes := by
  unfold forward at taken
  split at taken
  · cases taken
  · rename_i o routed
    split at taken
    · exact Or.inr ⟨o, _, routed, List.mem_singleton.mp taken⟩
    · exact Or.inl (List.mem_singleton.mp taken)
    · cases taken

end PeerRelay.Node
