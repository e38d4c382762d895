import PeerRelay.Proofs.Lobby.Seats
import PeerRelay.Proofs.Node.History
import PeerRelay.Proofs.Node.Peers

/-!
Rooms and sessions of a node belong together: whoever has a seat has a session that is in order.
What order is, is left open as long as every authenticated session is in it. Each handler keeps
the accounts, and sends to nobody whose session is out of order.
-/
namespace PeerRelay.Node
open Wire (Bytes)

structure Accounted (ok : Session → Prop) (n : Node) : Prop where
  rooms : n.lobby.Consistent
  keyed : n.sessions.Keyed
  seats : ∀ {c : ConnectionId}, n.lobby.Seated c → n.sessions.Has ok c

/-- An answer after which the accounts are in order, also those of everyone it sends to. -/
structure Sound (ok : Session → Prop) (answer : Node × List Action) : Prop where
  accounted : answer.1.Accounted ok
  sends : ∀ {c : ConnectionId} {channel : Channel} {bytes : Bytes},
    .send c channel bytes ∈ answer.2 → answer.1.sessions.Has ok c

variable {ok : Session → Prop} {n : Node} {now : Nat} {c : ConnectionId}

theorem start_accounted {config : NodeConfig} {authenticator : Authenticator}
    {rendezvous : Option Rendezvous} {uplink : Option Uplink} {dice : Dice} :
    (start config authenticator rendezvous uplink dice now).Accounted ok where
  rooms := Lobby.empty_consistent
  keyed := SessionTable.empty_keyed
  seats seated := (Lobby.empty_not_seated seated).elim

theorem Accounted.silent (h : n.Accounted ok) : Sound ok (n, []) where
  accounted := h
  sends taken := by cases taken

theorem Accounted.closing (h : n.Accounted ok) (c : ConnectionId) : Sound ok (n, [.close c]) where
  accounted := h
  sends taken := by simp at taken

/-! Sending -/

theorem Accounted.deliver (h : n.Accounted ok) {o : Outbound}
    (known : n.sessions.Has ok o.recipient) : Sound ok (n.deliver o) := by
  obtain ⟨buffers, state⟩ := n.deliver_state o
  constructor
  · rw [state]
    exact ⟨h.rooms, h.keyed, h.seats⟩
  · intro c channel bytes taken
    rw [state]
    rcases n.deliver_actions o with none | ⟨_, _, some⟩
    · simp [none] at taken
    · rw [some, List.mem_singleton] at taken
      cases taken
      exact known

theorem Accounted.apply (h : n.Accounted ok) {effects : Effects}
    (known : ∀ o ∈ effects.outbound, n.sessions.Has ok o.recipient) :
    Sound ok (n.apply effects) := by
  obtain ⟨buffers, board, boardChanged, state⟩ := n.apply_state effects
  constructor
  · rw [state]
    exact ⟨h.rooms, h.keyed, h.seats⟩
  · intro c channel bytes taken
    rw [state]
    obtain ⟨o, sent, _, same⟩ := apply_actions taken
    cases same
    exact known o sent

/-! Requests of a peer -/

/-- The effects of a request reach only those with a seat before it and the one who asked. -/
theorem Accounted.settle (h : n.Accounted ok) {r : LobbyRequest}
    (actor : n.sessions.Has ok r.actor) : Sound ok (n.settle (n.lobby.serve r)) := by
  have rooms := Lobby.serve_consistent n.lobby r h.rooms
  have seats : ∀ {x : ConnectionId}, (n.lobby.serve r).1.Seated x → n.sessions.Has ok x := by
    intro x seated
    rcases Lobby.serve_seated h.rooms seated with before | rfl
    · exact h.seats before
    · exact actor
  have known : ∀ o ∈ (n.lobby.serve r).2.outbound, n.sessions.Has ok o.recipient := by
    intro o sent
    rcases Lobby.serve_recipient h.rooms sent with seated | same
    · exact h.seats seated
    · exact same ▸ actor
  have settled : Accounted ok { n with lobby := (n.lobby.serve r).1 } := ⟨rooms, h.keyed, seats⟩
  exact settled.apply known

theorem forward_sound (h : n.Accounted ok) (payload : Bytes) (target : ConnectionId)
    (channel : Channel) : Sound ok (n.forward c payload target channel) := by
  obtain ⟨buffers, state⟩ := n.forward_state c payload target channel
  constructor
  · rw [state]
    exact ⟨h.rooms, h.keyed, h.seats⟩
  · intro x _ _ taken
    rw [state]
    rcases forward_actions taken with closed | ⟨o, bytes, routed, sent⟩
    · cases closed
    · cases sent
      exact h.seats (Lobby.route_recipient routed)

theorem obey_sound (h : n.Accounted ok) (known : n.sessions.Has ok c) (channel : Channel)
    (frame : ClientFrame) : Sound ok (n.obey now c channel frame) := by
  have o := n.obey_obedience now c channel frame
  generalize n.obey now c channel frame = answer at o
  cases o with
  | drawn roomIds dice => exact Accounted.silent ⟨h.rooms, h.keyed, h.seats⟩
  | named => exact h.apply (by simpa using known)
  | served roomIds dice actor =>
    have drawing : Accounted ok { n with roomIds, dice } := ⟨h.rooms, h.keyed, h.seats⟩
    subst actor
    exact drawing.settle known
  | passed payload target => exact forward_sound h payload target channel

/-! Coming and going -/

theorem Sound.andThen {first second : Node × List Action} (before : Sound ok first)
    (after : Sound ok second) (kept : second.1.sessions = first.1.sessions) :
    Sound ok (second.1, first.2 ++ second.2) := by
  refine ⟨after.accounted, ?_⟩
  intro c channel bytes taken
  rcases List.mem_append.mp taken with early | late
  · exact kept ▸ before.sends early
  · exact after.sends late

theorem invite_sound (h : n.Accounted ok) (known : n.sessions.Has ok c) :
    Sound ok (n.invite c) := by
  unfold invite
  split
  · exact h.silent
  · split
    · exact Accounted.silent ⟨h.rooms, h.keyed, h.seats⟩
    · refine Accounted.deliver ?_ known
      exact ⟨h.rooms, h.keyed, h.seats⟩

theorem receiveDatagram_sound (h : n.Accounted ok) (bytes : Bytes) (source : Net.SocketAddress) :
    Sound ok (n.receiveDatagram bytes source) := by
  unfold receiveDatagram
  split
  · exact h.silent
  · refine ⟨⟨h.rooms, h.keyed, h.seats⟩, ?_⟩
    intro c channel sent taken
    simp at taken

theorem dismiss_sound (h : n.Accounted ok) (c : ConnectionId) : Sound ok (n.dismiss c) := by
  have gone : Accounted ok
      { n with
        lobby := (n.lobby.leave c none).1
        sessions := n.sessions.disconnect c
        rendezvous := n.rendezvous.map fun r => r.forget c } := by
    refine ⟨Lobby.leave_consistent h.rooms c none, h.keyed.disconnect c, ?_⟩
    intro x seated
    refine (h.seats (Lobby.leave_seated h.rooms seated)).disconnect ?_
    rintro rfl
    exact Lobby.leave_not_seated h.rooms x seated
  refine gone.apply ?_
  intro o sent
  obtain ⟨seated, other⟩ := Lobby.leave_recipient h.rooms sent
  exact (h.seats seated).disconnect other

/-- A connection under an id in use may come into a seat that it never took. -/
theorem welcome_accounted (h : n.Accounted ok) (remote : Net.SocketAddress)
    (fresh : n.sessions.get? c = none ∨ ∀ s, ok s) : (n.welcome c remote).1.Accounted ok := by
  obtain ⟨buffers, state⟩ :=
    { n with sessions := n.sessions.connect c remote }.deliver_state ⟨c, .keyRequest⟩
  rw [welcome, state]
  refine ⟨h.rooms, h.keyed.connect c remote, ?_⟩
  intro x seated
  have before := h.seats seated
  by_cases same : x = c
  · subst same
    rcases fresh with unknown | anything
    · obtain ⟨s, found, _⟩ := before
      rw [unknown] at found
      contradiction
    · exact ⟨_, (SessionTable.get?_connect remote).trans (if_pos rfl), anything _⟩
  · exact before.connect same remote

variable (granted : ∀ {s : Session}, s.isAuthenticated = true → ok s)
include granted

theorem authenticate_sound (h : n.Accounted ok) (c : ConnectionId) (key : String) :
    Sound ok (n.authenticate c key) := by
  have v := n.authenticate_verdict c key
  generalize n.authenticate c key = answer at v
  cases v with
  | refused only =>
    rcases only with rfl | rfl
    · exact h.silent
    · exact h.closing c
  | @admitted key sessions accepted =>
    have known : sessions.Has ok c := by
      obtain ⟨s, found, good⟩ := SessionTable.authenticate_has accepted
      exact ⟨s, found, granted good⟩
    have admitted : Accounted ok { n with sessions } := by
      refine ⟨h.rooms, h.keyed.authenticate accepted, ?_⟩
      intro x seated
      by_cases same : x = c
      · exact same ▸ known
      · obtain ⟨s, found, good⟩ := h.seats seated
        exact ⟨s, (SessionTable.get?_authenticate accepted same).trans found, good⟩
    have greeting : Sound ok ({ n with sessions }.deliver ⟨c, .authenticated⟩) :=
      admitted.deliver known
    have kept := deliver_sessions { n with sessions } ⟨c, .authenticated⟩
    exact greeting.andThen (invite_sound greeting.accounted (kept ▸ known)) (invite_sessions _ c)

theorem receive_sound (h : n.Accounted ok) (c : ConnectionId) (bytes : Bytes)
    (channel : Channel) : Sound ok (n.receive now c bytes channel) := by
  rcases n.receive_cases now c bytes channel with dropped | ⟨key, read⟩ | ⟨known, frame, read⟩
  · rw [dropped]
    exact h.silent
  · rw [read]
    exact authenticate_sound granted h c key
  · rw [read]
    obtain ⟨s, found, good⟩ := SessionTable.isAuthenticated_iff.mp known
    exact obey_sound h ⟨s, found, granted good⟩ channel frame

theorem heartbeat_sound (h : n.Accounted ok) : Sound ok (n, n.heartbeat) := by
  refine ⟨h, ?_⟩
  intro c channel bytes taken
  obtain ⟨id, member, same⟩ := List.mem_map.mp taken
  cases same
  obtain ⟨s, found, good⟩ :=
    SessionTable.isAuthenticated_iff.mp ((SessionTable.mem_authenticatedIds_iff h.keyed).mp member)
  exact ⟨s, found, granted good⟩

end PeerRelay.Node
