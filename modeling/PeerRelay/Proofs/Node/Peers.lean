import PeerRelay.Proofs.Node.Handlers
import PeerRelay.Proofs.Session

/-!
What a node keeps of its peers beside the rooms, and which events change it. Requests about rooms
never do, and an event touches no session but that of the connection it comes from.
-/
namespace PeerRelay
open Wire (Bytes)

structure Peers where
  sessions : SessionTable
  rendezvous : Option Rendezvous

def Node.peers (n : Node) : Peers := ⟨n.sessions, n.rendezvous⟩

def NodeEvent.peer? : NodeEvent → Option ConnectionId
  | .transport e => some e.id
  | .datagram .. | .heartbeat => none

namespace Node

variable {n : Node} {c id : ConnectionId}

def stores (n : Node) : Peers × Lobby := (n.peers, n.lobby)

@[simp] theorem deliver_stores (n : Node) (o : Outbound) : (n.deliver o).1.stores = n.stores := by
  obtain ⟨buffers, state⟩ := n.deliver_state o
  rw [state]
  rfl

@[simp] theorem deliver_peers (n : Node) (o : Outbound) : (n.deliver o).1.peers = n.peers :=
  congrArg Prod.fst (n.deliver_stores o)

@[simp] theorem deliver_sessions (n : Node) (o : Outbound) :
    (n.deliver o).1.sessions = n.sessions :=
  congrArg Peers.sessions (n.deliver_peers o)

@[simp] theorem apply_stores (n : Node) (effects : Effects) :
    (n.apply effects).1.stores = n.stores := by
  obtain ⟨buffers, board, boardChanged, state⟩ := n.apply_state effects
  rw [state]
  rfl

@[simp] theorem apply_peers (n : Node) (effects : Effects) : (n.apply effects).1.peers = n.peers :=
  congrArg Prod.fst (n.apply_stores effects)

@[simp] theorem apply_lobby (n : Node) (effects : Effects) : (n.apply effects).1.lobby = n.lobby :=
  congrArg Prod.snd (n.apply_stores effects)

@[simp] theorem welcome_stores (n : Node) (id : ConnectionId) (remote : Net.SocketAddress) :
    (n.welcome id remote).1.stores =
      (⟨n.sessions.connect id remote, n.rendezvous⟩, n.lobby) :=
  deliver_stores _ _

theorem dismiss_stores (n : Node) (id : ConnectionId) :
    (n.dismiss id).1.stores =
      (⟨n.sessions.disconnect id, n.rendezvous.map fun r => r.forget id⟩,
        (n.lobby.leave id none).1) :=
  apply_stores _ _

/-! Requests about rooms -/

@[simp] theorem forward_peers (n : Node) (sender : ConnectionId) (payload : Bytes)
    (target : ConnectionId) (channel : Channel) :
    (n.forward sender payload target channel).1.peers = n.peers := by
  rcases n.forward_state sender payload target channel with ⟨buffers, state⟩
  rw [state]
  rfl

@[simp] theorem obey_peers (n : Node) (now : Nat) (c : ConnectionId) (channel : Channel)
    (frame : ClientFrame) : (n.obey now c channel frame).1.peers = n.peers := by
  have o := n.obey_obedience now c channel frame
  generalize n.obey now c channel frame = answer at o
  cases o with
  | drawn => rfl
  | named | served => exact apply_peers _ _
  | passed payload target => exact n.forward_peers c payload target channel

/-! The sessions an event touches -/

@[simp] theorem welcome_peers (n : Node) (id : ConnectionId) (remote : Net.SocketAddress) :
    (n.welcome id remote).1.peers = ⟨n.sessions.connect id remote, n.rendezvous⟩ :=
  congrArg Prod.fst (n.welcome_stores id remote)

@[simp] theorem dismiss_peers (n : Node) (id : ConnectionId) :
    (n.dismiss id).1.peers =
      ⟨n.sessions.disconnect id, n.rendezvous.map fun r => r.forget id⟩ :=
  congrArg Prod.fst (n.dismiss_stores id)

@[simp] theorem dismiss_rendezvous (n : Node) (id : ConnectionId) :
    (n.dismiss id).1.rendezvous = n.rendezvous.map fun r => r.forget id :=
  congrArg Peers.rendezvous (n.dismiss_peers id)

@[simp] theorem invite_sessions (n : Node) (c : ConnectionId) :
    (n.invite c).1.sessions = n.sessions := by
  unfold invite
  split
  · rfl
  · split
    · rfl
    · exact deliver_sessions _ _

theorem authenticate_sessions (n : Node) (key : String) (other : c ≠ id) :
    (n.authenticate id key).1.sessions.get? c = n.sessions.get? c := by
  have v := n.authenticate_verdict id key
  generalize n.authenticate id key = answer at v
  cases v with
  | refused => rfl
  | admitted accepted =>
    simpa using SessionTable.get?_authenticate accepted other

theorem receive_sessions (n : Node) (now : Nat) (bytes : Bytes) (channel : Channel)
    (other : c ≠ id) :
    (n.receive now id bytes channel).1.sessions.get? c = n.sessions.get? c := by
  rcases n.receive_cases now id bytes channel with dropped | ⟨key, read⟩ | ⟨_, frame, read⟩
  · rw [dropped]
  · rw [read]
    exact n.authenticate_sessions key other
  · rw [read]
    exact congrArg (fun p : Peers => p.sessions.get? c) (n.obey_peers now id channel frame)

theorem handle_sessions (n : Node) (now : Nat) (e : NodeEvent) (other : e.peer? ≠ some c) :
    (n.handle now e).1.sessions.get? c = n.sessions.get? c := by
  cases e with
  | transport t =>
    have elsewhere : c ≠ t.id := fun same => other (same ▸ rfl)
    cases t with
    | connected id remote =>
      have after := congrArg (fun p : Peers => p.sessions.get? c) (n.welcome_peers id remote)
      exact after.trans ((SessionTable.get?_connect remote).trans (if_neg elsewhere))
    | data id bytes channel => exact n.receive_sessions now bytes channel elsewhere
    | disconnected id =>
      have after := congrArg (fun p : Peers => p.sessions.get? c) (n.dismiss_peers id)
      exact after.trans (SessionTable.get?_disconnect.trans (if_neg elsewhere))
  | datagram bytes source =>
    show (n.receiveDatagram bytes source).1.sessions.get? c = _
    unfold receiveDatagram
    split <;> rfl
  | heartbeat => rfl

end Node

end PeerRelay
