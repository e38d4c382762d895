import PeerRelay.Proofs.Nat.Rendezvous
import PeerRelay.Proofs.Node.Service

/-!
What a connection finds when it comes under an id that was in use before. A departure takes the
session, the seat, the token and the endpoint of the id; an arrival replaces only the session.
-/
namespace PeerRelay
open Wire (Bytes)

structure Peers.Tracked (p : Peers) : Prop where
  matched : ∀ {r : Rendezvous}, p.rendezvous = some r → r.pending.Matched
  present : ∀ {r : Rendezvous} {c : ConnectionId}, p.rendezvous = some r → r.Knows c →
    p.sessions.get? c ≠ none

namespace Node

variable {n : Node} {now : Nat} {c id : ConnectionId}

/-! Tracking -/

theorem start_tracked {config : NodeConfig} {authenticator : Authenticator}
    {port : Option UInt16} {uplink : Option Uplink} {dice : Dice} {started : Nat} :
    (start config authenticator (port.map .new) uplink dice started).peers.Tracked := by
  constructor
  · intro r here
    obtain ⟨p, _, rfl⟩ := Option.map_eq_some_iff.mp here
    exact Pairing.empty_matched
  · intro r c here known
    obtain ⟨p, _, rfl⟩ := Option.map_eq_some_iff.mp here
    exact (Rendezvous.new_not_knows known).elim

theorem welcome_tracked (h : n.peers.Tracked) (id : ConnectionId) (remote : Net.SocketAddress) :
    (n.welcome id remote).1.peers.Tracked := by
  rw [welcome_peers]
  refine ⟨h.matched, ?_⟩
  intro r c here known
  rw [SessionTable.get?_connect]
  split
  · simp
  · exact h.present here known

theorem dismiss_tracked (h : n.peers.Tracked) (id : ConnectionId) :
    (n.dismiss id).1.peers.Tracked := by
  rw [dismiss_peers]
  constructor
  · intro r here
    obtain ⟨before, was, rfl⟩ := Option.map_eq_some_iff.mp here
    exact (h.matched was).removeLeft id
  · intro r c here known
    obtain ⟨before, was, rfl⟩ := Option.map_eq_some_iff.mp here
    obtain ⟨other, known⟩ := Rendezvous.forget_knows.mp known
    rw [SessionTable.get?_disconnect, if_neg other]
    exact h.present was known

theorem invite_tracked (h : n.peers.Tracked) (present : n.sessions.get? id ≠ none) :
    (n.invite id).1.peers.Tracked := by
  unfold invite
  split
  · exact h
  · rename_i r here
    have matched := Rendezvous.issue_matched (h.matched here) id maxTokenAttempts n.dice
    have known : ∀ {c : ConnectionId},
        (r.issue id maxTokenAttempts n.dice).2.1.Knows c → n.sessions.get? c ≠ none := by
      intro c known
      rcases Rendezvous.issue_knows (h.matched here) known with rfl | before
      · exact present
      · exact h.present here before
    generalize r.issue id maxTokenAttempts n.dice = issue at matched known
    obtain ⟨token, issued, dice⟩ := issue
    have tracked : Peers.Tracked ⟨n.sessions, some issued⟩ := by
      constructor
      · intro r same
        cases same
        exact matched
      · intro r c same
        cases same
        exact known
    cases token with
    | none => exact tracked
    | some token =>
      show (Node.deliver _ _).1.peers.Tracked
      rw [deliver_peers]
      exact tracked

theorem authenticate_tracked (h : n.peers.Tracked) (id : ConnectionId) (key : String) :
    (n.authenticate id key).1.peers.Tracked := by
  have v := n.authenticate_verdict id key
  generalize n.authenticate id key = answer at v
  cases v with
  | refused => exact h
  | @admitted key sessions accepted =>
    have present : sessions.get? id ≠ none := by
      obtain ⟨s, found, _⟩ := SessionTable.authenticate_has accepted
      simp [found]
    have admitted : Peers.Tracked ⟨sessions, n.rendezvous⟩ := by
      refine ⟨h.matched, ?_⟩
      intro r c here known
      by_cases same : c = id
      · exact same ▸ present
      · rw [SessionTable.get?_authenticate accepted same]
        exact h.present here known
    have kept := deliver_peers { n with sessions } ⟨id, .authenticated⟩
    have greeting : ({ n with sessions }.deliver ⟨id, .authenticated⟩).1.peers.Tracked := by
      rw [kept]
      exact admitted
    dsimp only
    refine invite_tracked greeting ?_
    simpa using present

theorem receive_tracked (h : n.peers.Tracked) (id : ConnectionId) (bytes : Bytes)
    (channel : Channel) : (n.receive now id bytes channel).1.peers.Tracked := by
  rcases n.receive_cases now id bytes channel with dropped | ⟨key, read⟩ | ⟨_, frame, read⟩
  · rw [dropped]
    exact h
  · rw [read]
    exact authenticate_tracked h id key
  · simpa [read] using h

theorem receiveDatagram_tracked (h : n.peers.Tracked) (bytes : Bytes)
    (source : Net.SocketAddress) : (n.receiveDatagram bytes source).1.peers.Tracked := by
  unfold receiveDatagram
  split
  · exact h
  · rename_i r here
    constructor
    · intro later same
      cases same
      exact Rendezvous.receive_matched (h.matched here) bytes source
    · intro later c same known
      cases same
      exact h.present here (Rendezvous.receive_knows (h.matched here) known)

theorem undergo_tracked (h : n.peers.Tracked) (happening : Happening) :
    (n.undergo happening).1.peers.Tracked := by
  cases happening with
  | upkeep => exact h
  | event now e =>
    cases e with
    | transport t =>
      cases t with
      | connected id remote => exact welcome_tracked h id remote
      | data id bytes channel => exact receive_tracked h id bytes channel
      | disconnected id => exact dismiss_tracked h id
    | datagram bytes source => exact receiveDatagram_tracked h bytes source
    | heartbeat => exact h

theorem after_tracked (h : n.peers.Tracked) (past : List Happening) :
    (n.after past).peers.Tracked := by
  induction past generalizing n with
  | nil => exact h
  | cons first rest ih => exact ih (undergo_tracked h first)

/-! Arrival and departure -/

/-- Something of an earlier connection under an id is left, apart from its session. -/
def Traces (n : Node) (id : ConnectionId) : Prop :=
  n.lobby.Seated id ∨ ∃ r, n.rendezvous = some r ∧ r.Knows id

theorem traces_congr {n m : Node} (rooms : n.lobby = m.lobby)
    (endpoints : n.rendezvous = m.rendezvous) : n.Traces id ↔ m.Traces id := by
  rw [Traces, Traces, rooms, endpoints]

theorem welcome_traces (n : Node) (id : ConnectionId) (remote : Net.SocketAddress) :
    (n.welcome id remote).1.Traces c ↔ n.Traces c := by
  obtain ⟨peers, rooms⟩ := Prod.mk.inj (n.welcome_stores id remote)
  exact traces_congr rooms (Peers.mk.inj peers).2

theorem dismiss_not_traces (h : n.lobby.Consistent) (id : ConnectionId) :
    ¬ (n.dismiss id).1.Traces id := by
  obtain ⟨peers, rooms⟩ := Prod.mk.inj (n.dismiss_stores id)
  rw [Traces, rooms, (Peers.mk.inj peers).2]
  rintro (seated | ⟨r, here, known⟩)
  · exact Lobby.leave_not_seated h id seated
  · obtain ⟨before, _, rfl⟩ := Option.map_eq_some_iff.mp here
    exact (Rendezvous.forget_knows.mp known).1 rfl

theorem forget_unknown (unknown : ¬ ∃ r, n.rendezvous = some r ∧ r.Knows id) :
    (n.rendezvous.map fun r => r.forget id) = n.rendezvous := by
  cases here : n.rendezvous with
  | none => rfl
  | some r =>
    have forgotten : r.forget id = r :=
      Rendezvous.forget_eq_iff.mpr fun known => unknown ⟨r, here, known⟩
    rw [Option.map_some, forgotten]

theorem dismiss_untraced (h : n.lobby.Consistent) (untraced : ¬ n.Traces id) :
    n.dismiss id = ({ n with sessions := n.sessions.disconnect id }, []) := by
  obtain ⟨unseated, unknown⟩ := not_or.mp untraced
  unfold dismiss
  rw [Lobby.leave_outsider h unseated, forget_unknown unknown]
  rfl

/-- To an id that has left nothing behind it makes no difference if it is dismissed first. -/
theorem welcome_eq_iff (h : n.lobby.Consistent) (id : ConnectionId)
    (remote : Net.SocketAddress) :
    (n.welcome id remote).1.stores = ((n.dismiss id).1.welcome id remote).1.stores ↔
      ¬ n.Traces id := by
  constructor
  · intro same
    obtain ⟨peers, rooms⟩ := Prod.mk.inj same
    rw [← n.welcome_traces id remote, traces_congr rooms (Peers.mk.inj peers).2, welcome_traces]
    exact dismiss_not_traces h id
  · intro untraced
    rw [dismiss_untraced h untraced, welcome_stores, welcome_stores,
      SessionTable.connect_disconnect]

/-- An arrival has the effects of a departure and an arrival exactly if its id has no trace of an
    earlier connection, as an id without a session always has. -/
theorem arrival_clean_iff (config : NodeConfig) (authenticator : Authenticator)
    (port : Option UInt16) (uplink : Option Uplink) (dice : Dice) (started : Nat)
    (past : List Happening) (now : Nat) (id : ConnectionId) (remote : Net.SocketAddress) :
    let n := (start config authenticator (port.map .new) uplink dice started).after past
    let gone := (n.handle now (.transport (.disconnected id))).1
    let arrival : NodeEvent := .transport (.connected id remote)
    ((n.handle now arrival).1.stores = (gone.handle now arrival).1.stores ↔ ¬ n.Traces id) ∧
      ((n.handle now arrival).1.Traces id ↔ n.Traces id) ∧
      ¬ (gone.handle now arrival).1.Traces id ∧
      (n.sessions.get? id = none → ¬ n.Traces id) := by
  intro n gone arrival
  have accounted : n.Accounted fun _ => True :=
    after_accounted (fun _ => trivial) start_accounted (Or.inr fun _ => trivial)
  have tracked : n.peers.Tracked := after_tracked start_tracked past
  refine ⟨welcome_eq_iff accounted.rooms id remote, n.welcome_traces id remote, ?_, ?_⟩
  · exact fun traced =>
      dismiss_not_traces accounted.rooms id ((gone.welcome_traces id remote).mp traced)
  · rintro unknown (seated | ⟨r, here, known⟩)
    · obtain ⟨s, found, _⟩ := accounted.seats seated
      rw [unknown] at found
      contradiction
    · exact tracked.present here known unknown

/-- A host that comes back before its departure was noticed has a room without having given the
    key, and after a departure it would have none. -/
theorem returning_host_keeps_room :
    let n := smallNode.after roomOpened
    let gone := (n.handle 5 (.transport (.disconnected ⟨1⟩))).1
    (n.handle 5 (arrived ⟨1⟩)).1.stores ≠ (gone.handle 5 (arrived ⟨1⟩)).1.stores ∧
      (n.handle 5 (arrived ⟨1⟩)).1.sessions.isAuthenticated ⟨1⟩ = false ∧
      (n.handle 5 (arrived ⟨1⟩)).1.lobby.hostedBy? ⟨1⟩ ≠ none ∧
      (gone.handle 5 (arrived ⟨1⟩)).1.lobby.hostedBy? ⟨1⟩ = none := by
  intro n gone
  have kept : (n.handle 5 (arrived ⟨1⟩)).1.lobby.hostedBy? ⟨1⟩ ≠ none := by decide +kernel
  have closed : (gone.handle 5 (arrived ⟨1⟩)).1.lobby.hostedBy? ⟨1⟩ = none := by decide +kernel
  refine ⟨?_, by decide +kernel, kept, closed⟩
  intro same
  have lobby : (n.handle 5 (arrived ⟨1⟩)).1.lobby = (gone.handle 5 (arrived ⟨1⟩)).1.lobby :=
    congrArg Prod.snd same
  rw [lobby] at kept
  exact kept closed

end Node

end PeerRelay
