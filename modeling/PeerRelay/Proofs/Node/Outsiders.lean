import PeerRelay.Proofs.Node.Board
import PeerRelay.Proofs.Node.Reuse

/-!
Connections without an authenticated session. Until a key of theirs is accepted, what they send
changes nothing and is answered by nothing but, at most, a request to close them. They come into
no room, whatever others do, and the rendezvous does not learn of them.
-/
namespace PeerRelay

def Happening.peer? : Happening → Option ConnectionId
  | .event _ e => e.peer?
  | .upkeep .. => none

inductive Happening.Concerns (c : ConnectionId) : Happening → Prop where
  | arrival (now : Nat) (remote : Net.SocketAddress) :
      Concerns c (.event now (.transport (.connected c remote)))
  | data (now : Nat) (bytes : Wire.Bytes) (channel : Channel) :
      Concerns c (.event now (.transport (.data c bytes channel)))
  | departure (now : Nat) : Concerns c (.event now (.transport (.disconnected c)))

theorem Happening.concerns {h : Happening} {c : ConnectionId} (own : h.peer? = some c) :
    h.Concerns c := by
  match h, own with
  | .event now (.transport (.connected _ remote)), rfl => exact .arrival now remote
  | .event now (.transport (.data _ bytes channel)), rfl => exact .data now bytes channel
  | .event now (.transport (.disconnected _)), rfl => exact .departure now

namespace Node
open Wire (Bytes)

variable {n : Node} {c : ConnectionId}

def acceptsFrom (n : Node) (c : ConnectionId) (bytes : Bytes) : Bool :=
  match ClientFrame.decode bytes with
  | .ok (.keyResponse key) => (n.sessions.authenticate c key n.authenticator).toBool
  | _ => false

def admits (n : Node) (c : ConnectionId) : Happening → Bool
  | .event _ (.transport (.data id bytes _)) => id == c && n.acceptsFrom c bytes
  | _ => false

/-- No key of a connection is accepted in a history. -/
def neverAdmits (n : Node) (c : ConnectionId) : List Happening → Bool
  | [] => true
  | h :: rest => !n.admits c h && (n.undergo h).1.neverAdmits c rest

theorem authenticate_outside {key : String}
    (refused : (n.sessions.authenticate c key n.authenticator).toBool = false) :
    (n.authenticate c key).1 = n ∧ ∀ a ∈ (n.authenticate c key).2, a = .close c := by
  unfold authenticate
  split
  · rename_i sessions accepted
    rw [accepted] at refused
    contradiction
  · cases n.config.authFailure <;> simp
  · simp

theorem receive_outside (outside : n.sessions.isAuthenticated c = false) (now : Nat)
    {bytes : Bytes} (refused : n.acceptsFrom c bytes = false) (channel : Channel) :
    (n.receive now c bytes channel).1 = n ∧
      ∀ a ∈ (n.receive now c bytes channel).2, a = .close c := by
  unfold receive
  split
  · simp
  · split
    · simp
    · rename_i key read
      rw [acceptsFrom, read] at refused
      exact authenticate_outside refused
    · simp [outside]

/-- A connection that has no session at all cannot even give a key. -/
theorem receive_stranger (stranger : n.sessions.get? c = none) (now : Nat) (bytes : Bytes)
    (channel : Channel) : n.receive now c bytes channel = (n, []) := by
  unfold receive
  split
  · rfl
  · split
    · rfl
    · simp [authenticate, SessionTable.authenticate, stranger]
    · simp [SessionTable.isAuthenticated, stranger]

/-! Seats and endpoints -/

theorem obey_seated (rooms : n.lobby.Consistent) {now : Nat} {id : ConnectionId}
    {channel : Channel} {frame : ClientFrame}
    (seated : (n.obey now id channel frame).1.lobby.Seated c) : n.lobby.Seated c ∨ c = id := by
  have o := n.obey_obedience now id channel frame
  generalize n.obey now id channel frame = answer at o seated
  cases o with
  | drawn => exact Or.inl seated
  | named =>
    exact Or.inl (by simpa using seated)
  | served roomIds dice actor =>
    subst actor
    rw [settle, apply_lobby] at seated
    exact Lobby.serve_seated rooms seated
  | passed payload target =>
    obtain ⟨buffers, state⟩ := n.forward_state id payload target channel
    rw [state] at seated
    exact Or.inl seated

theorem handle_seated (rooms : n.lobby.Consistent) {now : Nat} {e : NodeEvent}
    (seated : (n.handle now e).1.lobby.Seated c) :
    n.lobby.Seated c ∨ n.sessions.isAuthenticated c = true := by
  cases e with
  | transport t =>
    cases t with
    | connected id remote =>
      obtain ⟨_, lobby⟩ := Prod.mk.inj (n.welcome_stores id remote)
      rw [handle, lobby] at seated
      exact Or.inl seated
    | data id bytes channel =>
      rw [handle] at seated
      rcases n.receive_cases now id bytes channel with dropped | ⟨key, read⟩ | ⟨known, frame, read⟩
      · rw [dropped] at seated
        exact Or.inl seated
      · have lobby : (n.authenticate id key).1.lobby = n.lobby :=
          congrArg Front.lobby (n.authenticate_front id key)
        rw [read, lobby] at seated
        exact Or.inl seated
      · rw [read] at seated
        rcases obey_seated rooms seated with before | rfl
        · exact Or.inl before
        · exact Or.inr known
    | disconnected id =>
      obtain ⟨_, lobby⟩ := Prod.mk.inj (n.dismiss_stores id)
      rw [handle, lobby] at seated
      exact Or.inl (Lobby.leave_seated rooms seated)
  | datagram bytes source =>
    simp only [handle, receiveDatagram] at seated
    split at seated <;> exact Or.inl seated
  | heartbeat => exact Or.inl seated

def Known (n : Node) (c : ConnectionId) : Prop := ∃ r, n.rendezvous = some r ∧ r.Knows c

theorem known_congr {m : Node} (same : n.peers = m.peers) : n.Known c ↔ m.Known c := by
  have rendezvous : n.rendezvous = m.rendezvous := congrArg Peers.rendezvous same
  rw [Known, Known, rendezvous]

theorem invite_known (matched : ∀ {r : Rendezvous}, n.rendezvous = some r → r.pending.Matched)
    {id : ConnectionId} (known : (n.invite id).1.Known c) : n.Known c ∨ c = id := by
  unfold invite at known
  split at known
  · exact Or.inl known
  · rename_i r here
    have learned : (r.issue id maxTokenAttempts n.dice).2.1.Knows c → n.Known c ∨ c = id := by
      intro known
      rcases Rendezvous.issue_knows (matched here) known with same | before
      · exact Or.inr same
      · exact Or.inl ⟨r, here, before⟩
    generalize r.issue id maxTokenAttempts n.dice = issue at known learned
    obtain ⟨token, issued, dice⟩ := issue
    have reached : Known { n with rendezvous := some issued, dice } c → n.Known c ∨ c = id := by
      rintro ⟨after, found, known⟩
      cases found
      exact learned known
    cases token with
    | none => exact reached known
    | some token =>
      dsimp only at known
      rw [known_congr (deliver_peers _ _)] at known
      exact reached known

theorem authenticate_known
    (matched : ∀ {r : Rendezvous}, n.rendezvous = some r → r.pending.Matched)
    {id : ConnectionId} {key : String} (known : (n.authenticate id key).1.Known c) :
    n.Known c ∨ (c = id ∧ (n.sessions.authenticate id key n.authenticator).toBool = true) := by
  cases accepted : (n.sessions.authenticate id key n.authenticator).toBool with
  | false =>
    rw [(authenticate_outside accepted).1] at known
    exact Or.inl known
  | true =>
    have v := n.authenticate_verdict id key
    generalize n.authenticate id key = answer at v known
    cases v with
    | refused => exact Or.inl known
    | @admitted key sessions admission =>
      have greeting := deliver_peers { n with sessions } ⟨id, .authenticated⟩
      have here : ({ n with sessions }.deliver ⟨id, .authenticated⟩).1.rendezvous = n.rendezvous :=
        congrArg Peers.rendezvous greeting
      dsimp only at known
      rcases invite_known (fun found => matched (here.symm.trans found)) known with before | same
      · rw [known_congr greeting] at before
        exact Or.inl before
      · exact Or.inr ⟨same, rfl⟩

theorem receive_known
    (matched : ∀ {r : Rendezvous}, n.rendezvous = some r → r.pending.Matched)
    {now : Nat} {id : ConnectionId} {bytes : Bytes} {channel : Channel}
    (known : (n.receive now id bytes channel).1.Known c) :
    n.Known c ∨ (c = id ∧ n.acceptsFrom id bytes = true) := by
  unfold receive at known
  split at known
  · exact Or.inl known
  · split at known
    · exact Or.inl known
    · rename_i key read
      rw [acceptsFrom, read]
      exact authenticate_known matched known
    · split at known
      · rw [known_congr (n.obey_peers now id channel _)] at known
        exact Or.inl known
      · exact Or.inl known

theorem handle_known (tracked : n.peers.Tracked) {now : Nat} {e : NodeEvent}
    (known : (n.handle now e).1.Known c) : n.Known c ∨ n.admits c (.event now e) = true := by
  cases e with
  | transport t =>
    cases t with
    | connected id remote =>
      have rendezvous := congrArg Peers.rendezvous (n.welcome_peers id remote)
      obtain ⟨r, found, knows⟩ := known
      exact Or.inl ⟨r, rendezvous.symm.trans found, knows⟩
    | data id bytes channel =>
      rcases receive_known tracked.matched known with before | ⟨rfl, accepted⟩
      · exact Or.inl before
      · exact Or.inr (by simp [admits, accepted])
    | disconnected id =>
      obtain ⟨r, found, knows⟩ := known
      obtain ⟨before, here, rfl⟩ :=
        Option.map_eq_some_iff.mp ((n.dismiss_rendezvous id).symm.trans found)
      exact Or.inl ⟨before, here, (Rendezvous.forget_knows.mp knows).2⟩
  | datagram bytes source =>
    simp only [handle, receiveDatagram] at known
    split at known
    · exact Or.inl known
    · rename_i r here
      obtain ⟨after, found, knows⟩ := known
      cases found
      exact Or.inl ⟨r, here, Rendezvous.receive_knows (tracked.matched here) knows⟩
  | heartbeat => exact Or.inl known

/-! Histories -/

theorem admits_elsewhere {h : Happening} (other : h.peer? ≠ some c) : n.admits c h = false := by
  unfold admits
  split
  · rename_i id bytes _
    have elsewhere : id ≠ c := fun same => other (congrArg some same)
    simp [elsewhere]
  · rfl

theorem undergo_elsewhere {h : Happening} (other : h.peer? ≠ some c) :
    (n.undergo h).1.sessions.get? c = n.sessions.get? c := by
  cases h with
  | upkeep => rfl
  | event now e => exact n.handle_sessions now e other

theorem undergo_outside (outside : n.sessions.isAuthenticated c = false) {h : Happening}
    (refused : n.admits c h = false) : (n.undergo h).1.sessions.isAuthenticated c = false := by
  by_cases own : h.peer? = some c
  · cases Happening.concerns own with
    | arrival now remote =>
      show (n.welcome c remote).1.peers.sessions.isAuthenticated c = false
      simp [SessionTable.isAuthenticated, Session.isAuthenticated]
    | data now bytes channel =>
      have unread : n.acceptsFrom c bytes = false := by simpa [admits] using refused
      show (n.receive now c bytes channel).1.sessions.isAuthenticated c = false
      rw [(receive_outside outside now unread channel).1]
      exact outside
    | departure now =>
      show (n.dismiss c).1.peers.sessions.isAuthenticated c = false
      simp [SessionTable.isAuthenticated]
  · rw [SessionTable.isAuthenticated, undergo_elsewhere own]
    exact outside

structure Outsider (n : Node) (c : ConnectionId) : Prop where
  accounted : n.Accounted fun _ => True
  tracked : n.peers.Tracked
  pending : n.sessions.isAuthenticated c = false
  untraced : ¬ n.Traces c

theorem start_outsider {config : NodeConfig} {authenticator : Authenticator}
    {port : Option UInt16} {uplink : Option Uplink} {dice : Dice} {started : Nat} :
    (start config authenticator (port.map .new) uplink dice started).Outsider c := by
  let n := start config authenticator (port.map .new) uplink dice started
  have tracked : n.peers.Tracked := start_tracked
  have stranger : n.sessions.get? c = none := by
    simp [n, start, SessionTable.get?, SessionTable.empty]
  have pending : n.sessions.isAuthenticated c = false := by
    simp [SessionTable.isAuthenticated, stranger]
  refine ⟨start_accounted, tracked, pending, ?_⟩
  rintro (seated | ⟨r, here, known⟩)
  · exact Lobby.empty_not_seated seated
  · exact tracked.present here known stranger

theorem Outsider.undergo (o : n.Outsider c) {h : Happening} (refused : n.admits c h = false) :
    (n.undergo h).1.Outsider c := by
  refine ⟨undergo_accounted (fun _ => trivial) o.accounted (Or.inr fun _ => trivial),
    undergo_tracked o.tracked h, undergo_outside o.pending refused, ?_⟩
  obtain ⟨unseated, unknown⟩ := not_or.mp o.untraced
  cases h with
  | upkeep => exact o.untraced
  | event now e =>
    rintro (seated | known)
    · rcases handle_seated o.accounted.rooms seated with before | authenticated
      · exact unseated before
      · rw [o.pending] at authenticated
        contradiction
    · rcases handle_known o.tracked known with before | admitted
      · exact unknown before
      · rw [refused] at admitted
        contradiction

theorem after_outside (outside : n.sessions.isAuthenticated c = false) {past : List Happening}
    (refused : n.neverAdmits c past = true) :
    (n.after past).sessions.isAuthenticated c = false := by
  induction past generalizing n with
  | nil => exact outside
  | cons h rest ih =>
    simp only [neverAdmits, Bool.and_eq_true, Bool.not_eq_true'] at refused
    exact ih (undergo_outside outside refused.1) refused.2

end Node

end PeerRelay
