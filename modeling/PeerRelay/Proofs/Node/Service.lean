import PeerRelay.Proofs.Node.Accounts

/-!
Only live, authenticated peers are served. The accounts of a node stay in order over every
history, so whoever an event is answered to has a session that is in order.
-/
namespace PeerRelay.Node
open Wire (Bytes)

variable {ok : Session → Prop} {n : Node} {now : Nat} {c id : ConnectionId}

section
variable (granted : ∀ {s : Session}, s.isAuthenticated = true → ok s)
include granted

/-- A newcomer apart, who has not been authenticated yet, everyone that is sent to is in order. -/
theorem handle_sound (h : n.Accounted ok) {e : NodeEvent}
    (known : ∀ id remote, e ≠ .transport (.connected id remote)) : Sound ok (n.handle now e) := by
  cases e with
  | transport t =>
    cases t with
    | connected id remote => exact (known id remote rfl).elim
    | data id bytes channel => exact receive_sound granted h id bytes channel
    | disconnected id => exact dismiss_sound h id
  | datagram bytes source => exact receiveDatagram_sound h bytes source
  | heartbeat => exact heartbeat_sound granted h

theorem undergo_accounted (h : n.Accounted ok) {happening : Happening}
    (fresh : n.expects happening = true ∨ ∀ s, ok s) :
    (n.undergo happening).1.Accounted ok := by
  cases happening with
  | upkeep => exact ⟨h.rooms, h.keyed, h.seats⟩
  | event now e =>
    by_cases arrival : ∃ id remote, e = .transport (.connected id remote)
    · obtain ⟨id, remote, rfl⟩ := arrival
      exact welcome_accounted h remote (fresh.imp_left Option.isNone_iff_eq_none.mp)
    · refine (handle_sound granted h ?_).accounted
      intro id remote same
      exact arrival ⟨id, remote, same⟩

theorem after_accounted (h : n.Accounted ok) {past : List Happening}
    (fresh : n.orderly past = true ∨ ∀ s, ok s) : (n.after past).Accounted ok := by
  induction past generalizing n with
  | nil => exact h
  | cons first rest ih =>
    have parts : (n.expects first = true ∧ (n.undergo first).1.orderly rest = true) ∨ ∀ s, ok s :=
      fresh.imp_left Bool.and_eq_true_iff.mp
    exact ih (undergo_accounted granted h (parts.imp_left And.left)) (parts.imp_left And.right)

end

/-! Service -/

theorem welcome_sends {remote : Net.SocketAddress} {channel : Channel} {bytes : Bytes}
    (taken : .send c channel bytes ∈ (n.welcome id remote).2) :
    c = id ∧ bytes = [OpCode.keyRequest.code] := by
  unfold welcome at taken
  rcases deliver_actions _ _ with none | ⟨sent, encoded, some⟩
  · rw [none] at taken
    cases taken
  · rw [some, List.mem_singleton] at taken
    cases taken
    exact ⟨rfl, encode_keyRequest encoded⟩

/-- How an event is handled: whoever has a seat afterwards is authenticated then, and so is
    whoever is sent anything but the first request for the key, which goes to the pending session
    of a newcomer. The sessions of all other connections stay as they were. -/
structure Serves (n : Node) (e : NodeEvent) (answer : Node × List Action) : Prop where
  seats : ∀ {c : ConnectionId}, answer.1.lobby.Seated c →
    answer.1.sessions.isAuthenticated c = true
  sends : ∀ {c : ConnectionId} {channel : Channel} {bytes : Bytes},
    .send c channel bytes ∈ answer.2 →
      answer.1.sessions.isAuthenticated c = true ∨
        ∃ remote, e = .transport (.connected c remote) ∧ bytes = [OpCode.keyRequest.code] ∧
          answer.1.sessions.get? c = some ⟨c, .pending, remote⟩
  others : ∀ {c : ConnectionId}, e.peer? ≠ some c →
    answer.1.sessions.get? c = n.sessions.get? c

/-- Every event of a history is handled so, as long as no connection comes under an id that has
    a session. -/
theorem only_authenticated_peers_served (config : NodeConfig) (authenticator : Authenticator)
    (rendezvous : Option Rendezvous) (uplink : Option Uplink) (dice : Dice) (started : Nat)
    (past : List Happening) (now : Nat) (e : NodeEvent)
    (orderly : (start config authenticator rendezvous uplink dice started).orderly
      (past ++ [.event now e]) = true) :
    let n := (start config authenticator rendezvous uplink dice started).after past
    Serves n e (n.handle now e) := by
  intro n
  rw [orderly_append, Bool.and_eq_true_iff] at orderly
  have granted : ∀ {s : Session}, s.isAuthenticated = true → s.isAuthenticated = true := id
  have before : n.Accounted (·.isAuthenticated = true) :=
    after_accounted granted start_accounted (Or.inl orderly.1)
  have expected : n.expects (.event now e) = true := (Bool.and_eq_true_iff.mp orderly.2).1
  have later : (n.undergo (.event now e)).1.Accounted (·.isAuthenticated = true) :=
    undergo_accounted granted before (Or.inl expected)
  refine ⟨?_, ?_, n.handle_sessions now e⟩
  · intro c seated
    exact SessionTable.isAuthenticated_iff.mpr (later.seats seated)
  · intro c channel bytes taken
    by_cases arrival : ∃ id remote, e = .transport (.connected id remote)
    · obtain ⟨id, remote, rfl⟩ := arrival
      obtain ⟨rfl, request⟩ := welcome_sends taken
      refine Or.inr ⟨remote, rfl, request, ?_⟩
      have after := congrArg (fun p : Peers => p.sessions.get? c) (n.welcome_peers c remote)
      exact after.trans ((SessionTable.get?_connect remote).trans (if_pos rfl))
    · have sound : Sound (·.isAuthenticated = true) (n.handle now e) :=
        handle_sound granted before fun id remote same => arrival ⟨id, remote, same⟩
      exact Or.inl (SessionTable.isAuthenticated_iff.mpr (sound.sends taken))

def spoken (c : ConnectionId) (f : ClientFrame) : NodeEvent :=
  .transport (.data c (f.fields.flatMap Wire.Field.bytes) .reliable)

def arrived (c : ConnectionId) : NodeEvent := .transport (.connected c (.v4 10 0 0 1 9000))

def smallNode : Node :=
  start ⟨"relay", 7777, 8080, .any, 2, .numeric, .ignore, 1000, 64⟩ (.sharedKey "key") none
    (some ⟨"balancer", 7070, "", true, 10000, ⟨"relay", 7777, 8080, .any⟩⟩) ⟨fun _ i => i, 0⟩ 0

def roomOpened : List Happening :=
  [.upkeep ⟨[⟨"01", 0⟩]⟩ 0 false, .event 0 (arrived ⟨1⟩),
   .event 1 (spoken ⟨1⟩ (.keyResponse "key")),
   .event 2 (spoken ⟨1⟩ (.createRoom ⟨4, "Lobby", true, "", false, "", false, 0⟩)),
   .event 3 (arrived ⟨2⟩), .event 4 (spoken ⟨2⟩ (.keyResponse "key"))]

theorem joining_peer_served :
    let n := smallNode.after roomOpened
    let joining := spoken ⟨2⟩ (.joinRoom "01" false "")
    smallNode.orderly (roomOpened ++ [.event 5 joining]) = true ∧
      (n.handle 5 joining).2 =
        [.send ⟨2⟩ .reliable [5, 2, 0, 0, 0], .send ⟨1⟩ .reliable [5, 2, 0, 0, 0]] ∧
      (n.handle 5 joining).1.lobby.joinedBy? ⟨2⟩ ≠ none ∧ Serves n joining (n.handle 5 joining) :=
  ⟨by decide +kernel, by decide +kernel, by decide +kernel,
    only_authenticated_peers_served _ _ _ _ _ _ roomOpened 5 (spoken ⟨2⟩ (.joinRoom "01" false ""))
      (by decide +kernel)⟩

end PeerRelay.Node
