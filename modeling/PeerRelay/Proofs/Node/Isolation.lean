import PeerRelay.Proofs.Node.Outsiders
import PeerRelay.Proofs.Node.Packets

/-!
Two histories of a node, one without the events of a connection whose key is never accepted. The
nodes are alike all the way: they differ at most in the session of that connection and in what
their pooled buffers hold. So everybody else is sent the same.
-/
namespace PeerRelay
open Wire (Bytes)

def Action.peer? : Action → Option ConnectionId
  | .send recipient .. => some recipient
  | .close id => some id
  | .datagram .. => none

namespace Node

variable {n m : Node} {x : ConnectionId}

/-- The node without a session and without pooled buffers. -/
def aside (x : ConnectionId) (n : Node) : Node :=
  { n with sessions := n.sessions.disconnect x, buffers := n.buffers.drained }

structure Alike (x : ConnectionId) (n m : Node) : Prop where
  same : n.aside x = m.aside x
  left : n.buffers.Uniform
  right : m.buffers.Uniform

structure Agree (x : ConnectionId) (a b : Node × List Action) : Prop where
  nodes : Alike x a.1 b.1
  actions : a.2 = b.2

namespace Alike

theorem silent (h : Alike x n m) : Agree x (n, []) (m, []) := ⟨h, rfl⟩

theorem symm (h : Alike x n m) : Alike x m n := ⟨h.same.symm, h.right, h.left⟩

theorem rest (h : Alike x n m) : m = { n with sessions := m.sessions, buffers := m.buffers } := by
  have put :=
    congrArg (fun k : Node => { k with sessions := m.sessions, buffers := m.buffers }) h.same
  exact put.symm

theorem congr (h : Alike x n m) {α : Type} (view : Node → α)
    (apart : ∀ k : Node, view (k.aside x) = view k) : view n = view m := by
  rw [← apart n, h.same, apart]

theorem bufferSize (h : Alike x n m) : n.buffers.bufferSize = m.buffers.bufferSize :=
  h.congr (·.buffers.bufferSize) fun _ => rfl

theorem sessions (h : Alike x n m) : n.sessions.disconnect x = m.sessions.disconnect x :=
  (congrArg Node.sessions h.same :)

theorem get? (h : Alike x n m) {c : ConnectionId} (other : c ≠ x) :
    n.sessions.get? c = m.sessions.get? c := by
  have found := congrArg (fun t : SessionTable => t.get? c) h.sessions
  simpa only [SessionTable.get?_disconnect, if_neg other] using found

theorem isAuthenticated (h : Alike x n m) {c : ConnectionId} (other : c ≠ x) :
    n.sessions.isAuthenticated c = m.sessions.isAuthenticated c := by
  rw [SessionTable.isAuthenticated, SessionTable.isAuthenticated, h.get? other]

theorem update (h : Alike x n m) (f : Node → Node) (apart : ∀ k, (f k).aside x = f (k.aside x))
    (pool : ∀ k, (f k).buffers = k.buffers) : Alike x (f n) (f m) := by
  refine ⟨?_, ?_, ?_⟩
  · rw [apart, apart, h.same]
  · rw [pool]
    exact h.left
  · rw [pool]
    exact h.right

end Alike

theorem Repooled.alike {k : Node} (h : Alike x n m) (first : n.Repooled k) : Alike x k m := by
  obtain ⟨⟨buffers, rfl⟩, drained, uniform⟩ := first
  refine ⟨?_, uniform, h.right⟩
  rw [← h.same]
  simp only [aside, drained]

theorem Alike.repooled {k l : Node} (h : Alike x n m) (first : n.Repooled k)
    (second : m.Repooled l) : Alike x k l :=
  (second.alike (first.alike h).symm).symm

theorem Agree.andThen {a b : Node × List Action} (before : Agree x a b)
    {c d : Node × List Action} (after : Agree x c d) :
    Agree x (c.1, a.2 ++ c.2) (d.1, b.2 ++ d.2) :=
  ⟨after.nodes, by rw [before.actions, after.actions]⟩

/-! Handlers -/

theorem deliver_agrees (h : Alike x n m) (o : Outbound) :
    Agree x (n.deliver o) (m.deliver o) where
  nodes := h.repooled (deliver_repooled h.left o) (deliver_repooled h.right o)
  actions := by rw [deliver_packets h.left, deliver_packets h.right, h.bufferSize]

theorem refreshBoard_alike (h : Alike x n m) : Alike x n.refreshBoard m.refreshBoard :=
  h.update refreshBoard (fun _ => rfl) fun _ => rfl

theorem apply_agrees (h : Alike x n m) (effects : Effects) :
    Agree x (n.apply effects) (m.apply effects) where
  nodes := by
    have first := apply_repooled h.left effects
    have second := apply_repooled h.right effects
    cases changed : effects.roomsChanged with
    | true =>
      rw [changed] at first second
      exact (refreshBoard_alike h).repooled first second
    | false =>
      rw [changed] at first second
      exact h.repooled first second
  actions := by rw [apply_packets h.left, apply_packets h.right, h.bufferSize]

theorem settle_agrees (h : Alike x n m) (change : Lobby × Effects) :
    Agree x (n.settle change) (m.settle change) :=
  apply_agrees (h.update (fun k => { k with lobby := change.1 }) (fun _ => rfl) fun _ => rfl) _

theorem forward_agrees (h : Alike x n m) (sender : ConnectionId) (payload : Bytes)
    (target : ConnectionId) (channel : Channel) :
    Agree x (n.forward sender payload target channel)
      (m.forward sender payload target channel) where
  nodes :=
    h.repooled (forward_repooled h.left sender payload target channel)
      (forward_repooled h.right sender payload target channel)
  actions := by rw [forward_packets h.left, forward_packets h.right, h.bufferSize,
    h.congr lobby fun _ => rfl]

theorem invite_agrees (h : Alike x n m) (c : ConnectionId) :
    Agree x (n.invite c) (m.invite c) := by
  unfold invite
  rw [h.congr rendezvous fun _ => rfl, h.congr dice fun _ => rfl]
  cases m.rendezvous with
  | none => exact h.silent
  | some r =>
    dsimp only
    generalize r.issue c maxTokenAttempts m.dice = issue
    obtain ⟨token, r, dice⟩ := issue
    have issued : Alike x { n with rendezvous := some r, dice }
        { m with rendezvous := some r, dice } :=
      h.update (fun k => { k with rendezvous := some r, dice }) (fun _ => rfl) fun _ => rfl
    cases token with
    | none => exact issued.silent
    | some token => exact deliver_agrees issued _

theorem authenticate_agrees (h : Alike x n m) {c : ConnectionId} (other : c ≠ x) (key : String) :
    Agree x (n.authenticate c key) (m.authenticate c key) := by
  have checked : (n.sessions.authenticate c key n.authenticator).map (·.disconnect x) =
      (m.sessions.authenticate c key m.authenticator).map (·.disconnect x) := by
    rw [← SessionTable.authenticate_disconnect other, ← SessionTable.authenticate_disconnect other,
      h.sessions, h.congr authenticator fun _ => rfl]
  unfold authenticate
  generalize n.sessions.authenticate c key n.authenticator = first at checked ⊢
  generalize m.sessions.authenticate c key m.authenticator = second at checked ⊢
  cases first with
  | error e =>
    cases second with
    | ok sessions => cases checked
    | error e' =>
      cases checked
      cases e with
      | authFailed reason =>
        dsimp only
        rw [h.congr (·.config.authFailure) fun _ => rfl]
        cases m.config.authFailure <;> exact ⟨h, rfl⟩
      | notFound | alreadyAuthenticated => exact h.silent
  | ok sessions =>
    cases second with
    | error e => cases checked
    | ok sessions' =>
      have same : sessions.disconnect x = sessions'.disconnect x := Except.ok.inj checked
      have admitted : Alike x { n with sessions } { m with sessions := sessions' } := by
        refine ⟨?_, h.left, h.right⟩
        have rest := congrArg (fun k => { k with sessions := sessions.disconnect x }) h.same
        refine rest.trans ?_
        rw [same]
        rfl
      have greeting := deliver_agrees admitted ⟨c, .authenticated⟩
      dsimp only
      generalize { n with sessions }.deliver ⟨c, .authenticated⟩ = greeted at greeting ⊢
      generalize Node.deliver { m with sessions := sessions' } ⟨c, .authenticated⟩ = greeted'
        at greeting ⊢
      have invitation := invite_agrees greeting.nodes c
      generalize greeted.1.invite c = invited at invitation
      exact greeting.andThen invitation

theorem drawnId_alike (h : Alike x n m) :
    n.drawnId.1 = m.drawnId.1 ∧ Alike x n.drawnId.2 m.drawnId.2 := by
  have same : drawRoomId n.config.idLength n.config.idAlphabet n.lobby.contains n.dice =
      drawRoomId m.config.idLength m.config.idAlphabet m.lobby.contains m.dice := by
    rw [h.congr config fun _ => rfl, h.congr lobby fun _ => rfl, h.congr dice fun _ => rfl]
  unfold drawnId
  rw [same]
  generalize drawRoomId _ _ _ _ = draw
  refine ⟨rfl, ?_⟩
  exact h.update (fun k => { k with dice := draw.2 }) (fun _ => rfl) fun _ => rfl

theorem offeredId_alike (h : Alike x n m) (now : Nat) :
    (n.offeredId now).1 = (m.offeredId now).1 ∧
      Alike x (n.offeredId now).2 (m.offeredId now).2 := by
  have used : n.uplink.any Uplink.issuesRoomIds = m.uplink.any Uplink.issuesRoomIds :=
    h.congr (·.uplink.any Uplink.issuesRoomIds) fun _ => rfl
  have taken : n.roomIds.take now = m.roomIds.take now :=
    h.congr (·.roomIds.take now) fun _ => rfl
  unfold offeredId
  rw [used, taken]
  generalize m.roomIds.take now = offer
  split
  · refine ⟨rfl, ?_⟩
    exact h.update (fun k => { k with roomIds := offer.2 }) (fun _ => rfl) fun _ => rfl
  · exact ⟨rfl, h⟩

theorem newRoomId_alike (h : Alike x n m) (now : Nat) :
    (n.newRoomId now).1 = (m.newRoomId now).1 ∧
      Alike x (n.newRoomId now).2 (m.newRoomId now).2 := by
  obtain ⟨offers, nodes⟩ := offeredId_alike h now
  unfold newRoomId
  generalize n.offeredId now = first at offers nodes ⊢
  generalize m.offeredId now = second at offers nodes ⊢
  obtain ⟨id, n⟩ := first
  obtain ⟨id', m⟩ := second
  cases offers
  cases id with
  | none => exact drawnId_alike nodes
  | some id =>
    dsimp only
    rw [nodes.congr lobby fun _ => rfl]
    split
    · exact drawnId_alike nodes
    · exact ⟨rfl, nodes⟩

theorem openRoom_agrees (h : Alike x n m) (now : Nat) (host : ConnectionId)
    (settings : RoomSettings) :
    Agree x (n.openRoom now host settings) (m.openRoom now host settings) := by
  obtain ⟨ids, nodes⟩ := newRoomId_alike h now
  unfold openRoom
  generalize n.newRoomId now = first at ids nodes ⊢
  generalize m.newRoomId now = second at ids nodes ⊢
  obtain ⟨id, n⟩ := first
  obtain ⟨id', m⟩ := second
  cases ids
  cases id with
  | none => exact nodes.silent
  | some id =>
    dsimp only
    rw [nodes.congr (·.endpoint? host) fun _ => rfl, nodes.congr lobby fun _ => rfl]
    cases m.lobby.create host id settings (m.endpoint? host) with
    | error e => exact nodes.silent
    | ok change => exact settle_agrees nodes change

theorem obey_agrees (h : Alike x n m) (now : Nat) (c : ConnectionId) (channel : Channel)
    (frame : ClientFrame) : Agree x (n.obey now c channel frame) (m.obey now c channel frame) := by
  have lobby := h.congr lobby fun _ => rfl
  cases frame with
  | blank | keyResponse => exact h.silent
  | requestId => exact apply_agrees h _
  | createRoom settings => exact openRoom_agrees h now c settings
  | joinRoom room canDirect localIp =>
    rw [obey, obey, lobby, h.congr (·.endpoint? c) fun _ => rfl]
    exact settle_agrees h _
  | leaveRoom =>
    rw [obey, obey, lobby]
    exact settle_agrees h _
  | kickPeer target =>
    rw [obey, obey, lobby]
    exact settle_agrees h _
  | sendData payload target => exact forward_agrees h c payload target channel
  | updateRoom u =>
    rw [obey, obey, lobby]
    cases m.lobby.update c u with
    | error e => exact h.silent
    | ok change => exact settle_agrees h change

theorem receive_agrees (h : Alike x n m) {c : ConnectionId} (other : c ≠ x) (now : Nat)
    (bytes : Bytes) (channel : Channel) :
    Agree x (n.receive now c bytes channel) (m.receive now c bytes channel) := by
  unfold receive
  rw [h.isAuthenticated other]
  split
  · exact h.silent
  · split
    · exact h.silent
    · exact authenticate_agrees h other _
    · split
      · exact obey_agrees h now c channel _
      · exact h.silent

theorem welcome_agrees (h : Alike x n m) {c : ConnectionId} (other : c ≠ x)
    (remote : Net.SocketAddress) : Agree x (n.welcome c remote) (m.welcome c remote) := by
  apply deliver_agrees
  apply h.update (fun k => { k with sessions := k.sessions.connect c remote })
  · intro k
    simp only [aside, SessionTable.disconnect_connect other]
  · exact fun _ => rfl

theorem dismiss_agrees (h : Alike x n m) (c : ConnectionId) :
    Agree x (n.dismiss c) (m.dismiss c) := by
  unfold dismiss
  rw [h.congr lobby fun _ => rfl, h.congr rendezvous fun _ => rfl]
  apply apply_agrees
  apply h.update fun k =>
    { k with
      lobby := (m.lobby.leave c none).1
      sessions := k.sessions.disconnect c
      rendezvous := m.rendezvous.map fun r => r.forget c }
  · intro k
    simp only [aside, SessionTable.disconnect_comm _ x c]
  · exact fun _ => rfl

theorem receiveDatagram_agrees (h : Alike x n m) (bytes : Bytes) (source : Net.SocketAddress) :
    Agree x (n.receiveDatagram bytes source) (m.receiveDatagram bytes source) := by
  unfold receiveDatagram
  rw [h.congr rendezvous fun _ => rfl]
  cases m.rendezvous with
  | none => exact h.silent
  | some r =>
    refine ⟨?_, rfl⟩
    exact h.update (fun k => { k with rendezvous := some (r.receive bytes source).2 })
      (fun _ => rfl) fun _ => rfl

theorem heartbeat_eq (h : Alike x n m) (first : n.Outsider x) (second : m.Outsider x) :
    n.heartbeat = m.heartbeat := by
  unfold heartbeat
  rw [← SessionTable.authenticatedIds_disconnect first.accounted.keyed first.pending, h.sessions,
    SessionTable.authenticatedIds_disconnect second.accounted.keyed second.pending]

/-- What happens to others, or to nobody, has the same answer in both nodes. -/
theorem undergo_agrees (h : Alike x n m) (beat : n.heartbeat = m.heartbeat)
    {happening : Happening} (other : happening.peer? ≠ some x) :
    Agree x (n.undergo happening) (m.undergo happening) := by
  cases happening with
  | upkeep roomIds lastProbe boardChanged =>
    refine ⟨?_, rfl⟩
    exact h.update (fun k => { k with roomIds, lastProbe, boardChanged }) (fun _ => rfl)
      fun _ => rfl
  | event now e =>
    cases e with
    | transport t =>
      have elsewhere : t.id ≠ x := fun same => other (congrArg some same)
      cases t with
      | connected id remote => exact welcome_agrees h elsewhere remote
      | data id bytes channel => exact receive_agrees h elsewhere now bytes channel
      | disconnected id => exact dismiss_agrees h id
    | datagram bytes source => exact receiveDatagram_agrees h bytes source
    | heartbeat => exact ⟨h, beat⟩

/-! The connection itself -/

theorem welcome_alike (h : n.buffers.Uniform) (x : ConnectionId) (remote : Net.SocketAddress) :
    Alike x (n.welcome x remote).1 n := by
  let arrived : Node := { n with sessions := n.sessions.connect x remote }
  have alike : Alike x arrived n :=
    ⟨by simp only [arrived, aside, SessionTable.disconnect_connect_self], h, h⟩
  have uniform : arrived.buffers.Uniform := h
  exact (deliver_repooled uniform _).alike alike

theorem welcome_own (n : Node) (x : ConnectionId) (remote : Net.SocketAddress) :
    ∀ a ∈ (n.welcome x remote).2, a.peer? = some x := by
  intro a taken
  unfold welcome at taken
  rcases deliver_actions _ _ with none | ⟨bytes, _, some⟩
  · rw [none] at taken
    cases taken
  · rw [some, List.mem_singleton] at taken
    rw [taken]
    rfl

/-- Nobody else notices what happens to a connection whose key is not accepted. -/
theorem undergo_own (h : n.buffers.Uniform) (o : n.Outsider x) {happening : Happening}
    (own : happening.peer? = some x) (refused : n.admits x happening = false) :
    Alike x (n.undergo happening).1 n ∧ ∀ a ∈ (n.undergo happening).2, a.peer? = some x := by
  cases Happening.concerns own with
  | arrival now remote => exact ⟨welcome_alike h x remote, n.welcome_own x remote⟩
  | data now bytes channel =>
    have unread : n.acceptsFrom x bytes = false := by simpa [admits] using refused
    obtain ⟨same, only⟩ := receive_outside o.pending now unread channel
    refine ⟨?_, fun a taken => by rw [only a taken]; rfl⟩
    rw [undergo, handle, same]
    exact ⟨rfl, h, h⟩
  | departure now =>
    rw [undergo, handle, dismiss_untraced o.accounted.rooms o.untraced]
    refine ⟨⟨?_, h, h⟩, by simp⟩
    simp only [aside, SessionTable.disconnect_disconnect]

/-! Histories -/

end Node

def Happening.spares (x : ConnectionId) (h : Happening) : Bool := h.peer? != some x

def Action.spares (x : ConnectionId) (a : Action) : Bool := a.peer? != some x

namespace Node

variable {n m : Node} {x : ConnectionId}

theorem histories_agree (h : Alike x n m) (first : n.Outsider x) (second : m.Outsider x)
    {past : List Happening} (refused : n.neverAdmits x past = true) :
    Alike x (n.after past) (m.after (past.filter (·.spares x))) ∧
      (n.actions past).filter (·.spares x) =
        (m.actions (past.filter (·.spares x))).filter (·.spares x) := by
  induction past generalizing n m with
  | nil => exact ⟨h, rfl⟩
  | cons happening rest ih =>
    simp only [neverAdmits, Bool.and_eq_true, Bool.not_eq_true'] at refused
    obtain ⟨now, later⟩ := refused
    have outsider := first.undergo now
    by_cases own : happening.peer? = some x
    · -- only the full history goes on
      obtain ⟨alike, only⟩ := undergo_own h.left first own now
      have nothing : (n.undergo happening).2.filter (·.spares x) = [] := by
        rw [List.filter_eq_nil_iff]
        intro a taken
        simp [Action.spares, only a taken]
      have skipped : happening.spares x = false := by simp [Happening.spares, own]
      have goes_on : Alike x (n.undergo happening).1 m :=
        ⟨alike.same.trans h.same, alike.left, h.right⟩
      rw [List.filter_cons_of_neg (by simp [skipped]), actions, List.filter_append, nothing]
      exact ih goes_on outsider second later
    · have spared : happening.spares x = true := by simpa [Happening.spares] using own
      have agree := undergo_agrees h (heartbeat_eq h first second) own
      obtain ⟨nodes, others⟩ :=
        ih agree.nodes outsider (second.undergo (admits_elsewhere own)) later
      rw [List.filter_cons_of_pos (by simp [spared])]
      refine ⟨nodes, ?_⟩
      rw [actions, actions, List.filter_append, List.filter_append, agree.actions, others]

/-- A connection whose key is never accepted might as well not have been there: without all that
    happens to it, the node ends up the same but for its session and for what the pooled buffers
    hold, and does the same to everybody else, in the same order. -/
theorem outsider_unnoticed (config : NodeConfig) (authenticator : Authenticator)
    (port : Option UInt16) (uplink : Option Uplink) (dice : Dice) (started : Nat)
    (past : List Happening) (x : ConnectionId)
    (outside : (start config authenticator (port.map .new) uplink dice started).neverAdmits x past =
      true) :
    let fresh := start config authenticator (port.map .new) uplink dice started
    let spared := past.filter (·.spares x)
    (∃ sessions buffers, fresh.after past = { fresh.after spared with sessions, buffers }) ∧
      (∀ c, c ≠ x → (fresh.after past).sessions.get? c = (fresh.after spared).sessions.get? c) ∧
      (fresh.actions past).filter (·.spares x) = (fresh.actions spared).filter (·.spares x) := by
  intro fresh spared
  have uniform : fresh.buffers.Uniform := by simp [fresh, start, BufferPool.Uniform]
  obtain ⟨nodes, actions⟩ :=
    histories_agree ⟨rfl, uniform, uniform⟩ start_outsider start_outsider outside
  refine ⟨?_, fun c other => nodes.get? other, actions⟩
  exact ⟨_, _, nodes.symm.rest⟩

def guessing : List Happening :=
  [.event 5 (arrived ⟨3⟩), .event 6 (spoken ⟨3⟩ (.keyResponse "guess")),
   .event 7 (spoken ⟨3⟩ (.createRoom ⟨4, "Mine", true, "", false, "", false, 0⟩)),
   .event 8 (spoken ⟨1⟩ (.kickPeer ⟨3⟩)), .event 9 (spoken ⟨2⟩ (.joinRoom "01" false "")),
   .event 10 (.transport (.disconnected ⟨3⟩)), .event 11 (arrived ⟨3⟩)]

theorem guesser_unnoticed :
    let spared := (roomOpened ++ guessing).filter (·.spares ⟨3⟩)
    smallNode.neverAdmits ⟨3⟩ (roomOpened ++ guessing) = true ∧
      (smallNode.actions spared).length = 7 ∧
      (smallNode.actions (roomOpened ++ guessing)).length = 9 ∧
      (smallNode.actions (roomOpened ++ guessing)).filter (·.spares ⟨3⟩) =
        (smallNode.actions spared).filter (·.spares ⟨3⟩) :=
  ⟨by decide +kernel, by decide +kernel, by decide +kernel,
    (outsider_unnoticed _ _ none _ _ _ (roomOpened ++ guessing) ⟨3⟩ (by decide +kernel)).2.2⟩

end Node

end PeerRelay
