import PeerRelay.Proofs.Frame.RoundTrip
import PeerRelay.Proofs.Node.Isolation

/-!
Pooled buffers are used again as they are, with whatever was written into them. Nothing of that
gets out: a node that took a new buffer for every frame, with nothing but zeros in it, would do the
same in every history.
-/
namespace PeerRelay
open Wire (Bytes)

namespace Node

variable {n m : Node}

/-- The node with a new buffer for every frame. -/
def unpooled (n : Node) : Node := { n with buffers := n.buffers.drained }

theorem unpooled_repooled (n : Node) : n.Repooled n.unpooled :=
  ⟨⟨n.buffers.drained, rfl⟩, rfl, by simp [unpooled, BufferPool.drained, BufferPool.Uniform]⟩

/-! Other buffers -/

theorem undergo_repooled (uniform : n.buffers.Uniform) (h : n.Repooled m) (happening : Happening) :
    (n.undergo happening).1.Repooled (m.undergo happening).1 ∧
      (n.undergo happening).2 = (m.undergo happening).2 := by
  -- the nodes are alike for every connection, so for one that has no part in what happens
  have spare : ∃ x, happening.peer? ≠ some x := by
    by_cases zero : happening.peer? = some ⟨0⟩
    · exact ⟨⟨1⟩, by rw [zero]; decide⟩
    · exact ⟨⟨0⟩, zero⟩
  obtain ⟨x, other⟩ := spare
  have alike : Alike x n m := (h.alike ⟨rfl, uniform, uniform⟩).symm
  have beat : n.heartbeat = m.heartbeat := by
    obtain ⟨⟨buffers, rfl⟩, -, -⟩ := h
    rfl
  have own : (n.undergo happening).1.sessions.get? x = (m.undergo happening).1.sessions.get? x := by
    rw [undergo_elsewhere other, undergo_elsewhere other]
    obtain ⟨⟨buffers, rfl⟩, -, -⟩ := h
    rfl
  have agree := undergo_agrees alike beat other
  have sessions := SessionTable.eq_of_disconnect agree.nodes.sessions own
  have rest := agree.nodes.rest
  rw [← sessions] at rest
  exact ⟨⟨⟨_, rest⟩, (congrArg Node.buffers agree.nodes.same).symm, agree.nodes.right⟩,
    agree.actions⟩

theorem histories_repooled (uniform : n.buffers.Uniform) (h : n.Repooled m)
    (past : List Happening) :
    (n.after past).Repooled (m.after past) ∧ n.actions past = m.actions past := by
  induction past generalizing n m with
  | nil => exact ⟨h, rfl⟩
  | cons happening rest ih =>
    have own := (undergo_repooled uniform (.refl uniform) happening).1
    obtain ⟨nodes, first⟩ := undergo_repooled uniform h happening
    obtain ⟨later, others⟩ := ih own.uniform nodes
    exact ⟨later, by rw [actions, actions, first, others]⟩

theorem after_uniform (uniform : n.buffers.Uniform) (past : List Happening) :
    (n.after past).buffers.Uniform :=
  (histories_repooled uniform (.refl uniform) past).1.uniform

/-! New buffers -/

def Packet (room : Nat) (bytes : Bytes) : Prop :=
  bytes = [heartbeatByte] ∨
    ∃ f : ServerFrame, (f.encode (List.replicate room 0)).result = .ok bytes

/-- An answer that leaves no buffer in the pool, and whose packets are made in new ones. -/
structure Afresh (p : BufferPool) (answer : Node × List Action) : Prop where
  pool : answer.1.buffers = p.drained
  packets : ∀ {c : ConnectionId} {channel : Channel} {bytes : Bytes},
    .send c channel bytes ∈ answer.2 → Packet p.bufferSize bytes

variable {p : BufferPool}

theorem encode_afresh (h : n.buffers = p.drained) (f : ServerFrame) :
    n.encode f = ((f.encode (List.replicate p.bufferSize 0)).result, n) := by
  obtain ⟨config, authenticator, sessions, lobby, rendezvous, board, boardChanged, buffers⟩ := n
  subst h
  rfl

theorem quiet_afresh (h : n.buffers = p.drained) {actions : List Action}
    (quiet : ∀ {c channel bytes}, .send c channel bytes ∉ actions) : Afresh p (n, actions) :=
  ⟨h, fun taken => (quiet taken).elim⟩

theorem silent_afresh (h : n.buffers = p.drained) : Afresh p (n, []) := quiet_afresh h (by simp)

theorem closing_afresh (h : n.buffers = p.drained) (c : ConnectionId) : Afresh p (n, [.close c]) :=
  quiet_afresh h (by simp)

theorem Afresh.andThen {first second : Node × List Action} (before : Afresh p first)
    (after : Afresh p second) : Afresh p (second.1, first.2 ++ second.2) := by
  refine ⟨after.pool, ?_⟩
  intro c channel bytes taken
  rcases List.mem_append.mp taken with early | late
  · exact before.packets early
  · exact after.packets late

theorem sent_afresh (h : n.buffers = p.drained) {f : ServerFrame} {bytes : Bytes}
    (encoded : (f.encode (List.replicate p.bufferSize 0)).result = .ok bytes) (c : ConnectionId)
    (channel : Channel) : Afresh p (n, [.send c channel bytes]) := by
  refine ⟨h, ?_⟩
  intro c' channel' bytes' taken
  cases List.mem_singleton.mp taken
  exact Or.inr ⟨f, encoded⟩

theorem deliver_afresh (h : n.buffers = p.drained) (o : Outbound) : Afresh p (n.deliver o) := by
  rw [deliver_eq, encode_afresh h]
  cases encoded : (o.frame.encode (List.replicate p.bufferSize 0)).result with
  | ok bytes => exact sent_afresh h encoded o.recipient .reliable
  | error e => exact silent_afresh h

theorem deliverAll_afresh (h : n.buffers = p.drained) (outbound : List Outbound) :
    Afresh p (n.deliverAll outbound) := by
  induction outbound generalizing n with
  | nil => exact silent_afresh h
  | cons o rest ih =>
    have first := deliver_afresh h o
    exact first.andThen (ih first.pool)

theorem apply_afresh (h : n.buffers = p.drained) (effects : Effects) :
    Afresh p (n.apply effects) := by
  have sent := deliverAll_afresh h effects.outbound
  refine ⟨?_, sent.packets⟩
  show (if effects.roomsChanged then _ else _ : Node).buffers = _
  split <;> exact sent.pool

theorem forward_afresh (h : n.buffers = p.drained) (sender : ConnectionId) (payload : Bytes)
    (target : ConnectionId) (channel : Channel) :
    Afresh p (n.forward sender payload target channel) := by
  unfold forward
  split
  · exact silent_afresh h
  · rename_i o routed
    rw [encode_afresh h]
    cases encoded : (o.frame.encode (List.replicate p.bufferSize 0)).result with
    | ok bytes => exact sent_afresh h encoded o.recipient channel
    | error e =>
      cases e with
      | overflow needed remaining => exact closing_afresh h sender
      | _ => exact silent_afresh h

theorem obey_afresh (h : n.buffers = p.drained) (now : Nat) (c : ConnectionId) (channel : Channel)
    (frame : ClientFrame) : Afresh p (n.obey now c channel frame) := by
  have o := n.obey_obedience now c channel frame
  generalize n.obey now c channel frame = answer at o
  cases o with
  | drawn => exact silent_afresh h
  | named => exact apply_afresh h _
  | served =>
    apply apply_afresh
    exact h
  | passed payload target => exact forward_afresh h c payload target channel

theorem invite_afresh (h : n.buffers = p.drained) (c : ConnectionId) : Afresh p (n.invite c) := by
  unfold invite
  split
  · exact silent_afresh h
  · split
    · exact silent_afresh h
    · apply deliver_afresh
      exact h

theorem authenticate_afresh (h : n.buffers = p.drained) (c : ConnectionId) (key : String) :
    Afresh p (n.authenticate c key) := by
  have v := n.authenticate_verdict c key
  generalize n.authenticate c key = answer at v
  cases v with
  | refused only =>
    rcases only with rfl | rfl
    · exact silent_afresh h
    · exact closing_afresh h c
  | @admitted _ sessions accepted =>
    have greeting : Afresh p ({ n with sessions }.deliver ⟨c, .authenticated⟩) := by
      apply deliver_afresh
      exact h
    exact greeting.andThen (invite_afresh greeting.pool c)

theorem receive_afresh (h : n.buffers = p.drained) (now : Nat) (c : ConnectionId) (bytes : Bytes)
    (channel : Channel) : Afresh p (n.receive now c bytes channel) := by
  rcases n.receive_cases now c bytes channel with dropped | ⟨key, read⟩ | ⟨_, frame, read⟩
  · rw [dropped]
    exact silent_afresh h
  · rw [read]
    exact authenticate_afresh h c key
  · rw [read]
    exact obey_afresh h now c channel frame

theorem undergo_afresh (h : n.buffers = p.drained) (happening : Happening) :
    Afresh p (n.undergo happening) := by
  cases happening with
  | upkeep => exact silent_afresh h
  | event now e =>
    cases e with
    | transport t =>
      cases t with
      | connected id remote =>
        apply deliver_afresh
        exact h
      | data id bytes channel => exact receive_afresh h now id bytes channel
      | disconnected id =>
        apply apply_afresh
        exact h
    | datagram bytes source =>
      show Afresh p (n.receiveDatagram bytes source)
      unfold receiveDatagram
      split
      · exact silent_afresh h
      · apply quiet_afresh
        · exact h
        · simp
    | heartbeat =>
      refine ⟨h, ?_⟩
      intro c channel bytes taken
      obtain ⟨id, -, beat⟩ := List.mem_map.mp taken
      cases beat
      exact Or.inl rfl

theorem history_afresh (h : n.buffers = p.drained) (past : List Happening) :
    Afresh p (n.after past, n.actions past) := by
  induction past generalizing n with
  | nil => exact silent_afresh h
  | cons happening rest ih =>
    have first := undergo_afresh h happening
    exact first.andThen (ih first.pool)

theorem after_unpooled (uniform : n.buffers.Uniform) (past : List Happening) :
    n.unpooled.after past = (n.after past).unpooled := by
  have afresh := (history_afresh (n := n.unpooled) (p := n.buffers) rfl past).pool
  obtain ⟨⟨buffers, rest⟩, drained, -⟩ := (histories_repooled uniform n.unpooled_repooled past).1
  have pool : (n.unpooled.after past).buffers = (n.after past).buffers.drained := by
    rw [← drained, afresh]
    rfl
  rw [rest] at pool ⊢
  exact congrArg (fun buffers => { n.after past with buffers }) pool

theorem after_bufferSize (uniform : n.buffers.Uniform) (past : List Happening) :
    (n.after past).buffers.bufferSize = n.buffers.bufferSize := by
  have pool := (history_afresh (n := n.unpooled) (p := n.buffers) rfl past).pool
  have same := (histories_repooled uniform n.unpooled_repooled past).1.bufferSize
  rw [← same, pool]
  rfl

theorem reached_pool (config : NodeConfig) (authenticator : Authenticator)
    (rendezvous : Option Rendezvous) (uplink : Option Uplink) (dice : Dice) (started : Nat)
    (past : List Happening) :
    let n := (start config authenticator rendezvous uplink dice started).after past
    n.buffers.Uniform ∧ n.buffers.bufferSize = config.maxPacket := by
  have new : (start config authenticator rendezvous uplink dice started).buffers.Uniform := by
    simp [start, BufferPool.Uniform]
  exact ⟨after_uniform new past, after_bufferSize new past⟩

theorem encode_pooled (uniform : n.buffers.Uniform) (f : ServerFrame) :
    (n.encode f).1 = (f.encode (List.replicate n.buffers.bufferSize 0)).result := by
  have length := BufferPool.acquire_length uniform
  apply Wire.encodeInto_congr
  rw [List.length_replicate]
  exact length

/-- Of a frame the buffer has its bytes in front, whatever was in it. So whatever a node has written
    into its pooled buffers, each frame is encoded as in a new one. In every history it does the
    same as with a pool that stays empty, and all it sends but heartbeats are frames that are read
    as they are meant and that fit. -/
theorem pooled_buffers_leak_nothing :
    (∀ (f : ServerFrame) (buffer buffer' : Bytes), buffer.length = buffer'.length →
      (f.encode buffer).result = (f.encode buffer').result ∧
        ∀ bytes, (f.encode buffer).result = .ok bytes →
          (f.encode buffer).buffer.take bytes.length = bytes ∧
            (f.encode buffer').buffer.take bytes.length = bytes) ∧
    ∀ (config : NodeConfig) (authenticator : Authenticator) (rendezvous : Option Rendezvous)
      (uplink : Option Uplink) (dice : Dice) (started : Nat) (earlier past : List Happening),
      let n := (start config authenticator rendezvous uplink dice started).after earlier
      let zeros : Bytes := List.replicate config.maxPacket 0
      (∀ f, (n.encode f).1 = (f.encode zeros).result ∧
        n.unpooled.encode f = ((f.encode zeros).result, n.unpooled)) ∧
      n.unpooled.after past = (n.after past).unpooled ∧
      n.actions past = n.unpooled.actions past ∧
      ∀ c channel bytes, .send c channel bytes ∈ n.actions past → bytes = [heartbeatByte] ∨
        ∃ f : ServerFrame, (f.encode zeros).result = .ok bytes ∧
          ServerFrame.decode bytes = .ok f ∧ bytes.length ≤ config.maxPacket := by
  constructor
  · intro f buffer buffer' size
    have same := Wire.encodeInto_congr f.fields size
    refine ⟨same, ?_⟩
    intro bytes encoded
    exact ⟨f.encoded_front encoded, f.encoded_front (same.symm.trans encoded)⟩
  · intro config authenticator rendezvous uplink dice started earlier past n zeros
    have pool := reached_pool config authenticator rendezvous uplink dice started earlier
    obtain ⟨uniform, size⟩ : n.buffers.Uniform ∧ n.buffers.bufferSize = config.maxPacket := pool
    have same := (histories_repooled uniform n.unpooled_repooled past).2
    refine ⟨?_, after_unpooled uniform past, same, ?_⟩
    · intro f
      have pooled := encode_pooled uniform f
      have afresh := encode_afresh (n := n.unpooled) (p := n.buffers) rfl f
      rw [size] at pooled afresh
      exact ⟨pooled, afresh⟩
    · intro c channel bytes taken
      have afresh := history_afresh (n := n.unpooled) (p := n.buffers) rfl past
      rw [same] at taken
      have packet := afresh.packets taken
      rw [size] at packet
      rcases packet with beat | ⟨f, encoded⟩
      · exact Or.inl beat
      · obtain ⟨exact_size, room⟩ := f.encoded_length encoded
        rw [List.length_replicate] at room
        exact Or.inr ⟨f, encoded, f.decode_encoded encoded, exact_size ▸ room⟩

/-- The one buffer of a node still holds the id that a host was told, when the next peer joins. -/
theorem room_id_not_leaked :
    let n := smallNode.after roomOpened
    let joining := [Happening.event 5 (spoken ⟨2⟩ (.joinRoom "01" false ""))]
    n.buffers.idle.map (·.take 9) = [[17, 2, 0, 0, 0, 48, 0, 49, 0]] ∧
      n.actions joining = [.send ⟨2⟩ .reliable [5, 2, 0, 0, 0],
        .send ⟨1⟩ .reliable [5, 2, 0, 0, 0]] ∧
      n.actions joining = n.unpooled.actions joining := by
  intro n joining
  have afresh := pooled_buffers_leak_nothing.2 smallNode.config smallNode.authenticator none
    smallNode.uplink ⟨fun _ i => i, 0⟩ 0 roomOpened joining
  exact ⟨by decide +kernel, by decide +kernel, afresh.2.2.1⟩

end Node

end PeerRelay
