import PeerRelay.Proofs.Frame.Spelling
import PeerRelay.Proofs.Lobby.Routing
import PeerRelay.Proofs.Node.Board
import PeerRelay.Proofs.Node.Pooling
import PeerRelay.Proofs.Transport.Limit

/-!
Data that is too large to be passed on costs its sender the connection and has no other effect. But
what a peer has sent, with the target in it, is never shorter than what is passed on, with or
without the sender. So under one limit for both, no data that a transport lets in is too large.
-/
namespace PeerRelay
open Wire (Bytes)

theorem ServerFrame.data_fits {payload : Bytes} {sender : Option ConnectionId} {room : Nat} :
    Wire.Fits (fields (.receivedData payload sender)) room ↔
      payload.length + 5 + (if sender.isSome then 4 else 0) ≤ room ∧
        payload.length ≤ Wire.maxCount := by
  have width : Wire.fieldsWidth (fields (.receivedData payload sender)) = _ :=
    data_size payload sender
  have countable : (∀ f ∈ fields (.receivedData payload sender), f.Countable) ↔
      payload.length ≤ Wire.maxCount := by
    cases sender <;> simp [fields, body, Wire.Field.Countable, Wire.Field.count]
  rw [Wire.Fits, width, countable]

theorem ClientFrame.data_spelled {bytes payload : Bytes} {target : ConnectionId}
    (read : decode bytes = .ok (.sendData payload target)) :
    payload.length + 9 ≤ bytes.length ∧ payload.length ≤ Wire.maxCount := by
  obtain ⟨enough, -, spelled⟩ := Wire.decode_spells read_completes.spelling read
  have countable : (Wire.Field.blob payload).Countable :=
    spelled.countable _ (by simp [fields, body])
  simp only [Wire.fieldsWidth, fields, body, Wire.Field.width] at enough
  exact ⟨by omega, countable⟩

namespace Lobby

variable {l : Lobby} {sender target : ConnectionId} {payload : Bytes} {o : Outbound} {room : Nat}

def Passable (l : Lobby) (sender : ConnectionId) (payload : Bytes) (room : Nat) : Prop :=
  payload.length + 5 + (if (l.joinedBy? sender).isSome then 4 else 0) ≤ room ∧
    payload.length ≤ Wire.maxCount

theorem route_data (routed : l.route sender payload target = .ok o) :
    ∃ tag, o.frame = .receivedData payload tag := by
  unfold route at routed
  split at routed
  · split at routed
    · cases routed
      exact ⟨none, rfl⟩
    · cases routed
  · split at routed
    · cases routed
      exact ⟨some sender, rfl⟩
    · cases routed

theorem passable_iff (h : l.Consistent) (routed : l.route sender payload target = .ok o) :
    l.Passable sender payload room ↔ Wire.Fits o.frame.fields room := by
  obtain ⟨id, seated, stored, passes⟩ := (route_ok_iff h).mp routed
  cases passes with
  | toClient client =>
    have apart : l.joinedBy? seated.host = none := by
      cases joined : l.joinedBy? seated.host with
      | none => rfl
      | some other =>
        obtain ⟨id', stored', client'⟩ := h.joinedBy?_iff.mp joined
        exact (h.not_both_roles (h.host_indexed stored) (h.client_indexed stored' client')).elim
    rw [Passable, apart, ServerFrame.data_fits]
    rfl
  | toHost client =>
    rw [Passable, h.joinedBy?_iff.mpr ⟨id, stored, client⟩, ServerFrame.data_fits]
    rfl

/-- Data fits into a packet of the length in which it was received, wherever it is routed. -/
theorem route_fits {bytes : Bytes}
    (read : ClientFrame.decode bytes = .ok (.sendData payload target))
    (admitted : bytes.length ≤ room) (routed : l.route sender payload target = .ok o) :
    Wire.Fits o.frame.fields room := by
  obtain ⟨enough, countable⟩ := ClientFrame.data_spelled read
  obtain ⟨tag, data⟩ := route_data routed
  rw [data, ServerFrame.data_fits]
  exact ⟨by split <;> omega, countable⟩

end Lobby

namespace Node

variable {n : Node} {c target : ConnectionId} {payload bytes : Bytes} {channel : Channel}
  {o : Outbound}

theorem forward_fits (uniform : n.buffers.Uniform)
    (routed : n.lobby.route c payload target = .ok o)
    (fits : Wire.Fits o.frame.fields n.buffers.bufferSize) :
    (n.forward c payload target channel).2 =
      [.send o.recipient channel (o.frame.fields.flatMap Wire.Field.bytes)] := by
  rw [forward_packets uniform, routed, passOn, ServerFrame.packet?, if_pos fits]

theorem forward_oversized (uniform : n.buffers.Uniform)
    (routed : n.lobby.route c payload target = .ok o)
    (large : ¬ Wire.Fits o.frame.fields n.buffers.bufferSize) :
    (n.forward c payload target channel).2 = [.close c] := by
  rw [forward_packets uniform, routed, passOn, ServerFrame.packet?, if_neg large]

/-- What comes of routed data: one packet on the channel it came on, or the end of its sender. -/
structure Passage (n : Node) (room : Nat) (c : ConnectionId) (channel : Channel) (payload : Bytes)
    (o : Outbound) (answer : Node × List Action) : Prop where
  forwarded_iff : (∃ packet, answer.2 = [.send o.recipient channel packet]) ↔
    n.lobby.Passable c payload room
  packet_read : ∀ packet, answer.2 = [.send o.recipient channel packet] →
    ServerFrame.decode packet = .ok o.frame
  closed : ¬ n.lobby.Passable c payload room → answer.2 = [.close c]
  kept : ∃ buffers, answer.1 = { n with buffers }

theorem forward_passage (uniform : n.buffers.Uniform) (h : n.lobby.Consistent)
    (routed : n.lobby.route c payload target = .ok o) :
    Passage n n.buffers.bufferSize c channel payload o (n.forward c payload target channel) := by
  have passable : n.lobby.Passable c payload n.buffers.bufferSize ↔
      Wire.Fits o.frame.fields n.buffers.bufferSize := Lobby.passable_iff h routed
  have sent_fits : ∀ packet, (n.forward c payload target channel).2 =
      [.send o.recipient channel packet] → Wire.Fits o.frame.fields n.buffers.bufferSize ∧
        packet = o.frame.fields.flatMap Wire.Field.bytes := by
    intro packet sent
    by_cases fits : Wire.Fits o.frame.fields n.buffers.bufferSize
    · rw [forward_fits uniform routed fits] at sent
      cases sent
      exact ⟨fits, rfl⟩
    · rw [forward_oversized uniform routed fits] at sent
      cases sent
  constructor
  case forwarded_iff =>
    rw [passable]
    constructor
    · intro some
      obtain ⟨packet, sent⟩ := some
      exact (sent_fits packet sent).1
    · intro fits
      exact ⟨_, forward_fits uniform routed fits⟩
  case packet_read =>
    intro packet sent
    obtain ⟨fits, bytes⟩ := sent_fits packet sent
    have encoded : (o.frame.encode (List.replicate n.buffers.bufferSize 0)).result = .ok packet :=
      Wire.encodeInto_ok_iff.mpr ⟨by rwa [List.length_replicate], bytes⟩
    exact o.frame.decode_encoded encoded
  case closed =>
    intro refused
    exact forward_oversized uniform routed fun fits => refused (passable.mpr fits)
  case kept => exact n.forward_state c payload target channel

theorem receive_closes_nobody (uniform : n.buffers.Uniform) (now : Nat)
    (read : ClientFrame.decode bytes = .ok (.sendData payload target))
    (admitted : bytes.length ≤ n.buffers.bufferSize) (id : ConnectionId) :
    .close id ∉ (n.receive now c bytes channel).2 := by
  rw [n.receive_frame now c channel read nofun]
  intro taken
  split at taken
  · change _ ∈ (n.forward c payload target channel).2 at taken
    cases routed : n.lobby.route c payload target with
    | error e =>
      rw [forward_packets uniform, routed] at taken
      cases taken
    | ok o =>
      rw [forward_fits uniform routed (Lobby.route_fits read admitted routed)] at taken
      cases List.mem_singleton.mp taken
  · cases taken

/-- Data of a peer that has a route is passed on as one packet exactly if there is room for it, and
    otherwise the peer is closed and nobody else. Nothing changes but the pooled buffers. There is
    room for everything that came in a message within the same limit, wherever it is routed, and
    transports report no other. -/
theorem oversized_data_closes_sender (config : NodeConfig) (authenticator : Authenticator)
    (rendezvous : Option Rendezvous) (uplink : Option Uplink) (dice : Dice) (started : Nat)
    (past : List Happening) :
    let n := (start config authenticator rendezvous uplink dice started).after past
    (∀ now c channel payload target o, n.sessions.isAuthenticated c = true →
      n.lobby.route c payload target = .ok o →
      let answer := n.obey now c channel (.sendData payload target)
      Passage n config.maxPacket c channel payload o answer ∧
        ∀ bytes, ClientFrame.decode bytes = .ok (.sendData payload target) →
          n.handle now (.transport (.data c bytes channel)) = answer) ∧
    (∀ bytes payload target, ClientFrame.decode bytes = .ok (.sendData payload target) →
      bytes.length ≤ config.maxPacket →
      (∀ (l : Lobby) c o, l.route c payload target = .ok o →
        Wire.Fits o.frame.fields config.maxPacket) ∧
      ∀ now c channel id,
        .close id ∉ (n.handle now (.transport (.data c bytes channel))).2) ∧
    ∀ kind steps, ∀ e ∈ ((TransportServer.start kind config.maxPacket).run steps).events,
      e.Within config.maxPacket := by
  intro n
  have pool := reached_pool config authenticator rendezvous uplink dice started past
  obtain ⟨uniform, size⟩ : n.buffers.Uniform ∧ n.buffers.bufferSize = config.maxPacket := pool
  have consistent : n.lobby.Consistent := by
    obtain ⟨requests, lobby⟩ := after_lobby _ past
    have history := Lobby.history_consistent requests
    exact lobby ▸ history
  refine ⟨?_, ?_, ?_⟩
  · intro now c channel payload target o known routed answer
    refine ⟨size ▸ forward_passage uniform consistent routed, ?_⟩
    intro bytes read
    exact (n.receive_frame now c channel read nofun).trans (if_pos known)
  · intro bytes payload target read admitted
    refine ⟨fun l c o routed => Lobby.route_fits read admitted routed, ?_⟩
    intro now c channel id
    exact receive_closes_nobody uniform now read (size ▸ admitted) id
  · intro kind steps
    have limited := TransportServer.start_limited kind config.maxPacket
    exact (TransportServer.run_limited limited steps).2

def roomJoined : List Happening :=
  roomOpened ++ [.event 5 (spoken ⟨2⟩ (.joinRoom "01" false ""))]

/-- In packets of 64 bytes a client gets 55 through to its host. With one byte more it is closed. -/
theorem byte_too_many_closes_sender :
    let n := smallNode.after roomJoined
    let data (size : Nat) := ClientFrame.sendData (List.replicate size 7) ⟨1⟩
    (∃ packet, (n.obey 6 ⟨2⟩ .unreliable (data 55)).2 = [.send ⟨1⟩ .unreliable packet]) ∧
      (n.obey 6 ⟨2⟩ .unreliable (data 56)).2 = [.close ⟨2⟩] ∧
      ∃ buffers, (n.obey 6 ⟨2⟩ .unreliable (data 56)).1 = { n with buffers } := by
  intro n data
  have known : n.sessions.isAuthenticated ⟨2⟩ = true := by decide +kernel
  have client : (n.lobby.joinedBy? ⟨2⟩).isSome = true := by decide +kernel
  have routed (payload : Bytes) :
      n.lobby.route ⟨2⟩ payload ⟨1⟩ = .ok ⟨⟨1⟩, .receivedData payload (some ⟨2⟩)⟩ := by
    have no_host : (n.lobby.hostedBy? ⟨2⟩).isNone = true := by decide +kernel
    have host : (n.lobby.joinedBy? ⟨2⟩).map Room.host = some ⟨1⟩ := by decide +kernel
    obtain ⟨room, joined, same⟩ := Option.map_eq_some_iff.mp host
    rw [Lobby.route, Option.isNone_iff_eq_none.mp no_host, joined, ← same]
  have passage := (oversized_data_closes_sender smallNode.config smallNode.authenticator none
    smallNode.uplink ⟨fun _ i => i, 0⟩ 0 roomJoined).1
  have small := (passage 6 ⟨2⟩ .unreliable (List.replicate 55 7) ⟨1⟩ _ known (routed _)).1
  have large := (passage 6 ⟨2⟩ .unreliable (List.replicate 56 7) ⟨1⟩ _ known (routed _)).1
  refine ⟨small.forwarded_iff.mpr ?_, large.closed ?_, large.kept⟩
  · show _ + _ + (if (n.lobby.joinedBy? ⟨2⟩).isSome then 4 else 0) ≤ 64 ∧ _
    rw [client]
    decide
  · show ¬ (_ + _ + (if (n.lobby.joinedBy? ⟨2⟩).isSome then 4 else 0) ≤ 64 ∧ _)
    rw [client]
    decide

end Node

end PeerRelay
