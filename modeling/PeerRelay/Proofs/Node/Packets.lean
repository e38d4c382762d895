import PeerRelay.Proofs.Node.Handlers
import PeerRelay.Proofs.Wire.Writer

/-!
What leaves a node. All pooled buffers have one size, so whether a frame is sent depends on the
frame and on that size, and on nothing that the buffers still hold from earlier frames.
-/
namespace PeerRelay
open Wire (Bytes)

namespace BufferPool

variable {p : BufferPool} {buffer : Bytes}

def Uniform (p : BufferPool) : Prop := ∀ buffer ∈ p.idle, buffer.length = p.bufferSize

/-- A pool of the same size that keeps no buffer, so that every buffer taken from it is new. -/
def drained (p : BufferPool) : BufferPool := { p with maxIdle := 0, idle := [] }

theorem acquire_length (h : p.Uniform) : p.acquire.1.length = p.bufferSize := by
  cases kept : p.idle with
  | nil => simp [acquire, kept]
  | cons buffer rest => simp [acquire, kept, h buffer (by simp [kept])]

theorem acquire_uniform (h : p.Uniform) : p.acquire.2.Uniform := by
  cases kept : p.idle with
  | nil => simpa [acquire, kept] using h
  | cons buffer rest =>
    intro other mem
    simp only [acquire, kept] at mem ⊢
    exact h other (by simp [kept, mem])

@[simp] theorem acquire_drained (p : BufferPool) : p.acquire.2.drained = p.drained := by
  cases kept : p.idle <;> simp [acquire, kept, drained]

theorem release_uniform (h : p.Uniform) (size : buffer.length = p.bufferSize) :
    (p.release buffer).Uniform := by
  unfold release
  split
  · intro other mem
    rcases List.mem_cons.mp mem with rfl | before
    · exact size
    · exact h other before
  · exact h

@[simp] theorem release_drained (p : BufferPool) (buffer : Bytes) :
    (p.release buffer).drained = p.drained := by
  unfold release
  split <;> rfl

end BufferPool

instance (f : Wire.Field) : Decidable f.Countable :=
  inferInstanceAs (Decidable (f.count ≤ Wire.maxCount))

instance (fields : List Wire.Field) (room : Nat) : Decidable (Wire.Fits fields room) :=
  inferInstanceAs (Decidable (Wire.fieldsWidth fields ≤ room ∧ ∀ f ∈ fields, f.Countable))

def ServerFrame.packet? (f : ServerFrame) (room : Nat) : Option Bytes :=
  if Wire.Fits f.fields room then some (f.fields.flatMap Wire.Field.bytes) else none

def Outbound.packet? (o : Outbound) (room : Nat) : Option Action :=
  (o.frame.packet? room).map fun bytes => .send o.recipient .reliable bytes

namespace Node

variable {n m k : Node}

structure Repooled (n m : Node) : Prop where
  rest : ∃ buffers, m = { n with buffers }
  drained : m.buffers.drained = n.buffers.drained
  uniform : m.buffers.Uniform

theorem Repooled.refl (h : n.buffers.Uniform) : n.Repooled n := ⟨⟨n.buffers, rfl⟩, rfl, h⟩

theorem Repooled.trans (first : n.Repooled m) (second : m.Repooled k) : n.Repooled k := by
  obtain ⟨⟨before, rfl⟩, drained, _⟩ := first
  obtain ⟨⟨buffers, rfl⟩, later, uniform⟩ := second
  exact ⟨⟨buffers, rfl⟩, later.trans drained, uniform⟩

theorem Repooled.bufferSize (h : n.Repooled m) : m.buffers.bufferSize = n.buffers.bufferSize :=
  (congrArg BufferPool.bufferSize h.drained :)

/-! Encoding -/

theorem encode_repooled (h : n.buffers.Uniform) (f : ServerFrame) :
    n.Repooled (n.encode f).2 := by
  have length : (f.encode n.buffers.acquire.1).buffer.length = n.buffers.bufferSize := by
    rw [ServerFrame.encode, Wire.encodeInto_length, BufferPool.acquire_length h]
  have size : n.buffers.acquire.2.bufferSize = n.buffers.bufferSize :=
    (congrArg BufferPool.bufferSize n.buffers.acquire_drained :)
  refine ⟨n.encode_state f, ?_, ?_⟩
  · show (n.buffers.acquire.2.release _).drained = _
    simp
  · exact BufferPool.release_uniform (BufferPool.acquire_uniform h) (length.trans size.symm)

theorem encode_packet (h : n.buffers.Uniform) (f : ServerFrame) :
    (∃ bytes, f.packet? n.buffers.bufferSize = some bytes ∧ (n.encode f).1 = .ok bytes) ∨
      (f.packet? n.buffers.bufferSize = none ∧
        ∃ needed remaining, (n.encode f).1 = .error (.overflow needed remaining)) := by
  have length := BufferPool.acquire_length h
  have encoded : (n.encode f).1 = (Wire.encodeInto f.fields n.buffers.acquire.1).result := rfl
  rw [encoded, ServerFrame.packet?]
  by_cases fits : Wire.Fits f.fields n.buffers.bufferSize
  · rw [if_pos fits]
    exact Or.inl ⟨_, rfl, Wire.encodeInto_ok_iff.mpr ⟨length.symm ▸ fits, rfl⟩⟩
  · rw [if_neg fits]
    exact Or.inr ⟨rfl, Wire.encodeInto_overflows (length.symm ▸ fits)⟩

/-! Sending -/

theorem deliver_eq (n : Node) (o : Outbound) :
    n.deliver o = ((n.encode o.frame).2,
      match (n.encode o.frame).1 with
      | .ok bytes => [.send o.recipient .reliable bytes]
      | .error _ => []) := by
  unfold deliver
  generalize n.encode o.frame = encoding
  obtain ⟨outcome, m⟩ := encoding
  cases outcome <;> rfl

theorem deliver_repooled (h : n.buffers.Uniform) (o : Outbound) :
    n.Repooled (n.deliver o).1 := by
  rw [deliver_eq]
  exact encode_repooled h o.frame

theorem deliver_packets (h : n.buffers.Uniform) (o : Outbound) :
    (n.deliver o).2 = (o.packet? n.buffers.bufferSize).toList := by
  rw [deliver_eq, Outbound.packet?]
  rcases encode_packet h o.frame with ⟨bytes, some, encoded⟩ | ⟨none, _, _, refused⟩
  · rw [some, encoded]
    rfl
  · rw [none, refused]
    rfl

theorem deliverAll_repooled (h : n.buffers.Uniform) (outbound : List Outbound) :
    n.Repooled (n.deliverAll outbound).1 := by
  induction outbound generalizing n with
  | nil => exact .refl h
  | cons o rest ih =>
    have first := deliver_repooled h o
    exact first.trans (ih first.uniform)

theorem deliverAll_packets (h : n.buffers.Uniform) (outbound : List Outbound) :
    (n.deliverAll outbound).2 = outbound.filterMap (·.packet? n.buffers.bufferSize) := by
  induction outbound generalizing n with
  | nil => rfl
  | cons o rest ih =>
    have first := deliver_repooled h o
    rw [deliverAll_cons, deliver_packets h, ih first.uniform, first.bufferSize]
    cases packet : o.packet? n.buffers.bufferSize <;> simp [packet]

theorem Repooled.refreshBoard (h : n.Repooled m) : n.refreshBoard.Repooled m.refreshBoard := by
  obtain ⟨⟨buffers, rfl⟩, drained, uniform⟩ := h
  exact ⟨⟨buffers, rfl⟩, drained, uniform⟩

theorem apply_repooled (h : n.buffers.Uniform) (effects : Effects) :
    (if effects.roomsChanged then n.refreshBoard else n).Repooled (n.apply effects).1 := by
  have sent := deliverAll_repooled h effects.outbound
  show Repooled _ (if effects.roomsChanged then _ else _)
  split
  · exact sent.refreshBoard
  · exact sent

theorem apply_packets (h : n.buffers.Uniform) (effects : Effects) :
    (n.apply effects).2 = effects.outbound.filterMap (·.packet? n.buffers.bufferSize) :=
  deliverAll_packets h effects.outbound

def passOn (sender : ConnectionId) (channel : Channel) (room : Nat) :
    Except RoomError Outbound → List Action
  | .error _ => []
  | .ok o =>
    match o.frame.packet? room with
    | some bytes => [.send o.recipient channel bytes]
    | none => [.close sender]

theorem forward_repooled (h : n.buffers.Uniform) (sender : ConnectionId) (payload : Bytes)
    (target : ConnectionId) (channel : Channel) :
    n.Repooled (n.forward sender payload target channel).1 := by
  unfold forward
  split
  · exact .refl h
  · rename_i o routed
    have encoding := encode_repooled h o.frame
    split <;> rename_i outcome <;> rw [outcome] at encoding <;> exact encoding

theorem forward_packets (h : n.buffers.Uniform) (sender : ConnectionId) (payload : Bytes)
    (target : ConnectionId) (channel : Channel) :
    (n.forward sender payload target channel).2 =
      passOn sender channel n.buffers.bufferSize (n.lobby.route sender payload target) := by
  unfold forward passOn
  cases n.lobby.route sender payload target with
  | error e => rfl
  | ok o =>
    have outcome := encode_packet h o.frame
    dsimp only
    generalize n.encode o.frame = encoding at outcome ⊢
    obtain ⟨result, m⟩ := encoding
    rcases outcome with ⟨bytes, some, encoded⟩ | ⟨none, _, _, refused⟩
    · cases encoded
      simp only [some]
    · cases refused
      simp only [none]

end Node

end PeerRelay
