import PeerRelay.Node.Events

/-!
What sending does to a node, and what comes of it. Sending changes the pooled buffers and nothing
else; publishing changes the board. Every frame becomes one send to its recipient, or nothing.
-/
namespace PeerRelay.Node
open Wire (Bytes)

theorem encode_state (n : Node) (f : ServerFrame) :
    ∃ buffers, (n.encode f).2 = { n with buffers } := ⟨_, rfl⟩

theorem deliver_state (n : Node) (o : Outbound) :
    ∃ buffers, (n.deliver o).1 = { n with buffers } := by
  obtain ⟨buffers, state⟩ := n.encode_state o.frame
  refine ⟨buffers, ?_⟩
  rw [← state]
  unfold deliver
  split <;> rename_i outcome <;> rw [outcome]

theorem deliver_actions (n : Node) (o : Outbound) :
    (n.deliver o).2 = [] ∨
      ∃ bytes, (n.encode o.frame).1 = .ok bytes ∧
        (n.deliver o).2 = [.send o.recipient .reliable bytes] := by
  unfold deliver
  split
  · rename_i bytes m outcome
    exact Or.inr ⟨bytes, by rw [outcome], rfl⟩
  · exact Or.inl rfl

theorem deliverAll_cons (n : Node) (o : Outbound) (rest : List Outbound) :
    n.deliverAll (o :: rest) =
      (((n.deliver o).1.deliverAll rest).1,
       (n.deliver o).2 ++ ((n.deliver o).1.deliverAll rest).2) := rfl

theorem deliverAll_state (n : Node) (outbound : List Outbound) :
    ∃ buffers, (n.deliverAll outbound).1 = { n with buffers } := by
  induction outbound generalizing n with
  | nil => exact ⟨n.buffers, rfl⟩
  | cons o rest ih =>
    obtain ⟨first, state⟩ := n.deliver_state o
    obtain ⟨others, later⟩ := ih (n.deliver o).1
    refine ⟨others, ?_⟩
    rw [deliverAll_cons]
    rw [state] at later ⊢
    exact later

theorem deliverAll_actions {n : Node} {outbound : List Outbound} {a : Action}
    (taken : a ∈ (n.deliverAll outbound).2) :
    ∃ o ∈ outbound, ∃ bytes, a = .send o.recipient .reliable bytes := by
  induction outbound generalizing n with
  | nil => simp [deliverAll] at taken
  | cons o rest ih =>
    rw [deliverAll_cons] at taken
    rcases List.mem_append.mp taken with first | later
    · rcases n.deliver_actions o with none | ⟨bytes, _, some⟩
      · simp [none] at first
      · rw [some] at first
        exact ⟨o, by simp, bytes, List.mem_singleton.mp first⟩
    · obtain ⟨other, mem, bytes, same⟩ := ih later
      exact ⟨other, by simp [mem], bytes, same⟩

theorem apply_state (n : Node) (effects : Effects) :
    ∃ buffers board boardChanged,
      (n.apply effects).1 = { n with buffers, board, boardChanged } := by
  obtain ⟨buffers, state⟩ := n.deliverAll_state effects.outbound
  unfold apply
  cases effects.roomsChanged with
  | true =>
    refine ⟨buffers, RoomBoard.post (n.lobby.listings n.relay), true, ?_⟩
    simp only [state, refreshBoard]
    rfl
  | false => exact ⟨buffers, n.board, n.boardChanged, state⟩

theorem apply_actions {n : Node} {effects : Effects} {a : Action}
    (taken : a ∈ (n.apply effects).2) :
    ∃ o ∈ effects.outbound, ∃ bytes, a = .send o.recipient .reliable bytes :=
  deliverAll_actions taken

theorem encode_keyRequest {n : Node} {bytes : Bytes}
    (encoded : (n.encode .keyRequest).1 = .ok bytes) : bytes = [OpCode.keyRequest.code] := by
  unfold encode at encoded
  generalize n.buffers.acquire = drawn at encoded
  obtain ⟨buffer, pool⟩ := drawn
  change (Wire.encodeInto [.byte OpCode.keyRequest.code] buffer).result = .ok bytes at encoded
  cases buffer with
  | nil => cases encoded
  | cons b rest => exact (Except.ok.inj encoded).symm

end PeerRelay.Node
