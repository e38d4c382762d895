import PeerRelay.Proofs.Node.Outsiders
import PeerRelay.Proofs.Node.Service

/-!
Closed connections. To close a connection is a request to the transport and nothing else: what the
node keeps of the connection goes when its departure is reported. So data that was on its way is
still treated as before in between, and is dropped from the departure on.
-/
namespace PeerRelay

namespace Happening

def arrives (c : ConnectionId) : Happening → Bool
  | .event _ (.transport (.connected id _)) => id == c
  | _ => false

def departs (c : ConnectionId) : Happening → Bool
  | .event _ (.transport (.disconnected id)) => id == c
  | _ => false

end Happening

namespace Node
open Wire (Bytes)

variable {n : Node} {c x : ConnectionId}

/-! Requests to close -/

theorem deliver_not_closing (o : Outbound) : .close x ∉ (n.deliver o).2 := by
  rcases n.deliver_actions o with none | ⟨bytes, _, some⟩
  · simp [none]
  · simp [some]

theorem apply_not_closing (effects : Effects) : .close x ∉ (n.apply effects).2 := by
  intro taken
  obtain ⟨o, _, bytes, same⟩ := apply_actions taken
  cases same

theorem invite_not_closing : .close x ∉ (n.invite c).2 := by
  unfold invite
  split
  · simp
  · split
    · simp
    · exact deliver_not_closing _

/-- An answer that asks to close a connection asks for that only, and nothing but pooled buffers
    is different after it. -/
def Closing (n : Node) (x : ConnectionId) (answer : Node × List Action) : Prop :=
  ∃ buffers, answer = ({ n with buffers }, [.close x])

theorem authenticate_closing {key : String} (asked : .close x ∈ (n.authenticate c key).2) :
    x = c ∧ Closing n x (n.authenticate c key) := by
  have v := n.authenticate_verdict c key
  generalize n.authenticate c key = answer at v asked
  cases v with
  | refused only =>
    rcases only with rfl | rfl
    · simp at asked
    · obtain rfl : x = c := by simpa using asked
      exact ⟨rfl, n.buffers, rfl⟩
  | admitted accepted =>
    rcases List.mem_append.mp asked with greeting | invitation
    · exact (deliver_not_closing _ greeting).elim
    · exact (invite_not_closing invitation).elim

theorem forward_closing {payload : Bytes} {target : ConnectionId} {channel : Channel}
    (asked : .close x ∈ (n.forward c payload target channel).2) :
    x = c ∧ Closing n x (n.forward c payload target channel) := by
  obtain ⟨buffers, state⟩ := n.forward_state c payload target channel
  suffices only : x = c ∧ (n.forward c payload target channel).2 = [.close x] from
    ⟨only.1, buffers, Prod.ext state only.2⟩
  unfold forward at asked ⊢
  split at asked
  · simp at asked
  · split at asked
    · simp at asked
    · obtain rfl : x = c := by simpa using asked
      exact ⟨rfl, rfl⟩
    · simp at asked

theorem obey_closing {now : Nat} {channel : Channel} {frame : ClientFrame}
    (asked : .close x ∈ (n.obey now c channel frame).2) :
    x = c ∧ Closing n x (n.obey now c channel frame) := by
  have o := n.obey_obedience now c channel frame
  generalize n.obey now c channel frame = answer at o asked
  cases o with
  | drawn => simp at asked
  | named | served => exact (apply_not_closing _ asked).elim
  | passed payload target => exact forward_closing asked

theorem receive_closing {now : Nat} {bytes : Bytes} {channel : Channel}
    (asked : .close x ∈ (n.receive now c bytes channel).2) :
    x = c ∧ Closing n x (n.receive now c bytes channel) := by
  rcases n.receive_cases now c bytes channel with dropped | ⟨key, read⟩ | ⟨_, frame, read⟩
  · simp [dropped] at asked
  · rw [read] at asked ⊢
    exact authenticate_closing asked
  · rw [read] at asked ⊢
    exact obey_closing asked

theorem handle_closing {now : Nat} {e : NodeEvent} (asked : .close x ∈ (n.handle now e).2) :
    (∃ bytes channel, e = .transport (.data x bytes channel)) ∧ Closing n x (n.handle now e) := by
  cases e with
  | transport t =>
    cases t with
    | connected id remote => exact (deliver_not_closing _ asked).elim
    | data id bytes channel =>
      obtain ⟨rfl, closing⟩ := receive_closing asked
      exact ⟨⟨bytes, channel, rfl⟩, closing⟩
    | disconnected id => exact (apply_not_closing _ asked).elim
  | datagram bytes source =>
    simp only [handle, receiveDatagram] at asked
    split at asked <;> simp at asked
  | heartbeat => simp [handle, heartbeat] at asked

/-! After the departure -/

@[simp] theorem dismiss_stranger (n : Node) (c : ConnectionId) :
    (n.dismiss c).1.sessions.get? c = none := by
  show (n.dismiss c).1.peers.sessions.get? c = none
  simp

theorem undergo_departs {h : Happening} (gone : h.departs c = true) :
    (n.undergo h).1.sessions.get? c = none := by
  match h, gone with
  | .event now (.transport (.disconnected id)), gone =>
    obtain rfl : id = c := by simpa [Happening.departs] using gone
    exact n.dismiss_stranger id

theorem undergo_stranger (stranger : n.sessions.get? c = none) {h : Happening}
    (away : h.arrives c = false) : (n.undergo h).1.sessions.get? c = none := by
  by_cases own : h.peer? = some c
  · cases Happening.concerns own with
    | arrival now remote => simp [Happening.arrives] at away
    | data now bytes channel =>
      show (n.receive now c bytes channel).1.sessions.get? c = none
      rw [receive_stranger stranger]
      exact stranger
    | departure now => exact n.dismiss_stranger c
  · rw [undergo_elsewhere own]
    exact stranger

theorem after_stranger (stranger : n.sessions.get? c = none) {past : List Happening}
    (away : past.any (·.arrives c) = false) : (n.after past).sessions.get? c = none := by
  induction past generalizing n with
  | nil => exact stranger
  | cons h rest ih =>
    simp only [List.any_cons, Bool.or_eq_false_iff] at away
    exact ih (undergo_stranger stranger away.1) away.2

theorem after_departed {past : List Happening} (gone : past.any (·.departs c) = true)
    (away : past.any (·.arrives c) = false) : (n.after past).sessions.get? c = none := by
  induction past generalizing n with
  | nil => simp at gone
  | cons h rest ih =>
    simp only [List.any_cons, Bool.or_eq_false_iff, Bool.or_eq_true] at away gone
    rcases gone with now | later
    · exact after_stranger (undergo_departs now) away.2
    · exact ih later away.2

/-- A connection is closed on account of its own data only, and the request to close it changes
    nothing. While nobody else comes under its id, its data has no effect and is not answered once
    its departure was reported. Before that, this holds as long as the connection is not
    authenticated, for all data but a key that is accepted: only that it be closed may be asked
    again. -/
theorem departed_connection_inert (n : Node) (now : Nat) (e : NodeEvent) (x : ConnectionId)
    (asked : .close x ∈ (n.handle now e).2) :
    (∃ bytes channel, e = .transport (.data x bytes channel)) ∧ Closing n x (n.handle now e) ∧
      ∀ later : List Happening, later.any (·.arrives x) = false →
        ∀ (time : Nat) (bytes : Bytes) (channel : Channel),
          let m := (n.handle now e).1.after later
          let answer := m.handle time (.transport (.data x bytes channel))
          (later.any (·.departs x) = true → answer = (m, [])) ∧
            (n.sessions.isAuthenticated x = false →
              (n.handle now e).1.neverAdmits x later = true → m.acceptsFrom x bytes = false →
                answer.1 = m ∧ ∀ a ∈ answer.2, a = .close x) := by
  obtain ⟨own, buffers, closing⟩ := handle_closing asked
  refine ⟨own, ⟨buffers, closing⟩, ?_⟩
  intro later away time bytes channel m answer
  constructor
  · intro gone
    exact receive_stranger (after_departed gone away) time bytes channel
  · intro pending refused unread
    have outside : (n.handle now e).1.sessions.isAuthenticated x = false := by
      rw [closing]
      exact pending
    exact receive_outside (after_outside outside refused) time unread channel

def strictNode : Node :=
  { smallNode with config := { smallNode.config with authFailure := .disconnect } }

theorem departed_guesser_inert :
    let n := strictNode.after [.event 0 (arrived ⟨1⟩)]
    let guess := spoken ⟨1⟩ (.keyResponse "guess")
    let gone := (n.handle 1 guess).1.after [.event 2 (.transport (.disconnected ⟨1⟩))]
    .close ⟨1⟩ ∈ (n.handle 1 guess).2 ∧ Closing n ⟨1⟩ (n.handle 1 guess) ∧
      gone.handle 3 (spoken ⟨1⟩ (.keyResponse "key")) = (gone, []) := by
  intro n guess gone
  have asked : .close ⟨1⟩ ∈ (n.handle 1 guess).2 := by decide +kernel
  have inert := departed_connection_inert n 1 guess ⟨1⟩ asked
  exact ⟨asked, inert.2.1, (inert.2.2 _ rfl 3 _ _).1 rfl⟩

/-- Before the departure is reported, a right key after a wrong one is accepted, and a host whose
    data was too large can still close its room. -/
theorem closing_connection_served :
    let n := strictNode.after [.event 0 (arrived ⟨1⟩)]
    let guessed := n.handle 1 (spoken ⟨1⟩ (.keyResponse "guess"))
    let known := guessed.1.handle 2 (spoken ⟨1⟩ (.keyResponse "key"))
    let m := smallNode.after (roomOpened ++ [.event 5 (spoken ⟨2⟩ (.joinRoom "01" false ""))])
    let flooded := m.handle 6 (spoken ⟨1⟩ (.sendData (List.replicate 64 0) ⟨2⟩))
    let left := flooded.1.handle 7 (spoken ⟨1⟩ .leaveRoom)
    guessed.2 = [.close ⟨1⟩] ∧ known.2 = [.send ⟨1⟩ .reliable [17]] ∧
      guessed.1.sessions.isAuthenticated ⟨1⟩ = false ∧
      known.1.sessions.isAuthenticated ⟨1⟩ = true ∧
      flooded.2 = [.close ⟨1⟩] ∧ left.2 = [.send ⟨2⟩ .reliable [8]] ∧
      flooded.1.board.listings ≠ [] ∧ left.1.board.listings = [] := by
  decide +kernel

end Node

end PeerRelay
