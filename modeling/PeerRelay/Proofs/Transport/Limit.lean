import PeerRelay.Proofs.Transport.Task

/-!
What a transport lets through. No message that it reports is longer than its limit: on a stream
reading stops at the length of one that would be, and a socket that has messages ends with it.
-/
namespace PeerRelay
open Wire (Bytes)

theorem ConnectionTask.read_within (t : ConnectionTask) (limit : Nat) (i : PeerInput) :
    ∀ message ∈ (t.read limit i).messages, message.length ≤ limit := by
  cases i with
  | bytes chunk => exact fun message member => ((Framing.drain_shape limit _).1 message member).1
  | finish => exact nofun
  | _ =>
    intro message member
    simp only [read, readMessage] at member
    split at member
    · cases member
    · simp_all

def TransportEvent.Within (limit : Nat) : TransportEvent → Prop
  | .data _ bytes _ => bytes.length ≤ limit
  | .connected .. | .disconnected _ => True

namespace TransportServer

variable {s s' : TransportServer} {step : ServerStep}

theorem Turn.within {limit : Nat} {j : ConnectionId} {t : ConnectionTask}
    {input? : Option PeerInput} {t? : Option ConnectionTask} {news : List TransportEvent}
    (turn : Turn limit j t input? t? news) : ∀ e ∈ news, e.Within limit := by
  intro e member
  cases turn with
  | reads i inbox =>
    obtain ⟨message, read, rfl⟩ := List.mem_map.mp member
    exact ConnectionTask.read_within _ limit i message read
  | announces | reports =>
    rw [List.mem_singleton.mp member]
    trivial
  | gets | writes | leaves => cases member

def Limited (s : TransportServer) (limit : Nat) : Prop :=
  s.limit = limit ∧ ∀ e ∈ s.events, e.Within limit

theorem Acts.limited {limit : Nat} {j : ConnectionId} {t? : Option ConnectionTask}
    {news : List TransportEvent} (acts : Acts s s' j t? news) (h : s.Limited limit)
    (within : ∀ e ∈ news, e.Within limit) : s'.Limited limit := by
  refine ⟨acts.limit.trans h.1, ?_⟩
  rw [acts.events]
  intro e member
  exact (List.mem_append.mp member).elim (h.2 e) (within e)

theorem Happens.limited {limit : Nat} (happens : Happens s step s') (h : s.Limited limit) :
    s'.Limited limit := by
  cases happens with
  | accepts remote => exact h
  | turns step j t input? t? news s' gives found brings turn acts gone =>
    exact acts.limited h (h.1 ▸ turn.within)
  | rests step s' gives brings acts => exact (acts default).limited h nofun

theorem run_limited {limit : Nat} (h : s.Limited limit) (steps : List ServerStep) :
    (s.run steps).Limited limit := by
  induction steps generalizing s with
  | nil => exact h
  | cons step rest ih => exact ih ((step_happens s step).limited h)

theorem start_limited (kind : TransportKind) (limit : Nat) : (start kind limit).Limited limit :=
  ⟨rfl, nofun⟩

end TransportServer

end PeerRelay
