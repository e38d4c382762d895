import PeerRelay.Proofs.Transport.Carriage

/-!
A connection on a stream of bytes from its first step to its last. However the peer cuts its stream,
and whatever the other connections do, it is read as one; and what the relay sends is written in
order, up to the call that closes the connection. Neither gets stuck: with enough turns its task has
read and written everything.
-/
namespace PeerRelay
open Wire (Bytes)
open PeerOutput (framed)
open QueueItem (payloads)

namespace PeerInput

theorem openStream_append {heard : List PeerInput} (unfinished : .finish ∉ heard)
    (rest : List PeerInput) : openStream (heard ++ rest) = stream heard ++ openStream rest := by
  have going : ∀ i ∈ heard, decide (i ≠ .finish) = true := by
    rintro i member
    exact decide_eq_true fun same => unfinished (same ▸ member)
  rw [openStream, List.takeWhile_append_of_pos going, stream_append]
  rfl

theorem openStream_finish {rest : List PeerInput} (next : rest.head? = some .finish) :
    openStream rest = [] := by
  obtain ⟨tail, rfl⟩ := List.head?_eq_some_iff.mp next
  rfl

end PeerInput

namespace Line

def Announced (l : Line) : Prop :=
  ∀ t remote, l.task = some t → t.phase ≠ .registered remote

def unheard (l : Line) : Nat :=
  match l.task with
  | some t => if t.phase = .serving then t.inbox.length else 0
  | none => 0

def unwritten (l : Line) : Nat :=
  match l.task, l.queue with
  | some t, some q => if t.phase = .serving then q.items.length else 0
  | _, _ => 0

def Over (l : Line) : Prop := ∀ t, l.task = some t → t.phase = .ending ∨ t.phase = .removed

@[simp] theorem output_output (l : Line) (before : List PeerOutput) :
    l.output (l.output before) = l.output before := by
  unfold output
  cases l.task <;> rfl

end Line

namespace TransportServer

variable {s : TransportServer} {limit : Nat} {id : ConnectionId} {inputs : List PeerInput}
  {calls : List QueueItem} {failed : Prop} {l l' : Line} {step : ServerStep}
  {written : List PeerOutput} {steps : List ServerStep}

/-! The turns of a task -/

theorem Move.announced (move : Move limit id step l l')
    (told : step = .announce id ∨ l.Announced) : l'.Announced := by
  cases move with
  | rests l unheard uncalled announced =>
    rcases told with same | told
    · exact announced same
    · exact told
  | @gets i brought uncalled t =>
    rintro _ remote ⟨⟩
    rcases told with rfl | told
    · exact nomatch brought
    · exact told t remote rfl
  | announces =>
    rintro _ remote ⟨⟩
    exact nofun
  | reads same serving =>
    rintro _ remote ⟨⟩
    rw [ConnectionTask.read_phase, serving]
    exact nofun
  | stops | closes | fails | leaves =>
    rintro _ remote ⟨⟩
    exact nofun
  | writes same serving =>
    rintro _ remote ⟨⟩
    exact fun waiting => nomatch serving.symm.trans waiting
  | reports => exact nofun
  | queues called task =>
    rcases told with rfl | told
    · exact nomatch called
    · exact told
  | refuses called =>
    rcases told with rfl | told
    · exact nomatch called
    · exact told

theorem Move.read_less (move : Move limit id (.read id) l l') : l'.unheard ≤ l.unheard - 1 := by
  cases move with
  | rests l _ _ _ all_read =>
    have none : l.unheard = 0 := by
      unfold Line.unheard
      split
      · split
        · rw [all_read rfl _ ‹_› ‹_›]
          rfl
        · rfl
      · rfl
    omega
  | reads same serving first =>
    simp [Line.unheard, serving, first, ConnectionTask.read_phase, ConnectionTask.read_inbox]
  | stops => exact Nat.zero_le _
  | gets brought => exact nomatch brought
  | announces same | writes same | closes same | fails same | leaves same | reports same =>
    exact nomatch same
  | queues called | refuses called => exact nomatch called

theorem Move.write_less (move : Move limit id (.write id) l l') :
    l'.unwritten ≤ l.unwritten - 1 := by
  cases move with
  | rests l _ _ _ _ all_written =>
    have none : l.unwritten = 0 := by
      unfold Line.unwritten
      split
      · split
        · rw [all_written rfl _ _ ‹_› ‹_› ‹_›]
          rfl
        · rfl
      · rfl
    omega
  | writes same serving => simp [Line.unwritten, serving, ConnectionTask.write]
  | closes => exact Nat.zero_le _
  | gets brought => exact nomatch brought
  | announces same | reads same | stops same | fails same | leaves same | reports same =>
    exact nomatch same
  | queues called | refuses called => exact nomatch called

theorem Move.stays_over (move : Move limit id step l l') (finished : l.Over)
    (written : List PeerOutput) :
    l'.Over ∧ l'.output (l.output written) = l.output written := by
  cases move with
  | rests | refuses => exact ⟨finished, Line.output_output _ _⟩
  | gets brought uncalled t =>
    refine ⟨?_, rfl⟩
    rintro _ ⟨⟩
    exact finished t rfl
  | @announces t _ same waiting => simpa [waiting] using finished t rfl
  | @reads t _ _ same serving | @stops t _ _ same serving | @writes t same serving
  | @closes t same serving | @fails t same serving => simpa [serving] using finished t rfl
  | leaves =>
    refine ⟨?_, rfl⟩
    rintro _ ⟨⟩
    exact Or.inr rfl
  | reports => exact ⟨nofun, rfl⟩
  | queues called task => exact ⟨finished, by cases task <;> rfl⟩

/-! What is known of a connection -/

namespace Carries

theorem unheard_le (h : Carries limit inputs calls failed written l) :
    l.unheard ≤ inputs.length := by
  cases h with
  | going phase inbox =>
    have length := congrArg List.length inbox
    rw [List.length_append] at length
    unfold Line.unheard
    dsimp only
    split <;> omega
  | ended phase =>
    unfold Line.unheard
    split
    · rename_i t there
      rcases phase t there with ending | removed <;> simp [*]
    · exact Nat.zero_le _

theorem unwritten_le (h : Carries limit inputs calls failed written l) :
    l.unwritten ≤ calls.length := by
  cases h with
  | going phase inbox unfinished read queue =>
    have length := congrArg List.length queue
    rw [List.length_append] at length
    unfold Line.unwritten
    dsimp only
    split <;> omega
  | ended phase =>
    unfold Line.unwritten
    split
    · rename_i t q there listed
      rcases phase t there with ending | removed <;> simp [*]
    · exact Nat.zero_le _

theorem heard_early (h : Carries limit inputs calls failed written l) :
    l.data <+: (Framing.drain limit (PeerInput.openStream inputs)).messages := by
  have early {heard rest : List PeerInput} (inbox : inputs = heard ++ rest)
      (unfinished : .finish ∉ heard) : (Framing.drain limit (PeerInput.stream heard)).messages <+:
        (Framing.drain limit (PeerInput.openStream inputs)).messages := by
    rw [inbox, PeerInput.openStream_append unfinished]
    exact Framing.drain_early (List.prefix_append _ _)
  cases h with
  | going phase inbox unfinished read =>
    have first := early inbox unfinished
    rwa [read] at first
  | ended phase refused inbox unfinished read => exact read ▸ early inbox unfinished

theorem heard_out (h : Carries limit inputs calls failed written l) (announced : l.Announced)
    (idle : l.unheard = 0) :
    (∃ unread, Framing.drain limit (PeerInput.openStream inputs) = ⟨l.data, unread, false⟩) ∨
      ((∀ t, l.task = some t → t.phase = .ending ∨ t.phase = .removed) ∧
        (failed ∨ .close ∈ calls ∨
          (Framing.drain limit (PeerInput.openStream inputs)).messages = l.data)) := by
  cases h with
  | @going t _ _ _ _ phase inbox unfinished read =>
    rcases phase with serving | ⟨remote, waiting⟩
    · have empty : t.inbox = [] := by simpa [Line.unheard, serving] using idle
      refine Or.inl ⟨t.unread, ?_⟩
      rw [inbox, empty, PeerInput.openStream_append unfinished]
      exact (congrArg (Framing.drain limit) (List.append_nil _)).trans read
    · exact (announced t remote rfl waiting).elim
  | ended phase refused inbox unfinished read queue cause =>
    refine Or.inr ⟨phase, ?_⟩
    rw [inbox, PeerInput.openStream_append unfinished]
    cases cause with
    | oversized stopped =>
      rw [Framing.drain_stopped (List.prefix_append _ _) stopped]
      exact Or.inr (Or.inr read)
    | finished next =>
      rw [PeerInput.openStream_finish next, List.append_nil]
      exact Or.inr (Or.inr read)
    | broken fails => exact Or.inl fails
    | closed others shape => exact Or.inr (Or.inl (by simp [shape]))

theorem written_early (h : Carries limit inputs calls failed written l) :
    ∃ done, done <+: payloads calls ∧
      (written = framed done ∨
        (done = payloads calls ∧ .close ∈ calls ∧ written = framed done ++ [.closed])) := by
  have early {done : List Bytes} {items : List QueueItem}
      (queue : calls = done.map .frame ++ items) : done <+: payloads calls := by
    rw [queue, QueueItem.payloads_append]
    exact List.prefix_append _ _
  cases h with
  | going phase inbox unfinished read queue wrote => exact ⟨_, early queue, Or.inl wrote⟩
  | @ended _ _ _ done _ phase refused inbox unfinished read queue cause =>
    obtain ⟨items, queue⟩ := queue
    refine ⟨done, early queue.symm, ?_⟩
    cases cause with
    | oversized _ wrote | finished _ wrote | broken _ wrote => exact Or.inl wrote
    | closed others shape wrote =>
      refine Or.inr ⟨?_, by simp [shape], wrote⟩
      rw [shape, QueueItem.payloads_append]
      exact (List.append_nil _).symm

/-- With the peer's side open, a task with nothing left to write has written all that was sent
    before the first call that closes the connection, and then closed it. -/
theorem written_out (h : Carries limit inputs calls failed written l) (announced : l.Announced)
    (idle : l.unwritten = 0) (unfinished : .finish ∉ inputs) (unbroken : ¬ failed)
    (allowed : (Framing.drain limit (PeerInput.stream inputs)).stopped = false) :
    written = framed (payloads calls) ++ if .close ∈ calls then [.closed] else [] := by
  cases h with
  | @going t items _ done _ phase inbox _ read queue wrote =>
    rcases phase with serving | ⟨remote, waiting⟩
    · have empty : items = [] := by simpa [Line.unwritten, serving] using idle
      rw [empty] at queue
      rw [wrote, queue, QueueItem.payloads_append]
      simp [payloads]
    · exact (announced t remote rfl waiting).elim
  | @ended _ heard rest _ _ phase refused inbox _ read queue cause =>
    rw [inbox] at unfinished allowed
    cases cause with
    | oversized stopped =>
      rw [PeerInput.stream_append, Framing.drain_stopped (List.prefix_append _ _) stopped]
        at allowed
      exact nomatch stopped.symm.trans allowed
    | finished next =>
      exact (unfinished (List.mem_append_right _ (List.mem_of_mem_head? next))).elim
    | broken fails => exact (unbroken fails).elim
    | closed others shape wrote =>
      rw [wrote, shape, QueueItem.payloads_append]
      simp [payloads]

end Carries

/-! A whole run -/

def callsTo (id : ConnectionId) (steps : List ServerStep) : List QueueItem :=
  steps.filterMap (·.itemTo id)

/-- What the peer of a connection has been written when these steps are done, also if its task is
    gone by then. -/
def outputTo (s : TransportServer) (id : ConnectionId) (before : List PeerOutput) :
    List ServerStep → List PeerOutput
  | [] => before
  | step :: rest =>
    let next := (s.step step).1
    next.outputTo id ((next.line id).output before) rest

theorem outputTo_append (s : TransportServer) (id : ConnectionId) (before : List PeerOutput)
    (first second : List ServerStep) :
    s.outputTo id before (first ++ second) =
      (s.run first).outputTo id (s.outputTo id before first) second := by
  induction first generalizing s before with
  | nil => rfl
  | cons step rest ih => exact ih (s.step step).1 _

@[simp] theorem callsTo_cons (id : ConnectionId) (step : ServerStep) (rest : List ServerStep) :
    callsTo id (step :: rest) = (step.itemTo id).toList ++ callsTo id rest := by
  cases called : step.itemTo id <;> simp [callsTo, called]

theorem close_mem_callsTo : .close ∈ callsTo id steps ↔ .disconnect id ∈ steps := by
  constructor
  · intro member
    obtain ⟨step, there, called⟩ := List.mem_filterMap.mp member
    cases step with
    | disconnect j =>
      obtain rfl : j = id := by simpa [ServerStep.itemTo] using called
      exact there
    | _ => simp [ServerStep.itemTo] at called
  · intro there
    exact List.mem_filterMap.mpr ⟨_, there, if_pos rfl⟩

theorem run_carries (tcp : s.kind = .tcp)
    (h : Carries s.limit inputs calls failed written (s.line id))
    (fits : ∀ i ∈ inputs ++ inputsTo id steps, i.Fits .tcp) (unique : id ∉ s.idsGiven steps)
    (broken : .writeFails id ∈ steps → failed) :
    Carries s.limit (inputs ++ inputsTo id steps) (calls ++ callsTo id steps) failed
      (s.outputTo id written steps) ((s.run steps).line id) := by
  -- what has come, what was asked and what is written grow with every step
  induction steps generalizing s inputs calls written with
  | nil => simpa [inputsTo, callsTo, outputTo, run] using h
  | cons step rest ih =>
    rw [inputsTo_cons, ← List.append_assoc] at fits ⊢
    rw [callsTo_cons, ← List.append_assoc]
    have happens := step_happens s step
    have new : s.gives step ≠ some id := fun given =>
      unique (List.mem_append_left _ (by rw [given]; exact List.mem_singleton_self _))
    have next := (step_moves tcp step new).carries h
      (fun i member => fits i (by simp [member])) fun same => broken (same ▸ List.mem_cons_self)
    rw [← happens.limit] at next ⊢
    exact ih (happens.kind.trans tcp) next fits
      (fun later => unique (List.mem_append_right _ later))
      fun later => broken (List.mem_cons_of_mem _ later)

theorem run_over (tcp : s.kind = .tcp) (finished : (s.line id).Over)
    (wrote : (s.line id).output written = written) (unique : id ∉ s.idsGiven steps) :
    s.outputTo id written steps = written := by
  induction steps generalizing s with
  | nil => rfl
  | cons step rest ih =>
    have new : s.gives step ≠ some id := fun given =>
      unique (List.mem_append_left _ (by rw [given]; exact List.mem_singleton_self _))
    obtain ⟨still, same⟩ := (step_moves tcp step new).stays_over finished written
    rw [wrote] at same
    have kind := (step_happens s step).kind.trans tcp
    rw [outputTo, same]
    exact ih kind still same fun later => unique (List.mem_append_right _ later)

theorem accept_carries {ids : List ConnectionId} (numbered : Numbered s ids)
    (new : s.table.register.1 ∉ ids) (remote : Net.SocketAddress) :
    Carries s.limit [] [] failed [] ((s.accept remote).line s.table.register.1) := by
  have silent : s.received s.table.register.1 = [] := by
    refine List.filterMap_eq_nil_iff.mpr fun e member => ?_
    have old := numbered.events e member
    cases e with
    | data j bytes =>
      refine if_neg ?_
      rintro rfl
      exact new old
    | _ => rfl
  have line : (s.accept remote).line s.table.register.1 =
      ⟨some { phase := .registered remote }, some {}, []⟩ := by
    rw [← silent]
    exact (setTask_line _ _ _).trans (congrArg (Line.mk _ · _) Std.ExtTreeMap.getElem?_insert_self)
  have uncalled : ([] : List QueueItem) = ([] : List Bytes).map .frame ++ [] := rfl
  rw [line]
  exact .going (t := { phase := .registered remote }) (Or.inr ⟨remote, rfl⟩) rfl List.not_mem_nil
    (Framing.drain_nil _) uncalled rfl

theorem own_carries (tcp : s.kind = .tcp)
    (own : step = .announce id ∨ step = .read id ∨ step = .write id)
    (h : Carries s.limit inputs calls failed written (s.line id))
    (fits : ∀ i ∈ inputs, i.Fits .tcp) :
    Move s.limit id step (s.line id) ((s.step step).1.line id) ∧
      Carries s.limit inputs calls failed (((s.step step).1.line id).output written)
        ((s.step step).1.line id) := by
  have move : Move s.limit id step (s.line id) ((s.step step).1.line id) :=
    step_moves tcp step (by rcases own with rfl | rfl | rfl <;> exact nofun)
  have next := move.carries h fits (by rcases own with rfl | rfl | rfl <;> exact nofun)
  refine ⟨move, ?_⟩
  rcases own with rfl | rfl | rfl <;> simpa [ServerStep.inputTo, ServerStep.itemTo] using next

/-- With as many turns as it needs, a task has nothing left to do of what each turn does a part
    of. -/
theorem run_turns {f : Line → Nat} (tcp : s.kind = .tcp)
    (own : step = .read id ∨ step = .write id)
    (less : ∀ l l', Move s.limit id step l l' → f l' ≤ f l - 1)
    (fits : ∀ i ∈ inputs, i.Fits .tcp) (n : Nat)
    (h : Carries s.limit inputs calls failed written (s.line id))
    (announced : (s.line id).Announced) (few : f (s.line id) ≤ n) :
    Carries s.limit inputs calls failed (s.outputTo id written (.replicate n step))
        ((s.run (.replicate n step)).line id) ∧
      ((s.run (.replicate n step)).line id).Announced ∧
      f ((s.run (.replicate n step)).line id) = 0 := by
  induction n generalizing s written with
  | zero => exact ⟨h, announced, Nat.le_zero.mp few⟩
  | succ n ih =>
    have happens := step_happens s step
    obtain ⟨move, next⟩ := own_carries tcp (Or.inr own) h fits
    have fewer := less _ _ move
    rw [← happens.limit] at next less ⊢
    exact ih (happens.kind.trans tcp) less next (move.announced (Or.inr announced)) (by omega)

theorem run_settles {f : Line → Nat} {turn : ServerStep} (tcp : s.kind = .tcp)
    (own : turn = .read id ∨ turn = .write id)
    (less : ∀ l l', Move s.limit id turn l l' → f l' ≤ f l - 1)
    (fits : ∀ i ∈ inputs, i.Fits .tcp) {n : Nat}
    (few : ∀ written l, Carries s.limit inputs calls failed written l → f l ≤ n)
    (h : Carries s.limit inputs calls failed (s.outputTo id [] steps) ((s.run steps).line id)) :
    let all := steps ++ .announce id :: .replicate n turn
    Carries s.limit inputs calls failed (s.outputTo id [] all) ((s.run all).line id) ∧
      ((s.run all).line id).Announced ∧ f ((s.run all).line id) = 0 := by
  dsimp only
  rw [run_append, outputTo_append]
  have kind := (run_kind s steps).trans tcp
  rw [← run_limit s steps] at h less few ⊢
  generalize s.run steps = before at *
  have happens := step_happens before (.announce id)
  obtain ⟨move, next⟩ := own_carries kind (Or.inl rfl) h fits
  have within := few _ _ next
  rw [← happens.limit] at next less ⊢
  exact run_turns (happens.kind.trans kind) own less fits n next (move.announced (Or.inl rfl))
    within

/-- What becomes of the stream of a peer after these steps. -/
structure Listens (s : TransportServer) (id : ConnectionId) (steps : List ServerStep) : Prop where
  early : (s.run steps).received id <+:
    (Framing.drain s.limit (PeerInput.openStream (inputsTo id steps))).messages
  /-- As long as the relay does not close the connection, all that the peer has sent is reported
      when its task has had its turns. -/
  whole : .disconnect id ∉ steps → .writeFails id ∉ steps →
    ∀ n, (inputsTo id steps).length ≤ n →
      (s.run (steps ++ .announce id :: .replicate n (.read id))).received id =
        (Framing.drain s.limit (PeerInput.openStream (inputsTo id steps))).messages
  messages : .disconnect id ∉ steps → .writeFails id ∉ steps →
    ∀ messages : List Bytes,
      (∀ message ∈ messages, message.length ≤ s.limit ∧ message.length ≤ Framing.maxLength) →
      PeerInput.openStream (inputsTo id steps) = Framing.frames messages →
      ∀ n, (inputsTo id steps).length ≤ n →
        (s.run (steps ++ .announce id :: .replicate n (.read id))).received id = messages
  /-- A length beyond the limit is the end of the connection. -/
  stops : (Framing.drain s.limit (PeerInput.openStream (inputsTo id steps))).stopped = true →
    ∀ n, (inputsTo id steps).length ≤ n →
      ∀ t, (s.run (steps ++ .announce id :: .replicate n (.read id))).tasks[id]? = some t →
        t.phase = .ending ∨ t.phase = .removed

/-- The peer keeps its side of a connection open. It does not close it, nothing that is written to
    it fails, and it sends no length beyond the limit. -/
structure StaysOpen (limit : Nat) (id : ConnectionId) (steps : List ServerStep) : Prop where
  unfinished : .finish ∉ inputsTo id steps
  unbroken : .writeFails id ∉ steps
  allowed : (Framing.drain limit (PeerInput.stream (inputsTo id steps))).stopped = false

/-- What becomes of what the relay sends in these steps. -/
structure Speaks (s : TransportServer) (id : ConnectionId) (steps : List ServerStep) : Prop where
  /-- What is written is the beginning of what was sent before the connection was to be closed, and
      its end comes only after all of that. -/
  early : ∃ done, done <+: payloads (callsTo id steps) ∧
    (s.outputTo id [] steps = framed done ∨
      (done = payloads (callsTo id steps) ∧ .disconnect id ∈ steps ∧
        s.outputTo id [] steps = framed done ++ [.closed]))
  whole : StaysOpen s.limit id steps → ∀ n, (callsTo id steps).length ≤ n →
    let output := s.outputTo id [] (steps ++ .announce id :: .replicate n (.write id))
    output = framed (payloads (callsTo id steps)) ++
        (if .disconnect id ∈ steps then [.closed] else []) ∧
      PeerOutput.stream output = Framing.frames (payloads (callsTo id steps))

theorem Carries.listens (tcp : s.kind = .tcp)
    (h : Carries s.limit (inputsTo id steps) (callsTo id steps) (.writeFails id ∈ steps)
      (s.outputTo id [] steps) ((s.run steps).line id))
    (fits : ∀ i ∈ inputsTo id steps, i.Fits .tcp) : s.Listens id steps := by
  have settled (n : Nat) (enough : (inputsTo id steps).length ≤ n) :=
    run_settles tcp (Or.inl rfl) (fun _ _ move => move.read_less) fits
      (fun _ _ known => Nat.le_trans known.unheard_le enough) h
  have whole (unclosed : .disconnect id ∉ steps) (unbroken : .writeFails id ∉ steps) (n : Nat)
      (enough : (inputsTo id steps).length ≤ n) :
      (s.run (steps ++ .announce id :: .replicate n (.read id))).received id =
        (Framing.drain s.limit (PeerInput.openStream (inputsTo id steps))).messages := by
    obtain ⟨known, announced, idle⟩ := settled n enough
    rcases known.heard_out announced idle with ⟨unread, all⟩ | ⟨-, fails | closed | all⟩
    · rw [all]
      rfl
    · exact (unbroken fails).elim
    · exact (unclosed (close_mem_callsTo.mp closed)).elim
    · exact all.symm
  refine ⟨h.heard_early, whole, ?_, ?_⟩
  · intro unclosed unbroken messages within framed n enough
    rw [whole unclosed unbroken n enough, framed, (Framing.reassembles _).whole messages within]
  · intro stopped n enough
    obtain ⟨known, announced, idle⟩ := settled n enough
    rcases known.heard_out announced idle with ⟨unread, all⟩ | ⟨gone, -⟩
    · rw [all] at stopped
      exact nomatch stopped
    · exact gone

theorem stream_framed_end (payloads : List Bytes) (last : List PeerOutput)
    (silent : last = [] ∨ last = [.closed]) :
    PeerOutput.stream (framed payloads ++ last) = Framing.frames payloads := by
  rw [PeerOutput.stream, List.flatMap_append, ← PeerOutput.stream, PeerOutput.stream_framed]
  rcases silent with rfl | rfl <;> exact List.append_nil _

theorem Carries.speaks (tcp : s.kind = .tcp)
    (h : Carries s.limit (inputsTo id steps) (callsTo id steps) (.writeFails id ∈ steps)
      (s.outputTo id [] steps) ((s.run steps).line id))
    (fits : ∀ i ∈ inputsTo id steps, i.Fits .tcp) : s.Speaks id steps where
  early := by
    obtain ⟨done, early, wrote⟩ := h.written_early
    rw [close_mem_callsTo] at wrote
    exact ⟨done, early, wrote⟩
  whole stays n enough := by
    obtain ⟨known, announced, idle⟩ := run_settles tcp (Or.inr rfl)
      (fun _ _ move => move.write_less) fits
      (fun _ _ known => Nat.le_trans known.unwritten_le enough) h
    have wrote := known.written_out announced idle stays.unfinished stays.unbroken stays.allowed
    simp only [close_mem_callsTo] at wrote
    refine ⟨wrote, ?_⟩
    rw [wrote]
    exact stream_framed_end _ _ (by split <;> simp)

/-- Reading a stream with a limit gives its messages, and a transport that accepts a connection
    under a new id reports to the relay what the peer has framed and writes to it, in frames, what
    the relay sends before it closes the connection. -/
theorem tcp_streams_carry_messages (limit : Nat) (before : List ServerStep)
    (remote : Net.SocketAddress) (after : List ServerStep)
    (distinct : ((start .tcp limit).idsGiven (before ++ .accept remote :: after)).Nodup)
    (fits : ∀ i ∈ inputsTo ((start .tcp limit).run before).table.register.1 after, i.Fits .tcp) :
    Framing.Reassembles limit ∧
      let s := (start .tcp limit).run before
      let id := s.table.register.1
      (s.accept remote).limit = limit ∧ (s.accept remote).Listens id after ∧
        (s.accept remote).Speaks id after := by
  refine ⟨Framing.reassembles limit, ?_⟩
  intro s id
  obtain ⟨numbered, new, unique⟩ := accept_unique distinct
  have tcp : (s.accept remote).kind = .tcp := run_kind (start .tcp limit) before
  have known : Carries (s.accept remote).limit (inputsTo id after) (callsTo id after)
      (.writeFails id ∈ after) ((s.accept remote).outputTo id [] after)
      (((s.accept remote).run after).line id) :=
    run_carries tcp (accept_carries numbered new remote) fits unique fun fails => fails
  exact ⟨run_limit (start .tcp limit) before, known.listens tcp fits, known.speaks tcp fits⟩

def bothWays : List ServerStep :=
  [.input ⟨1⟩ (.bytes [0, 0, 0]), .send ⟨1⟩ [9], .input ⟨1⟩ (.bytes [1, 7, 0]), .send ⟨1⟩ []]

def bothWaysClosed : List ServerStep := bothWays ++ [.disconnect ⟨1⟩, .send ⟨1⟩ [8]]

theorem both_ways_carried :
    let s := (start .tcp 64).accept (.v4 10 0 0 1 40000)
    (s.run (bothWays ++ .announce ⟨1⟩ :: .replicate 2 (.read ⟨1⟩))).received ⟨1⟩ = [[7]] ∧
      s.outputTo ⟨1⟩ [] (bothWaysClosed ++ .announce ⟨1⟩ :: .replicate 4 (.write ⟨1⟩)) =
        [.bytes [0, 0, 0, 1, 9], .bytes [0, 0, 0, 0], .closed] := by
  have pieces : ∀ i ∈ [PeerInput.bytes [0, 0, 0], PeerInput.bytes [1, 7, 0]], i.Fits .tcp := by
    intro i member
    simp only [List.mem_cons, List.not_mem_nil, or_false] at member
    rcases member with rfl | rfl <;> trivial
  obtain ⟨-, -, listens, -⟩ := tcp_streams_carry_messages 64 [] (.v4 10 0 0 1 40000) bothWays
    (ids_distinct _ _ _ (by decide)) pieces
  obtain ⟨-, -, -, speaks⟩ := tcp_streams_carry_messages 64 [] (.v4 10 0 0 1 40000)
    bothWaysClosed (ids_distinct _ _ _ (by decide)) pieces
  have heard := listens.whole (by decide) (by decide) 2 (by decide)
  have said := (speaks.whole ⟨by decide, by decide, by decide +kernel⟩ 4 (by decide)).1
  exact ⟨heard.trans (by decide +kernel), said.trans (by decide +kernel)⟩

/-- The relay has sent a frame when the peer sends a length beyond the limit. -/
def oversizedFirst : List ServerStep :=
  [.announce ⟨1⟩, .send ⟨1⟩ [9], .input ⟨1⟩ (.bytes [255, 255, 255, 255]), .read ⟨1⟩]

/-- The peer has not closed its side, nothing that was written has failed and the relay has not
    closed the connection, and still the frame is never written. -/
theorem queued_frame_lost :
    let s := (start .tcp 64).accept (.v4 10 0 0 1 40000)
    .finish ∉ inputsTo ⟨1⟩ oversizedFirst ∧ .writeFails ⟨1⟩ ∉ oversizedFirst ∧
      .disconnect ⟨1⟩ ∉ oversizedFirst ∧ payloads (callsTo ⟨1⟩ oversizedFirst) = [[9]] ∧
      ((s.run [.announce ⟨1⟩]).step (.send ⟨1⟩ [9])).2 = .ok () ∧
      ∀ later, ⟨1⟩ ∉ (s.run oversizedFirst).idsGiven later →
        s.outputTo ⟨1⟩ [] (oversizedFirst ++ later) = [] := by
  intro s
  refine ⟨by decide, by decide, by decide, by decide, rfl, fun later unique => ?_⟩
  have ended : (s.run oversizedFirst).tasks[(⟨1⟩ : ConnectionId)]? = some { phase := .ending } := by
    decide +kernel
  have finished : ((s.run oversizedFirst).line ⟨1⟩).Over := by
    intro t there
    obtain rfl := Option.some.inj (ended.symm.trans there)
    exact Or.inl rfl
  have silent : ((s.run oversizedFirst).line ⟨1⟩).output [] = [] := by
    rw [line_found ended]
    rfl
  have before : s.outputTo ⟨1⟩ [] oversizedFirst = [] := by decide +kernel
  rw [outputTo_append, before]
  exact run_over (run_kind s oversizedFirst) finished silent unique

end TransportServer

end PeerRelay
