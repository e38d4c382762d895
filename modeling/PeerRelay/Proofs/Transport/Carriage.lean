import PeerRelay.Proofs.Transport.Limit
import PeerRelay.Proofs.Transport.Line

/-!
What a stream of bytes carries, both ways. What the peer sends is read as if it had come in one
piece, up to the end of the stream or a length beyond the limit, and what the relay sends is framed
in order, up to the first call that closes the connection.
-/
namespace PeerRelay
open Wire (Bytes)

def PeerInput.openStream (inputs : List PeerInput) : Bytes :=
  stream (inputs.takeWhile (· ≠ .finish))

namespace QueueItem

def payloads : List QueueItem → List Bytes
  | .frame bytes :: rest => bytes :: payloads rest
  | .close :: _ | [] => []

@[simp] theorem payloads_append (done : List Bytes) (items : List QueueItem) :
    payloads (done.map .frame ++ items) = done ++ payloads items := by
  induction done with
  | nil => rfl
  | cons first rest ih => exact congrArg (first :: ·) ih

end QueueItem

namespace PeerOutput

def framed (payloads : List Bytes) : List PeerOutput :=
  payloads.map fun bytes => .bytes (Framing.frame bytes)

def stream (written : List PeerOutput) : Bytes :=
  written.flatMap fun
    | .bytes chunk => chunk
    | .binary _ | .pong _ | .closed => []

@[simp] theorem stream_framed (payloads : List Bytes) :
    stream (framed payloads) = Framing.frames payloads := by
  rw [stream, framed, List.flatMap_map]
  rfl

@[simp] theorem framed_concat (payloads : List Bytes) (bytes : Bytes) :
    framed (payloads ++ [bytes]) = framed payloads ++ [.bytes (Framing.frame bytes)] :=
  List.map_append

end PeerOutput

/-- What the peer has been written. When the task is gone, that is what was written before. -/
def Line.output (l : Line) (before : List PeerOutput) : List PeerOutput :=
  l.task.elim before (·.written)

namespace TransportServer
open PeerOutput (framed)
open QueueItem (payloads)

variable {limit : Nat} {id : ConnectionId} {inputs heard rest : List PeerInput}
  {calls : List QueueItem} {failed : Prop} {l l' : Line} {step : ServerStep}
  {done : List Bytes} {written : List PeerOutput}

inductive Ended (limit : Nat) (heard rest : List PeerInput) (calls : List QueueItem)
    (failed : Prop) (done : List Bytes) (written : List PeerOutput) : Prop
  | oversized (stopped : (Framing.drain limit (PeerInput.stream heard)).stopped = true)
      (wrote : written = framed done)
  | finished (next : rest.head? = some .finish) (wrote : written = framed done)
  | broken (fails : failed) (wrote : written = framed done)
  | closed (others : List QueueItem) (shape : calls = done.map .frame ++ .close :: others)
      (wrote : written = framed done ++ [.closed])

theorem Ended.more (h : Ended limit heard rest calls failed done written)
    (inputs : List PeerInput) (items : List QueueItem) :
    Ended limit heard (rest ++ inputs) (calls ++ items) failed done written := by
  cases h with
  | oversized stopped wrote => exact .oversized stopped wrote
  | finished next wrote => exact .finished (by simp [next]) wrote
  | broken fails wrote => exact .broken fails wrote
  | closed others shape wrote => exact .closed (others ++ items) (by simp [shape]) wrote

/-- What is known of a connection after these inputs of its peer and these calls of the relay, when
    this has been written to the peer. -/
inductive Carries (limit : Nat) (inputs : List PeerInput) (calls : List QueueItem)
    (failed : Prop) : List PeerOutput → Line → Prop
  | going {t : ConnectionTask} {items : List QueueItem} {heard : List PeerInput}
      {done data : List Bytes}
      (phase : t.phase = .serving ∨ ∃ remote, t.phase = .registered remote)
      (inbox : inputs = heard ++ t.inbox) (unfinished : .finish ∉ heard)
      (read : Framing.drain limit (PeerInput.stream heard) = ⟨data, t.unread, false⟩)
      (queue : calls = done.map .frame ++ items) (wrote : t.written = framed done) :
      Carries limit inputs calls failed t.written ⟨some t, some ⟨items, true⟩, data⟩
  | ended {l : Line} {heard rest : List PeerInput} {done : List Bytes}
      {written : List PeerOutput}
      (phase : ∀ t, l.task = some t → t.phase = .ending ∨ t.phase = .removed)
      (refused : ∀ q, l.queue = some q → q.isServed = false)
      (inbox : inputs = heard ++ rest) (unfinished : .finish ∉ heard)
      (read : (Framing.drain limit (PeerInput.stream heard)).messages = l.data)
      (queue : done.map .frame <+: calls)
      (cause : Ended limit heard rest calls failed done written)
      (wrote : ∀ t, l.task = some t → t.written = written) :
      Carries limit inputs calls failed written l

namespace Carries

variable {t t' : ConnectionTask} {queue : Option WriteQueue} {data : List Bytes}

theorem output_known (h : Carries limit inputs calls failed written l) :
    l.output written = written := by
  cases h with
  | going => rfl
  | ended _ _ _ _ _ _ _ wrote =>
    cases there : l.task with
    | none => simp [Line.output, there]
    | some t => simpa [Line.output, there] using wrote t there

theorem gone (h : Carries limit inputs calls failed written l) (nobody : l.task = none)
    (more : List PeerInput) : Carries limit (inputs ++ more) calls failed written l := by
  cases h with
  | going => exact nomatch nobody
  | ended phase refused inbox unfinished read queue cause wrote =>
    have later := cause.more more []
    rw [List.append_nil] at later
    exact .ended phase refused (by rw [inbox, List.append_assoc]) unfinished read queue later wrote

theorem gets (h : Carries limit inputs calls failed written ⟨some t, queue, data⟩)
    (i : PeerInput) :
    Carries limit (inputs ++ [i]) calls failed t.written
      ⟨some { t with inbox := t.inbox ++ [i] }, queue, data⟩ := by
  cases h with
  | going phase inbox unfinished read queue wrote =>
    exact .going (t := { t with inbox := t.inbox ++ [i] }) phase
      (by rw [inbox, List.append_assoc]) unfinished read queue wrote
  | ended phase refused inbox unfinished read queue cause wrote =>
    have later := cause.more [i] []
    rw [List.append_nil, ← wrote t rfl] at later
    refine .ended ?_ refused (by rw [inbox, List.append_assoc]) unfinished read queue later ?_
    · rintro _ ⟨⟩
      exact phase t rfl
    · rintro _ ⟨⟩
      rfl

theorem announces {remote : Net.SocketAddress}
    (h : Carries limit inputs calls failed written ⟨some t, queue, data⟩)
    (waiting : t.phase = .registered remote) :
    Carries limit inputs calls failed t.written
      ⟨some { t with phase := .serving }, queue, data⟩ := by
  cases h with
  | going phase inbox unfinished read queue wrote =>
    exact .going (t := { t with phase := .serving }) (Or.inl rfl) inbox unfinished read queue wrote
  | ended phase => simp [waiting] at phase

theorem read_stream {i : PeerInput} (fits : i.Fits .tcp) (t : ConnectionTask)
    (heard_so_far : Framing.drain limit (PeerInput.stream heard) = ⟨data, t.unread, false⟩) :
    (∃ chunk, i = .bytes chunk ∧
      Framing.drain limit (PeerInput.stream (heard ++ [i])) =
        ⟨data ++ (t.read limit i).messages, (t.read limit i).task.unread, (t.read limit i).ended⟩) ∨
      (i = .finish ∧ (t.read limit i).messages = [] ∧ (t.read limit i).ended = true) := by
  cases i with
  | bytes chunk => exact Or.inl ⟨chunk, rfl, ConnectionTask.readChunk_drain heard_so_far chunk⟩
  | finish => exact Or.inr ⟨rfl, rfl, rfl⟩
  | _ => exact fits.elim

theorem read_written {i : PeerInput} (fits : i.Fits .tcp) (limit : Nat) (t : ConnectionTask) :
    (t.read limit i).task.written = t.written := by
  cases i with
  | bytes | finish => rfl
  | _ => exact fits.elim

theorem reads {i : PeerInput} {inbox : List PeerInput}
    (h : Carries limit inputs calls failed written ⟨some t, queue, data⟩)
    (fits : ∀ i ∈ inputs, i.Fits .tcp) (serving : t.phase = .serving)
    (first : t.inbox = i :: inbox)
    (goes_on : (({ t with inbox } : ConnectionTask).read limit i).ended = false) :
    Carries limit inputs calls failed
      (({ t with inbox } : ConnectionTask).read limit i).task.written
      ⟨some (({ t with inbox } : ConnectionTask).read limit i).task, queue,
        data ++ (({ t with inbox } : ConnectionTask).read limit i).messages⟩ := by
  cases h with
  | @going _ _ heard _ _ phase shape unfinished read queue wrote =>
    have fit : i.Fits .tcp := fits i (by simp [shape, first])
    rcases read_stream fit { t with inbox } read with ⟨chunk, rfl, later⟩ | ⟨_, _, ended⟩
    · rw [goes_on] at later
      refine .going (Or.inl ?_) ?_ ?_ later queue ?_
      · exact (ConnectionTask.read_phase _ limit _).trans serving
      · rw [ConnectionTask.read_inbox, shape, first, List.append_assoc]
        rfl
      · simp [unfinished]
      · exact (read_written fit limit _).trans wrote
    · exact nomatch goes_on.symm.trans ended
  | ended phase => simp [serving] at phase

theorem ends {items : List QueueItem} {rest : List PeerInput} (inbox : inputs = heard ++ rest)
    (unfinished : .finish ∉ heard)
    (read : (Framing.drain limit (PeerInput.stream heard)).messages = data)
    (queue : done.map .frame <+: calls)
    (cause : Ended limit heard rest calls failed done t.written) :
    Carries limit inputs calls failed t.written
      ⟨some { t with phase := .ending }, some ⟨items, false⟩, data⟩ := by
  refine .ended ?_ ?_ inbox unfinished read queue cause ?_
  · rintro _ ⟨⟩
    exact Or.inl rfl
  · rintro _ ⟨⟩
    rfl
  · rintro _ ⟨⟩
    rfl

theorem stops {i : PeerInput} {inbox : List PeerInput}
    (h : Carries limit inputs calls failed written ⟨some t, queue, data⟩)
    (fits : ∀ i ∈ inputs, i.Fits .tcp) (serving : t.phase = .serving)
    (first : t.inbox = i :: inbox)
    (ended : (({ t with inbox } : ConnectionTask).read limit i).ended = true) :
    Carries limit inputs calls failed
      (({ t with inbox } : ConnectionTask).read limit i).task.written
      ⟨some { (({ t with inbox } : ConnectionTask).read limit i).task with phase := .ending },
        queue.map WriteQueue.refused,
        data ++ (({ t with inbox } : ConnectionTask).read limit i).messages⟩ := by
  cases h with
  | @going _ items heard done _ phase shape unfinished read queue wrote =>
    have fit : i.Fits .tcp := fits i (by simp [shape, first])
    have kept := (read_written fit limit { t with inbox }).trans wrote
    have early : done.map QueueItem.frame <+: calls := queue ▸ List.prefix_append _ _
    rcases read_stream fit { t with inbox } read with ⟨chunk, rfl, later⟩ | ⟨rfl, none, _⟩
    · rw [ended] at later
      have cut : inputs = (heard ++ [.bytes chunk]) ++ inbox := by
        rw [shape, first, List.append_assoc]
        rfl
      exact ends cut (by simp [unfinished]) (by rw [later]) early
        (.oversized (by rw [later]) kept)
    · rw [none, List.append_nil]
      have cut : inputs = heard ++ .finish :: inbox := by rw [shape, first]
      exact ends cut unfinished (by rw [read]) early (.finished rfl kept)
  | ended phase => simp [serving] at phase

theorem writes {bytes : Bytes} {rest : List QueueItem} {served : Bool}
    (h : Carries limit inputs calls failed written
      ⟨some t, some ⟨.frame bytes :: rest, served⟩, data⟩) (serving : t.phase = .serving) :
    Carries limit inputs calls failed (t.write (.bytes (Framing.frame bytes))).written
      ⟨some (t.write (.bytes (Framing.frame bytes))), some ⟨rest, served⟩, data⟩ := by
  cases h with
  | @going _ _ _ done _ phase inbox unfinished read queue wrote =>
    have sent : calls = (done ++ [bytes]).map .frame ++ rest := by simp [queue]
    refine .going phase inbox unfinished read sent ?_
    rw [PeerOutput.framed_concat, ← wrote]
    rfl
  | ended phase => simp [serving] at phase

theorem closes {rest : List QueueItem} {served : Bool}
    (h : Carries limit inputs calls failed written ⟨some t, some ⟨.close :: rest, served⟩, data⟩)
    (serving : t.phase = .serving) :
    Carries limit inputs calls failed (t.write .closed).written
      ⟨some { t.write .closed with phase := .ending }, some ⟨rest, false⟩, data⟩ := by
  cases h with
  | going phase inbox unfinished read queue wrote =>
    exact ends (t := t.write .closed) inbox unfinished (by rw [read])
      (queue ▸ List.prefix_append _ _)
      (.closed rest queue (congrArg (· ++ [PeerOutput.closed]) wrote))
  | ended phase => simp [serving] at phase

theorem fails (h : Carries limit inputs calls failed written ⟨some t, queue, data⟩)
    (serving : t.phase = .serving) (broken : failed) :
    Carries limit inputs calls failed t.written
      ⟨some { t with phase := .ending }, queue.map WriteQueue.refused, data⟩ := by
  cases h with
  | going phase inbox unfinished read queue wrote =>
    exact ends inbox unfinished (by rw [read]) (queue ▸ List.prefix_append _ _)
      (.broken broken wrote)
  | ended phase => simp [serving] at phase

theorem leaves (h : Carries limit inputs calls failed written ⟨some t, queue, data⟩)
    (ending : t.phase = .ending) :
    Carries limit inputs calls failed t.written
      ⟨some { t with phase := .removed }, none, data⟩ := by
  cases h with
  | going phase => simp [ending] at phase
  | ended phase refused inbox unfinished read queue cause wrote =>
    rw [← wrote t rfl] at cause
    refine .ended ?_ nofun inbox unfinished read queue cause ?_
    · rintro _ ⟨⟩
      exact Or.inr rfl
    · rintro _ ⟨⟩
      rfl

theorem reports (h : Carries limit inputs calls failed written ⟨some t, queue, data⟩)
    (removed : t.phase = .removed) :
    Carries limit inputs calls failed written ⟨none, queue, data⟩ := by
  cases h with
  | going phase => simp [removed] at phase
  | ended phase refused inbox unfinished read queue cause wrote =>
    exact .ended nofun refused inbox unfinished read queue cause nofun

theorem queues {task : Option ConnectionTask} {items : List QueueItem}
    (h : Carries limit inputs calls failed written ⟨task, some ⟨items, true⟩, data⟩)
    (item : QueueItem) :
    Carries limit inputs (calls ++ [item]) failed written
      ⟨task, some ⟨items ++ [item], true⟩, data⟩ := by
  cases h with
  | going phase inbox unfinished read queue wrote =>
    exact .going phase inbox unfinished read (by rw [queue, List.append_assoc]) wrote
  | ended phase refused => exact nomatch refused _ rfl

theorem refuses (h : Carries limit inputs calls failed written l)
    (unserved : ∀ q, l.queue = some q → q.isServed = false) (item : QueueItem) :
    Carries limit inputs (calls ++ [item]) failed written l := by
  cases h with
  | going => exact nomatch unserved _ rfl
  | ended phase refused inbox unfinished read queue cause wrote =>
    have later := cause.more [] [item]
    rw [List.append_nil] at later
    exact .ended phase refused inbox unfinished read (queue.trans (List.prefix_append _ _)) later
      wrote

end Carries

theorem call_unheard {item : QueueItem} (called : step.itemTo id = some item) :
    step.inputTo id = none := by
  cases step with
  | input => exact nomatch called
  | _ => rfl

theorem Move.carries (move : Move limit id step l l')
    (h : Carries limit inputs calls failed written l) (fits : ∀ i ∈ inputs, i.Fits .tcp)
    (broken : step = .writeFails id → failed) :
    Carries limit (inputs ++ (step.inputTo id).toList) (calls ++ (step.itemTo id).toList) failed
      (l'.output written) l' := by
  -- a step is of the task alone, brings something from the peer or is a call of the relay
  have internal {output : List PeerOutput} (unheard : step.inputTo id = none)
      (uncalled : step.itemTo id = none) (later : Carries limit inputs calls failed output l') :
      Carries limit (inputs ++ (step.inputTo id).toList) (calls ++ (step.itemTo id).toList)
        failed output l' := by
    rw [unheard, uncalled]
    simpa using later
  have call {output : List PeerOutput} {item : QueueItem} (called : step.itemTo id = some item)
      (later : Carries limit inputs (calls ++ [item]) failed output l') :
      Carries limit (inputs ++ (step.inputTo id).toList) (calls ++ (step.itemTo id).toList)
        failed output l' := by
    rw [call_unheard called, called]
    simpa using later
  cases move with
  | rests l unheard uncalled =>
    rw [h.output_known]
    rcases unheard with none | nobody
    · exact internal none uncalled h
    · rw [uncalled, Option.toList_none, List.append_nil]
      exact h.gone nobody _
  | gets brought uncalled =>
    rw [brought, uncalled, Option.toList_none, List.append_nil]
    exact h.gets _
  | announces same waiting => exact internal (same ▸ rfl) (same ▸ rfl) (h.announces waiting)
  | reads same serving first goes_on =>
    exact internal (same ▸ rfl) (same ▸ rfl) (h.reads fits serving first goes_on)
  | stops same serving first ended =>
    exact internal (same ▸ rfl) (same ▸ rfl) (h.stops fits serving first ended)
  | writes same serving => exact internal (same ▸ rfl) (same ▸ rfl) (h.writes serving)
  | closes same serving => exact internal (same ▸ rfl) (same ▸ rfl) (h.closes serving)
  | fails same serving => exact internal (same ▸ rfl) (same ▸ rfl) (h.fails serving (broken same))
  | leaves same ending => exact internal (same ▸ rfl) (same ▸ rfl) (h.leaves ending)
  | reports same removed => exact internal (same ▸ rfl) (same ▸ rfl) (h.reports removed)
  | queues called =>
    have same := h.output_known
    exact call called (same.symm ▸ h.queues _)
  | refuses called _ unserved =>
    rw [h.output_known]
    exact call called (h.refuses unserved _)

end TransportServer

end PeerRelay
