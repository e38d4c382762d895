import PeerRelay.Proofs.Collections
import PeerRelay.Proofs.Transport.Framing
import PeerRelay.Transport.Server

/-!
What one step of a transport can do. A step of a task changes that task and reports only about its
connection. Of the other steps an accept starts a task under the next id, and a call of the relay
leaves the tasks alone; neither reports anything. What a task has read is told by what has come
from its peer.
-/
namespace PeerRelay
open Wire (Bytes)

namespace PeerInput

def Fits : TransportKind → PeerInput → Prop
  | .tcp, .bytes _ | .tcp, .finish => True
  | .tcp, _ => False
  | .webSocket, .bytes _ => False
  | .webSocket, _ => True

def chunk : PeerInput → Bytes
  | .bytes chunk => chunk
  | _ => []

def message? : PeerInput → Option Bytes
  | .binary payload => some payload
  | .text content => some content.toUTF8.toList
  | _ => none

def stream (inputs : List PeerInput) : Bytes := inputs.flatMap chunk

def sent (inputs : List PeerInput) : TransportKind → List Bytes
  | .tcp => (Framing.drain Framing.maxLength (stream inputs)).messages
  | .webSocket => inputs.filterMap message?

/-- The peer is sending these messages: on a stream the bytes so far are those that carry them, as
    far as they go. -/
def Sends (inputs : List PeerInput) (messages : List Bytes) : TransportKind → Prop
  | .tcp => (∀ message ∈ messages, message.length ≤ Framing.maxLength) ∧
      stream inputs <+: Framing.frames messages
  | .webSocket => messages = inputs.filterMap message?

def Heard (limit : Nat) (inputs : List PeerInput) (messages : List Bytes) (unread : Bytes) :
    TransportKind → Prop
  | .tcp => Framing.drain limit (stream inputs) = ⟨messages, unread, false⟩
  | .webSocket => messages = inputs.filterMap message?

variable {kind : TransportKind} {limit : Nat} {inputs : List PeerInput} {messages : List Bytes}
  {unread : Bytes}

theorem heard_nothing (limit : Nat) (kind : TransportKind) : Heard limit [] [] [] kind := by
  cases kind with
  | tcp => exact Framing.drain_short nofun
  | webSocket => exact rfl

@[simp] theorem stream_append (inputs more : List PeerInput) :
    stream (inputs ++ more) = stream inputs ++ stream more :=
  List.flatMap_append

theorem sent_begins (h : Sends inputs messages kind) : sent inputs kind <+: messages := by
  cases kind with
  | tcp => exact Framing.drain_begins h.1 h.2
  | webSocket => exact h ▸ List.prefix_refl _

theorem sent_append (kind : TransportKind) (inputs more : List PeerInput) :
    sent inputs kind <+: sent (inputs ++ more) kind := by
  cases kind with
  | tcp =>
    exact Framing.drain_early (stream_append inputs more ▸ List.prefix_append _ _)
  | webSocket =>
    show _ <+: (inputs ++ more).filterMap message?
    rw [List.filterMap_append]
    exact List.prefix_append _ _

theorem heard_sent (heard : Heard limit inputs messages unread kind) :
    messages <+: sent inputs kind := by
  cases kind with
  | tcp =>
    obtain ⟨early, -⟩ := Framing.drain_limited limit (stream inputs)
    rwa [show Framing.drain limit (stream inputs) = ⟨messages, unread, false⟩ from heard] at early
  | webSocket => exact heard ▸ List.prefix_refl _

end PeerInput

namespace ConnectionTask
open PeerInput

variable {kind : TransportKind} {limit : Nat} {inputs : List PeerInput} {data : List Bytes}
  {t : ConnectionTask} {i : PeerInput}

theorem read_phase (t : ConnectionTask) (limit : Nat) (i : PeerInput) :
    (t.read limit i).task.phase = t.phase := by
  cases i <;> simp only [read, readChunk, readMessage] <;> split <;> rfl

theorem read_inbox (t : ConnectionTask) (limit : Nat) (i : PeerInput) :
    (t.read limit i).task.inbox = t.inbox := by
  cases i <;> simp only [read, readChunk, readMessage] <;> split <;> rfl

theorem read_message (socket : i.Fits .webSocket) :
    (t.read limit i).messages = (message? i).toList ∨
      ((t.read limit i).messages = [] ∧ (t.read limit i).ended = true) := by
  cases i with
  | bytes chunk => exact socket.elim
  | finish => exact Or.inr ⟨rfl, rfl⟩
  | _ =>
    simp only [read, readMessage]
    split
    · exact Or.inr ⟨rfl, rfl⟩
    · exact Or.inl rfl

/-- A piece of a stream goes on where the pieces before it stopped. -/
theorem readChunk_drain (heard : Heard limit inputs data t.unread .tcp) (chunk : Bytes) :
    Framing.drain limit (stream (inputs ++ [.bytes chunk])) =
      ⟨data ++ (t.readChunk limit chunk).messages, (t.readChunk limit chunk).task.unread,
        (t.readChunk limit chunk).ended⟩ := by
  have before : Framing.drain limit (stream inputs) = ⟨data, t.unread, false⟩ := heard
  rw [stream_append, Framing.drain_append, before,
    show stream [.bytes chunk] = chunk from List.append_nil _]
  rfl

theorem readChunk_heard (heard : Heard limit inputs data t.unread .tcp) (chunk : Bytes) :
    data ++ (t.readChunk limit chunk).messages <+: sent (inputs ++ [.bytes chunk]) .tcp ∧
      ((t.readChunk limit chunk).ended = false →
        Heard limit (inputs ++ [.bytes chunk]) (data ++ (t.readChunk limit chunk).messages)
          (t.readChunk limit chunk).task.unread .tcp) := by
  have after := readChunk_drain heard chunk
  obtain ⟨early, -⟩ := Framing.drain_limited limit (stream (inputs ++ [.bytes chunk]))
  rw [after] at early
  refine ⟨early, fun going => after.trans ?_⟩
  exact congrArg (Framing.Drained.mk _ _) going

theorem read_heard (fits : i.Fits kind) (heard : Heard limit inputs data t.unread kind) :
    data ++ (t.read limit i).messages <+: sent (inputs ++ [i]) kind ∧
      ((t.read limit i).ended = false →
        Heard limit (inputs ++ [i]) (data ++ (t.read limit i).messages)
          (t.read limit i).task.unread kind) := by
  have last (nothing : (t.read limit i).messages = []) :
      data ++ (t.read limit i).messages <+: sent (inputs ++ [i]) kind := by
    rw [nothing, List.append_nil]
    exact (heard_sent heard).trans (sent_append kind inputs [i])
  cases kind with
  | tcp =>
    cases i with
    | bytes chunk => exact readChunk_heard heard chunk
    | finish => exact ⟨last rfl, nofun⟩
    | _ => exact fits.elim
  | webSocket =>
    rcases read_message fits with told | ⟨nothing, ended⟩
    · have more : data ++ (t.read limit i).messages = (inputs ++ [i]).filterMap message? := by
        rw [show data = inputs.filterMap message? from heard, told, List.filterMap_append]
        cases shape : message? i <;> simp [shape]
      exact ⟨more ▸ List.prefix_refl _, fun _ => more⟩
    · exact ⟨last nothing, fun going => by simp [ended] at going⟩

def heard (t : ConnectionTask) (limit : Nat) (i : PeerInput) : ConnectionTask :=
  let r := t.read limit i
  if r.ended then { r.task with phase := .ending } else r.task

end ConnectionTask

def ServerStep.inputTo (id : ConnectionId) : ServerStep → Option PeerInput
  | .input j i => if id = j then some i else none
  | _ => none

namespace TransportServer

variable {s s' s'' : TransportServer} {id j : ConnectionId} {t : ConnectionTask}
  {t? u? : Option ConnectionTask} {news more : List TransportEvent}

/-- The task of one connection changes and reports something about it. All else stays, and nothing
    is put on the table. -/
structure Acts (s s' : TransportServer) (j : ConnectionId) (t? : Option ConnectionTask)
    (news : List TransportEvent) : Prop where
  tasks : ∀ id, s'.tasks[id]? = if id = j then t? else s.tasks[id]?
  events : s'.events = s.events ++ news
  own : ∀ e ∈ news, e.id = j
  absent : ∀ id, s.table.get? id = none → s'.table.get? id = none
  nextIndex : s'.table.nextIndex = s.table.nextIndex
  kind : s'.kind = s.kind
  limit : s'.limit = s.limit

theorem Acts.trans (first : Acts s s' j t? news) (second : Acts s' s'' j u? more) :
    Acts s s'' j u? (news ++ more) where
  tasks id := by
    rw [second.tasks, first.tasks]
    split <;> rfl
  events := by rw [second.events, first.events, List.append_assoc]
  own e member := (List.mem_append.mp member).elim (first.own e) (second.own e)
  absent id none := second.absent id (first.absent id none)
  nextIndex := second.nextIndex.trans first.nextIndex
  kind := second.kind.trans first.kind
  limit := second.limit.trans first.limit

theorem rests_acts (s : TransportServer) (j : ConnectionId) : Acts s s j s.tasks[j]? [] where
  tasks id := by split <;> simp_all
  events := (List.append_nil _).symm
  own := nofun
  absent _ := id
  nextIndex := rfl
  kind := rfl
  limit := rfl

theorem setTask_acts (s : TransportServer) (j : ConnectionId) (t : ConnectionTask) :
    Acts s (s.setTask j t) j (some t) [] :=
  { rests_acts s j with
    tasks := fun _ => Map.lookup_insert .. }

theorem emit_acts (s : TransportServer) (news : List TransportEvent)
    (own : ∀ e ∈ news, e.id = j) :
    Acts s (s.emit news) j s.tasks[j]? news :=
  { rests_acts s j with events := rfl, own }

theorem setQueue_acts (s : TransportServer) {q : WriteQueue} (listed : s.table.get? j = some q)
    (r : WriteQueue) : Acts s { s with table := s.table.setQueue j r } j s.tasks[j]? [] :=
  { rests_acts s j with
    absent := fun id none => by
      have other : j ≠ id := by
        rintro rfl
        simp [none] at listed
      show (s.table.queues.insert j r)[id]? = _
      rw [Map.lookup_insert, if_neg other.symm]
      exact none }

theorem endTask_acts (s : TransportServer) (j : ConnectionId) (t : ConnectionTask) :
    Acts s (s.endTask j t) j (some { t with phase := .ending }) [] := by
  have ended := setTask_acts s j { t with phase := .ending }
  unfold endTask
  dsimp only
  split
  · rename_i q kind listed
    have refused := ended.trans (setQueue_acts _ listed { q with isServed := false })
    rwa [ended.tasks, if_pos rfl] at refused
  · exact ended

theorem receive_acts (s : TransportServer) (j : ConnectionId) (t : ConnectionTask)
    (i : PeerInput) :
    Acts s (s.receive j t i) j (some (t.heard s.limit i))
      ((t.read s.limit i).messages.map fun m => .data j m .reliable) := by
  have told := emit_acts (j := j) s
    ((t.read s.limit i).messages.map fun m => .data j m .reliable) (by
      intro e member
      obtain ⟨m, -, rfl⟩ := List.mem_map.mp member
      rfl)
  unfold receive ConnectionTask.heard
  dsimp only
  split
  · simpa using told.trans (endTask_acts _ j _)
  · simpa using told.trans (setTask_acts _ j _)

theorem writeItem_kept (t : ConnectionTask) (kind : TransportKind) (item : QueueItem) :
    ∃ written, t.writeItem kind item = { t with written } := by
  cases item with
  | frame bytes => cases kind <;> exact ⟨_, rfl⟩
  | close => exact ⟨_, rfl⟩

theorem writeNext_acts (found : s.tasks[j]? = some t) :
    ∃ phase written, Acts s (s.writeNext j t) j (some { t with phase, written }) [] ∧
      (phase = t.phase ∨ phase = .ending) := by
  unfold writeNext
  split
  · rename_i item rest served listed
    obtain ⟨written, same⟩ := writeItem_kept t s.kind item
    have taken := setQueue_acts s listed ⟨rest, served⟩
    dsimp only
    rw [same]
    split
    · exact ⟨_, _, taken.trans (endTask_acts _ j _), Or.inr rfl⟩
    · exact ⟨_, _, taken.trans (setTask_acts _ j _), Or.inl rfl⟩
  · exact ⟨t.phase, t.written, found ▸ rests_acts s j, Or.inl rfl⟩

theorem remove_acts (s : TransportServer) (j : ConnectionId) (t : ConnectionTask) :
    Acts s ({ s with table := s.table.remove j }.setTask j { t with phase := .removed }) j
      (some { t with phase := .removed }) [] := by
  have removed : Acts s { s with table := s.table.remove j } j s.tasks[j]? [] :=
    { rests_acts s j with
      absent := fun id none => by
        show (s.table.queues.erase j)[id]? = _
        rw [Map.lookup_erase]
        split
        · rfl
        · exact none }
  exact removed.trans (setTask_acts _ j _)

theorem report_acts (s : TransportServer) (j : ConnectionId) :
    Acts s ({ s with tasks := s.tasks.erase j }.emit [.disconnected j]) j none
      [.disconnected j] := by
  have finished : Acts s { s with tasks := s.tasks.erase j } j none [] :=
    { rests_acts s j with
      tasks := fun _ => Map.lookup_erase .. }
  have told := finished.trans (emit_acts _ [.disconnected j] (by simp [TransportEvent.id]))
  rwa [finished.tasks, if_pos rfl] at told

inductive Turn (limit : Nat) (j : ConnectionId) (t : ConnectionTask) :
    Option PeerInput → Option ConnectionTask → List TransportEvent → Prop
  | gets (i : PeerInput) : Turn limit j t (some i) (some { t with inbox := t.inbox ++ [i] }) []
  | announces (remote : Net.SocketAddress) : t.phase = .registered remote →
      Turn limit j t none (some { t with phase := .serving }) [.connected j remote]
  | reads (i : PeerInput) (inbox : List PeerInput) : t.phase = .serving → t.inbox = i :: inbox →
      Turn limit j t none (some (({ t with inbox } : ConnectionTask).heard limit i))
        ((({ t with inbox } : ConnectionTask).read limit i).messages.map fun m =>
          .data j m .reliable)
  | writes (phase : TaskPhase) (written : List PeerOutput) :
      phase = t.phase ∨ (t.phase = .serving ∧ phase = .ending) →
      Turn limit j t none (some { t with phase, written }) []
  | leaves : t.phase = .ending → Turn limit j t none (some { t with phase := .removed }) []
  | reports : t.phase = .removed → Turn limit j t none none [.disconnected j]

def gives (s : TransportServer) : ServerStep → Option ConnectionId
  | .accept _ => some s.table.register.1
  | _ => none

/-- What a step can do: accept a connection, let a task take its turn, or neither. A task that has
    been removed is off the table. -/
inductive Happens (s : TransportServer) : ServerStep → TransportServer → Prop
  | accepts (remote : Net.SocketAddress) : Happens s (.accept remote) (s.accept remote)
  | turns (step : ServerStep) (j : ConnectionId) (t : ConnectionTask) (input? : Option PeerInput)
      (t? : Option ConnectionTask) (news : List TransportEvent) (s' : TransportServer) :
      s.gives step = none → s.tasks[j]? = some t →
      (∀ id, step.inputTo id = if id = j then input? else none) →
      Turn s.limit j t input? t? news → Acts s s' j t? news →
      (t.phase = .ending → t?.map (·.phase) = some .removed → s'.table.get? j = none) →
      Happens s step s'
  | rests (step : ServerStep) (s' : TransportServer) : s.gives step = none →
      (∀ id t, s.tasks[id]? = some t → step.inputTo id = none) →
      (∀ j, Acts s s' j s.tasks[j]? []) → Happens s step s'

theorem idle_happens (s : TransportServer) {step : ServerStep} (gives : s.gives step = none)
    (none : ∀ id t, s.tasks[id]? = some t → step.inputTo id = none) : Happens s step s :=
  .rests step s gives none fun j => rests_acts s j

theorem turn_happens {step : ServerStep} (gives : s.gives step = none)
    (found : s.tasks[j]? = some t) (quiet : ∀ id, step.inputTo id = none)
    (turn : Turn s.limit j t none t? news) (acts : Acts s s' j t? news) (kept : t?.map (·.phase) ≠ some .removed) : Happens s step s' :=
  .turns step j t none t? news s' gives found (fun id => by simp [quiet]) turn acts
    fun _ gone => (kept gone).elim

theorem announce_happens (found : s.tasks[j]? = some t) :
    Happens s (.announce j) (s.taskStep j t (.announce j)) := by
  simp only [taskStep]
  split
  · rename_i remote waiting
    have told := (setTask_acts s j { t with phase := .serving }).trans
      (emit_acts _ [.connected j remote] (by simp [TransportEvent.id]))
    rw [(setTask_acts s j _).tasks, if_pos rfl] at told
    exact turn_happens rfl found (fun _ => rfl) (.announces remote waiting) told (by simp)
  · exact idle_happens s rfl fun _ _ _ => rfl

theorem input_happens (found : s.tasks[j]? = some t) (i : PeerInput) :
    Happens s (.input j i) (s.taskStep j t (.input j i)) :=
  .turns _ j t (some i) _ _ _ rfl found (fun id => by simp [ServerStep.inputTo]) (.gets i)
    (setTask_acts s j _) (by simp +contextual)

theorem read_happens (found : s.tasks[j]? = some t) :
    Happens s (.read j) (s.taskStep j t (.read j)) := by
  simp only [taskStep]
  split
  · rename_i i inbox serving first
    refine turn_happens rfl found (fun _ => rfl) (.reads i inbox serving first)
      (receive_acts s j _ i) ?_
    have phase := ConnectionTask.read_phase { t with inbox } s.limit i
    simp only [Option.map_some, ConnectionTask.heard]
    split <;> simp_all
  · exact idle_happens s rfl fun _ _ _ => rfl

theorem write_happens (found : s.tasks[j]? = some t) :
    Happens s (.write j) (s.taskStep j t (.write j)) := by
  simp only [taskStep]
  split
  · rename_i serving
    obtain ⟨phase, written, acts, next⟩ := writeNext_acts found
    refine turn_happens rfl found (fun _ => rfl) (.writes phase written ?_) acts ?_
    · exact next.imp_right fun ending => ⟨serving, ending⟩
    · rcases next with rfl | rfl <;> simp [serving]
  · exact idle_happens s rfl fun _ _ _ => rfl

theorem writeFails_happens (found : s.tasks[j]? = some t) :
    Happens s (.writeFails j) (s.taskStep j t (.writeFails j)) := by
  simp only [taskStep]
  split
  · rename_i serving
    exact turn_happens rfl found (fun _ => rfl) (.writes .ending t.written (Or.inr ⟨serving, rfl⟩))
      (endTask_acts s j t) (by simp)
  · exact idle_happens s rfl fun _ _ _ => rfl

theorem remove_happens (found : s.tasks[j]? = some t) :
    Happens s (.remove j) (s.taskStep j t (.remove j)) := by
  simp only [taskStep]
  split
  · rename_i ending
    refine .turns _ j t none _ _ _ rfl found (fun _ => by simp [ServerStep.inputTo])
      (.leaves ending) (remove_acts s j t) fun _ _ => ?_
    exact Std.ExtTreeMap.getElem?_erase_self
  · exact idle_happens s rfl fun _ _ _ => rfl

theorem report_happens (found : s.tasks[j]? = some t) :
    Happens s (.report j) (s.taskStep j t (.report j)) := by
  simp only [taskStep]
  split
  · rename_i removed
    exact turn_happens rfl found (fun _ => rfl) (.reports removed) (report_acts s j) (by simp)
  · exact idle_happens s rfl fun _ _ _ => rfl

theorem push_acts {item : QueueItem} {table : ConnectionTable}
    (pushed : s.table.push id item = .ok table) (j : ConnectionId) :
    Acts s { s with table } j s.tasks[j]? [] := by
  unfold ConnectionTable.push at pushed
  split at pushed
  · contradiction
  · rename_i q listed
    split at pushed
    · cases pushed
      have queued := setQueue_acts s listed { q with items := q.items ++ [item] }
      exact { rests_acts s j with absent := queued.absent }
    · contradiction

theorem step_happens (s : TransportServer) (step : ServerStep) :
    Happens s step (s.step step).1 := by
  have on_task (j : ConnectionId) (gives : s.gives step = none)
      (own : ∀ id, id ≠ j → step.inputTo id = none)
      (acts : ∀ t, s.tasks[j]? = some t → Happens s step (s.taskStep j t step)) :
      Happens s step (s.onTask j step) := by
    unfold onTask
    split
    · exact acts _ ‹_›
    · refine idle_happens s gives fun id t found => own id ?_
      rintro rfl
      simp_all
  cases step with
  | accept remote => exact .accepts remote
  | announce j => exact on_task j rfl (fun _ _ => rfl) fun _ => announce_happens
  | input j i =>
    refine on_task j rfl (fun id other => if_neg other) fun _ found => input_happens found i
  | read j => exact on_task j rfl (fun _ _ => rfl) fun _ => read_happens
  | write j => exact on_task j rfl (fun _ _ => rfl) fun _ => write_happens
  | writeFails j => exact on_task j rfl (fun _ _ => rfl) fun _ => writeFails_happens
  | remove j => exact on_task j rfl (fun _ _ => rfl) fun _ => remove_happens
  | report j => exact on_task j rfl (fun _ _ => rfl) fun _ => report_happens
  | send j bytes =>
    simp only [step]
    split
    · exact .rests _ _ rfl (fun _ _ _ => rfl) (push_acts ‹_›)
    · exact idle_happens s rfl fun _ _ _ => rfl
  | disconnect j =>
    simp only [step]
    split
    · exact .rests _ _ rfl (fun _ _ _ => rfl) (push_acts ‹_›)
    · exact idle_happens s rfl fun _ _ _ => rfl

end TransportServer

end PeerRelay
