import PeerRelay.Proofs.Transport.Order

/-!
A connection by itself. Its task, its queue and the messages reported of it are all that a step on a
stream of bytes reads or changes of the transport, and the steps of other connections leave them
alone. What one step can do to a connection is said once (`Move`).
-/
namespace PeerRelay
open Wire (Bytes)

/-- One connection of a transport, with the messages that have been reported of it. -/
structure Line where
  task : Option ConnectionTask
  queue : Option WriteQueue
  data : List Bytes

def TransportEvent.message? (id : ConnectionId) : TransportEvent → Option Bytes
  | .data j bytes _ => if j = id then some bytes else none
  | .connected .. | .disconnected _ => none

namespace WriteQueue

def refused (q : WriteQueue) : WriteQueue := { q with isServed := false }

end WriteQueue

namespace ServerStep

def itemTo (id : ConnectionId) : ServerStep → Option QueueItem
  | .send j bytes => if j = id then some (.frame bytes) else none
  | .disconnect j => if j = id then some .close else none
  | _ => none

def about : ServerStep → Option ConnectionId
  | .accept _ => none
  | .announce id | .input id _ | .read id | .write id | .writeFails id | .remove id | .report id
  | .send id _ | .disconnect id => some id

end ServerStep

namespace TransportServer

variable {s : TransportServer} {id j : ConnectionId} {t : ConnectionTask} {step : ServerStep}

def received (s : TransportServer) (id : ConnectionId) : List Bytes :=
  s.events.filterMap (·.message? id)

def line (s : TransportServer) (id : ConnectionId) : Line :=
  ⟨s.tasks[id]?, s.table.get? id, s.received id⟩

/-! The connection itself -/

@[simp] theorem setTask_line (s : TransportServer) (id : ConnectionId) (t : ConnectionTask) :
    (s.setTask id t).line id = { s.line id with task := some t } := by
  simp [line, setTask, received]

@[simp] theorem emit_line (s : TransportServer) (id : ConnectionId) (news : List TransportEvent) :
    (s.emit news).line id =
      { s.line id with data := (s.line id).data ++ news.filterMap (·.message? id) } := by
  simp [line, emit, received]

theorem setQueue_line (s : TransportServer) (id : ConnectionId) (q : WriteQueue) :
    ({ s with table := s.table.setQueue id q } : TransportServer).line id =
      { s.line id with queue := some q } := by
  simp [line, received, ConnectionTable.setQueue, ConnectionTable.get?]

theorem endTask_line (tcp : s.kind = .tcp) (id : ConnectionId) (t : ConnectionTask) :
    (s.endTask id t).line id =
      ⟨some { t with phase := .ending }, (s.line id).queue.map WriteQueue.refused,
        (s.line id).data⟩ := by
  have ended := s.setTask_line id { t with phase := .ending }
  unfold endTask
  dsimp only
  split
  · rename_i q kind listed
    have queue : (s.line id).queue = some q := listed
    rw [queue]
    exact (setQueue_line _ id _).trans (by rw [ended]; rfl)
  · rename_i unlisted
    have queue : (s.line id).queue = none := by
      cases listed : s.table.get? id with
      | none => exact listed
      | some q => exact (unlisted q tcp listed).elim
    have unserved : (s.line id).queue = (s.line id).queue.map WriteQueue.refused := by
      rw [queue]
      rfl
    rw [ended]
    exact congrArg (fun queue => Line.mk _ queue _) unserved

/-! The other connections -/

theorem setTask_line_other (other : j ≠ id) (t : ConnectionTask) :
    (s.setTask j t).line id = s.line id := by
  have task := (setTask_acts s j t).tasks id
  rw [if_neg other.symm] at task
  exact congrArg (fun task => Line.mk task _ _) task

theorem emit_line_other {news : List TransportEvent} (other : j ≠ id)
    (own : ∀ e ∈ news, e.id = j) : (s.emit news).line id = s.line id := by
  have silent : news.filterMap (·.message? id) = [] := by
    rw [List.filterMap_eq_nil_iff]
    intro e member
    have of_other := own e member
    cases e with
    | data k bytes channel => exact if_neg (fun same => other (of_other.symm.trans same))
    | _ => rfl
  rw [emit_line, silent, List.append_nil]

theorem setQueue_line_other (other : j ≠ id) (q : WriteQueue) :
    ({ s with table := s.table.setQueue j q } : TransportServer).line id = s.line id := by
  have queue : (s.table.queues.insert j q)[id]? = s.table.queues[id]? := by
    rw [Map.lookup_insert, if_neg other.symm]
  exact congrArg (fun queue => Line.mk _ queue _) queue

theorem endTask_line_other (other : j ≠ id) (t : ConnectionTask) :
    (s.endTask j t).line id = s.line id := by
  unfold endTask
  dsimp only
  split
  · exact (setQueue_line_other other _).trans (setTask_line_other other _)
  · exact setTask_line_other other _

theorem receive_line_other (other : j ≠ id) (t : ConnectionTask) (i : PeerInput) :
    (s.receive j t i).line id = s.line id := by
  have told : (s.emit ((t.read s.limit i).messages.map fun m => .data j m .reliable)).line id =
      s.line id := by
    refine emit_line_other other fun e member => ?_
    obtain ⟨m, -, rfl⟩ := List.mem_map.mp member
    rfl
  unfold receive
  dsimp only
  split
  · exact (endTask_line_other other _).trans told
  · exact (setTask_line_other other _).trans told

theorem writeNext_line_other (other : j ≠ id) (t : ConnectionTask) :
    (s.writeNext j t).line id = s.line id := by
  unfold writeNext
  split
  · dsimp only
    split
    · exact (endTask_line_other other _).trans (setQueue_line_other other _)
    · exact (setTask_line_other other _).trans (setQueue_line_other other _)
  · rfl

theorem remove_line_other (other : j ≠ id) :
    ({ s with table := s.table.remove j } : TransportServer).line id = s.line id := by
  have queue : (s.table.queues.erase j)[id]? = s.table.queues[id]? := by
    rw [Map.lookup_erase, if_neg other.symm]
  exact congrArg (fun queue => Line.mk _ queue _) queue

theorem erase_line_other (other : j ≠ id) :
    ({ s with tasks := s.tasks.erase j } : TransportServer).line id = s.line id := by
  have task : (s.tasks.erase j)[id]? = s.tasks[id]? := by
    rw [Map.lookup_erase, if_neg other.symm]
  exact congrArg (fun task => Line.mk task _ _) task

theorem taskStep_line_other (other : j ≠ id) (t : ConnectionTask) (step : ServerStep) :
    (s.taskStep j t step).line id = s.line id := by
  cases step with
  | announce =>
    simp only [taskStep]
    split
    · exact (emit_line_other other (by simp [TransportEvent.id])).trans
        (setTask_line_other other _)
    · rfl
  | input => exact setTask_line_other other _
  | read =>
    simp only [taskStep]
    split
    · exact receive_line_other other _ _
    · rfl
  | write =>
    simp only [taskStep]
    split
    · exact writeNext_line_other other _
    · rfl
  | writeFails =>
    simp only [taskStep]
    split
    · exact endTask_line_other other _
    · rfl
  | remove =>
    simp only [taskStep]
    split
    · exact (setTask_line_other other _).trans (remove_line_other other)
    · rfl
  | report =>
    simp only [taskStep]
    split
    · exact (emit_line_other other (by simp [TransportEvent.id])).trans (erase_line_other other)
    · rfl
  | accept | send | disconnect => rfl

theorem onTask_line_other (other : j ≠ id) (step : ServerStep) :
    (s.onTask j step).line id = s.line id := by
  unfold onTask
  split
  · exact taskStep_line_other other _ step
  · rfl

theorem push_line_other (other : j ≠ id) {item : QueueItem} {table : ConnectionTable}
    (pushed : s.table.push j item = .ok table) :
    ({ s with table } : TransportServer).line id = s.line id := by
  unfold ConnectionTable.push at pushed
  split at pushed
  · contradiction
  · split at pushed
    · cases pushed
      exact setQueue_line_other other _
    · contradiction

theorem step_line_other (other : step.about ≠ some id) (new : s.gives step ≠ some id) :
    (s.step step).1.line id = s.line id := by
  cases step with
  | accept remote =>
    have different : s.table.register.1 ≠ id := fun same => new (congrArg some same)
    exact (setTask_line_other different _).trans (setQueue_line_other (s := s) different {})
  | send j bytes =>
    simp only [step]
    split
    · exact push_line_other (fun same => other (congrArg some same)) ‹_›
    · rfl
  | disconnect j =>
    simp only [step]
    split
    · exact push_line_other (fun same => other (congrArg some same)) ‹_›
    · rfl
  | announce j | input j i | read j | write j | writeFails j | remove j | report j =>
    exact onTask_line_other (fun same => other (congrArg some same)) _

/-! What a step can do -/

inductive Move (limit : Nat) (id : ConnectionId) (step : ServerStep) : Line → Line → Prop
  | rests (l : Line) (unheard : step.inputTo id = none ∨ l.task = none)
      (uncalled : step.itemTo id = none)
      (announced : step = .announce id →
        ∀ t remote, l.task = some t → t.phase ≠ .registered remote)
      (all_read : step = .read id → ∀ t, l.task = some t → t.phase = .serving → t.inbox = [])
      (all_written : step = .write id → ∀ t q, l.task = some t → t.phase = .serving →
        l.queue = some q → q.items = []) : Move limit id step l l
  | gets {i : PeerInput} (brought : step.inputTo id = some i) (uncalled : step.itemTo id = none)
      (t : ConnectionTask) (queue : Option WriteQueue) (data : List Bytes) :
      Move limit id step ⟨some t, queue, data⟩
        ⟨some { t with inbox := t.inbox ++ [i] }, queue, data⟩
  | announces {t : ConnectionTask} {remote : Net.SocketAddress} (same : step = .announce id)
      (waiting : t.phase = .registered remote) (queue : Option WriteQueue) (data : List Bytes) :
      Move limit id step ⟨some t, queue, data⟩ ⟨some { t with phase := .serving }, queue, data⟩
  | reads {t : ConnectionTask} {i : PeerInput} {inbox : List PeerInput} (same : step = .read id)
      (serving : t.phase = .serving) (first : t.inbox = i :: inbox)
      (goes_on : (({ t with inbox } : ConnectionTask).read limit i).ended = false)
      (queue : Option WriteQueue) (data : List Bytes) :
      Move limit id step ⟨some t, queue, data⟩
        ⟨some (({ t with inbox } : ConnectionTask).read limit i).task, queue,
          data ++ (({ t with inbox } : ConnectionTask).read limit i).messages⟩
  | stops {t : ConnectionTask} {i : PeerInput} {inbox : List PeerInput} (same : step = .read id)
      (serving : t.phase = .serving) (first : t.inbox = i :: inbox)
      (ended : (({ t with inbox } : ConnectionTask).read limit i).ended = true)
      (queue : Option WriteQueue) (data : List Bytes) :
      Move limit id step ⟨some t, queue, data⟩
        ⟨some { (({ t with inbox } : ConnectionTask).read limit i).task with phase := .ending },
          queue.map WriteQueue.refused,
          data ++ (({ t with inbox } : ConnectionTask).read limit i).messages⟩
  | writes {t : ConnectionTask} (same : step = .write id) (serving : t.phase = .serving)
      (bytes : Bytes) (rest : List QueueItem) (served : Bool) (data : List Bytes) :
      Move limit id step ⟨some t, some ⟨.frame bytes :: rest, served⟩, data⟩
        ⟨some (t.write (.bytes (Framing.frame bytes))), some ⟨rest, served⟩, data⟩
  | closes {t : ConnectionTask} (same : step = .write id) (serving : t.phase = .serving)
      (rest : List QueueItem) (served : Bool) (data : List Bytes) :
      Move limit id step ⟨some t, some ⟨.close :: rest, served⟩, data⟩
        ⟨some { t.write .closed with phase := .ending }, some ⟨rest, false⟩, data⟩
  | fails {t : ConnectionTask} (same : step = .writeFails id) (serving : t.phase = .serving)
      (queue : Option WriteQueue) (data : List Bytes) :
      Move limit id step ⟨some t, queue, data⟩
        ⟨some { t with phase := .ending }, queue.map WriteQueue.refused, data⟩
  | leaves {t : ConnectionTask} (same : step = .remove id) (ending : t.phase = .ending)
      (queue : Option WriteQueue) (data : List Bytes) :
      Move limit id step ⟨some t, queue, data⟩ ⟨some { t with phase := .removed }, none, data⟩
  | reports {t : ConnectionTask} (same : step = .report id) (removed : t.phase = .removed)
      (queue : Option WriteQueue) (data : List Bytes) :
      Move limit id step ⟨some t, queue, data⟩ ⟨none, queue, data⟩
  | queues {item : QueueItem} (called : step.itemTo id = some item) (task : Option ConnectionTask)
      (items : List QueueItem) (data : List Bytes) :
      Move limit id step ⟨task, some ⟨items, true⟩, data⟩ ⟨task, some ⟨items ++ [item], true⟩, data⟩
  | refuses {item : QueueItem} (called : step.itemTo id = some item) (l : Line)
      (unserved : ∀ q, l.queue = some q → q.isServed = false) : Move limit id step l l

theorem line_found (found : s.tasks[id]? = some t) :
    s.line id = ⟨some t, s.table.get? id, s.received id⟩ := by
  rw [line, found]

theorem idle_moves (s : TransportServer) (id : ConnectionId) {step : ServerStep}
    (unheard : step.inputTo id = none) (uncalled : step.itemTo id = none)
    (late : step ≠ .announce id) (busy : step ≠ .read id) (slow : step ≠ .write id) :
    Move s.limit id step (s.line id) (s.line id) :=
  .rests _ (Or.inl unheard) uncalled (fun same => (late same).elim) (fun same => (busy same).elim)
    fun same => (slow same).elim

theorem announce_moves (found : s.tasks[id]? = some t) :
    Move s.limit id (.announce id) (s.line id) ((s.taskStep id t (.announce id)).line id) := by
  simp only [taskStep]
  split
  · rename_i remote waiting
    rw [emit_line, setTask_line, line_found found]
    have silent : [TransportEvent.connected id remote].filterMap (·.message? id) = [] := rfl
    simp only [silent, List.append_nil]
    exact .announces rfl waiting _ _
  · rename_i told
    refine .rests _ (Or.inl rfl) rfl (fun _ u remote there waiting => ?_) (by simp) (by simp)
    obtain rfl : t = u := Option.some.inj (found.symm.trans there)
    exact told remote waiting

theorem input_moves (found : s.tasks[id]? = some t) (i : PeerInput) :
    Move s.limit id (.input id i) (s.line id) ((s.taskStep id t (.input id i)).line id) := by
  simp only [taskStep]
  rw [setTask_line, line_found found]
  exact .gets (by simp [ServerStep.inputTo]) rfl t _ _

theorem messages_filterMap (id : ConnectionId) (messages : List Bytes) :
    (messages.map fun m => TransportEvent.data id m .reliable).filterMap (·.message? id) =
      messages := by
  have own : (TransportEvent.message? id) ∘ (fun m => .data id m .reliable) = some :=
    funext fun m => if_pos rfl
  rw [List.filterMap_map, own, List.filterMap_some]

theorem read_moves (tcp : s.kind = .tcp) (found : s.tasks[id]? = some t) :
    Move s.limit id (.read id) (s.line id) ((s.taskStep id t (.read id)).line id) := by
  simp only [taskStep]
  split
  · rename_i i inbox serving first
    unfold receive
    dsimp only
    split
    · rename_i ended
      rw [endTask_line (by exact tcp), emit_line, messages_filterMap, line_found found]
      exact .stops rfl serving first ended _ _
    · rename_i goes_on
      rw [setTask_line, emit_line, messages_filterMap, line_found found]
      exact .reads rfl serving first (eq_false_of_ne_true goes_on) _ _
  · rename_i idle
    refine .rests _ (Or.inl rfl) rfl (by simp) (fun _ u there serving => ?_) (by simp)
    obtain rfl : t = u := Option.some.inj (found.symm.trans there)
    cases first : t.inbox with
    | nil => rfl
    | cons i inbox => exact (idle i inbox serving first).elim

theorem write_moves (tcp : s.kind = .tcp) (found : s.tasks[id]? = some t) :
    Move s.limit id (.write id) (s.line id) ((s.taskStep id t (.write id)).line id) := by
  simp only [taskStep]
  split
  · rename_i serving
    unfold writeNext
    split
    · rename_i item rest served listed
      have line : s.line id = ⟨some t, some ⟨item :: rest, served⟩, s.received id⟩ := by
        rw [line_found found, listed]
      cases item with
      | frame bytes =>
        dsimp only
        rw [if_neg (by simp), setTask_line, setQueue_line, line, tcp]
        exact .writes rfl serving bytes rest served _
      | close =>
        dsimp only
        rw [if_pos rfl, endTask_line (by exact tcp), setQueue_line, line]
        exact .closes rfl serving rest served _
    · rename_i idle
      refine .rests _ (Or.inl rfl) rfl (by simp) (by simp) fun _ u q _ _ there => ?_
      have listed : s.table.get? id = some q := there
      obtain ⟨items, served⟩ := q
      cases items with
      | nil => rfl
      | cons item rest => exact (idle item rest served listed).elim
  · rename_i waiting
    refine .rests _ (Or.inl rfl) rfl (by simp) (by simp) fun _ u q there serving _ => ?_
    obtain rfl : t = u := Option.some.inj (found.symm.trans there)
    exact (waiting serving).elim

theorem writeFails_moves (tcp : s.kind = .tcp) (found : s.tasks[id]? = some t) :
    Move s.limit id (.writeFails id) (s.line id) ((s.taskStep id t (.writeFails id)).line id) := by
  simp only [taskStep]
  split
  · rename_i serving
    rw [endTask_line tcp, line_found found]
    exact .fails rfl serving _ _
  · exact idle_moves s id rfl rfl (by simp) (by simp) (by simp)

theorem remove_moves (found : s.tasks[id]? = some t) :
    Move s.limit id (.remove id) (s.line id) ((s.taskStep id t (.remove id)).line id) := by
  simp only [taskStep]
  split
  · rename_i ending
    have gone : ({ s with table := s.table.remove id } : TransportServer).line id =
        { s.line id with queue := none } := by
      simp [line, received, ConnectionTable.remove, ConnectionTable.get?]
    rw [setTask_line, gone, line_found found]
    exact .leaves rfl ending _ _
  · exact idle_moves s id rfl rfl (by simp) (by simp) (by simp)

theorem report_moves (found : s.tasks[id]? = some t) :
    Move s.limit id (.report id) (s.line id) ((s.taskStep id t (.report id)).line id) := by
  simp only [taskStep]
  split
  · rename_i removed
    have gone : ({ s with tasks := s.tasks.erase id } : TransportServer).line id =
        { s.line id with task := none } := by
      simp [line, received]
    have silent : [TransportEvent.disconnected id].filterMap (·.message? id) = [] := rfl
    rw [emit_line, gone, line_found found]
    simp only [silent, List.append_nil]
    exact .reports rfl removed _ _
  · exact idle_moves s id rfl rfl (by simp) (by simp) (by simp)

theorem push_moves {item : QueueItem} {table : ConnectionTable}
    (called : step.itemTo id = some item) (pushed : s.table.push id item = .ok table) :
    Move s.limit id step (s.line id) (({ s with table } : TransportServer).line id) := by
  unfold ConnectionTable.push at pushed
  split at pushed
  · contradiction
  · rename_i q listed
    obtain ⟨items, served⟩ := q
    split at pushed
    · rename_i open_queue
      obtain rfl : served = true := open_queue
      cases pushed
      rw [setQueue_line, line, listed]
      exact .queues called _ items _
    · contradiction

theorem push_refused {item : QueueItem} {e : TransportError}
    (called : step.itemTo id = some item) (refused : s.table.push id item = .error e) :
    Move s.limit id step (s.line id) (s.line id) := by
  refine .refuses called _ fun q there => ?_
  have listed : s.table.get? id = some q := there
  cases served : q.isServed with
  | false => rfl
  | true => simp [ConnectionTable.push, listed, served] at refused

theorem onTask_moves {step : ServerStep} (uncalled : step.itemTo id = none)
    (acts : ∀ t, s.tasks[id]? = some t →
      Move s.limit id step (s.line id) ((s.taskStep id t step).line id)) :
    Move s.limit id step (s.line id) ((s.onTask id step).line id) := by
  unfold onTask
  split
  · exact acts _ ‹_›
  · rename_i none
    have nobody (t : ConnectionTask) (there : (s.line id).task = some t) : False :=
      nomatch none.symm.trans there
    exact .rests _ (Or.inr none) uncalled (fun _ t _ there => (nobody t there).elim)
      (fun _ t there => (nobody t there).elim) fun _ t _ there => (nobody t there).elim

theorem other_moves (other : step.about ≠ some id) (new : s.gives step ≠ some id) :
    Move s.limit id step (s.line id) ((s.step step).1.line id) := by
  rw [step_line_other other new]
  refine .rests _ (Or.inl ?_) ?_ ?_ ?_ ?_
  · cases step with
    | input j i => exact if_neg fun same => other (congrArg some same.symm)
    | _ => rfl
  · cases step with
    | send j bytes => exact if_neg fun same => other (congrArg some same)
    | disconnect j => exact if_neg fun same => other (congrArg some same)
    | _ => rfl
  · rintro rfl
    exact (other rfl).elim
  · rintro rfl
    exact (other rfl).elim
  · rintro rfl
    exact (other rfl).elim

theorem step_moves (tcp : s.kind = .tcp) (step : ServerStep) (new : s.gives step ≠ some id) :
    Move s.limit id step (s.line id) ((s.step step).1.line id) := by
  by_cases own : step.about = some id
  · cases step with
    | accept remote => exact nomatch own
    | send j bytes =>
      cases own
      simp only [TransportServer.step]
      split
      · exact push_moves (if_pos rfl) ‹_›
      · exact push_refused (if_pos rfl) ‹_›
    | disconnect j =>
      cases own
      simp only [TransportServer.step]
      split
      · exact push_moves (if_pos rfl) ‹_›
      · exact push_refused (if_pos rfl) ‹_›
    | announce j =>
      cases own
      exact onTask_moves rfl fun _ => announce_moves
    | input j i =>
      cases own
      exact onTask_moves rfl fun _ found => input_moves found i
    | read j =>
      cases own
      exact onTask_moves rfl fun _ => read_moves tcp
    | write j =>
      cases own
      exact onTask_moves rfl fun _ => write_moves tcp
    | writeFails j =>
      cases own
      exact onTask_moves rfl fun _ => writeFails_moves tcp
    | remove j =>
      cases own
      exact onTask_moves rfl fun _ => remove_moves
    | report j =>
      cases own
      exact onTask_moves rfl fun _ => report_moves
  · exact other_moves own new

end TransportServer

end PeerRelay
