import PeerRelay.Transport.Basic

/-! A transport at work. Every accepted connection has a task, which puts it on the table, reports
    it, then reads what the peer sends and writes what is queued for it, until one of the two ends.
    Then it takes the connection off the table and, last of all, reports that it is gone. The tasks
    of all connections put their events into one queue. -/
namespace PeerRelay
open Wire (Bytes)

inductive PeerInput where
  | bytes (chunk : Bytes)
  | binary (payload : Bytes)
  | text (content : String)
  | ping (payload : Bytes)
  | pong (payload : Bytes)
  | finish
  deriving DecidableEq, Repr

inductive PeerOutput where
  | bytes (chunk : Bytes)
  | binary (payload : Bytes)
  | pong (payload : Bytes)
  | closed
  deriving DecidableEq, Repr

inductive TaskPhase where
  /-- On the table; the connection has not been reported. -/
  | registered (remote : Net.SocketAddress)
  | serving
  /-- Reading or writing has ended; the connection is still on the table. -/
  | ending
  /-- Off the table; the end has not been reported. -/
  | removed
  deriving DecidableEq, Repr

structure ConnectionTask where
  phase : TaskPhase
  inbox : List PeerInput := []
  unread : Bytes := []
  written : List PeerOutput := []
  deriving DecidableEq, Repr

/-- What a task makes of an input: messages to report, answers to the peer, and whether reading
    has ended. -/
structure Reading where
  task : ConnectionTask
  messages : List Bytes := []
  ended : Bool := false
  deriving DecidableEq, Repr

namespace ConnectionTask

def write (t : ConnectionTask) (output : PeerOutput) : ConnectionTask :=
  { t with written := t.written ++ [output] }

def readChunk (t : ConnectionTask) (limit : Nat) (chunk : Bytes) : Reading :=
  let d := Framing.drain limit (t.unread ++ chunk)
  { task := { t with unread := d.unread }, messages := d.messages, ended := d.stopped }

def readMessage (t : ConnectionTask) (limit size : Nat) (read : Reading) : Reading :=
  if limit < size then { task := t, ended := true } else read

def read (t : ConnectionTask) (limit : Nat) : PeerInput → Reading
  | .bytes chunk => t.readChunk limit chunk
  | .binary payload =>
    t.readMessage limit payload.length { task := t, messages := [payload] }
  | .text content =>
    let bytes := content.toUTF8.toList
    t.readMessage limit bytes.length { task := t, messages := [bytes] }
  | .ping payload => t.readMessage limit payload.length { task := t.write (.pong payload) }
  | .pong payload => t.readMessage limit payload.length { task := t }
  | .finish => { task := t, ended := true }

def writeItem (t : ConnectionTask) (kind : TransportKind) : QueueItem → ConnectionTask
  | .frame bytes =>
    match kind with
    | .tcp => t.write (.bytes (Framing.frame bytes))
    | .webSocket => t.write (.binary bytes)
  | .close => t.write .closed

end ConnectionTask

structure TransportServer where
  kind : TransportKind
  limit : Nat
  table : ConnectionTable
  tasks : ConnectionMap ConnectionTask
  events : List TransportEvent

inductive ServerStep where
  | accept (remote : Net.SocketAddress)
  | announce (id : ConnectionId)
  | input (id : ConnectionId) (i : PeerInput)
  | read (id : ConnectionId)
  | write (id : ConnectionId)
  | writeFails (id : ConnectionId)
  | remove (id : ConnectionId)
  | report (id : ConnectionId)
  | send (id : ConnectionId) (bytes : Bytes)
  | disconnect (id : ConnectionId)
  deriving DecidableEq, Repr

namespace TransportServer

def start (kind : TransportKind) (limit : Nat) : TransportServer := ⟨kind, limit, .empty, ∅, []⟩

def setTask (s : TransportServer) (id : ConnectionId) (t : ConnectionTask) : TransportServer :=
  { s with tasks := s.tasks.insert id t }

def emit (s : TransportServer) (events : List TransportEvent) : TransportServer :=
  { s with events := s.events ++ events }

def accept (s : TransportServer) (remote : Net.SocketAddress) : TransportServer :=
  let (id, table) := s.table.register
  { s with table }.setTask id { phase := .registered remote }

/-- A task that ends takes nothing out of its queue any more. On a stream of bytes, what is put
    into it from now on is refused. -/
def endTask (s : TransportServer) (id : ConnectionId) (t : ConnectionTask) : TransportServer :=
  let s := s.setTask id { t with phase := .ending }
  match s.kind, s.table.get? id with
  | .tcp, some q => { s with table := s.table.setQueue id { q with isServed := false } }
  | _, _ => s

def receive (s : TransportServer) (id : ConnectionId) (t : ConnectionTask) (i : PeerInput) :
    TransportServer :=
  let r := t.read s.limit i
  let s := s.emit (r.messages.map fun m => .data id m .reliable)
  if r.ended then s.endTask id r.task else s.setTask id r.task

def writeNext (s : TransportServer) (id : ConnectionId) (t : ConnectionTask) : TransportServer :=
  match s.table.get? id with
  | some { items := item :: rest, isServed := served } =>
    let s := { s with table := s.table.setQueue id ⟨rest, served⟩ }
    let t := t.writeItem s.kind item
    if item = .close then s.endTask id t else s.setTask id t
  | _ => s

/-- The steps of a task, which need the task in a certain phase, and what comes from its peer. -/
def taskStep (s : TransportServer) (id : ConnectionId) (t : ConnectionTask) :
    ServerStep → TransportServer
  | .announce _ =>
    match t.phase with
    | .registered remote => (s.setTask id { t with phase := .serving }).emit [.connected id remote]
    | _ => s
  | .input _ i => s.setTask id { t with inbox := t.inbox ++ [i] }
  | .read _ =>
    match t.phase, t.inbox with
    | .serving, i :: inbox => s.receive id { t with inbox } i
    | _, _ => s
  | .write _ => if t.phase = .serving then s.writeNext id t else s
  | .writeFails _ => if t.phase = .serving then s.endTask id t else s
  | .remove _ =>
    if t.phase = .ending then
      { s with table := s.table.remove id }.setTask id { t with phase := .removed }
    else s
  | .report _ =>
    if t.phase = .removed then
      { s with tasks := s.tasks.erase id }.emit [.disconnected id]
    else s
  | _ => s

def onTask (s : TransportServer) (id : ConnectionId) (step : ServerStep) : TransportServer :=
  match s.tasks[id]? with
  | some t => s.taskStep id t step
  | none => s

/-- One step, and how a call of `send` or `disconnect` went. -/
def step (s : TransportServer) (action : ServerStep) :
    TransportServer × Except TransportError Unit :=
  let queued (r : Except TransportError ConnectionTable) :=
    match r with
    | .ok table => ({ s with table }, .ok ())
    | .error e => (s, .error e)
  match action with
  | .accept remote => (s.accept remote, .ok ())
  | .announce id | .input id _ | .read id | .write id | .writeFails id | .remove id | .report id =>
    (s.onTask id action, .ok ())
  | .send id bytes => queued (s.table.send id bytes)
  | .disconnect id => queued (s.table.close id)

def run (s : TransportServer) (steps : List ServerStep) : TransportServer :=
  steps.foldl (fun s a => (s.step a).1) s

end TransportServer

end PeerRelay
