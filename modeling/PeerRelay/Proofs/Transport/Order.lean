import PeerRelay.Proofs.Transport.Task

/-!
The events of one connection, whatever the other connections and the relay do meanwhile. First it is
reported, then what its peer sends in the order of sending, and last its end; from then on nothing
more, and the relay is told that there is no such connection.
-/
namespace PeerRelay
open Wire (Bytes)
open PeerInput

namespace TransportServer

variable {s s' : TransportServer} {id j : ConnectionId} {remote : Net.SocketAddress}
  {inputs : List PeerInput} {data : List Bytes} {step : ServerStep} {t? : Option ConnectionTask}
  {t : ConnectionTask} {news : List TransportEvent}

def eventsOf (s : TransportServer) (id : ConnectionId) : List TransportEvent :=
  s.events.filter (·.id = id)

def inputsTo (id : ConnectionId) (steps : List ServerStep) : List PeerInput :=
  steps.filterMap (·.inputTo id)

@[simp] theorem inputsTo_cons (id : ConnectionId) (step : ServerStep) (rest : List ServerStep) :
    inputsTo id (step :: rest) = (step.inputTo id).toList ++ inputsTo id rest := by
  cases brought : step.inputTo id <;> simp [inputsTo, brought]

/-- What is reported of a connection whose task is in a given phase, or is over. -/
def history (id : ConnectionId) (remote : Net.SocketAddress) (data : List Bytes) :
    Option TaskPhase → List TransportEvent
  | some (.registered _) => []
  | some _ => .connected id remote :: data.map fun message => .data id message .reliable
  | none =>
    .connected id remote :: data.map (fun message => .data id message .reliable) ++
      [.disconnected id]

/-- The task has read all that has come but for what is in its inbox, and these messages were what
    it read. -/
def Hears (s : TransportServer) (inputs : List PeerInput) (data : List Bytes)
    (t : ConnectionTask) : Prop :=
  ∃ heard, inputs = heard ++ t.inbox ∧ Heard s.limit heard data t.unread s.kind

inductive Standing (s : TransportServer) (id : ConnectionId) (remote : Net.SocketAddress)
    (inputs : List PeerInput) (data : List Bytes) : Option ConnectionTask → Prop
  | registered (t : ConnectionTask) : t.phase = .registered remote → data = [] →
      s.Hears inputs data t → Standing s id remote inputs data (some t)
  | serving (t : ConnectionTask) : t.phase = .serving → s.Hears inputs data t →
      Standing s id remote inputs data (some t)
  | ending (t : ConnectionTask) : t.phase = .ending → Standing s id remote inputs data (some t)
  | removed (t : ConnectionTask) : t.phase = .removed → s.table.get? id = none →
      Standing s id remote inputs data (some t)
  | finished : s.table.get? id = none → Standing s id remote inputs data none

/-- These messages of the peer have been reported between the first event of a connection and its
    last one. -/
structure Course (s : TransportServer) (id : ConnectionId) (remote : Net.SocketAddress)
    (inputs : List PeerInput) (data : List Bytes) : Prop where
  events : s.eventsOf id = history id remote data (s.tasks[id]?.map (·.phase))
  sent : data <+: sent inputs s.kind
  standing : s.Standing id remote inputs data s.tasks[id]?

theorem Acts.eventsOf (acts : Acts s s' j t? news) : s'.eventsOf j = s.eventsOf j ++ news := by
  have all : news.filter (·.id = j) = news :=
    List.filter_eq_self.mpr fun e member => decide_eq_true (acts.own e member)
  rw [TransportServer.eventsOf, acts.events, List.filter_append, all]
  rfl

theorem Acts.eventsOf_other (acts : Acts s s' j t? news) (other : id ≠ j) :
    s'.eventsOf id = s.eventsOf id := by
  have none : news.filter (·.id = id) = [] :=
    List.filter_eq_nil_iff.mpr fun e member => by simp [acts.own e member, Ne.symm other]
  rw [TransportServer.eventsOf, acts.events, List.filter_append, none, List.append_nil]
  rfl

theorem Standing.kept (standing : Standing s id remote inputs data t?)
    (kind : s'.kind = s.kind) (limit : s'.limit = s.limit)
    (absent : s.table.get? id = none → s'.table.get? id = none) :
    Standing s' id remote inputs data t? := by
  have hears {t : ConnectionTask} (h : s.Hears inputs data t) : s'.Hears inputs data t := by
    unfold Hears at h ⊢
    rwa [kind, limit]
  cases standing with
  | registered t phase nothing h => exact .registered t phase nothing (hears h)
  | serving t phase h => exact .serving t phase (hears h)
  | ending t phase => exact .ending t phase
  | removed t phase gone => exact .removed t phase (absent gone)
  | finished gone => exact .finished (absent gone)

theorem Course.kept (course : Course s id remote inputs data)
    (task : s'.tasks[id]? = s.tasks[id]?) (events : s'.eventsOf id = s.eventsOf id)
    (kind : s'.kind = s.kind) (limit : s'.limit = s.limit)
    (absent : s.table.get? id = none → s'.table.get? id = none) :
    Course s' id remote inputs data where
  events := by rw [events, task, course.events]
  sent := kind ▸ course.sent
  standing := task ▸ course.standing.kept kind limit absent

theorem history_serving (more : List Bytes) {now later : TaskPhase} (serving : now = .serving)
    (next : later = .serving ∨ later = .ending) :
    history id remote data (some now) ++ more.map (fun message => .data id message .reliable) =
      history id remote (data ++ more) (some later) := by
  subst serving
  rcases next with rfl | rfl <;> simp [history]

theorem Hears.gets (h : s.Hears inputs data t) (i : PeerInput) :
    s.Hears (inputs ++ [i]) data { t with inbox := t.inbox ++ [i] } := by
  obtain ⟨heard, all, known⟩ := h
  exact ⟨heard, by rw [all, List.append_assoc], known⟩

theorem Hears.reads {i : PeerInput} {inbox : List PeerInput} (h : s.Hears inputs data t)
    (first : t.inbox = i :: inbox) (fits : ∀ i ∈ inputs, i.Fits s.kind) :
    data ++ (({ t with inbox } : ConnectionTask).read s.limit i).messages <+: sent inputs s.kind ∧
      ((({ t with inbox } : ConnectionTask).read s.limit i).ended = false →
        s.Hears inputs (data ++ (({ t with inbox } : ConnectionTask).read s.limit i).messages)
          (({ t with inbox } : ConnectionTask).read s.limit i).task) := by
  obtain ⟨heard, all, known⟩ := h
  have cut : inputs = (heard ++ [i]) ++ inbox := by rw [all, first, List.append_assoc]; rfl
  obtain ⟨early, going⟩ := ConnectionTask.read_heard (t := { t with inbox })
    (fits i (by simp [cut])) known
  refine ⟨early.trans (cut ▸ sent_append _ _ _), fun more => ⟨heard ++ [i], ?_, going more⟩⟩
  rw [ConnectionTask.read_inbox]
  exact cut

theorem Course.goes_on {next : List PeerInput} {known : List Bytes}
    (course : Course s id remote inputs data) (found : s.tasks[id]? = some t)
    (acts : Acts s s' id t? news)
    (told : history id remote data (some t.phase) ++ news =
      history id remote known (t?.map (·.phase)))
    (sent : known <+: PeerInput.sent next s.kind) (standing : Standing s' id remote next known t?) :
    Course s' id remote next known where
  events := by
    have before := course.events
    rw [found] at before
    rw [acts.eventsOf, before, acts.tasks, if_pos rfl]
    exact told
  sent := acts.kind ▸ sent
  standing := by rwa [acts.tasks, if_pos rfl]

theorem Course.found_standing (course : Course s id remote inputs data)
    (found : s.tasks[id]? = some t) (acts : Acts s s' id t? news) :
    Standing s' id remote inputs data (some t) :=
  (found ▸ course.standing).kept acts.kind acts.limit (acts.absent id)

theorem Course.hears (course : Course s id remote inputs data) (found : s.tasks[id]? = some t)
    (serving : t.phase = .serving) : s.Hears inputs data t := by
  cases found ▸ course.standing with
  | serving t phase h => exact h
  | _ => simp_all

theorem Course.gets {i : PeerInput} (course : Course s id remote inputs data)
    (found : s.tasks[id]? = some t)
    (acts : Acts s s' id (some { t with inbox := t.inbox ++ [i] }) []) :
    Course s' id remote (inputs ++ [i]) data := by
  refine course.goes_on found acts (List.append_nil _) (course.sent.trans (sent_append _ _ _)) ?_
  cases course.found_standing found acts with
  | registered t phase nothing h => exact .registered _ phase nothing (h.gets i)
  | serving t phase h => exact .serving _ phase (h.gets i)
  | ending t phase => exact .ending _ phase
  | removed t phase gone => exact .removed _ phase gone

theorem Course.announces {r : Net.SocketAddress} (course : Course s id remote inputs data)
    (found : s.tasks[id]? = some t) (waiting : t.phase = .registered r)
    (acts : Acts s s' id (some { t with phase := .serving }) [.connected id r]) :
    Course s' id remote inputs data := by
  cases course.found_standing found acts with
  | registered t phase nothing h =>
    obtain rfl : remote = r := TaskPhase.registered.inj (phase.symm.trans waiting)
    refine course.goes_on found acts ?_ course.sent (.serving _ rfl h)
    rw [phase, nothing]
    rfl
  | _ => simp_all

theorem Course.reads {i : PeerInput} {inbox : List PeerInput}
    (course : Course s id remote inputs data) (fits : ∀ i ∈ inputs, i.Fits s.kind)
    (found : s.tasks[id]? = some t) (serving : t.phase = .serving) (first : t.inbox = i :: inbox)
    (acts : Acts s s' id (some (({ t with inbox } : ConnectionTask).heard s.limit i))
      ((({ t with inbox } : ConnectionTask).read s.limit i).messages.map fun m =>
        .data id m .reliable)) :
    Course s' id remote inputs
      (data ++ (({ t with inbox } : ConnectionTask).read s.limit i).messages) := by
  obtain ⟨early, going⟩ := (course.hears found serving).reads first fits
  have stays := (ConnectionTask.read_phase { t with inbox } s.limit i).trans serving
  by_cases ended : (({ t with inbox } : ConnectionTask).read s.limit i).ended = true
  · have last : ({ t with inbox } : ConnectionTask).heard s.limit i = _ := if_pos ended
    rw [last] at acts
    refine course.goes_on found acts ?_ early (.ending _ rfl)
    exact history_serving _ serving (Or.inr rfl)
  · have next : ({ t with inbox } : ConnectionTask).heard s.limit i = _ := if_neg ended
    rw [next] at acts
    refine course.goes_on found acts ?_ early (.serving _ stays ?_)
    · exact history_serving _ serving (Or.inl stays)
    · unfold Hears
      rw [acts.kind, acts.limit]
      exact going (eq_false_of_ne_true ended)

theorem Course.writes {phase : TaskPhase} {written : List PeerOutput}
    (course : Course s id remote inputs data) (found : s.tasks[id]? = some t)
    (next : phase = t.phase ∨ (t.phase = .serving ∧ phase = .ending))
    (acts : Acts s s' id (some { t with phase, written }) []) :
    Course s' id remote inputs data := by
  rcases next with rfl | ⟨serving, rfl⟩
  · refine course.goes_on found acts (List.append_nil _) course.sent ?_
    cases course.found_standing found acts with
    | registered t phase nothing h => exact .registered _ phase nothing h
    | serving t phase h => exact .serving _ phase h
    | ending t phase => exact .ending _ phase
    | removed t phase gone => exact .removed _ phase gone
  · refine course.goes_on found acts ?_ course.sent (.ending _ rfl)
    rw [serving, List.append_nil]
    rfl

theorem Course.leaves (course : Course s id remote inputs data) (found : s.tasks[id]? = some t)
    (ending : t.phase = .ending) (acts : Acts s s' id (some { t with phase := .removed }) [])
    (gone : s'.table.get? id = none) : Course s' id remote inputs data := by
  refine course.goes_on found acts ?_ course.sent (.removed _ rfl gone)
  rw [ending, List.append_nil]
  rfl

theorem Course.reports (course : Course s id remote inputs data) (found : s.tasks[id]? = some t)
    (removed : t.phase = .removed) (acts : Acts s s' id none [.disconnected id]) :
    Course s' id remote inputs data := by
  cases course.found_standing found acts with
  | removed t phase gone =>
    refine course.goes_on found acts ?_ course.sent (.finished gone)
    rw [removed]
    rfl
  | _ => simp_all

theorem Turn.course {input? : Option PeerInput} (turn : Turn s.limit id t input? t? news)
    (course : Course s id remote inputs data) (fits : ∀ i ∈ inputs, i.Fits s.kind)
    (found : s.tasks[id]? = some t) (acts : Acts s s' id t? news)
    (gone : t.phase = .ending → t?.map (·.phase) = some .removed → s'.table.get? id = none) :
    ∃ known, Course s' id remote (inputs ++ input?.toList) known := by
  have quiet : inputs ++ (none : Option PeerInput).toList = inputs := List.append_nil _
  cases turn with
  | gets i => exact ⟨_, course.gets found acts⟩
  | announces r waiting =>
    rw [quiet]
    exact ⟨_, course.announces found waiting acts⟩
  | reads i inbox serving first =>
    rw [quiet]
    exact ⟨_, course.reads fits found serving first acts⟩
  | writes phase written next =>
    rw [quiet]
    exact ⟨_, course.writes found next acts⟩
  | leaves ending =>
    rw [quiet]
    exact ⟨_, course.leaves found ending acts (gone ending rfl)⟩
  | reports removed =>
    rw [quiet]
    exact ⟨_, course.reports found removed acts⟩

theorem accept_found (s : TransportServer) (remote : Net.SocketAddress) (id : ConnectionId) :
    (s.accept remote).tasks[id]? =
      if id = s.table.register.1 then some { phase := .registered remote } else s.tasks[id]? :=
  (setTask_acts _ _ _).tasks id

theorem accept_absent (remote : Net.SocketAddress) (other : id ≠ s.table.register.1)
    (absent : s.table.get? id = none) : (s.accept remote).table.get? id = none := by
  show (s.table.queues.insert s.table.register.1 {})[id]? = none
  rw [Map.lookup_insert, if_neg other]
  exact absent

theorem Happens.kind (happens : Happens s step s') : s'.kind = s.kind := by
  cases happens with
  | accepts remote => rfl
  | turns _ j t input? t? news _ gives found brings turn acts gone => exact acts.kind
  | rests _ _ gives quiet acts => exact (acts default).kind

theorem Happens.limit (happens : Happens s step s') : s'.limit = s.limit := by
  cases happens with
  | accepts remote => rfl
  | turns _ j t input? t? news _ gives found brings turn acts gone => exact acts.limit
  | rests _ _ gives quiet acts => exact (acts default).limit

theorem Course.closed (course : Course s id remote inputs data) (finished : s.tasks[id]? = none)
    (next : List PeerInput) : Course s id remote (inputs ++ next) data where
  events := course.events
  sent := course.sent.trans (sent_append _ _ _)
  standing := by
    have standing := course.standing
    rw [finished] at standing ⊢
    cases standing with
    | finished gone => exact .finished gone

/-- Every step carries the course of a connection on, unless its id is given out again. -/
theorem Happens.course (happens : Happens s step s') (course : Course s id remote inputs data)
    (fits : ∀ i ∈ inputs, i.Fits s.kind)
    (other : ∀ r, step = .accept r → id ≠ s.table.register.1) :
    ∃ known, Course s' id remote (inputs ++ (step.inputTo id).toList) known := by
  have quiet : inputs ++ (none : Option PeerInput).toList = inputs := List.append_nil _
  cases happens with
  | accepts r =>
    have different := other r rfl
    rw [show (ServerStep.accept r).inputTo id = none from rfl, quiet]
    exact ⟨data, course.kept (by rw [accept_found, if_neg different]) rfl rfl rfl
      (accept_absent r different)⟩
  | turns _ j t input? t? news _ gives found brings turn acts gone =>
    rw [brings id]
    by_cases own : id = j
    · subst own
      rw [if_pos rfl]
      exact turn.course course fits found acts gone
    · rw [if_neg own, quiet]
      exact ⟨data, course.kept (by rw [acts.tasks, if_neg own]) (acts.eventsOf_other own) acts.kind
        acts.limit (acts.absent id)⟩
  | rests _ _ gives brings acts =>
    have kept : Course s' id remote inputs data :=
      course.kept (by rw [(acts id).tasks, if_pos rfl])
        ((acts id).eventsOf.trans (List.append_nil _)) (acts id).kind (acts id).limit
        ((acts id).absent id)
    cases found : s.tasks[id]? with
    | none => exact ⟨data, kept.closed (by rw [(acts id).tasks, if_pos rfl, found]) _⟩
    | some t =>
      rw [brings id t found, quiet]
      exact ⟨data, kept⟩

theorem mem_inputsTo {i : PeerInput} {steps : List ServerStep} (member : i ∈ inputsTo id steps) :
    .input id i ∈ steps := by
  obtain ⟨step, there, brought⟩ := List.mem_filterMap.mp member
  cases step with
  | input j k =>
    obtain ⟨rfl, rfl⟩ : id = j ∧ k = i := by simpa [ServerStep.inputTo] using brought
    exact there
  | _ => simp [ServerStep.inputTo] at brought

theorem run_append (s : TransportServer) (first second : List ServerStep) :
    s.run (first ++ second) = (s.run first).run second :=
  List.foldl_append

@[simp] theorem run_kind (s : TransportServer) (steps : List ServerStep) :
    (s.run steps).kind = s.kind := by
  induction steps generalizing s with
  | nil => rfl
  | cons step rest ih => exact (ih (s.step step).1).trans (step_happens s step).kind

@[simp] theorem run_limit (s : TransportServer) (steps : List ServerStep) :
    (s.run steps).limit = s.limit := by
  induction steps generalizing s with
  | nil => rfl
  | cons step rest ih => exact (ih (s.step step).1).trans (step_happens s step).limit

def idsGiven (s : TransportServer) : List ServerStep → List ConnectionId
  | [] => []
  | step :: rest => (s.gives step).toList ++ (s.step step).1.idsGiven rest

theorem idsGiven_append (s : TransportServer) (first second : List ServerStep) :
    s.idsGiven (first ++ second) = s.idsGiven first ++ (s.run first).idsGiven second := by
  induction first generalizing s with
  | nil => rfl
  | cons step rest ih =>
    rw [List.cons_append, idsGiven, idsGiven, ih, List.append_assoc]
    rfl

theorem run_course (s : TransportServer) (steps : List ServerStep)
    (course : Course s id remote inputs data)
    (fits : ∀ i ∈ inputs ++ inputsTo id steps, i.Fits s.kind) (unique : id ∉ s.idsGiven steps) :
    ∃ known, Course (s.run steps) id remote (inputs ++ inputsTo id steps) known := by
  -- what has come so far and what is known of it grow with every step
  induction steps generalizing s inputs data with
  | nil => exact ⟨data, by simpa [inputsTo, run] using course⟩
  | cons step rest ih =>
    have happens := step_happens s step
    rw [inputsTo_cons, ← List.append_assoc] at fits ⊢
    obtain ⟨known, next⟩ := happens.course course
      (fun i member => fits i (by simp [member])) (by
        rintro r rfl rfl
        exact unique (List.mem_append_left _ (List.mem_singleton_self _)))
    exact ih (s.step step).1 next (happens.kind ▸ fits) fun later =>
      unique (List.mem_append_right _ later)

structure Numbered (s : TransportServer) (ids : List ConnectionId) : Prop where
  tasks : ∀ id t, s.tasks[id]? = some t → id ∈ ids
  events : ∀ e ∈ s.events, e.id ∈ ids

theorem Happens.numbered {ids : List ConnectionId} (happens : Happens s step s')
    (numbered : Numbered s ids) : Numbered s' (ids ++ (s.gives step).toList) := by
  obtain ⟨tasks, events⟩ := numbered
  cases happens with
  | accepts r =>
    refine ⟨fun id t found => ?_, fun e member => List.mem_append_left _ (events e member)⟩
    rw [accept_found] at found
    split at found
    · rename_i same
      exact List.mem_append_right _ (same ▸ List.mem_singleton_self _)
    · exact List.mem_append_left _ (tasks id t found)
  | turns _ j t input? t? news _ gives found brings turn acts gone =>
    have old := tasks j t found
    refine ⟨fun id u there => List.mem_append_left _ ?_, fun e member => List.mem_append_left _ ?_⟩
    · rw [acts.tasks] at there
      split at there
      · rename_i same
        exact same ▸ old
      · exact tasks id u there
    · rw [acts.events] at member
      rcases List.mem_append.mp member with before | now
      · exact events e before
      · exact acts.own e now ▸ old
  | rests _ _ gives brings acts =>
    refine ⟨fun id u there => List.mem_append_left _ ?_, fun e member => List.mem_append_left _ ?_⟩
    · rw [(acts id).tasks, if_pos rfl] at there
      exact tasks id u there
    · rw [(acts e.id).events, List.append_nil] at member
      exact events e member

theorem run_numbered (s : TransportServer) {ids : List ConnectionId} (steps : List ServerStep)
    (numbered : Numbered s ids) : Numbered (s.run steps) (ids ++ s.idsGiven steps) := by
  induction steps generalizing s ids with
  | nil => simpa [idsGiven, run] using numbered
  | cons step rest ih =>
    rw [idsGiven, ← List.append_assoc]
    exact ih (s.step step).1 ((step_happens s step).numbered numbered)

theorem start_numbered (kind : TransportKind) (limit : Nat) : Numbered (start kind limit) [] :=
  ⟨fun id t found => by simp [start] at found, fun e member => by simp [start] at member⟩

theorem accept_unique {kind : TransportKind} {limit : Nat} {before after : List ServerStep}
    (distinct : ((start kind limit).idsGiven (before ++ .accept remote :: after)).Nodup) :
    let s := (start kind limit).run before
    Numbered s ((start kind limit).idsGiven before) ∧
      s.table.register.1 ∉ (start kind limit).idsGiven before ∧
      s.table.register.1 ∉ (s.accept remote).idsGiven after := by
  rw [idsGiven_append] at distinct
  obtain ⟨-, rest, apart⟩ := List.nodup_append.mp distinct
  refine ⟨run_numbered _ before (start_numbered kind limit), fun member => ?_, ?_⟩
  · exact apart _ member _ List.mem_cons_self rfl
  · exact (List.nodup_cons.mp rest).1

theorem accept_course {ids : List ConnectionId} (numbered : Numbered s ids)
    (new : s.table.register.1 ∉ ids) (remote : Net.SocketAddress) :
    Course (s.accept remote) s.table.register.1 remote [] [] where
  events := by
    have none : s.eventsOf s.table.register.1 = [] :=
      List.filter_eq_nil_iff.mpr fun e member same =>
        new (of_decide_eq_true same ▸ numbered.events e member)
    rw [accept_found, if_pos rfl]
    exact none
  sent := List.nil_prefix
  standing := by
    rw [accept_found, if_pos rfl]
    exact .registered _ rfl rfl ⟨[], rfl, heard_nothing s.limit s.kind⟩

theorem Course.unknown (course : Course s id remote inputs data)
    (reported : .disconnected id ∈ s.events) (bytes : Bytes) :
    (s.step (.send id bytes)).2 = .error (.unknownConnection id) ∧
      (s.step (.disconnect id)).2 = .error (.unknownConnection id) := by
  have here : .disconnected id ∈ s.eventsOf id :=
    List.mem_filter.mpr ⟨reported, decide_eq_true rfl⟩
  have absent : s.table.get? id = none := by
    rw [course.events] at here
    have standing := course.standing
    cases found : s.tasks[id]? with
    | none =>
      rw [found] at standing
      cases standing with
      | finished gone => exact gone
    | some t =>
      rw [found] at here
      cases phase : t.phase <;> simp [history, phase] at here
  constructor <;>
    simp [step, ConnectionTable.send, ConnectionTable.close, ConnectionTable.push, absent]

theorem Happens.nextIndex (happens : Happens s step s') :
    s'.table.nextIndex = s.table.nextIndex + Int32.ofNat (s.gives step).toList.length := by
  cases happens with
  | accepts r => rfl
  | turns _ j t input? t? news _ gives found brings turn acts gone =>
    rw [gives, acts.nextIndex]
    exact (Int32.add_zero _).symm
  | rests _ _ gives brings acts =>
    rw [gives, (acts default).nextIndex]
    exact (Int32.add_zero _).symm

/-- Ids are given out by counting. -/
theorem idsGiven_eq (s : TransportServer) (steps : List ServerStep) :
    s.idsGiven steps = (List.range (s.idsGiven steps).length).map fun n =>
      ⟨s.table.nextIndex + Int32.ofNat n⟩ := by
  induction steps generalizing s with
  | nil => rfl
  | cons step rest ih =>
    have counted := (step_happens s step).nextIndex
    have later := ih (s.step step).1
    rw [idsGiven]
    cases given : s.gives step with
    | none =>
      rw [given] at counted
      have same : (s.step step).1.table.nextIndex = s.table.nextIndex :=
        counted.trans (Int32.add_zero _)
      rwa [same] at later
    | some id =>
      have first : id = ⟨s.table.nextIndex⟩ := by
        cases step with
        | accept r => exact (Option.some.inj given).symm
        | _ => simp [gives] at given
      rw [given] at counted
      have next (n : Nat) : (s.step step).1.table.nextIndex + Int32.ofNat n =
          s.table.nextIndex + Int32.ofNat (n + 1) := by
        rw [counted, Int32.add_assoc, ← Int32.ofNat_add, Nat.add_comm]
        rfl
      simp only [next] at later
      rw [first, Option.toList_some, List.singleton_append, List.length_cons,
        List.range_succ_eq_map, List.map_cons, List.map_map]
      refine List.cons_eq_cons.mpr ⟨?_, later⟩
      exact congrArg ConnectionId.mk (Int32.add_zero _).symm

theorem ids_distinct (kind : TransportKind) (limit : Nat) (steps : List ServerStep)
    (few : ((start kind limit).idsGiven steps).length ≤ 4294967296) :
    ((start kind limit).idsGiven steps).Nodup := by
  rw [idsGiven_eq]
  refine List.pairwise_map.mpr (List.nodup_range.imp_of_mem fun {a b} ha hb other same => other ?_)
  have numbers : Int32.ofNat a = Int32.ofNat b := by simpa using same
  have bits : a % 4294967296 = b % 4294967296 := by
    simpa using congrArg (·.toBitVec.toNat) numbers
  rw [List.mem_range] at ha hb
  omega

/-- As long as no id is given out twice, all events are of accepted connections, and each of these
    is first reported, then comes a prefix of what its peer sends, in order, which is all that was
    read while its task serves, and when its task is over its end is reported, after which nothing
    can be sent to it and it cannot be closed. -/
theorem connection_events_in_order (kind : TransportKind) (limit : Nat) (steps : List ServerStep)
    (distinct : ((start kind limit).idsGiven steps).Nodup)
    (fits : ∀ id i, .input id i ∈ steps → i.Fits kind) :
    let s := (start kind limit).run steps
    (∀ e ∈ s.events, e.id ∈ (start kind limit).idsGiven steps) ∧
      ∀ before remote after, steps = before ++ .accept remote :: after →
        let id := ((start kind limit).run before).table.register.1
        (∃ data, s.eventsOf id = history id remote data (s.tasks[id]?.map (·.phase)) ∧
          data <+: sent (inputsTo id after) kind ∧
          (∀ messages, Sends (inputsTo id after) messages kind → data <+: messages) ∧
          ∀ t, s.tasks[id]? = some t → t.phase = .serving → s.Hears (inputsTo id after) data t) ∧
        (.disconnected id ∈ s.events → ∀ bytes,
          (s.step (.send id bytes)).2 = .error (.unknownConnection id) ∧
            (s.step (.disconnect id)).2 = .error (.unknownConnection id)) := by
  intro s
  have all : Numbered s ([] ++ (start kind limit).idsGiven steps) :=
    run_numbered _ steps (start_numbered kind limit)
  refine ⟨all.events, fun before remote after cut => ?_⟩
  intro id
  rw [cut] at distinct
  obtain ⟨early, new, unique⟩ := accept_unique distinct
  have same_kind : (((start kind limit).run before).accept remote).kind = kind :=
    run_kind (start kind limit) before
  obtain ⟨data, course⟩ := run_course _ after (accept_course early new remote)
    (fun i member => by
      rw [same_kind]
      refine fits id i (cut ▸ List.mem_append_right _ ?_)
      exact List.mem_cons_of_mem _ (mem_inputsTo member)) unique
  have final : (((start kind limit).run before).accept remote).run after = s := by
    show _ = (start kind limit).run steps
    rw [cut, run_append]
    rfl
  rw [final] at course
  have heard : data <+: sent (inputsTo id after) kind := by
    have before := course.sent
    rwa [show s.kind = kind from run_kind (start kind limit) steps] at before
  exact ⟨⟨data, course.events, heard, fun messages sends => heard.trans (sent_begins sends),
    fun t found serving => course.hears found serving⟩, course.unknown⟩

def twoPeers : List ServerStep :=
  [.accept (.v4 10 0 0 1 40000), .accept (.v4 10 0 0 2 40000), .announce ⟨2⟩, .announce ⟨1⟩,
   .input ⟨1⟩ (.bytes [0, 0, 0]), .read ⟨1⟩, .input ⟨2⟩ (.bytes [0, 0, 0, 0]),
   .input ⟨1⟩ (.bytes [1, 7]), .read ⟨1⟩, .read ⟨2⟩, .input ⟨1⟩ .finish, .read ⟨1⟩, .remove ⟨1⟩,
   .report ⟨1⟩]

theorem two_peers_in_order :
    let s := (start .tcp 64).run twoPeers
    s.events.length = 5 ∧
      s.eventsOf ⟨1⟩ =
        [.connected ⟨1⟩ (.v4 10 0 0 1 40000), .data ⟨1⟩ [7] .reliable, .disconnected ⟨1⟩] ∧
      (∃ data, s.eventsOf ⟨1⟩ =
        history ⟨1⟩ (.v4 10 0 0 1 40000) data (s.tasks[(⟨1⟩ : ConnectionId)]?.map (·.phase))) ∧
      (s.step (.send ⟨1⟩ [9])).2 = .error (.unknownConnection ⟨1⟩) := by
  have streams : ∀ id i, .input id i ∈ twoPeers → i.Fits .tcp := by
    intro id i member
    simp only [twoPeers, List.mem_cons, List.not_mem_nil, ServerStep.input.injEq, reduceCtorEq,
      false_or, or_false] at member
    rcases member with ⟨-, rfl⟩ | ⟨-, rfl⟩ | ⟨-, rfl⟩ | ⟨-, rfl⟩ <;> trivial
  obtain ⟨-, ordered⟩ := connection_events_in_order .tcp 64 twoPeers
    (ids_distinct _ _ _ (by decide)) streams
  obtain ⟨⟨data, told, -⟩, unknown⟩ := ordered [] _ _ rfl
  exact ⟨by decide +kernel, by decide +kernel, ⟨data, told⟩, (unknown (by decide +kernel) [9]).1⟩

end TransportServer

end PeerRelay
