import PeerRelay.Proofs.Fleet.Transcript
import PeerRelay.Proofs.Collections

/-!
The registry of a balancer as a function of its history: who is registered, under which target and
with which load can be told from the notes alone. One note changes what is true of one node, and a
history is followed note by note.
-/
namespace PeerRelay

namespace FleetNote

/-- A probe on behalf of the node has failed. -/
def Fails (relay : RelayAddress) : FleetNote → Prop
  | .load r (.error _) | .rooms r (.error _) => r = relay
  | _ => False

def Adds : FleetNote → Prop
  | .added .. => True
  | _ => False

/-- Something was noted, and since the last time it was nothing of another kind. -/
def Since (what other : FleetNote → Prop) (notes : List FleetNote) : Prop :=
  ∃ before note after, notes = before ++ note :: after ∧ what note ∧ ∀ later ∈ after, ¬ other later

theorem since_nil {what other : FleetNote → Prop} : ¬ Since what other [] := by
  rintro ⟨before, note, after, shape, _⟩
  simp at shape

theorem since_concat {what other : FleetNote → Prop} {notes : List FleetNote} {last : FleetNote} :
    Since what other (notes ++ [last]) ↔ what last ∨ Since what other notes ∧ ¬ other last := by
  constructor
  · rintro ⟨before, note, after, shape, held, quiet⟩
    rcases concat_eq_split.mp shape with ⟨rfl, rfl, rfl⟩ | ⟨earlier, rfl, rfl⟩
    · exact Or.inl held
    · refine Or.inr ⟨⟨before, note, earlier, rfl, held, ?_⟩, quiet _ (by simp)⟩
      exact fun later mem => quiet later (by simp [mem])
  · rintro (now | ⟨⟨before, note, after, rfl, held, quiet⟩, silent⟩)
    · exact ⟨notes, last, [], rfl, now, by simp⟩
    · refine ⟨before, note, after ++ [last], by simp, held, ?_⟩
      intro later mem
      rcases List.mem_append.mp mem with early | final
      · exact quiet later early
      · exact List.mem_singleton.mp final ▸ silent

/-- The node was put in, and no probe on behalf of it has failed since. -/
def Standing (relay : RelayAddress) (node : FleetNode) : List FleetNote → Prop :=
  Since (· = .added relay node) (Fails relay)

/-- The latest load that the node reported. -/
def LastLoad (relay : RelayAddress) (load : NodeLoad) : List FleetNote → Prop :=
  Since (· = .load relay (.ok load)) fun note => ∃ other, note = .load relay (.ok other)

end FleetNote

namespace Fleet
open FleetNote

variable {σ : Type} {f : Fleet} {relay : RelayAddress} {node : FleetNode}
  {seen : List FleetNote} {nodes : NodeMap}

structure Told (notes : List FleetNote) (nodes : NodeMap) : Prop where
  registered_iff : ∀ {relay : RelayAddress},
    (∃ node, nodes[relay]? = some node) ↔ ∃ node, Standing relay node notes
  target : ∀ {relay : RelayAddress} {node added : FleetNode}, nodes[relay]? = some node →
    Standing relay added notes → node.target = added.target
  load : ∀ {relay : RelayAddress} {node : FleetNode}, nodes[relay]? = some node →
    LastLoad relay node.load notes

theorem start_told (config : FleetConfig) (dice : Dice) (now : Nat) :
    Told [] (start config dice now).nodes := by
  constructor
  case registered_iff =>
    intro relay
    simp [start, Standing, since_nil]
  case target =>
    intro relay node added found
    simp [start] at found
  case load =>
    intro relay node found
    simp [start] at found

theorem storeLoad_found {r : RelayAddress} {load : NodeLoad} :
    (f.storeLoad r load).nodes[relay]? = some node ↔
      ∃ old, f.nodes[relay]? = some old ∧ node = if r = relay then { old with load } else old := by
  unfold storeLoad
  cases here : f.nodes[r]? with
  | none =>
    constructor
    · intro found
      refine ⟨node, found, (if_neg ?_).symm⟩
      rintro rfl
      rw [here] at found
      contradiction
    · rintro ⟨old, found, rfl⟩
      rw [if_neg]
      · exact found
      · rintro rfl
        rw [here] at found
        contradiction
  | some entry =>
    show (f.nodes.insert r _)[relay]? = _ ↔ _
    rw [Map.found_insert_iff]
    constructor
    · rintro (⟨rfl, rfl⟩ | ⟨other, found⟩)
      · exact ⟨entry, here, by simp⟩
      · exact ⟨node, found, by simp [Ne.symm other]⟩
    · rintro ⟨old, found, rfl⟩
      by_cases same : r = relay
      · subst same
        exact Or.inl ⟨rfl, by simp [Map.found_unique here found]⟩
      · exact Or.inr ⟨Ne.symm same, by simpa [same] using found⟩

theorem evict_found {r : RelayAddress} :
    (f.evict r).nodes[relay]? = some node ↔ f.nodes[relay]? = some node ∧ r ≠ relay := by
  rw [evict, Map.found_erase_iff, and_comm, ne_comm]

def without (nodes : NodeMap) (failed : List RelayAddress) : NodeMap :=
  nodes.filter fun relay _ => relay ∉ failed

theorem without_found {failed : List RelayAddress} :
    (without nodes failed)[relay]? = some node ↔ nodes[relay]? = some node ∧ relay ∉ failed := by
  rw [without, Map.found_filter_iff, decide_eq_true_iff]

@[simp] theorem without_nil : without nodes [] = nodes := by
  apply Std.ExtTreeMap.ext_getElem?
  intro relay
  apply Option.ext
  intro node
  rw [without_found]
  exact and_iff_left List.not_mem_nil

@[simp] theorem without_cons (r : RelayAddress) (failed : List RelayAddress) :
    without nodes (r :: failed) = without (nodes.erase r) failed := by
  apply Std.ExtTreeMap.ext_getElem?
  intro relay
  apply Option.ext
  intro node
  rw [without_found, without_found, Map.found_erase_iff, List.mem_cons, not_or]
  exact and_assoc.symm.trans (and_congr_left fun _ => and_comm)

/-- What a node is after a probe was noted: it was there before, the probe did not fail it, and it
    has the load that it has just reported if it has. -/
theorem learn_found {note : FleetNote} (asked : ¬ note.Adds)
    (found : (f.learn note).nodes[relay]? = some node) :
    ∃ old, f.nodes[relay]? = some old ∧ ¬ note.Fails relay ∧ node.target = old.target ∧
      (note = .load relay (.ok node.load) ∨
        (∀ load, note ≠ .load relay (.ok load)) ∧ node.load = old.load) := by
  cases note with
  | load r answer =>
    cases answer with
    | ok load =>
      obtain ⟨old, before, rfl⟩ := storeLoad_found.mp found
      refine ⟨old, before, id, ?_⟩
      by_cases same : r = relay <;> simp [same]
    | error e =>
      obtain ⟨before, other⟩ := evict_found.mp found
      exact ⟨node, before, other, rfl, by simp⟩
  | rooms r answer =>
    cases answer with
    | ok listings => exact ⟨node, found, id, rfl, by simp⟩
    | error e =>
      obtain ⟨before, other⟩ := evict_found.mp found
      exact ⟨node, before, other, rfl, by simp⟩
  | added r added => exact (asked trivial).elim
  | listed harvest now => exact ⟨node, found, id, rfl, by simp⟩

theorem learn_keeps {note : FleetNote} (asked : ¬ note.Adds) (before : f.nodes[relay]? = some node)
    (fine : ¬ note.Fails relay) : ∃ new, (f.learn note).nodes[relay]? = some new := by
  cases note with
  | load r answer =>
    cases answer with
    | ok load => exact ⟨_, storeLoad_found.mpr ⟨node, before, rfl⟩⟩
    | error e => exact ⟨node, evict_found.mpr ⟨before, fine⟩⟩
  | rooms r answer =>
    cases answer with
    | ok listings => exact ⟨node, before⟩
    | error e => exact ⟨node, evict_found.mpr ⟨before, fine⟩⟩
  | added r added => exact (asked trivial).elim
  | listed harvest now => exact ⟨node, before⟩

theorem standing_probe {note : FleetNote} (asked : ¬ note.Adds) :
    Standing relay node (seen ++ [note]) ↔ Standing relay node seen ∧ ¬ note.Fails relay := by
  unfold Standing
  rw [since_concat]
  constructor
  · rintro (rfl | kept)
    · exact (asked trivial).elim
    · exact kept
  · exact Or.inr

theorem Told.probe (h : Told seen f.nodes) {note : FleetNote} (asked : ¬ note.Adds) :
    Told (seen ++ [note]) (f.learn note).nodes := by
  constructor
  case registered_iff =>
    intro relay
    simp only [standing_probe asked]
    constructor
    · rintro ⟨node, found⟩
      obtain ⟨old, before, fine, _⟩ := learn_found asked found
      obtain ⟨added, standing⟩ := h.registered_iff.mp ⟨old, before⟩
      exact ⟨added, standing, fine⟩
    · rintro ⟨added, standing, fine⟩
      obtain ⟨old, before⟩ := h.registered_iff.mpr ⟨added, standing⟩
      exact learn_keeps asked before fine
  case target =>
    intro relay node added found standing
    obtain ⟨old, before, _, target, _⟩ := learn_found asked found
    exact target.trans (h.target before ((standing_probe asked).mp standing).1)
  case load =>
    intro relay node found
    obtain ⟨old, before, _, _, now | ⟨silent, load⟩⟩ := learn_found asked found
    · exact since_concat.mpr (Or.inl now)
    · refine since_concat.mpr (Or.inr ⟨load ▸ h.load before, ?_⟩)
      rintro ⟨other, same⟩
      exact silent other same

theorem Told.probes {notes : List FleetNote} (h : Told seen f.nodes)
    (asked : ∀ note ∈ notes, ¬ note.Adds) : Told (seen ++ notes) (f.learnAll notes).nodes := by
  induction notes generalizing f seen with
  | nil => simpa [learnAll] using h
  | cons note rest ih =>
    have first := h.probe (asked note (by simp))
    have later := ih first fun other mem => asked other (by simp [mem])
    rwa [List.append_assoc, List.singleton_append] at later

theorem Told.admit (h : Told seen f.nodes) (absent : f.nodes[relay]? = none)
    (target : NodeTarget) (load : NodeLoad) :
    Told (seen ++ [.load relay (.ok load), .added relay ⟨target, load⟩])
      (f.nodes.insert relay ⟨target, load⟩) := by
  have outside : ∀ added, ¬ Standing relay added seen := by
    intro added standing
    obtain ⟨node, found⟩ := h.registered_iff.mpr ⟨added, standing⟩
    rw [absent] at found
    contradiction
  have standing_iff : ∀ {other : RelayAddress} {added : FleetNode},
      Standing other added (seen ++ [.load relay (.ok load), .added relay ⟨target, load⟩]) ↔
        (relay = other ∧ ⟨target, load⟩ = added) ∨ Standing other added seen := by
    intro other added
    rw [List.append_cons, Standing, since_concat, since_concat]
    simp [Fails]
  constructor
  case registered_iff =>
    intro other
    simp only [Map.found_insert_iff, standing_iff]
    constructor
    · rintro ⟨node, ⟨rfl, rfl⟩ | ⟨_, found⟩⟩
      · exact ⟨_, Or.inl ⟨rfl, rfl⟩⟩
      · obtain ⟨added, standing⟩ := h.registered_iff.mp ⟨node, found⟩
        exact ⟨added, Or.inr standing⟩
    · rintro ⟨added, ⟨rfl, rfl⟩ | standing⟩
      · exact ⟨_, Or.inl ⟨rfl, rfl⟩⟩
      · obtain ⟨node, found⟩ := h.registered_iff.mpr ⟨added, standing⟩
        refine ⟨node, Or.inr ⟨?_, found⟩⟩
        rintro rfl
        exact outside added standing
  case target =>
    intro other node added found standing
    rcases Map.found_insert_iff.mp found with ⟨rfl, rfl⟩ | ⟨elsewhere, found⟩
    · rcases standing_iff.mp standing with ⟨_, rfl⟩ | standing
      · rfl
      · exact (outside added standing).elim
    · rcases standing_iff.mp standing with ⟨same, _⟩ | standing
      · exact (elsewhere same.symm).elim
      · exact h.target found standing
  case load =>
    intro other node found
    rw [List.append_cons, LastLoad, since_concat, since_concat]
    rcases Map.found_insert_iff.mp found with ⟨rfl, rfl⟩ | ⟨elsewhere, found⟩
    · simp
    · exact Or.inr ⟨Or.inr ⟨h.load found, by simp [Ne.symm elsewhere]⟩, by simp⟩

/-! The notes of a call -/

/-- Whatever the nodes answer, a computation comes to something good. -/
def Yields {α : Type} (m : StateM σ α) (good : α → Prop) : Prop :=
  ∀ s, good (Id.run (m.run s)).1

namespace Yields
variable {α β : Type}

protected theorem bind {m : StateM σ α} {next : α → StateM σ β} {fair : α → Prop} {good : β → Prop}
    (first : Yields m fair) (later : ∀ a, fair a → Yields (next a) good) :
    Yields (m >>= next) good :=
  fun s => later _ (first s) (Id.run (m.run s)).2

protected theorem pure {a : α} {good : α → Prop} (holds : good a) :
    Yields (pure a : StateM σ α) good :=
  fun _ => holds

theorem anything (m : StateM σ α) : Yields m fun _ => True := fun _ => trivial

theorem mapM {items : List α} {ask : α → StateM σ β} {good : β → Prop}
    (each : ∀ a, Yields (ask a) good) : Yields (items.mapM ask) fun bs => ∀ b ∈ bs, good b := by
  induction items with
  | nil => exact Yields.pure (by simp)
  | cons a rest ih =>
    rw [List.mapM_cons]
    refine (each a).bind fun b holds => ih.bind fun bs others => Yields.pure ?_
    exact List.forall_mem_cons.mpr ⟨holds, others⟩

theorem mapM_map {γ : Type} {items : List α} {ask : α → StateM σ β} {known : β → γ}
    {expected : α → γ} (each : ∀ a, Yields (ask a) fun b => known b = expected a) :
    Yields (items.mapM ask) fun bs => bs.map known = items.map expected := by
  induction items with
  | nil => exact Yields.pure rfl
  | cons a rest ih =>
    rw [List.mapM_cons]
    refine (each a).bind fun b same => ih.bind fun bs others => Yields.pure ?_
    rw [List.map_cons, List.map_cons, same, others]

end Yields

theorem bind_of_run {α β : Type} {m : StateM σ α} {next : α → StateM σ β} {a : α} {s t : σ}
    (ran : m s = (a, t)) : (m >>= next) s = next a t := by
  show next (m s).1 (m s).2 = _
  rw [ran]

theorem askLoads_all (good : FleetNote → Prop) (each : ∀ relay answer, good (.load relay answer))
    (probe : Probe σ) (targets : List (RelayAddress × NodeTarget)) :
    Yields (probe.askLoads targets) fun notes => ∀ note ∈ notes, good note :=
  Yields.mapM fun node =>
    (Yields.anything (probe.load node.2)).bind fun answer _ => Yields.pure (each node.1 answer)

theorem askRooms_all (good : FleetNote → Prop) (each : ∀ relay answer, good (.rooms relay answer))
    (probe : Probe σ) (targets : List (RelayAddress × NodeTarget)) :
    Yields (probe.askRooms targets) fun notes => ∀ note ∈ notes, good note :=
  Yields.mapM fun node =>
    (Yields.anything (probe.rooms node.2)).bind fun answer _ => Yields.pure (each node.1 answer)

theorem askChosen_all (good : FleetNote → Prop) (each : ∀ relay answer, good (.load relay answer))
    (probe : Probe σ) (hint : Option Region) (tries : Nat) (f : Fleet) :
    Yields (probe.askChosen hint tries f) fun notes => ∀ note ∈ notes, good note := by
  induction tries generalizing f with
  | zero => exact Yields.pure (by simp)
  | succ tries ih =>
    unfold Probe.askChosen
    cases choose f.nodes hint with
    | none => exact Yields.pure (by simp)
    | some chosen =>
      refine (Yields.anything (probe.load chosen.2.target)).bind fun answer _ => ?_
      cases answer with
      | ok load => exact Yields.pure (List.forall_mem_singleton.mpr (each _ _))
      | error e =>
        refine (ih (f.evict chosen.1)).bind fun later others => Yields.pure ?_
        exact List.forall_mem_cons.mpr ⟨each _ _, others⟩

def Quiet (notes : List FleetNote) : Prop := ∀ note ∈ notes, ¬ note.Adds

theorem sweepTranscript_quiet (f : Fleet) (probe : Probe σ) (now : Nat) :
    Yields (f.sweepTranscript probe now) Quiet := by
  have answers := askRooms_all (¬ ·.Adds) (fun _ _ => id) probe f.targets
  refine answers.bind fun notes quiet => Yields.pure ?_
  exact List.forall_mem_append.mpr ⟨quiet, by simp [FleetNote.Adds]⟩

theorem transcript_quiet (f : Fleet) (probe : Probe σ) (now : Nat) {call : FleetCall}
    (other : ∀ relay target, call ≠ .register relay target) :
    Yields (f.transcript probe now call) Quiet := by
  cases call with
  | register relay target => exact (other relay target rfl).elim
  | check =>
    refine (askLoads_all (¬ ·.Adds) (fun _ _ => id) probe f.targets).bind fun loads quiet => ?_
    split
    · exact Yields.pure quiet
    · refine (sweepTranscript_quiet _ probe now).bind fun sweep after => Yields.pure ?_
      exact List.forall_mem_append.mpr ⟨quiet, after⟩
  | select hint =>
    simp only [transcript]
    split
    · exact askChosen_all (¬ ·.Adds) (fun _ _ => id) probe hint f.size f
    · exact Yields.pure (by simp [Quiet])
  | aggregate => exact sweepTranscript_quiet f probe now

/-- The three ways of a registration: it is there already, it does not answer, it is put in. -/
theorem register_notes (f : Fleet) (probe : Probe σ) (now : Nat) (relay : RelayAddress)
    (target : NodeTarget) :
    Yields (f.transcript probe now (.register relay target)) fun notes =>
      notes = [] ∨ f.nodes[relay]? = none ∧ ∃ answer, notes = admission relay target answer := by
  simp only [transcript]
  split
  · exact Yields.pure (Or.inl rfl)
  · rename_i unregistered
    refine (Yields.anything (probe.load target)).bind fun answer _ => Yields.pure ?_
    exact Or.inr ⟨unregistered_iff.mp unregistered, answer, rfl⟩

/-- What is noted tells the registry at any moment of a call, also between its answers. -/
theorem transcript_take_told (h : Told seen f.nodes) (probe : Probe σ) (now : Nat)
    (call : FleetCall) (answered : Nat) :
    Yields (f.transcript probe now call) fun notes =>
      Told (seen ++ notes.take answered) (f.learnAll (notes.take answered)).nodes := by
  intro s
  by_cases registration : ∃ relay target, call = .register relay target
  · obtain ⟨relay, target, rfl⟩ := registration
    rcases f.register_notes probe now relay target s with none | ⟨absent, answer, notes⟩
    · rw [none]
      simpa [learnAll] using h
    · rw [notes]
      cases answer with
      | ok load =>
        -- before the answer, between the answer and the admission, after both
        rcases answered with _ | _ | answered
        · simpa [learnAll] using h
        · exact h.probes (List.forall_mem_singleton.mpr id)
        · have admitted := h.admit absent target load
          simpa [admission, learnAll, learn, storeLoad, absent] using admitted
      | error e =>
        refine h.probes fun note mem => ?_
        obtain rfl := List.mem_singleton.mp (List.mem_of_mem_take mem)
        exact id
  · refine h.probes fun note mem => ?_
    refine f.transcript_quiet probe now ?_ s note (List.mem_of_mem_take mem)
    exact fun relay target same => registration ⟨relay, target, same⟩

theorem history_take_told (h : Told seen f.nodes) (probe : Probe σ) (s : σ)
    (calls : List (Nat × FleetCall)) (answered : Nat) :
    Told (seen ++ (history probe (f, s) calls).take answered)
      (f.learnAll ((history probe (f, s) calls).take answered)).nodes := by
  induction calls generalizing f s seen answered with
  | nil => simpa [history, learnAll] using h
  | cons first rest ih =>
    obtain ⟨now, call⟩ := first
    have told (k : Nat) : Told (seen ++ (noted probe (f, s) now call).take k)
        (f.learnAll ((noted probe (f, s) now call).take k)).nodes :=
      f.transcript_take_told h probe now call k s
    rw [history, List.take_append, learnAll_append, ← List.append_assoc]
    by_cases within : answered ≤ (noted probe (f, s) now call).length
    · rw [Nat.sub_eq_zero_of_le within, List.take_zero, List.append_nil]
      exact told answered
    · have whole := told (noted probe (f, s) now call).length
      have next_nodes := next_eq_learnAll probe (f, s) now call
      rw [List.take_length, ← next_nodes] at whole
      rw [List.take_of_length_le (Nat.le_of_not_le within), ← next_nodes]
      exact ih whole _ _

theorem history_told (h : Told seen f.nodes) (probe : Probe σ) (s : σ)
    (calls : List (Nat × FleetCall)) :
    Told (seen ++ history probe (f, s) calls) (after probe (f, s) calls).1.nodes := by
  have whole := history_take_told h probe s calls (history probe (f, s) calls).length
  rw [List.take_length] at whole
  rwa [after_eq_learnAll]

theorem transcript_adds (f : Fleet) (probe : Probe σ) (now : Nat) (call : FleetCall) :
    Yields (f.transcript probe now call) fun notes =>
      ∀ relay node, .added relay node ∈ notes → call = .register relay node.target := by
  intro s relay node noted
  by_cases registration : ∃ r target, call = .register r target
  · obtain ⟨r, target, rfl⟩ := registration
    rcases f.register_notes probe now r target s with none | ⟨_, answer, notes⟩
    · rw [none] at noted
      cases noted
    · rw [notes] at noted
      cases answer <;> simp_all [admission]
  · have quiet := f.transcript_quiet probe now
      (fun r target same => registration ⟨r, target, same⟩) s
    exact (quiet _ noted trivial).elim

theorem history_added {probe : Probe σ} {state : Fleet × σ} {calls : List (Nat × FleetCall)}
    (noted : .added relay node ∈ history probe state calls) :
    ∃ now, (now, FleetCall.register relay node.target) ∈ calls := by
  induction calls generalizing state with
  | nil => cases noted
  | cons first rest ih =>
    obtain ⟨now, call⟩ := first
    rcases List.mem_append.mp noted with here | later
    · have same := state.1.transcript_adds probe now call state.2 relay node here
      exact ⟨now, same ▸ List.mem_cons_self⟩
    · obtain ⟨time, mem⟩ := ih later
      exact ⟨time, List.mem_cons_of_mem _ mem⟩

/-! Handing out nodes -/

theorem leastLoaded_mem {entries : List (RelayAddress × FleetNode)}
    {entry : RelayAddress × FleetNode} (found : leastLoaded entries = some entry) :
    entry ∈ entries := by
  cases entries with
  | nil => cases found
  | cons first rest =>
    obtain rfl := Option.some.inj found
    induction rest generalizing first with
    | nil => simp
    | cons n rest ih =>
      rw [List.foldl_cons]
      split
      · exact List.mem_cons_of_mem _ (ih n rfl)
      · rcases List.mem_cons.mp (ih first rfl) with best | later
        · rw [best]
          exact List.mem_cons_self
        · exact List.mem_cons_of_mem _ (List.mem_cons_of_mem _ later)

theorem choose_found {hint : Option Region} (chosen : choose nodes hint = some (relay, node)) :
    nodes[relay]? = some node := by
  have member : (relay, node) ∈ nodes.toList := by
    unfold choose at chosen
    rcases Option.or_eq_some_iff.mp chosen with near | ⟨_, anywhere⟩
    · obtain ⟨region, _, near⟩ := Option.bind_eq_some_iff.mp near
      exact (List.mem_filter.mp (leastLoaded_mem near)).1
    · exact leastLoaded_mem anywhere
  exact Std.ExtTreeMap.mem_toList_iff_getElem?_eq_some.mp member

theorem selectVerified_registered (probe : Probe σ) (hint : Option Region) (tries : Nat)
    (f : Fleet) :
    Yields (selectVerified probe hint tries f) fun out =>
      ∀ relay, out.1 = some relay → out.2.isRegistered relay = true := by
  induction tries generalizing f with
  | zero => exact Yields.pure (by simp)
  | succ tries ih =>
    unfold selectVerified
    cases chosen : choose f.nodes hint with
    | none => exact Yields.pure (by simp)
    | some entry =>
      obtain ⟨relay, node⟩ := entry
      refine (Yields.anything (probe.load node.target)).bind fun answer _ => ?_
      cases answer with
      | ok load =>
        refine Yields.pure fun handed same => ?_
        cases same
        exact isRegistered_iff.mpr ⟨_, storeLoad_found.mpr ⟨node, choose_found chosen, rfl⟩⟩
      | error e => exact ih (f.evict relay)

theorem select_registered (f : Fleet) (probe : Probe σ) (hint : Option Region) :
    Yields (f.select probe hint) fun out =>
      ∀ relay, out.1 = some relay → out.2.isRegistered relay = true := by
  unfold select
  split
  · exact selectVerified_registered probe hint f.size f
  · refine Yields.pure ?_
    intro relay handed
    obtain ⟨⟨r, node⟩, chosen, rfl⟩ := Option.map_eq_some_iff.mp handed
    exact isRegistered_iff.mpr ⟨node, choose_found chosen⟩

/-- Over any course of calls and answers, a node is registered exactly if a call has put it in and
    no probe on behalf of it has failed since; it has the target of that call and the load it
    reported last; to register it again changes nothing; and who is handed out is registered. -/
theorem registry_follows_history (config : FleetConfig) (dice : Dice) (started : Nat)
    (probe : Probe σ) (s : σ) (calls : List (Nat × FleetCall)) :
    let fresh := (start config dice started, s)
    let state := after probe fresh calls
    let notes := history probe fresh calls
    (∀ relay, state.1.isRegistered relay = true ↔ ∃ node, Standing relay node notes) ∧
      (∀ relay node, .added relay node ∈ notes →
        ∃ now, (now, FleetCall.register relay node.target) ∈ calls) ∧
      (∀ relay node, state.1.nodes[relay]? = some node → LastLoad relay node.load notes ∧
        ∀ added, Standing relay added notes → node.target = added.target) ∧
      (∀ now relay target, state.1.isRegistered relay = true →
        next probe state now (.register relay target) = state) ∧
      (∀ now hint relay, (served probe state now (.select hint)).1.1 = some relay →
        (served probe state now (.select hint)).1.2.isRegistered relay = true ∧
          ∃ node, Standing relay node (history probe fresh (calls ++ [(now, .select hint)]))) := by
  intro fresh state notes
  have told : ∀ calls, Told (history probe fresh calls) (after probe fresh calls).1.nodes := by
    intro calls
    have whole := history_told (start_told config dice started) probe s calls
    rwa [List.nil_append] at whole
  refine ⟨?_, ?_, ?_, ?_, ?_⟩
  · intro relay
    rw [isRegistered_iff]
    exact (told calls).registered_iff
  · exact fun relay node noted => history_added noted
  · exact fun relay node found => ⟨(told calls).load found, fun added => (told calls).target found⟩
  · intro now relay target registered
    simp [next, served, serve, register, registered]
  · intro now hint relay handed
    have registered := state.1.select_registered probe hint state.2 relay handed
    refine ⟨registered, ?_⟩
    rw [← (told _).registered_iff, ← isRegistered_iff, after_append]
    exact registered

end Fleet

end PeerRelay
