import PeerRelay.Fleet.Basic
import PeerRelay.Fleet.Sweep
import PeerRelay.Proofs.Collections

/-!
What a balancer learns in the course of its calls. A call is no more than the questions it asks and
the bookkeeping of the answers: the questions of a call, with their answers, are its transcript, and
the fleet after the call is the fleet before it with the transcript entered. A transcript tells on
whose behalf each question was asked, which the probe itself does not know.
-/
namespace PeerRelay

inductive FleetNote where
  | load (relay : RelayAddress) (answer : Except ProbeError NodeLoad)
  | rooms (relay : RelayAddress) (answer : Except ProbeError (List RoomListing))
  | added (relay : RelayAddress) (node : FleetNode)
  | listed (harvest : Harvest) (now : Nat)

inductive FleetCall where
  | register (relay : RelayAddress) (target : NodeTarget)
  | check
  | select (hint : Option Region)
  | aggregate

namespace FleetNote

def failed : FleetNote → Bool
  | .load _ (.error _) | .rooms _ (.error _) => true
  | _ => false

def gathered : Harvest → List FleetNote → Harvest
  | h, .rooms relay (.ok listings) :: rest => gathered (h.addAll relay listings) rest
  | h, _ :: rest => gathered h rest
  | h, [] => h

end FleetNote

variable {σ : Type}

namespace Probe

def LoadsFrom (probe : Probe σ) (loads : NodeTarget → Except ProbeError NodeLoad) : Prop :=
  ∀ target s, (probe.load target s).1 = loads target

def RoomsFrom (probe : Probe σ) (rooms : NodeTarget → Except ProbeError (List RoomListing)) :
    Prop :=
  ∀ target s, (probe.rooms target s).1 = rooms target

def askLoads (probe : Probe σ) (nodes : List (RelayAddress × NodeTarget)) :
    StateM σ (List FleetNote) :=
  nodes.mapM fun node => FleetNote.load node.1 <$> probe.load node.2

def askRooms (probe : Probe σ) (nodes : List (RelayAddress × NodeTarget)) :
    StateM σ (List FleetNote) :=
  nodes.mapM fun node => FleetNote.rooms node.1 <$> probe.rooms node.2

def askChosen (probe : Probe σ) (hint : Option Region) : Nat → Fleet → StateM σ (List FleetNote)
  | 0, _ => return []
  | tries + 1, f => do
    match Fleet.choose f.nodes hint with
    | none => return []
    | some (relay, node) =>
      match ← probe.load node.target with
      | .ok load => return [.load relay (.ok load)]
      | .error e =>
        let later ← askChosen probe hint tries (f.evict relay)
        return .load relay (.error e) :: later

end Probe

namespace Fleet

def learn (f : Fleet) : FleetNote → Fleet
  | .load relay (.ok load) => f.storeLoad relay load
  | .rooms _ (.ok _) => f
  | .load relay (.error _) | .rooms relay (.error _) => f.evict relay
  | .added relay node => { f with nodes := f.nodes.insert relay node }
  | .listed harvest now => f.commit harvest now

def learnAll (f : Fleet) (notes : List FleetNote) : Fleet := notes.foldl learn f

def serve (f : Fleet) (probe : Probe σ) (now : Nat) :
    FleetCall → StateM σ (Option RelayAddress × Fleet)
  | .register relay target => do
    let (_, f) ← f.register probe relay target
    return (none, f)
  | .check => do
    let (_, f) ← f.check probe now
    return (none, f)
  | .select hint => f.select probe hint
  | .aggregate => do
    let f ← f.aggregate probe now
    return (none, f)

def admission (relay : RelayAddress) (target : NodeTarget) :
    Except ProbeError NodeLoad → List FleetNote
  | .ok load => [.load relay (.ok load), .added relay ⟨target, load⟩]
  | .error e => [.load relay (.error e)]

def sweepTranscript (f : Fleet) (probe : Probe σ) (now : Nat) : StateM σ (List FleetNote) := do
  let notes ← probe.askRooms f.targets
  return notes ++ [.listed (FleetNote.gathered .empty notes) now]

def transcript (f : Fleet) (probe : Probe σ) (now : Nat) : FleetCall → StateM σ (List FleetNote)
  | .register relay target => do
    if f.isRegistered relay then return []
    else
      let answer ← probe.load target
      return admission relay target answer
  | .check => do
    let loads ← probe.askLoads f.targets
    if loads.countP FleetNote.failed = 0 then return loads
    else
      let sweep ← (f.learnAll loads).sweepTranscript probe now
      return loads ++ sweep
  | .select hint => if f.config.verifyOnJoin then probe.askChosen hint f.size f else return []
  | .aggregate => f.sweepTranscript probe now

@[simp] theorem learnAll_cons (f : Fleet) (note : FleetNote) (rest : List FleetNote) :
    f.learnAll (note :: rest) = (f.learn note).learnAll rest := rfl

@[simp] theorem learnAll_append (f : Fleet) (first later : List FleetNote) :
    f.learnAll (first ++ later) = (f.learnAll first).learnAll later :=
  List.foldl_append

/-! Every call is its transcript entered into the fleet. -/

theorem gather_eq (probe : Probe σ) (targets : List (RelayAddress × NodeTarget)) (h : Harvest)
    (f : Fleet) :
    gather probe targets h f =
      (fun notes => (FleetNote.gathered h notes, f.learnAll notes)) <$> probe.askRooms targets := by
  induction targets generalizing h f with
  | nil => simp [gather, Probe.askRooms, FleetNote.gathered, learnAll]
  | cons node rest ih =>
    unfold gather
    simp only [ih, Probe.askRooms, List.mapM_cons, map_bind, bind_map_left, map_pure,
      learnAll_cons]
    apply bind_congr
    intro answer
    cases answer <;> rfl

theorem aggregate_eq (f : Fleet) (probe : Probe σ) (now : Nat) :
    f.aggregate probe now = f.learnAll <$> f.sweepTranscript probe now := by
  simp only [aggregate, sweepTranscript, gather_eq, map_bind, bind_map_left, map_pure,
    learnAll_append]
  rfl

theorem refreshLoads_eq (probe : Probe σ) (targets : List (RelayAddress × NodeTarget))
    (f : Fleet) :
    refreshLoads probe targets f =
      (fun notes => (notes.countP FleetNote.failed, f.learnAll notes)) <$>
        probe.askLoads targets := by
  induction targets generalizing f with
  | nil => simp [refreshLoads, Probe.askLoads, learnAll]
  | cons node rest ih =>
    unfold refreshLoads
    simp only [Probe.askLoads, List.mapM_cons, map_bind, bind_map_left, map_pure, learnAll_cons,
      List.countP_cons]
    apply bind_congr
    intro answer
    cases answer with
    | ok load =>
      simp only [ih, Probe.askLoads, FleetNote.failed]
      rfl
    | error e =>
      simp only [ih, Probe.askLoads, FleetNote.failed, bind_map_left]
      rfl

theorem check_eq (f : Fleet) (probe : Probe σ) (now : Nat) :
    Prod.snd <$> f.check probe now = f.learnAll <$> f.transcript probe now .check := by
  simp only [check, transcript, refreshLoads_eq, map_bind, bind_map_left]
  apply bind_congr
  intro loads
  split
  · simp
  · simp only [map_bind, map_pure, learnAll_append, aggregate_eq, bind_map_left]

theorem selectVerified_eq (probe : Probe σ) (hint : Option Region) (tries : Nat) (f : Fleet) :
    Prod.snd <$> selectVerified probe hint tries f =
      f.learnAll <$> probe.askChosen hint tries f := by
  induction tries generalizing f with
  | zero => simp [selectVerified, Probe.askChosen, learnAll]
  | succ tries ih =>
    unfold selectVerified Probe.askChosen
    cases choose f.nodes hint with
    | none => simp [learnAll]
    | some chosen =>
      simp only [map_bind]
      apply bind_congr
      intro answer
      cases answer with
      | ok load => simp [learnAll, learn]
      | error e =>
        simp only [ih, map_bind, map_pure, learnAll_cons]
        rfl

theorem isRegistered_iff {f : Fleet} {relay : RelayAddress} :
    f.isRegistered relay = true ↔ ∃ node, f.nodes[relay]? = some node := by
  rw [isRegistered, Std.ExtTreeMap.contains_eq_isSome_getElem?, Option.isSome_iff_exists]

theorem unregistered_iff {f : Fleet} {relay : RelayAddress} :
    ¬ f.isRegistered relay = true ↔ f.nodes[relay]? = none := by
  rw [isRegistered, Std.ExtTreeMap.contains_eq_isSome_getElem?, Bool.not_eq_true,
    Option.isSome_eq_false_iff, Option.isNone_iff_eq_none]

theorem targets_addresses (f : Fleet) : f.targets.map Prod.fst = f.nodes.keys := by
  rw [targets, List.map_map, ← Std.ExtTreeMap.map_fst_toList_eq_keys]
  rfl

theorem register_eq (f : Fleet) (probe : Probe σ) (now : Nat) (relay : RelayAddress)
    (target : NodeTarget) :
    Prod.snd <$> f.register probe relay target =
      f.learnAll <$> f.transcript probe now (.register relay target) := by
  simp only [register, transcript]
  split
  · simp [learnAll]
  · rename_i unregistered
    have absent := unregistered_iff.mp unregistered
    simp only [map_bind]
    apply bind_congr
    intro answer
    cases answer with
    | ok load => simp [admission, learnAll, learn, storeLoad, absent]
    | error e => simp [admission, learnAll, learn, evict, Map.erase_absent absent]

theorem serve_eq (f : Fleet) (probe : Probe σ) (now : Nat) (call : FleetCall) :
    Prod.snd <$> f.serve probe now call = f.learnAll <$> f.transcript probe now call := by
  cases call with
  | register relay target =>
    rw [← register_eq]
    simp [serve]
  | check =>
    rw [← check_eq]
    simp [serve]
  | select hint =>
    simp only [serve, select, transcript]
    split
    · exact selectVerified_eq probe hint f.size f
    · simp [learnAll]
  | aggregate => simp [serve, transcript, ← aggregate_eq]

/-! Calls one after the other. What the nodes answer may depend on everything that went before. -/

def served (probe : Probe σ) (state : Fleet × σ) (now : Nat) (call : FleetCall) :
    (Option RelayAddress × Fleet) × σ :=
  Id.run ((state.1.serve probe now call).run state.2)

def noted (probe : Probe σ) (state : Fleet × σ) (now : Nat) (call : FleetCall) : List FleetNote :=
  (Id.run ((state.1.transcript probe now call).run state.2)).1

def next (probe : Probe σ) (state : Fleet × σ) (now : Nat) (call : FleetCall) : Fleet × σ :=
  ((served probe state now call).1.2, (served probe state now call).2)

def after (probe : Probe σ) (state : Fleet × σ) : List (Nat × FleetCall) → Fleet × σ
  | [] => state
  | (now, call) :: rest => after probe (next probe state now call) rest

def history (probe : Probe σ) (state : Fleet × σ) : List (Nat × FleetCall) → List FleetNote
  | [] => []
  | (now, call) :: rest =>
    noted probe state now call ++ history probe (next probe state now call) rest

theorem next_eq_learnAll (probe : Probe σ) (state : Fleet × σ) (now : Nat) (call : FleetCall) :
    (next probe state now call).1 = state.1.learnAll (noted probe state now call) := by
  have same := congrArg (fun m => (Id.run (m.run state.2)).1) (state.1.serve_eq probe now call)
  simpa [next, served, noted] using same

theorem after_eq_learnAll (probe : Probe σ) (state : Fleet × σ) (calls : List (Nat × FleetCall)) :
    (after probe state calls).1 = state.1.learnAll (history probe state calls) := by
  induction calls generalizing state with
  | nil => rfl
  | cons first rest ih => rw [after, ih, next_eq_learnAll, history, learnAll_append]

theorem after_append (probe : Probe σ) (state : Fleet × σ) (past more : List (Nat × FleetCall)) :
    after probe state (past ++ more) = after probe (after probe state past) more := by
  induction past generalizing state with
  | nil => rfl
  | cons first rest ih => exact ih (next probe state first.1 first.2)

end Fleet

end PeerRelay
