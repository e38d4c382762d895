import PeerRelay.Proofs.Fleet.Harvest
import PeerRelay.Proofs.Fleet.Registry

/-!
What a sweep for rooms makes of the answers. The lists are those of the answers one after the other,
in the order of the addresses, without the ids that came before; and the nodes that failed are gone.
So nodes that always answer the same are listed alike by a second sweep, and whichever came first.
-/
namespace PeerRelay

variable {σ : Type}

abbrev RoomAnswer := RelayAddress × Except ProbeError (List RoomListing)

def Probe.askEach (probe : Probe σ) (targets : List (RelayAddress × NodeTarget)) :
    StateM σ (List RoomAnswer) :=
  targets.mapM fun n => Prod.mk n.1 <$> probe.rooms n.2

namespace Fleet
open ListedRoom

def listedIn (answers : List RoomAnswer) : List ListedRoom :=
  answers.flatMap fun a =>
    match a.2 with
    | .ok listings => listings.map fun listing => ⟨a.1, listing⟩
    | .error _ => []

def failedIn (answers : List RoomAnswer) : List RelayAddress :=
  (answers.filter fun a => !a.2.isOk).map Prod.fst

def swept (f : Fleet) (answers : List RoomAnswer) (now : Nat) : Fleet :=
  { f with nodes := without f.nodes (failedIn answers) }.commit
    (Harvest.empty.file (listedIn answers)) now

variable {f g : Fleet} {relay : RelayAddress} {node : FleetNode} {region : Region}
  {targets : List (RelayAddress × NodeTarget)} {answers rest : List RoomAnswer}

@[simp] theorem listedIn_ok {listings : List RoomListing} :
    listedIn ((relay, .ok listings) :: rest) =
      (listings.map fun listing => ⟨relay, listing⟩) ++ listedIn rest := rfl

@[simp] theorem listedIn_error {e : ProbeError} :
    listedIn ((relay, .error e) :: rest) = listedIn rest :=
  rfl

@[simp] theorem failedIn_ok {listings : List RoomListing} :
    failedIn ((relay, .ok listings) :: rest) = failedIn rest := rfl

@[simp] theorem failedIn_error {e : ProbeError} :
    failedIn ((relay, .error e) :: rest) = relay :: failedIn rest := rfl

theorem mem_failedIn : relay ∈ failedIn answers ↔ ∃ e, (relay, .error e) ∈ answers := by
  rw [failedIn, List.mem_map]
  constructor
  · rintro ⟨⟨r, answer⟩, failed, rfl⟩
    obtain ⟨member, down⟩ := List.mem_filter.mp failed
    cases answer with
    | ok listings => exact Bool.noConfusion down
    | error e => exact ⟨e, member⟩
  · rintro ⟨e, member⟩
    exact ⟨(relay, .error e), List.mem_filter.mpr ⟨member, rfl⟩, rfl⟩

theorem gather_answers (probe : Probe σ) (targets : List (RelayAddress × NodeTarget)) (h : Harvest)
    (f : Fleet) :
    gather probe targets h f =
      (fun answers =>
        (h.file (listedIn answers), { f with nodes := without f.nodes (failedIn answers) })) <$>
          probe.askEach targets := by
  induction targets generalizing h f with
  | nil => simp [gather, Probe.askEach, listedIn, failedIn, Harvest.file]
  | cons n rest ih =>
    unfold gather
    simp only [ih, Probe.askEach, List.mapM_cons, map_bind, bind_map_left, map_pure]
    apply bind_congr
    intro answer
    cases answer with
    | ok listings =>
      simp only [listedIn_ok, failedIn_ok, absorb, Harvest.addAll_eq_file, Harvest.file_append]
      rfl
    | error e =>
      simp only [listedIn_error, failedIn_error, absorb, without_cons]
      rfl

/-- A sweep asks every node once, in the order of the addresses, and enters the answers. -/
theorem aggregate_answers (f : Fleet) (probe : Probe σ) (now : Nat) :
    f.aggregate probe now = (f.swept · now) <$> probe.askEach f.targets := by
  simp only [aggregate, gather_answers, bind_map_left]
  rfl

theorem askEach_addresses (probe : Probe σ) (targets : List (RelayAddress × NodeTarget)) :
    Yields (probe.askEach targets) fun answers => answers.map Prod.fst = targets.map Prod.fst :=
  Yields.mapM_map fun _ _ => rfl

/-! The lists -/

theorem swept_bucket (f : Fleet) (now : Nat) (region : Region) :
    (f.swept answers now).index.bucket region =
      (firsts (listedIn answers)).filter (Harvest.Files ·.node region) :=
  Harvest.file_empty_bucket (listedIn answers) region

theorem swept_bucket_any (f : Fleet) (now : Nat) :
    (f.swept answers now).index.bucket .any = firsts (listedIn answers) := by
  rw [swept_bucket, List.filter_eq_self]
  exact fun room _ => decide_eq_true (Or.inl rfl)

theorem swept_bucket_region (f : Fleet) (now : Nat) (specific : region ≠ .any) :
    (f.swept answers now).index.bucket region =
      ((f.swept answers now).index.bucket .any).filter (·.node.region = region) := by
  rw [swept_bucket_any, swept_bucket]
  refine List.filter_congr fun room _ => decide_eq_decide.mpr ?_
  exact (or_iff_right specific).trans eq_comm

theorem swept_ids (f : Fleet) (now : Nat) {id : String} :
    (f.swept answers now).index.ids.contains id = true ↔
      ∃ room ∈ (f.swept answers now).index.bucket .any, room.id = id := by
  have filed : (f.swept answers now).index.ids.contains id = true ↔
      ∃ room ∈ listedIn answers, room.id = id := Harvest.file_empty_ids
  rw [filed, swept_bucket_any]
  refine ⟨firsts_complete, ?_⟩
  rintro ⟨room, first, same⟩
  exact ⟨room, (firsts_sublist _).subset first, same⟩

theorem swept_roomList {others : List RoomAnswer} (same : listedIn answers = listedIn others)
    (now later : Nat) :
    (f.swept answers now).roomList region = (g.swept others later).roomList region := by
  rw [roomList, roomList, swept_bucket, swept_bucket, same]

/-! Nodes that always answer the same -/

def answersOf (rooms : NodeTarget → Except ProbeError (List RoomListing))
    (targets : List (RelayAddress × NodeTarget)) : List RoomAnswer :=
  targets.map fun n => (n.1, rooms n.2)

variable {probe : Probe σ} {rooms : NodeTarget → Except ProbeError (List RoomListing)}
  {loads : NodeTarget → Except ProbeError NodeLoad}

theorem askEach_steady (steady : probe.RoomsFrom rooms)
    (targets : List (RelayAddress × NodeTarget)) :
    Yields (probe.askEach targets) (· = answersOf rooms targets) := by
  have each (n : RelayAddress × NodeTarget) :
      Yields (Prod.mk n.1 <$> probe.rooms n.2) fun answer => id answer = (n.1, rooms n.2) :=
    fun s => congrArg (Prod.mk n.1) (steady n.2 s)
  intro s
  exact (List.map_id _).symm.trans (Yields.mapM_map each s)

theorem aggregate_steady (steady : probe.RoomsFrom rooms) (f : Fleet) (now : Nat) :
    Yields (f.aggregate probe now) (· = f.swept (answersOf rooms f.targets) now) := by
  intro s
  have answered := askEach_steady steady f.targets s
  rw [aggregate_answers]
  exact congrArg (f.swept · now) answered

theorem listedIn_answered :
    listedIn (answersOf rooms (targets.filter fun n => (rooms n.2).isOk)) =
      listedIn (answersOf rooms targets) := by
  induction targets with
  | nil => rfl
  | cons n rest ih =>
    rw [List.filter_cons]
    cases answer : rooms n.2 with
    | ok listings =>
      rw [if_pos (by rfl), answersOf, answersOf, List.map_cons, List.map_cons, answer,
        listedIn_ok, listedIn_ok]
      exact congrArg _ ih
    | error e =>
      rw [if_neg (by exact Bool.false_ne_true), ih, answersOf, answersOf, List.map_cons, answer,
        listedIn_error]

theorem failedIn_answered :
    failedIn (answersOf rooms (targets.filter fun n => (rooms n.2).isOk)) = [] := by
  rw [failedIn, List.map_eq_nil_iff, List.filter_eq_nil_iff]
  intro a member
  obtain ⟨n, answered, rfl⟩ := List.mem_map.mp member
  simp [(List.mem_filter.mp answered).2]

theorem mem_targets {n : RelayAddress × NodeTarget} :
    n ∈ f.targets ↔ ∃ node, f.nodes[n.1]? = some node ∧ node.target = n.2 := by
  rw [Fleet.targets, List.mem_map]
  constructor
  · rintro ⟨entry, listed, rfl⟩
    exact ⟨entry.2, Std.ExtTreeMap.mem_toList_iff_getElem?_eq_some.mp listed, rfl⟩
  · rintro ⟨node, found, same⟩
    exact ⟨(n.1, node), Std.ExtTreeMap.mem_toList_iff_getElem?_eq_some.mpr found,
      Prod.ext rfl same⟩

theorem swept_targets (f : Fleet) (now : Nat) :
    (f.swept (answersOf rooms f.targets) now).targets =
      f.targets.filter fun n => (rooms n.2).isOk := by
  have kept : (f.swept (answersOf rooms f.targets) now).targets =
      f.targets.filter fun n => n.1 ∉ failedIn (answersOf rooms f.targets) := by
    simp only [Fleet.targets, swept, commit, without, Std.ExtTreeMap.toList_filter, List.filter_map]
    rfl
  rw [kept]
  refine List.filter_congr fun n member => Bool.eq_iff_iff.mpr ?_
  rw [decide_eq_true_iff, mem_failedIn]
  constructor
  · intro fine
    cases answer : rooms n.2 with
    | ok listings => rfl
    | error e =>
      have down : (n.1, rooms n.2) ∈ answersOf rooms f.targets := List.mem_map_of_mem member
      exact (fine ⟨e, answer ▸ down⟩).elim
  · rintro up ⟨e, down⟩
    obtain ⟨m, other, same⟩ := List.mem_map.mp down
    obtain ⟨address, answer⟩ := Prod.mk.inj same
    obtain ⟨node, found, target⟩ := mem_targets.mp member
    obtain ⟨twin, again, target'⟩ := mem_targets.mp other
    rw [address] at again
    rw [← target, Map.found_unique found again, target', answer] at up
    exact Bool.noConfusion up

/-- The nodes that are left all answer, with the same rooms as before. -/
theorem aggregate_again (steady : probe.RoomsFrom rooms) (f : Fleet) (now later : Nat) (s t : σ) :
    let g := (f.aggregate probe now s).1
    let again := (g.aggregate probe later t).1
    again.nodes = g.nodes ∧ ∀ region, again.roomList region = g.roomList region := by
  intro g again
  have first : g = f.swept (answersOf rooms f.targets) now := aggregate_steady steady f now s
  have second : again = g.swept (answersOf rooms g.targets) later :=
    aggregate_steady steady g later t
  have left : g.targets = f.targets.filter fun n => (rooms n.2).isOk := by
    rw [first, swept_targets]
  constructor
  · rw [second]
    show without g.nodes (failedIn (answersOf rooms g.targets)) = g.nodes
    rw [left, failedIn_answered, without_nil]
  · intro region
    rw [second]
    refine Eq.trans (swept_roomList ?_ later now) (congrArg (·.roomList region) first.symm)
    rw [left, listedIn_answered]

theorem roomList_of_nodes (steady : probe.RoomsFrom rooms) {state other : Fleet × σ}
    (same : state.1.nodes = other.1.nodes) (now : Nat) :
    (next probe state now .aggregate).1.roomList region =
      (next probe other now .aggregate).1.roomList region := by
  have text (state : Fleet × σ) :
      (next probe state now .aggregate).1 =
        state.1.swept (answersOf rooms state.1.targets) now :=
    aggregate_steady steady state.1 now state.2
  rw [text, text]
  apply swept_roomList
  rw [targets, targets, same]

/-! The order of registration -/

def registrations (now : Nat) (nodes : List (RelayAddress × NodeTarget)) : List (Nat × FleetCall) :=
  nodes.map fun n => (now, .register n.1 n.2)

theorem register_up {s : σ} {target : NodeTarget} {load : NodeLoad}
    (absent : f.nodes[relay]? = none) (answer : (probe.load target s).1 = .ok load) (now : Nat) :
    (next probe (f, s) now (.register relay target)).1 =
      { f with nodes := f.nodes.insert relay ⟨target, load⟩ } := by
  show (f.register probe relay target s).1.2 = _
  rw [register, if_neg (unregistered_iff.mpr absent), bind_of_run (Prod.ext answer rfl)]
  rfl

theorem register_down {s : σ} {target : NodeTarget} {e : ProbeError}
    (absent : f.nodes[relay]? = none) (answer : (probe.load target s).1 = .error e) (now : Nat) :
    (next probe (f, s) now (.register relay target)).1 = f := by
  show (f.register probe relay target s).1.2 = _
  rw [register, if_neg (unregistered_iff.mpr absent), bind_of_run (Prod.ext answer rfl)]
  rfl

theorem register_found (steady : probe.LoadsFrom loads) (f : Fleet) (s : σ) (now : Nat)
    (n : RelayAddress × NodeTarget) :
    (next probe (f, s) now (.register n.1 n.2)).1.nodes[relay]? = some node ↔
      f.nodes[relay]? = some node ∨
        f.nodes[relay]? = none ∧ (relay, node.target) = n ∧ loads n.2 = .ok node.load := by
  cases here : f.nodes[n.1]? with
  | some old =>
    have unchanged : next probe (f, s) now (.register n.1 n.2) = (f, s) := by
      simp [next, served, serve, register, isRegistered_iff.mpr ⟨old, here⟩]
    rw [unchanged, or_iff_left]
    rintro ⟨absent, rfl, _⟩
    rw [absent] at here
    contradiction
  | none =>
    cases up : loads n.2 with
    | error e =>
      rw [register_down here ((steady n.2 s).trans up)]
      simp
    | ok load =>
      rw [register_up here ((steady n.2 s).trans up)]
      show (f.nodes.insert n.1 _)[relay]? = some node ↔ _
      rw [Map.found_insert_iff]
      constructor
      · rintro (⟨rfl, rfl⟩ | ⟨_, found⟩)
        · exact Or.inr ⟨here, rfl, rfl⟩
        · exact Or.inl found
      · rintro (found | ⟨_, rfl, same⟩)
        · refine Or.inr ⟨?_, found⟩
          rintro rfl
          rw [here] at found
          contradiction
        · obtain rfl := Except.ok.inj same
          exact Or.inl ⟨rfl, rfl⟩

theorem joined_found (steady : probe.LoadsFrom loads) {nodes : List (RelayAddress × NodeTarget)}
    (distinct : (nodes.map Prod.fst).Nodup) (f : Fleet) (s : σ) (now : Nat) :
    (after probe (f, s) (registrations now nodes)).1.nodes[relay]? = some node ↔
      f.nodes[relay]? = some node ∨
        f.nodes[relay]? = none ∧ (relay, node.target) ∈ nodes ∧
          loads node.target = .ok node.load := by
  induction nodes generalizing f s with
  | nil => simp [registrations, after]
  | cons n rest ih =>
    obtain ⟨other, distinct⟩ := List.nodup_cons.mp distinct
    let joined := next probe (f, s) now (.register n.1 n.2)
    have elsewhere (later : (relay, node.target) ∈ rest) :
        joined.1.nodes[relay]? = f.nodes[relay]? := by
      have member : relay ∈ rest.map Prod.fst := List.mem_map_of_mem later
      apply Option.ext
      intro found
      rw [register_found steady, or_iff_left]
      rintro ⟨_, same, _⟩
      exact other (congrArg Prod.fst same ▸ member)
    show (after probe (joined.1, joined.2) (registrations now rest)).1.nodes[relay]? = some node ↔ _
    rw [ih distinct, register_found steady]
    constructor
    · rintro ((found | ⟨absent, rfl, up⟩) | ⟨absent, later, up⟩)
      · exact Or.inl found
      · exact Or.inr ⟨absent, List.mem_cons_self, up⟩
      · exact Or.inr ⟨elsewhere later ▸ absent, List.mem_cons_of_mem _ later, up⟩
    · rintro (found | ⟨absent, member, up⟩)
      · exact Or.inl (Or.inl found)
      · rcases List.mem_cons.mp member with rfl | later
        · exact Or.inl (Or.inr ⟨absent, rfl, up⟩)
        · exact Or.inr ⟨(elsewhere later).trans absent, later, up⟩

theorem joined_of_perm (steady : probe.LoadsFrom loads)
    {nodes others : List (RelayAddress × NodeTarget)} (distinct : (nodes.map Prod.fst).Nodup)
    (same : others.Perm nodes) (f : Fleet) (s : σ) (now : Nat) :
    (after probe (f, s) (registrations now others)).1.nodes =
      (after probe (f, s) (registrations now nodes)).1.nodes := by
  apply Std.ExtTreeMap.ext_getElem?
  intro relay
  apply Option.ext
  intro node
  have others_distinct := (same.map Prod.fst).nodup_iff.mpr distinct
  rw [joined_found steady others_distinct, joined_found steady distinct, same.mem_iff]

/-- What a sweep leaves, whatever the answers are. All nodes are asked, in the order of their
    addresses. The list of all rooms has the answers one after the other, each id as it was first
    given; the list of a region is the part of it that is from nodes of the region; the known ids
    are those listed; and the nodes that failed are gone. As long as the nodes answer the same, a
    second sweep changes neither the nodes nor the texts, and the texts are the same in whatever
    order the nodes were registered. -/
theorem sweep_lists_first_answers (f : Fleet) (probe : Probe σ) (s : σ) (now : Nat) :
    let answers := (probe.askEach f.targets s).1
    let g := (f.aggregate probe now s).1
    (answers.map Prod.fst).Pairwise (fun a b => compare a b = .lt) ∧
      (∀ relay, relay ∈ answers.map Prod.fst ↔ f.isRegistered relay = true) ∧
      g.index.bucket .any = firsts (listedIn answers) ∧
      (∀ region, region ≠ .any →
        g.index.bucket region = (g.index.bucket .any).filter (·.node.region = region)) ∧
      (∀ id, g.index.ids.contains id = true ↔ ∃ room ∈ g.index.bucket .any, room.id = id) ∧
      g.nodes = without f.nodes (failedIn answers) ∧
      (∀ rooms, probe.RoomsFrom rooms → ∀ later t,
        let again := (g.aggregate probe later t).1
        again.nodes = g.nodes ∧ ∀ region, again.roomList region = g.roomList region) ∧
      ∀ loads rooms, probe.LoadsFrom loads → probe.RoomsFrom rooms →
        ∀ nodes others : List (RelayAddress × NodeTarget), (nodes.map Prod.fst).Nodup →
          others.Perm nodes →
            let text (order : List (RelayAddress × NodeTarget)) (region : Region) : String :=
              let joined := after probe (f, s) (registrations now order)
              (next probe joined now .aggregate).1.roomList region
            ∀ region, text others region = text nodes region := by
  intro answers g
  have result : g = f.swept answers now := by
    show (f.aggregate probe now s).1 = _
    rw [aggregate_answers]
    rfl
  have addresses : answers.map Prod.fst = f.nodes.keys :=
    (askEach_addresses probe f.targets s).trans f.targets_addresses
  refine ⟨?_, ?_, ?_, ?_, ?_, ?_, ?_, ?_⟩
  · rw [addresses]
    exact Std.ExtTreeMap.ordered_keys
  · intro relay
    rw [addresses, Std.ExtTreeMap.mem_keys]
    exact Std.ExtTreeMap.contains_iff_mem.symm
  · rw [result, swept_bucket_any]
  · intro region specific
    rw [result, swept_bucket_region f now specific]
  · intro id
    rw [result, swept_ids]
  · rw [result]
    rfl
  · exact fun rooms steady later t => aggregate_again steady f now later s t
  · intro loads rooms up steady nodes others distinct same text region
    exact roomList_of_nodes steady (joined_of_perm up distinct same f s now) now

end Fleet

end PeerRelay
