import PeerRelay.Proofs.Fleet.Harvest
import PeerRelay.Proofs.Fleet.Registry

/-!
Which nodes the listed rooms are of. A room is in the lists because its node gave it as an answer in
the sweep that made them. Whoever answered is still registered when the sweep ends, but the lists
stay as they are until the next one: the only calls that can put them out of date are selections.
-/
namespace PeerRelay

namespace FleetNote

def Sweeps : FleetNote → Prop
  | .listed .. => True
  | _ => False

/-- The node gave the room as an answer in the last sweep of the notes. -/
def Swept (room : ListedRoom) (notes : List FleetNote) : Prop :=
  ∃ before asked now after listings,
    notes = before ++ asked ++ .listed (gathered .empty asked) now :: after ∧
      (∀ note ∈ asked ++ after, ¬ note.Sweeps) ∧
      .rooms room.node (.ok listings) ∈ asked ∧ room.listing ∈ listings

theorem Swept.append {room : ListedRoom} {notes more : List FleetNote} (h : Swept room notes)
    (other : ∀ note ∈ more, ¬ note.Sweeps) : Swept room (notes ++ more) := by
  obtain ⟨before, asked, now, after, listings, rfl, quiet, noted, listed⟩ := h
  refine ⟨before, asked, now, after ++ more, listings, by simp, ?_, noted, listed⟩
  rw [← List.append_assoc]
  exact List.forall_mem_append.mpr ⟨quiet, other⟩

end FleetNote

namespace Fleet
open FleetNote

variable {σ : Type} {f : Fleet} {relay : RelayAddress}

def Lists (f : Fleet) (relay : RelayAddress) : Prop :=
  ∃ region room, room ∈ f.index.bucket region ∧ room.node = relay

/-- Every listed room is of a node that is registered. -/
def Current (f : Fleet) : Prop := ∀ relay, f.Lists relay → f.isRegistered relay = true

def Keeps (f g : Fleet) : Prop :=
  g.index = f.index ∧ ∀ relay, f.isRegistered relay = true → g.isRegistered relay = true

theorem Current.kept {g : Fleet} (current : f.Current) (h : f.Keeps g) : g.Current := by
  rintro relay ⟨region, room, mem, node⟩
  rw [h.1] at mem
  exact h.2 relay (current relay ⟨region, room, mem, node⟩)

@[simp] theorem start_bucket (config : FleetConfig) (dice : Dice) (now : Nat) (region : Region) :
    (start config dice now).index.bucket region = [] := by
  simp [start, RoomIndex.empty, RoomIndex.bucket]

theorem start_current (config : FleetConfig) (dice : Dice) (now : Nat) :
    (start config dice now).Current := by
  rintro relay ⟨region, room, mem, _⟩
  simp at mem

/-! A sweep -/

theorem addAll_bucket {h : Harvest} {node : RelayAddress} {listings : List RoomListing}
    {region : Region} {listed : ListedRoom}
    (mem : listed ∈ (h.addAll node listings).bucket region) :
    listed ∈ h.bucket region ∨ (listed.node = node ∧ listed.listing ∈ listings) := by
  rw [Harvest.addAll_eq_file, Harvest.file_bucket] at mem
  rcases List.mem_append.mp mem with before | new
  · exact Or.inl before
  · have filed := (ListedRoom.firsts_sublist _).subset (List.mem_filter.mp new).1
    obtain ⟨listing, here, rfl⟩ := List.mem_map.mp filed
    exact Or.inr ⟨rfl, here⟩

/-- Everything in a harvest was an answer to the questions it was gathered from. -/
theorem gathered_bucket {h : Harvest} {notes : List FleetNote} {region : Region}
    {listed : ListedRoom} (mem : listed ∈ (gathered h notes).bucket region) :
    listed ∈ h.bucket region ∨
      ∃ listings, .rooms listed.node (.ok listings) ∈ notes ∧ listed.listing ∈ listings := by
  fun_induction gathered h notes with
  | case1 h relay listings rest ih =>
    rcases ih mem with before | ⟨answer, noted, later⟩
    · rcases addAll_bucket before with before | ⟨rfl, here⟩
      · exact Or.inl before
      · exact Or.inr ⟨listings, by simp, here⟩
    · exact Or.inr ⟨answer, List.mem_cons_of_mem _ noted, later⟩
  | case2 h note rest other ih =>
    rcases ih mem with before | ⟨answer, noted, later⟩
    · exact Or.inl before
    · exact Or.inr ⟨answer, List.mem_cons_of_mem _ noted, later⟩
  | case3 h => exact Or.inl mem

theorem evict_registered {r : RelayAddress} :
    (f.evict r).isRegistered relay = true ↔ f.isRegistered relay = true ∧ r ≠ relay := by
  simp only [isRegistered_iff, evict_found, exists_and_right]

def Gathered (h : Harvest) (f : Fleet) (pending : List (RelayAddress × NodeTarget)) : Prop :=
  ∀ region room, room ∈ h.bucket region →
    f.isRegistered room.node = true ∧ room.node ∉ pending.map Prod.fst

theorem gather_current (probe : Probe σ) (targets : List (RelayAddress × NodeTarget))
    (h : Harvest) (f : Fleet) (once : (targets.map Prod.fst).Nodup)
    (present : ∀ node ∈ targets, f.isRegistered node.1 = true) (before : Gathered h f targets) :
    Yields (gather probe targets h f) fun out => Gathered out.1 out.2 [] := by
  induction targets generalizing h f with
  | nil => exact Yields.pure before
  | cons node rest ih =>
    obtain ⟨fresh, once⟩ := List.nodup_cons.mp once
    refine (Yields.anything (probe.rooms node.2)).bind fun answer _ => ?_
    cases answer with
    | ok listings =>
      refine ih _ _ once (fun other mem => present other (List.mem_cons_of_mem _ mem)) ?_
      intro region room mem
      rcases addAll_bucket mem with old | ⟨same, _⟩
      · obtain ⟨registered, outside⟩ := before region room old
        exact ⟨registered, fun later => outside (List.mem_cons_of_mem _ later)⟩
      · rw [same]
        exact ⟨present node List.mem_cons_self, fresh⟩
    | error e =>
      -- the evicted node has nothing in the harvest, since every node is asked only once
      refine ih _ _ once ?_ ?_
      · intro other mem
        refine evict_registered.mpr ⟨present other (List.mem_cons_of_mem _ mem), ?_⟩
        intro same
        exact fresh (same ▸ List.mem_map_of_mem mem)
      · intro region room old
        obtain ⟨registered, outside⟩ := before region room old
        have other : node.1 ≠ room.node := fun same => outside (by simp [same])
        exact ⟨evict_registered.mpr ⟨registered, other⟩,
          fun later => outside (List.mem_cons_of_mem _ later)⟩

theorem targets_nodup (f : Fleet) : (f.targets.map Prod.fst).Nodup := by
  rw [targets_addresses]
  exact Std.ExtTreeMap.nodup_keys

theorem targets_registered {node : RelayAddress × NodeTarget} (mem : node ∈ f.targets) :
    f.isRegistered node.1 = true := by
  obtain ⟨⟨relay, entry⟩, listed, rfl⟩ := List.mem_map.mp mem
  exact isRegistered_iff.mpr ⟨entry, Std.ExtTreeMap.mem_toList_iff_getElem?_eq_some.mp listed⟩

theorem aggregate_current (f : Fleet) (probe : Probe σ) (now : Nat) :
    Yields (f.aggregate probe now) Current := by
  have nothing : Gathered .empty f f.targets := by
    intro region room mem
    simp [Harvest.empty, Harvest.bucket] at mem
  refine (gather_current probe f.targets .empty f f.targets_nodup
    (fun _ mem => targets_registered mem) nothing).bind fun out done => Yields.pure ?_
  rintro relay ⟨region, room, mem, rfl⟩
  exact (done region room mem).1

/-! The calls -/

theorem storeLoad_keeps (f : Fleet) (relay : RelayAddress) (load : NodeLoad) :
    f.Keeps (f.storeLoad relay load) := by
  constructor
  · unfold storeLoad
    split <;> rfl
  · intro other registered
    obtain ⟨node, found⟩ := isRegistered_iff.mp registered
    exact isRegistered_iff.mpr ⟨_, storeLoad_found.mpr ⟨node, found, rfl⟩⟩

theorem register_keeps (f : Fleet) (probe : Probe σ) (relay : RelayAddress) (target : NodeTarget) :
    Yields (f.register probe relay target) fun out => f.Keeps out.2 := by
  have same : f.Keeps f := ⟨rfl, fun _ => id⟩
  unfold register
  split
  · exact Yields.pure same
  · refine (Yields.anything (probe.load target)).bind fun answer _ => ?_
    cases answer with
    | error e => exact Yields.pure same
    | ok load =>
      refine Yields.pure ⟨rfl, fun other registered => ?_⟩
      simp only [isRegistered, Std.ExtTreeMap.contains_insert, Bool.or_eq_true]
      exact Or.inr registered

theorem refreshLoads_keeps (probe : Probe σ) (targets : List (RelayAddress × NodeTarget))
    (f : Fleet) : Yields (refreshLoads probe targets f) fun out => out.1 = 0 → f.Keeps out.2 := by
  induction targets generalizing f with
  | nil => exact Yields.pure fun _ => ⟨rfl, fun _ => id⟩
  | cons node rest ih =>
    refine (Yields.anything (probe.load node.2)).bind fun answer _ => ?_
    cases answer with
    | ok load =>
      intro s none
      have first := f.storeLoad_keeps node.1 load
      have later := ih (f.storeLoad node.1 load) s none
      exact ⟨later.1.trans first.1, fun relay here => later.2 relay (first.2 relay here)⟩
    | error e =>
      refine (ih (f.evict node.1)).bind fun out _ => Yields.pure fun none => ?_
      contradiction

theorem check_keeps_or_current (f : Fleet) (probe : Probe σ) (now : Nat) :
    Yields (f.check probe now) fun out => f.Keeps out.2 ∨ out.2.Current := by
  refine (refreshLoads_keeps probe f.targets f).bind fun out kept => ?_
  obtain ⟨evicted, g⟩ := out
  dsimp only at kept ⊢
  split
  · rename_i nobody
    exact Yields.pure (Or.inl (kept nobody))
  · exact (g.aggregate_current probe now).bind fun swept done => Yields.pure (Or.inr done)

theorem learnAll_index {notes : List FleetNote} (f : Fleet)
    (other : ∀ note ∈ notes, ¬ note.Sweeps) : (f.learnAll notes).index = f.index := by
  induction notes generalizing f with
  | nil => rfl
  | cons note rest ih =>
    obtain ⟨first, later⟩ := List.forall_mem_cons.mp other
    rw [learnAll_cons, ih _ later]
    cases note with
    | load relay answer =>
      cases answer with
      | ok load => exact (f.storeLoad_keeps relay load).1
      | error e => rfl
    | rooms relay answer => cases answer <;> rfl
    | added relay node => rfl
    | listed harvest now => exact (first trivial).elim

theorem register_never_sweeps (f : Fleet) (probe : Probe σ) (now : Nat) (relay : RelayAddress)
    (target : NodeTarget) :
    Yields (f.transcript probe now (.register relay target)) fun notes =>
      ∀ note ∈ notes, ¬ note.Sweeps := by
  intro s
  rcases f.register_notes probe now relay target s with none | ⟨_, answer, notes⟩
  · simp [none]
  · rw [notes]
    cases answer <;> simp [admission, Sweeps]

theorem select_never_sweeps (f : Fleet) (probe : Probe σ) (now : Nat) (hint : Option Region) :
    Yields (f.transcript probe now (.select hint)) fun notes => ∀ note ∈ notes, ¬ note.Sweeps := by
  simp only [transcript]
  split
  · exact askChosen_all (¬ ·.Sweeps) (fun _ _ => id) probe hint f.size f
  · exact Yields.pure (by simp)

theorem next_select_index (probe : Probe σ) (state : Fleet × σ) (now : Nat)
    (hint : Option Region) :
    (next probe state now (.select hint)).1.index = state.1.index := by
  rw [next_eq_learnAll]
  exact learnAll_index _ (state.1.select_never_sweeps probe now hint state.2)

/-- A selection evicts a node that has rooms in the lists. -/
def Strands (probe : Probe σ) (state : Fleet × σ) (now : Nat) (hint : Option Region) : Prop :=
  ∃ relay, state.1.Lists relay ∧ state.1.isRegistered relay = true ∧
    ¬ (next probe state now (.select hint)).1.isRegistered relay = true

theorem next_current {probe : Probe σ} {state : Fleet × σ} {now : Nat} {call : FleetCall}
    (current : state.1.Current)
    (lasting : ∀ hint, call = .select hint → ¬ Strands probe state now hint) :
    (next probe state now call).1.Current := by
  cases call with
  | register relay target =>
    exact current.kept (state.1.register_keeps probe relay target state.2)
  | check =>
    rcases state.1.check_keeps_or_current probe now state.2 with kept | swept
    · exact current.kept kept
    · exact swept
  | aggregate => exact state.1.aggregate_current probe now state.2
  | select hint =>
    -- the lists are those from before, so only an eviction could do harm
    rintro relay ⟨region, room, mem, node⟩
    have before : state.1.Lists relay :=
      ⟨region, room, next_select_index probe state now hint ▸ mem, node⟩
    have registered := current relay before
    apply Decidable.of_not_not
    exact fun gone => lasting hint rfl ⟨relay, before, registered, gone⟩

theorem after_current {probe : Probe σ} {state : Fleet × σ} {calls : List (Nat × FleetCall)}
    (current : state.1.Current)
    (lasting : ∀ past now hint, past ++ [(now, .select hint)] <+: calls →
      ¬ Strands probe (after probe state past) now hint) :
    (after probe state calls).1.Current := by
  induction calls generalizing state with
  | nil => exact current
  | cons first rest ih =>
    obtain ⟨now, call⟩ := first
    refine ih (next_current current ?_) ?_
    · rintro hint rfl
      exact lasting [] now hint (List.prefix_append _ rest)
    · intro past time hint early
      exact lasting ((now, call) :: past) time hint ((List.prefix_cons_inj _).mpr early)

/-! Where the listed rooms are from -/

theorem sweepTranscript_shape (f : Fleet) (probe : Probe σ) (now : Nat) :
    Yields (f.sweepTranscript probe now) fun notes =>
      ∃ asked, notes = asked ++ [.listed (gathered .empty asked) now] ∧
        ∀ note ∈ asked, ¬ note.Sweeps :=
  (askRooms_all (¬ ·.Sweeps) (fun _ _ => id) probe f.targets).bind fun asked other =>
    Yields.pure ⟨asked, rfl, other⟩

/-- A call sweeps at most once, at its end. -/
theorem transcript_sweeps (f : Fleet) (probe : Probe σ) (now : Nat) (call : FleetCall) :
    Yields (f.transcript probe now call) fun notes =>
      (∀ note ∈ notes, ¬ note.Sweeps) ∨
        ∃ loads asked, notes = loads ++ asked ++ [.listed (gathered .empty asked) now] ∧
          ∀ note ∈ asked, ¬ note.Sweeps := by
  cases call with
  | register relay target =>
    intro s
    exact Or.inl (f.register_never_sweeps probe now relay target s)
  | check =>
    refine (askLoads_all (¬ ·.Sweeps) (fun _ _ => id) probe f.targets).bind fun loads quiet => ?_
    split
    · exact Yields.pure (Or.inl quiet)
    · refine (sweepTranscript_shape (f.learnAll loads) probe now).bind fun sweep shape => ?_
      obtain ⟨asked, rfl, other⟩ := shape
      exact Yields.pure (Or.inr ⟨loads, asked, (List.append_assoc ..).symm, other⟩)
  | select hint =>
    intro s
    exact Or.inl (f.select_never_sweeps probe now hint s)
  | aggregate =>
    intro s
    obtain ⟨asked, notes, other⟩ := f.sweepTranscript_shape probe now s
    exact Or.inr ⟨[], asked, notes, other⟩

theorem noted_sweeps (probe : Probe σ) (state : Fleet × σ) (now : Nat) (call : FleetCall) :
    (∀ note ∈ noted probe state now call, ¬ note.Sweeps) ∨
      ∃ loads asked, noted probe state now call =
          loads ++ asked ++ [.listed (gathered .empty asked) now] ∧
        ∀ note ∈ asked, ¬ note.Sweeps :=
  state.1.transcript_sweeps probe now call state.2

theorem history_swept {seen : List FleetNote} {region : Region} {room : ListedRoom}
    {probe : Probe σ} {state : Fleet × σ} {calls : List (Nat × FleetCall)}
    (before : ∀ region, ∀ room ∈ state.1.index.bucket region, Swept room seen)
    (mem : room ∈ (after probe state calls).1.index.bucket region) :
    Swept room (seen ++ history probe state calls) := by
  induction calls generalizing state seen with
  | nil => simpa [history] using before region room mem
  | cons first rest ih =>
    obtain ⟨now, call⟩ := first
    rw [history, ← List.append_assoc]
    refine ih (fun region room mem => ?_) mem
    rw [next_eq_learnAll] at mem
    rcases noted_sweeps probe state now call with other | ⟨loads, asked, shape, other⟩
    · rw [learnAll_index _ other] at mem
      exact (before region room mem).append other
    · rw [shape, learnAll_append] at mem
      rcases gathered_bucket mem with none | ⟨listings, noted, listed⟩
      · simp [Harvest.empty, Harvest.bucket] at none
      · exact ⟨seen ++ loads, asked, now, [], listings, by simp [shape], by simpa using other,
          noted, listed⟩

@[simp] theorem learn_config (f : Fleet) (note : FleetNote) : (f.learn note).config = f.config := by
  cases note with
  | load relay answer =>
    cases answer with
    | ok load =>
      simp only [learn, storeLoad]
      split <;> rfl
    | error e => rfl
  | rooms relay answer => cases answer <;> rfl
  | added relay node => rfl
  | listed harvest now => rfl

@[simp] theorem learnAll_config (f : Fleet) (notes : List FleetNote) :
    (f.learnAll notes).config = f.config := by
  induction notes generalizing f with
  | nil => rfl
  | cons note rest ih => simp [ih]

theorem not_strands_unverified {probe : Probe σ} {state : Fleet × σ} {now : Nat}
    {hint : Option Region} (trusting : state.1.config.verifyOnJoin = false) :
    ¬ Strands probe state now hint := by
  have same : next probe state now (.select hint) = state := by
    simp [next, served, serve, select, trusting]
  rintro ⟨relay, _, registered, gone⟩
  rw [same] at gone
  exact gone registered

/-- In any course of calls and answers, every listed room was given by its node in the sweep that
    the lists are from. Right after a sweep all those nodes are registered, and a health check
    sweeps unless it evicts nobody. They stay registered, call after call, exactly if no selection
    evicts a node with listed rooms, and none does without a probe on joining. -/
theorem listed_nodes_current_iff (config : FleetConfig) (dice : Dice) (started : Nat)
    (probe : Probe σ) (s : σ) (calls : List (Nat × FleetCall)) :
    let fresh := (start config dice started, s)
    let state := after probe fresh calls
    (∀ region, ∀ room ∈ state.1.index.bucket region, Swept room (history probe fresh calls)) ∧
      (∀ now, (next probe state now .aggregate).1.Current) ∧
      (∀ now, state.1.Keeps (next probe state now .check).1 ∨
        (next probe state now .check).1.Current) ∧
      ((∀ past, past <+: calls → (after probe fresh past).1.Current) ↔
        ∀ past now hint, past ++ [(now, .select hint)] <+: calls →
          ¬ Strands probe (after probe fresh past) now hint) ∧
      (config.verifyOnJoin = false → state.1.Current) := by
  intro fresh state
  refine ⟨?_, ?_, ?_, ⟨?_, ?_⟩, ?_⟩
  · intro region room mem
    have unlisted : ∀ region, ∀ room ∈ fresh.1.index.bucket region, Swept room [] := by
      intro region room mem
      rw [start_bucket] at mem
      contradiction
    exact history_swept unlisted mem
  · exact fun now => state.1.aggregate_current probe now state.2
  · exact fun now => state.1.check_keeps_or_current probe now state.2
  · rintro current past now hint early ⟨relay, ⟨region, room, mem, node⟩, _, gone⟩
    have later := current _ early
    rw [after_append] at later
    have index := next_select_index probe (after probe fresh past) now hint
    exact gone (later relay ⟨region, room, index ▸ mem, node⟩)
  · intro lasting past early
    refine after_current (start_current config dice started) fun before now hint earlier => ?_
    exact lasting before now hint (earlier.trans early)
  · intro trusting
    refine after_current (start_current config dice started) fun past now hint _ => ?_
    refine not_strands_unverified ?_
    rw [after_eq_learnAll, learnAll_config]
    exact trusting

def smallFleet : FleetConfig where
  authKey := ""
  pingRate := 10000
  idLength := 5
  idAlphabet := .numeric
  idReservation := 60000
  verifyOnJoin := true

def smallRelay : RelayAddress := ⟨"10.0.0.1", 7777, 8080, .europe⟩

def failingNodes : Probe Bool where
  load _ := fun asked => (if asked then .error .request else .ok ⟨1, 1, 1, 0⟩, true)
  rooms _ := fun asked => (.ok [⟨"EU001", 1, "", "", true, 4, 1, smallRelay⟩], asked)

def nodeLost : List (Nat × FleetCall) :=
  [(0, .register smallRelay ⟨"10.0.0.1", 8080⟩), (0, .aggregate), (1, .select none), (2, .check)]

/-- A selection drops a node that does not answer any more, and its room stays in the lists; the
    next health check finds nobody to evict and leaves it there. -/
theorem lists_outlive_node :
    let f := (after failingNodes (start smallFleet (.seeded 0) 0, false) nodeLost).1
    f.isRegistered smallRelay = false ∧ f.Lists smallRelay ∧ ¬ f.Current := by
  intro f
  have gone : f.isRegistered smallRelay = false := by decide +kernel
  have listed : f.Lists smallRelay :=
    ⟨.europe, ⟨smallRelay, ⟨"EU001", 1, "", "", true, 4, 1, smallRelay⟩⟩, by decide +kernel, rfl⟩
  refine ⟨gone, listed, fun current => ?_⟩
  rw [current smallRelay listed] at gone
  contradiction

end Fleet

end PeerRelay
