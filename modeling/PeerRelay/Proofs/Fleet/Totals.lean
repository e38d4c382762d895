import Mathlib.Data.List.Induction
import PeerRelay.Proofs.Fleet.Registry

/-!
The statistics of a balancer against its history. The loads that are added up are those that the
registered nodes reported last, each node once. The sums are of 64 bits, and two nodes are enough
for there to be none.
-/
namespace PeerRelay

namespace FleetNote

theorem lastLoad_unique {relay : RelayAddress} {first second : NodeLoad} {notes : List FleetNote}
    (one : LastLoad relay first notes) (another : LastLoad relay second notes) :
    first = second := by
  induction notes using List.reverseRecOn with
  | nil => exact (since_nil one).elim
  | append_singleton notes last ih =>
    rcases since_concat.mp one with rfl | ⟨one, silent⟩
    · rcases since_concat.mp another with same | ⟨_, silent⟩
      · cases same
        rfl
      · exact (silent ⟨first, rfl⟩).elim
    · rcases since_concat.mp another with rfl | ⟨another, _⟩
      · exact (silent ⟨second, rfl⟩).elim
      · exact ih one another

end FleetNote

namespace Fleet
open FleetNote

variable {σ : Type} {f : Fleet} {notes : List FleetNote} {nodes : NodeMap}
  {roll : List (RelayAddress × NodeLoad)}

/-! The roll of the registered nodes -/

/-- The registered nodes, each once, with the load that it reported last. -/
structure Roll (notes : List FleetNote) (roll : List (RelayAddress × NodeLoad)) : Prop where
  once : (roll.map Prod.fst).Nodup
  listed_iff : ∀ {relay : RelayAddress},
    relay ∈ roll.map Prod.fst ↔ ∃ node, Standing relay node notes
  load : ∀ {relay : RelayAddress} {load : NodeLoad}, (relay, load) ∈ roll →
    LastLoad relay load notes

theorem Roll.subset {other : List (RelayAddress × NodeLoad)} (h : Roll notes roll)
    (h' : Roll notes other) : other ⊆ roll := by
  rintro ⟨relay, load⟩ member
  have listed : relay ∈ roll.map Prod.fst :=
    h.listed_iff.mpr (h'.listed_iff.mp (List.mem_map_of_mem member))
  obtain ⟨⟨_, same⟩, inside, rfl⟩ := List.mem_map.mp listed
  exact lastLoad_unique (h.load inside) (h'.load member) ▸ inside

theorem Roll.perm {other : List (RelayAddress × NodeLoad)} (h : Roll notes roll)
    (h' : Roll notes other) : other.Perm roll := by
  have distinct {roll} (h : Roll notes roll) : roll.Nodup :=
    List.Pairwise.of_map Prod.fst (fun _ _ other same => other (congrArg Prod.fst same)) h.once
  exact (List.perm_ext_iff_of_nodup (distinct h') (distinct h)).mpr
    fun entry => ⟨fun inside => h.subset h' inside, fun inside => h'.subset h inside⟩

def storedLoads (nodes : NodeMap) : List (RelayAddress × NodeLoad) :=
  nodes.toList.map fun entry => (entry.1, entry.2.load)

theorem mem_storedLoads_iff {relay : RelayAddress} {load : NodeLoad} :
    (relay, load) ∈ storedLoads nodes ↔ ∃ node, nodes[relay]? = some node ∧ node.load = load := by
  rw [storedLoads, List.mem_map]
  constructor
  · rintro ⟨⟨_, node⟩, member, same⟩
    cases same
    exact ⟨node, Std.ExtTreeMap.mem_toList_iff_getElem?_eq_some.mp member, rfl⟩
  · rintro ⟨node, found, rfl⟩
    exact ⟨(relay, node), Std.ExtTreeMap.mem_toList_iff_getElem?_eq_some.mpr found, rfl⟩

theorem storedLoads_addresses (nodes : NodeMap) :
    (storedLoads nodes).map Prod.fst = nodes.keys := by
  rw [storedLoads, List.map_map, ← Std.ExtTreeMap.map_fst_toList_eq_keys]
  rfl

theorem Told.roll_storedLoads (h : Told notes nodes) : Roll notes (storedLoads nodes) := by
  constructor
  case once =>
    rw [storedLoads_addresses]
    exact Std.ExtTreeMap.nodup_keys
  case listed_iff =>
    intro relay
    rw [storedLoads_addresses, Std.ExtTreeMap.mem_keys, ← Std.ExtTreeMap.isSome_getElem?_iff_mem,
      Option.isSome_iff_exists]
    exact h.registered_iff
  case load =>
    intro relay load member
    obtain ⟨node, found, rfl⟩ := mem_storedLoads_iff.mp member
    exact h.load found

/-! Sums -/

def total (figure : NodeLoad → UInt64) : List (RelayAddress × NodeLoad) → Nat
  | [] => 0
  | entry :: rest => (figure entry.2).toNat + total figure rest

theorem addChecked_eq_some {a b sum : UInt64} :
    addChecked a b = some sum ↔ sum.toNat = a.toNat + b.toNat := by
  have added : (a + b).toNat = (a.toNat + b.toNat) % UInt64.size := UInt64.toNat_add a b
  unfold addChecked
  split
  · rename_i fits
    rw [Nat.mod_eq_of_lt fits] at added
    rw [Option.some_inj, ← UInt64.toNat_inj, added, eq_comm]
  · have bound := sum.toNat_lt_size
    simp only [reduceCtorEq, false_iff]
    omega

theorem foldlM_addChecked (figure : NodeLoad → UInt64) (roll : List (RelayAddress × NodeLoad))
    (acc sum : UInt64) :
    (roll.map fun entry => figure entry.2).foldlM addChecked acc = some sum ↔
      sum.toNat = acc.toNat + total figure roll := by
  induction roll generalizing acc with
  | nil => simp [total, ← UInt64.toNat_inj, eq_comm]
  | cons entry rest ih =>
    have bound := sum.toNat_lt_size
    simp only [List.map_cons, List.foldlM_cons, Option.bind_eq_bind, Option.bind_eq_some_iff, ih,
      addChecked_eq_some, total]
    constructor
    · rintro ⟨between, first, later⟩
      omega
    · intro whole
      refine ⟨UInt64.ofNat (acc.toNat + (figure entry.2).toNat), ?_⟩
      have small : acc.toNat + (figure entry.2).toNat < UInt64.size := by omega
      rw [UInt64.toNat_ofNat_of_lt' small]
      exact ⟨rfl, by omega⟩

theorem sumChecked_eq_some (figure : NodeLoad → UInt64) (nodes : NodeMap) (sum : UInt64) :
    sumChecked (nodes.values.map fun node : FleetNode => figure node.load) = some sum ↔
      sum.toNat = total figure (storedLoads nodes) := by
  have listed : (nodes.values.map fun node : FleetNode => figure node.load) =
      (storedLoads nodes).map fun entry => figure entry.2 := by
    rw [storedLoads, List.map_map, Map.values_eq_map_toList, List.map_map]
    rfl
  rw [sumChecked, listed, foldlM_addChecked, UInt64.toNat_zero, Nat.zero_add]

theorem sumChecked_eq_none (figure : NodeLoad → UInt64) (nodes : NodeMap) :
    sumChecked (nodes.values.map fun node : FleetNode => figure node.load) = none ↔
      UInt64.size ≤ total figure (storedLoads nodes) := by
  simp only [Option.eq_none_iff_forall_ne_some, ne_eq, sumChecked_eq_some]
  constructor
  · intro never
    by_contra small
    exact never (.ofNat _) (UInt64.toNat_ofNat_of_lt' (Nat.lt_of_not_le small))
  · rintro large sum same
    exact absurd (same ▸ sum.toNat_lt_size) (Nat.not_lt.mpr large)

theorem storedLoads_length (nodes : NodeMap) : (storedLoads nodes).length = nodes.size := by
  rw [storedLoads, List.length_map, Std.ExtTreeMap.length_toList]

theorem stats_eq_some {f : Fleet} {now : Nat} {stats : FleetStats}
    (given : f.stats now = some stats) :
    stats.nodeCount = UInt64.ofNat f.size ∧
      stats.connectedClients.toNat = total NodeLoad.connectedClients (storedLoads f.nodes) ∧
      stats.totalRooms.toNat = total NodeLoad.roomCount (storedLoads f.nodes) := by
  simp only [Fleet.stats, Option.bind_eq_bind, Option.bind_eq_some_iff, Option.pure_def,
    Option.some_inj] at given
  obtain ⟨clients, sum, rooms, roomSum, rfl⟩ := given
  exact ⟨rfl, (sumChecked_eq_some ..).mp sum, (sumChecked_eq_some ..).mp roomSum⟩

theorem stats_eq_none {f : Fleet} {now : Nat} :
    f.stats now = none ↔
      UInt64.size ≤ total NodeLoad.connectedClients (storedLoads f.nodes) ∨
        UInt64.size ≤ total NodeLoad.roomCount (storedLoads f.nodes) := by
  rw [← sumChecked_eq_none, ← sumChecked_eq_none, Fleet.stats]
  generalize sumChecked _ = clients
  generalize sumChecked _ = rooms
  cases clients <;> cases rooms <;> simp

/-- At any moment of any course of calls and answers, also between the answers to one call, the
    statistics are those of the registered nodes, each once and with the load that it reported
    last. There are none exactly if one of the two sums is 2^64 or more; any that there are give
    the sums as they are. -/
theorem stats_exact_iff (config : FleetConfig) (dice : Dice) (started : Nat) (probe : Probe σ)
    (s : σ) (calls : List (Nat × FleetCall)) (answered now : Nat) :
    let fresh := (start config dice started, s)
    let notes := (history probe fresh calls).take answered
    let f := fresh.1.learnAll notes
    ∃ roll, Roll notes roll ∧ (∀ other, Roll notes other → other.Perm roll) ∧
      (f.stats now = none ↔ UInt64.size ≤ total NodeLoad.connectedClients roll ∨
        UInt64.size ≤ total NodeLoad.roomCount roll) ∧
      ∀ stats, f.stats now = some stats →
        stats.nodeCount.toNat = roll.length % UInt64.size ∧
        (stats.nodeCount.toNat = roll.length ↔ roll.length < UInt64.size) ∧
        stats.connectedClients.toNat = total NodeLoad.connectedClients roll ∧
        stats.totalRooms.toNat = total NodeLoad.roomCount roll := by
  intro fresh notes f
  have told : Told notes f.nodes := by
    have known := history_take_told (start_told config dice started) probe s calls answered
    rwa [List.nil_append] at known
  have roll := told.roll_storedLoads
  refine ⟨storedLoads f.nodes, roll, fun other => roll.perm, stats_eq_none, fun stats given => ?_⟩
  obtain ⟨nodes, clients, rooms⟩ := stats_eq_some given
  have count : stats.nodeCount.toNat = (storedLoads f.nodes).length % UInt64.size := by
    rw [nodes, storedLoads_length]
    exact UInt64.toNat_ofNat'
  refine ⟨count, ?_, clients, rooms⟩
  rw [count]
  exact ⟨fun same => same ▸ Nat.mod_lt _ (by decide), Nat.mod_eq_of_lt⟩

def crowdedNodes : Probe Unit where
  load target := return .ok ⟨if target.port = 1 then 18446744073709551615 else 1, 1, 1, 0⟩
  rooms _ := return .ok []

def crowding : List (Nat × FleetCall) :=
  [(0, .register ⟨"10.0.0.1", 7777, 1, .any⟩ ⟨"10.0.0.1", 1⟩),
    (0, .register ⟨"10.0.0.2", 7777, 2, .any⟩ ⟨"10.0.0.2", 2⟩)]

/-- The clients of the two nodes are too many for there to be statistics. -/
theorem crowd_not_counted :
    let fresh := (start ⟨"", 10000, 5, .numeric, 60000, false⟩ (.seeded 0) 0, ())
    let f := (after crowdedNodes fresh crowding).1
    Roll (history crowdedNodes fresh crowding) (storedLoads f.nodes) ∧
      total NodeLoad.connectedClients (storedLoads f.nodes) = 18446744073709551616 ∧
      f.stats 0 = none := by
  intro fresh f
  have told : Told ([] ++ history crowdedNodes fresh crowding) f.nodes :=
    history_told (f := fresh.1) (start_told _ _ _) crowdedNodes () crowding
  rw [List.nil_append] at told
  exact ⟨told.roll_storedLoads, by decide +kernel, by decide +kernel⟩

end Fleet

end PeerRelay
