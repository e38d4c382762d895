import PeerRelay.Fleet.Endpoint
import PeerRelay.Proofs.Fleet.Listing
import PeerRelay.Proofs.Fleet.RoomIds

/-!
What a request can do to a balancer, with the shared key and without it. Without the key the lists
and the known ids stay, nobody is put in, and a node changes only by the answer to a probe of it
that a request to join has made. With the key a registration is answered alike whether the node
answers its probe or not.
-/
namespace PeerRelay.Fleet
open FleetNote

variable {σ : Type}

/-- What probes make of a node: nothing, or it has the load that one of them was answered with, or
    it is gone because one of them failed. -/
def Probed (notes : List FleetNote) (relay : RelayAddress) (before after : Option FleetNode) :
    Prop :=
  after = before ∨ ∃ node, before = some node ∧
    ((∃ load, .load relay (.ok load) ∈ notes ∧ after = some { node with load }) ∨
      ∃ e, .load relay (.error e) ∈ notes ∧ after = none)

/-- The lists and the known ids are as they were, and so are the nodes but for the probes. -/
structure Unharmed (notes : List FleetNote) (f g : Fleet) : Prop where
  buckets : g.index.buckets = f.index.buckets
  ids : g.index.ids = f.index.ids
  nodes : ∀ relay : RelayAddress, Probed notes relay f.nodes[relay]? g.nodes[relay]?

variable {f : Fleet} {probe : Probe σ} {s : σ} {now : Nat} {r : Http.Request}
  {remote : Net.SocketAddress}

theorem Unharmed.refl (notes : List FleetNote) (f : Fleet) : Unharmed notes f f :=
  ⟨rfl, rfl, fun _ => Or.inl rfl⟩

theorem Probed.cons {note : FleetNote} {rest : List FleetNote} {relay : RelayAddress}
    {before between after : Option FleetNode} (first : Probed [note] relay before between)
    (later : Probed rest relay between after) : Probed (note :: rest) relay before after := by
  rcases later with rfl | ⟨node, rfl, now⟩
  · rcases first with same | ⟨node, found, ⟨load, mem, now⟩ | ⟨e, mem, now⟩⟩
    · exact Or.inl same
    · exact Or.inr ⟨node, found, Or.inl ⟨load, by simp_all, now⟩⟩
    · exact Or.inr ⟨node, found, Or.inr ⟨e, by simp_all, now⟩⟩
  · -- who is still there after the first probe has kept everything but the load
    obtain ⟨old, found, rest_same⟩ : ∃ old, before = some old ∧ ∀ load,
        { node with load } = { old with load } := by
      rcases first with same | ⟨old, found, ⟨load, _, same⟩ | ⟨_, _, gone⟩⟩
      · exact ⟨node, same.symm, fun _ => rfl⟩
      · obtain rfl := Option.some.inj same
        exact ⟨old, found, fun _ => rfl⟩
      · contradiction
    refine Or.inr ⟨old, found, ?_⟩
    rcases now with ⟨load, mem, now⟩ | ⟨e, mem, now⟩
    · exact Or.inl ⟨load, List.mem_cons_of_mem _ mem, now.trans (congrArg some (rest_same load))⟩
    · exact Or.inr ⟨e, List.mem_cons_of_mem _ mem, now⟩

/-- What a registration with the key and with headers that can be read comes to. -/
def Admits (probe : Probe σ) (state : Fleet × σ) (relay : RelayAddress) (host : String)
    (g : Fleet) : Prop :=
  let answer := (Id.run ((probe.load ⟨host, relay.endpointPort⟩).run state.2)).1
  (g = state.1 ∧ (state.1.isRegistered relay = true ∨ ∃ e, answer = .error e)) ∨
    state.1.nodes[relay]? = none ∧ ∃ load, answer = .ok load ∧
      g = { state.1 with nodes := state.1.nodes.insert relay ⟨⟨host, relay.endpointPort⟩, load⟩ }

end PeerRelay.Fleet
