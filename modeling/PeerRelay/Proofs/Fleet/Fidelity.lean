import PeerRelay.Node.Endpoint
import PeerRelay.Proofs.Fleet.Harvest
import PeerRelay.Proofs.Fleet.Listing
import PeerRelay.Proofs.Json.Listing
import PeerRelay.Proofs.Node.Board
import PeerRelay.Proofs.Node.Service

/-!
What a node serves is what the balancer lists. A probe reads from the served text the very entries
it was made of, and a sweep files every entry of a node whose ids are distinct, in order, so the
text of the balancer is the text of the node again.
-/
namespace PeerRelay

namespace Node
open Http

def exchange (now : Nat) : Exchange Node := fun request => do
  let n ← get
  let (response, n) := n.respond now true request
  set n
  return some response

theorem respond_rooms (n : Node) (now : Nat) (headers : List (String × String)) :
    n.respond now true ⟨.get, "/api/servers", headers⟩ = (.json n.board.json, n) := by
  have path : Request.path ⟨.get, "/api/servers", headers⟩ = "/api/servers" := by
    show (targetPath? "/api/servers").getD "" = _
    decide +kernel
  rw [respond, path]
  rfl

theorem probe_rooms {target : NodeTarget} (reachable : Probe.isReachable target = true)
    (n : Node) (now : Nat) :
    (Probe.overHttp (exchange now)).rooms target n = (Probe.readRooms n.board.json, n) := by
  have asked : exchange now ⟨.get, "/api/servers", [("host", target.text)]⟩ n =
      (some (.json n.board.json), n) := by
    show (some (n.respond now true _).1, (n.respond now true _).2) = _
    rw [respond_rooms]
  have bound {α β : Type} (m : StateM Node α) (next : α → StateM Node β) :
      (m >>= next) n = next (m n).1 (m n).2 := rfl
  have fetched : Probe.fetch (exchange now) target "/api/servers" n = (.ok n.board.json, n) := by
    rw [Probe.fetch, if_pos reachable, bound, asked]
    rfl
  have read := bound (Probe.fetch (exchange now) target "/api/servers") fun body =>
    pure (body.bind Probe.readRooms)
  rw [fetched] at read
  exact read

theorem after_listings_nodup (config : NodeConfig) (authenticator : Authenticator)
    (rendezvous : Option Rendezvous) (uplink : Option Uplink) (dice : Dice) (started : Nat)
    (past : List Happening) :
    let n := (start config authenticator rendezvous uplink dice started).after past
    ((n.lobby.listings n.relay).map RoomListing.serverId).Nodup := by
  intro n
  obtain ⟨requests, lobby⟩ :=
    after_lobby (start config authenticator rendezvous uplink dice started) past
  have consistent : n.lobby.Consistent := lobby ▸ Lobby.history_consistent requests
  exact List.pairwise_map.mpr
    ((publicListings_ascending consistent.ids_nodup).imp String.ne_of_lt)

end Node

namespace Fleet

variable {σ : Type} {f : Fleet} {r : RelayAddress} {target : NodeTarget} {region : Region}

/-- A sweep over one node that answers with rooms of different ids lists these rooms. -/
theorem aggregate_alone {probe : Probe σ} {s : σ} {listings : List RoomListing}
    (alone : f.targets = [(r, target)]) (answered : (probe.rooms target s).1 = .ok listings)
    (distinct : (listings.map RoomListing.serverId).Nodup) (files : Harvest.Files r region)
    (now : Nat) :
    (next probe (f, s) now .aggregate).1.roomList region = RoomListing.listText listings := by
  have swept : (next probe (f, s) now .aggregate).1 =
      f.commit (Harvest.empty.addAll r listings) now := by
    show (f.aggregate probe now s).1 = _
    rw [aggregate, alone]
    show (fun out : Harvest × Fleet => out.2.commit out.1 now)
      (f.absorb .empty r (probe.rooms target s).1) = _
    rw [answered]
    rfl
  have filed := Harvest.addAll_empty files distinct
  rw [swept]
  show RoomListing.listText (((Harvest.empty.addAll r listings).bucket region).map _) = _
  rw [filed, List.map_map]
  exact congrArg RoomListing.listText (List.map_id listings)

/-- Whatever the rooms of a lobby and whatever the address of its node, a probe reads from the
    posted text the entries of the list. So it does from what a node of any history serves, and
    when that is the only node, a sweep makes the same text of it again, for its region and for no
    preference. -/
theorem served_list_survives_sweep (requests : List LobbyRequest) (relay : RelayAddress)
    (config : NodeConfig) (authenticator : Authenticator) (rendezvous : Option Rendezvous)
    (uplink : Option Uplink) (dice : Dice) (started : Nat) (past : List Happening) (f : Fleet)
    (r : RelayAddress) (target : NodeTarget) (alone : f.targets = [(r, target)])
    (reachable : Probe.isReachable target = true) (now time : Nat)
    (headers : List (String × String)) :
    let listings := (Lobby.empty.serveAll requests).1.listings relay
    let n := (Node.start config authenticator rendezvous uplink dice started).after past
    let swept := (next (Probe.overHttp (Node.exchange now)) (f, n) time .aggregate).1
    Probe.readRooms (RoomBoard.post listings).json = .ok listings ∧
      (n.respond now true ⟨.get, "/api/servers", headers⟩).1 = .json n.board.json ∧
      Probe.readRooms n.board.json = .ok (n.lobby.listings n.relay) ∧
      swept.roomList .any = n.board.json ∧ swept.roomList r.region = n.board.json := by
  intro listings n swept
  have posted : n.board = RoomBoard.post (n.lobby.listings n.relay) :=
    Node.after_posted Node.start_posted past
  have text : n.board.json = RoomListing.listText (n.lobby.listings n.relay) :=
    congrArg RoomBoard.json posted
  have read : Probe.readRooms n.board.json = .ok (n.lobby.listings n.relay) := by
    rw [text, Probe.readRooms_listText]
  have answered : ((Probe.overHttp (Node.exchange now)).rooms target n).1 =
      .ok (n.lobby.listings n.relay) := by
    rw [Node.probe_rooms reachable, read]
  have distinct :=
    Node.after_listings_nodup config authenticator rendezvous uplink dice started past
  have again {region : Region} (files : Harvest.Files r region) :
      swept.roomList region = n.board.json :=
    (aggregate_alone alone answered distinct files time).trans text.symm
  exact ⟨Probe.readRooms_listText listings, by rw [Node.respond_rooms], read, again (.inl rfl),
    again (.inr rfl)⟩

theorem opened_room_listed :
    let n := Node.smallNode.after Node.roomOpened
    let web := Probe.overHttp (Node.exchange 5)
    let target : NodeTarget := ⟨"10.0.0.1", 8080⟩
    let f := (next web (start smallFleet (.seeded 0) 0, n) 5 (.register smallRelay target)).1
    f.targets = [(smallRelay, target)] ∧ Probe.isReachable target = true ∧
      (next web (f, n) 6 .aggregate).1.roomList .europe = n.board.json ∧
      n.board.listings.map RoomListing.serverId = ["01"] := by
  intro n web target f
  have alone : f.targets = [(smallRelay, target)] := by decide +kernel
  have reachable : Probe.isReachable target = true := by decide +kernel
  obtain ⟨_, _, _, _, region⟩ := served_list_survives_sweep [] smallRelay _ _ none _ _ _
    Node.roomOpened f smallRelay target alone reachable 5 6 []
  exact ⟨alone, reachable, region, by decide +kernel⟩

end Fleet

end PeerRelay
