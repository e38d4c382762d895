import PeerRelay.Fleet.Sweep
import PeerRelay.Proofs.Fleet.Transcript
import PeerRelay.Proofs.Lobby.Request

/-!
A balancer and its nodes as one system with a clock. Rooms are opened and closed on the nodes, nodes
come, go and come back, and ids are issued, all while any number of sweeps are under way. What
happens in a course is also noted, as far as it bears on the ids that can be issued.
-/
namespace PeerRelay

/-- A node as its balancer meets it: the address it lists its rooms under, its rooms, and the load
    that it reports, which is none while it cannot be reached. -/
structure Site where
  relay : RelayAddress
  lobby : Lobby
  load : Option NodeLoad

namespace Site

def isUp (s : Site) : Bool := s.load.isSome

def answer {α : Type} (s : Site) (found : NodeLoad → α) : Except ProbeError α :=
  s.load.elim (.error .request) fun load => .ok (found load)

def rooms (s : Site) : Except ProbeError (List RoomListing) :=
  s.answer fun _ => s.lobby.listings s.relay

end Site

abbrev Sites := NodeTarget → Site

def Sites.set (sites : Sites) (target : NodeTarget) (site : Site) : Sites :=
  fun other => if other = target then site else sites other

def Probe.sites : Probe Sites where
  load target := fun sites => ((sites target).answer id, sites)
  rooms target := fun sites => ((sites target).rooms, sites)

namespace Overlap

def asks? (o : Overlap) (i : Nat) : Option NodeTarget :=
  (o.sweep? i).bind fun sweep => sweep.pending.head?.map Prod.snd

def hasAsked (o : Overlap) (i : Nat) : Bool := (o.sweep? i).any fun sweep => sweep.pending.isEmpty

theorem asks?_eq_some {o : Overlap} {i : Nat} {target : NodeTarget} :
    o.asks? i = some target ↔
      ∃ harvest relay pending, o.sweep? i = some ⟨(relay, target) :: pending, harvest⟩ := by
  rw [asks?, Option.bind_eq_some_iff]
  constructor
  · rintro ⟨⟨_ | ⟨⟨relay, target⟩, pending⟩, harvest⟩, under, first⟩
    · contradiction
    · obtain rfl := Option.some.inj first
      exact ⟨harvest, relay, pending, under⟩
  · rintro ⟨harvest, relay, pending, under⟩
    exact ⟨_, under, rfl⟩

theorem hasAsked_iff {o : Overlap} {i : Nat} :
    o.hasAsked i = true ↔ ∃ harvest, o.sweep? i = some ⟨[], harvest⟩ := by
  rw [hasAsked, Option.any_eq_true]
  constructor
  · rintro ⟨⟨pending, harvest⟩, under, done⟩
    obtain rfl := List.isEmpty_iff.mp done
    exact ⟨harvest, under⟩
  · rintro ⟨harvest, under⟩
    exact ⟨_, under, rfl⟩

theorem sweep?_eq_some {o : Overlap} {i : Nat} {sweep : RoomSweep} :
    o.sweep? i = some sweep ↔ o.sweeps[i]? = some (some sweep) := by
  simp [sweep?, Option.join_eq_some_iff]

theorem sweep?_begun {o : Overlap} {i : Nat} {sweep : RoomSweep} (under : o.sweep? i = some sweep) :
    i < o.sweeps.length :=
  (List.getElem?_eq_some_iff.mp (sweep?_eq_some.mp under)).1

theorem getElem?_begun {sweeps : List (Option RoomSweep)} {new sweep : RoomSweep} {i : Nat} :
    (sweeps ++ [some new])[i]? = some (some sweep) ↔
      sweeps[i]? = some (some sweep) ∨ (i = sweeps.length ∧ new = sweep) := by
  rcases Nat.lt_trichotomy i sweeps.length with before | rfl | after
  · simp [List.getElem?_append_left before, Nat.ne_of_lt before]
  · simp
  · have past : i - sweeps.length ≠ 0 := by omega
    simp [List.getElem?_append_right (Nat.le_of_lt after), past,
      List.getElem?_eq_none (Nat.le_of_lt after), Nat.ne_of_gt after]

theorem sweep?_set {o : Overlap} {i : Nat} (begun : i < o.sweeps.length) (f : Fleet)
    (sweep : Option RoomSweep) (j : Nat) :
    (⟨f, o.sweeps.set i sweep⟩ : Overlap).sweep? j = if j = i then sweep else o.sweep? j := by
  rw [sweep?, List.getElem?_set]
  by_cases same : i = j
  · simp [← same, begun]
  · simp [same, Ne.symm same, sweep?]

theorem commit_idle {o : Overlap} {i : Nat} (now : Nat) (early : o.hasAsked i = false) :
    (o.step now (.commit i)).1 = o := by
  simp only [step]
  split
  · rename_i harvest under
    rw [hasAsked_iff.mpr ⟨harvest, under⟩] at early
    contradiction
  · rfl

theorem issue_fleet (o : Overlap) (now : Nat) :
    (o.step now .issue).1 = ⟨(o.fleet.issueRoomId now).2, o.sweeps⟩ := by
  unfold step
  generalize o.fleet.issueRoomId now = issued
  rfl

theorem issue_id (o : Overlap) (now : Nat) :
    (o.step now .issue).2 = (o.fleet.issueRoomId now).1.toOption := by
  unfold step
  generalize o.fleet.issueRoomId now = issued
  rfl

end Overlap

structure Federation where
  balancer : Overlap
  sites : Sites
  now : Nat

inductive Move where
  | wait (time : Nat)
  | serve (target : NodeTarget) (request : LobbyRequest)
  /-- From now on a node reports this load, or cannot be reached. -/
  | report (target : NodeTarget) (load : Option NodeLoad)
  | register (relay : RelayAddress) (target : NodeTarget)
  | select (hint : Option Region)
  /-- A health check, of which the sweep that may come at its end is a sweep like any other. -/
  | refresh
  | begin
  | visit (sweep : Nat)
  | commit (sweep : Nat)
  | issue

inductive Sight where
  | visited (sweep : Nat) (site : Site)
  | ended (sweep : Nat)
  | issued (id : String) (time : Nat)

namespace Federation

/-- Nobody is registered, no node can be reached yet and no room is open. -/
def start (config : FleetConfig) (dice : Dice) (now : Nat) (relays : NodeTarget → RelayAddress) :
    Federation where
  balancer := ⟨.start config dice now, []⟩
  sites := fun target => ⟨relays target, .empty, none⟩
  now := now

def fleet (w : Federation) : Fleet := w.balancer.fleet

def withFleet (w : Federation) (fleet : Fleet) : Federation :=
  { w with balancer := { w.balancer with fleet } }

def setSite (w : Federation) (target : NodeTarget) (site : Site) : Federation :=
  { w with sites := w.sites.set target site }

def call (w : Federation) (c : FleetCall) : Federation :=
  w.withFleet (Fleet.next Probe.sites (w.fleet, w.sites) w.now c).1

def balance (w : Federation) (s : OverlapStep) : Federation :=
  { w with balancer := (w.balancer.step w.now s).1 }

def issues? (w : Federation) : Option String := (w.fleet.issueRoomId w.now).1.toOption

/-- Steps that are not possible change nothing. -/
def step (w : Federation) : Move → Federation
  | .wait time => { w with now := w.now + time }
  | .serve target request =>
    let site := w.sites target
    w.setSite target { site with lobby := (site.lobby.serve request).1 }
  | .report target load => w.setSite target { w.sites target with load }
  | .register relay target => w.call (.register relay target)
  | .select hint => w.call (.select hint)
  | .refresh =>
    w.withFleet (Fleet.refreshLoads Probe.sites w.fleet.targets w.fleet w.sites).1.2
  | .begin => w.balance .begin
  | .visit i =>
    (w.balancer.asks? i).elim w fun target => w.balance (.visit i (w.sites target).rooms)
  | .commit i => w.balance (.commit i)
  | .issue => w.balance .issue

def sights (w : Federation) : Move → Option Sight
  | .visit i => (w.balancer.asks? i).map fun target => .visited i (w.sites target)
  | .commit i => if w.balancer.hasAsked i then some (.ended i) else none
  | .issue => w.issues?.map fun id => .issued id w.now
  | _ => none

def course (w : Federation) (notes : List Sight) : List Move → Federation × List Sight
  | [] => (w, notes)
  | m :: rest => (w.step m).course ((w.sights m).toList ++ notes) rest

/-! A sweep that nothing interrupts is the sweep of the balancer. -/

theorem visit_step {w : Federation} {i : Nat} {relay : RelayAddress} {target : NodeTarget}
    {pending : List (RelayAddress × NodeTarget)} {h : Harvest}
    (under : w.balancer.sweep? i = some ⟨(relay, target) :: pending, h⟩) :
    w.step (.visit i) =
      let absorbed := w.fleet.absorb h relay (w.sites target).rooms
      { w with
        balancer := ⟨absorbed.2, w.balancer.sweeps.set i (some ⟨pending, absorbed.1⟩)⟩ } := by
  have asked : w.balancer.asks? i = some target := by simp [Overlap.asks?, under]
  simp only [step, asked, Option.elim_some, balance, Overlap.step, under]
  rfl

theorem commit_step {w : Federation} {i : Nat} {h : Harvest}
    (under : w.balancer.sweep? i = some ⟨[], h⟩) :
    w.step (.commit i) =
      { w with balancer := ⟨w.fleet.commit h w.now, w.balancer.sweeps.set i none⟩ } := by
  simp only [step, balance, Overlap.step, under]
  rfl

theorem commit_early {i : Nat} (w : Federation) (early : w.balancer.hasAsked i = false) :
    w.step (.commit i) = w := by
  show w.balance (.commit i) = w
  rw [balance, Overlap.commit_idle w.now early]

theorem issue_step (w : Federation) :
    w.step .issue = w.withFleet (w.fleet.issueRoomId w.now).2 := by
  show w.balance .issue = _
  rw [balance, Overlap.issue_fleet]
  rfl

theorem visits_eq_gather (w : Federation) (notes : List Sight) {i : Nat}
    {pending : List (RelayAddress × NodeTarget)} {h : Harvest}
    (under : w.balancer.sweep? i = some ⟨pending, h⟩) :
    (w.course notes (List.replicate pending.length (.visit i) ++ [.commit i])).1.fleet =
      let out := (Fleet.gather Probe.sites pending h w.fleet w.sites).1
      out.2.commit out.1 w.now := by
  induction pending generalizing w notes h with
  | nil =>
    show (w.step (.commit i)).fleet = _
    rw [commit_step under]
    rfl
  | cons node rest ih =>
    obtain ⟨relay, target⟩ := node
    have remaining : (w.step (.visit i)).balancer.sweep? i =
        some ⟨rest, (w.fleet.absorb h relay (w.sites target).rooms).1⟩ := by
      rw [visit_step under, Overlap.sweep?_set (Overlap.sweep?_begun under), if_pos rfl]
    rw [List.length_cons, List.replicate_succ, List.cons_append, course, ih _ _ remaining,
      visit_step under]
    rfl

theorem sweep_eq_aggregate (w : Federation) (notes : List Sight) :
    let i := w.balancer.sweeps.length
    (w.course notes
        (.begin :: List.replicate w.fleet.targets.length (.visit i) ++ [.commit i])).1.fleet =
      (w.fleet.aggregate Probe.sites w.now w.sites).1 := by
  intro i
  have under : (w.step .begin).balancer.sweep? i = some ⟨w.fleet.targets, .empty⟩ := by
    simp [step, balance, Overlap.step, Overlap.sweep?, i, fleet]
  exact visits_eq_gather (w.step .begin) notes under

end Federation

end PeerRelay
