import PeerRelay.Proofs.Fleet.Federation
import PeerRelay.Proofs.Fleet.Listing
import PeerRelay.Proofs.Fleet.RoomIds
import PeerRelay.Proofs.Lobby.Listings

/-!
Which room ids a balancer can issue. It passes over an id that the sweep that ended last saw, and
over one that it issued not too long ago, unless a sweep has seen that one since. Nothing else
protects an id, so a room can be open on a registered node while its id is issued again.
-/
namespace PeerRelay

/-! What the notes of a course tell about an id -/

def Site.Shows (s : Site) (id : String) : Prop :=
  ∃ room, s.lobby.get? id = some room ∧ room.isPublic = true

theorem Site.rooms_show {s : Site} (consistent : s.lobby.Consistent) (id : String) :
    (∃ listings, s.rooms = .ok listings ∧ ∃ listing ∈ listings, listing.serverId = id) ↔
      s.isUp = true ∧ s.Shows id := by
  obtain ⟨relay, lobby, load⟩ := s
  cases load with
  | none => simp [rooms, answer, isUp]
  | some load =>
    have listed : (∃ listing ∈ lobby.listings relay, listing.serverId = id) ↔
        ∃ room, lobby.get? id = some room ∧ room.isPublic = true := by
      constructor
      · rintro ⟨listing, mem, rfl⟩
        obtain ⟨room, stored, isPublic, _⟩ := (Lobby.mem_listings_iff consistent).mp mem
        exact ⟨room, stored, isPublic⟩
      · rintro ⟨room, stored, isPublic⟩
        obtain rfl := consistent.own_id stored
        exact ⟨room.listing relay,
          (Lobby.mem_listings_iff consistent).mpr ⟨room, stored, isPublic, rfl⟩, rfl⟩
    simpa [rooms, answer, isUp, Shows] using listed

namespace Sight
open IdEvent

variable {notes : List Sight} {note : Sight} {i : Nat}

def asked (sweep : Nat) : List Sight → List Site
  | [] => []
  | .visited j site :: earlier =>
    if j = sweep then site :: asked sweep earlier else asked sweep earlier
  | _ :: earlier => asked sweep earlier

def Saw (sites : List Site) (id : String) : Prop :=
  ∃ site ∈ sites, site.isUp = true ∧ site.Shows id

def log : List Sight → List (IdEvent (List Site))
  | [] => []
  | .visited .. :: earlier => log earlier
  | .ended sweep :: earlier => .swept (asked sweep earlier) :: log earlier
  | .issued id time :: earlier => .issued id time :: log earlier

def Known (notes : List Sight) (id : String) : Prop := Listed Saw (log notes) id

def Held (keep now : Nat) (notes : List Sight) (id : String) : Prop :=
  Kept Saw keep now (log notes) id

theorem saw_cons {site : Site} {sites : List Site} {id : String} :
    Saw (site :: sites) id ↔ (site.isUp = true ∧ site.Shows id) ∨ Saw sites id := by
  simp [Saw]

/-- The notes tell what the sweeps under way have gathered. -/
structure Followed (sweeps : List (Option RoomSweep)) (notes : List Sight) : Prop where
  begun : ∀ {i}, sweeps.length ≤ i → asked i notes = []
  gathered : ∀ {i under}, sweeps[i]? = some (some under) →
    ∀ id, under.harvest.ids.contains id = true ↔ Saw (asked i notes) id

namespace Followed

variable {sweeps : List (Option RoomSweep)} {under : RoomSweep}

theorem begin (h : Followed sweeps notes) (targets : List (RelayAddress × NodeTarget)) :
    Followed (sweeps ++ [some ⟨targets, .empty⟩]) notes where
  begun late := h.begun (by rw [List.length_append] at late; omega)
  gathered now id := by
    rcases Overlap.getElem?_begun.mp now with earlier | ⟨rfl, rfl⟩
    · exact h.gathered earlier id
    · -- the new sweep has asked nobody yet
      simp [h.begun (Nat.le_refl _), Harvest.empty, Saw]

theorem set (h : Followed sweeps notes) (now : sweeps[i]? = some (some under))
    {later : Option RoomSweep} (own : ∀ j ≠ i, asked j (note :: notes) = asked j notes)
    (gathered : ∀ {goes_on}, later = some goes_on →
      ∀ id, goes_on.harvest.ids.contains id = true ↔ Saw (asked i (note :: notes)) id) :
    Followed (sweeps.set i later) (note :: notes) := by
  have there := (List.getElem?_eq_some_iff.mp now).1
  constructor
  case begun =>
    intro j late
    rw [List.length_set] at late
    rw [own j (by omega), h.begun late]
  case gathered =>
    intro j goes_on now id
    by_cases same : i = j
    · subst same
      rw [List.getElem?_set_self there] at now
      exact gathered (Option.some.inj now) id
    · rw [List.getElem?_set_ne same] at now
      rw [own j (Ne.symm same), h.gathered now]

end Followed

end Sight

namespace Federation
open Sight Fleet IdEvent

variable {config : FleetConfig} {w : Federation} {notes : List Sight}

structure Noted (config : FleetConfig) (w : Federation) (notes : List Sight) : Prop where
  configured : w.fleet.config = config
  lobbies : ∀ target, (w.sites target).lobby.Consistent
  followed : Followed w.balancer.sweeps notes
  remembers : Remembers Saw config.idReservation w.now w.fleet.index (log notes)

theorem start_noted (dice : Dice) (now : Nat) (relays : NodeTarget → RelayAddress) :
    Noted config (start config dice now relays) [] where
  configured := rfl
  lobbies _ := Lobby.empty_consistent
  followed := ⟨fun _ => rfl, by simp [start]⟩
  remembers := .empty

structure Unmoved (w v : Federation) : Prop where
  configured : v.fleet.config = w.fleet.config
  index : v.fleet.index = w.fleet.index
  sweeps : v.balancer.sweeps = w.balancer.sweeps
  later : w.now ≤ v.now
  lobbies : (∀ target, (w.sites target).lobby.Consistent) →
    ∀ target, (v.sites target).lobby.Consistent

theorem Noted.unmoved {v : Federation} (h : Noted config w notes) (same : Unmoved w v) :
    Noted config v notes where
  configured := same.configured.trans h.configured
  lobbies := same.lobbies h.lobbies
  followed := same.sweeps ▸ h.followed
  remembers := same.index ▸ h.remembers.later same.later

theorem learnAll_unmoved {asked : List FleetNote} (quiet : ∀ note ∈ asked, ¬ note.Sweeps) :
    Unmoved w (w.withFleet (w.fleet.learnAll asked)) where
  configured := learnAll_config w.fleet asked
  index := learnAll_index w.fleet quiet
  sweeps := rfl
  later := Nat.le_refl _
  lobbies consistent := consistent

theorem register_unmoved (w : Federation) (relay : RelayAddress) (target : NodeTarget) :
    Unmoved w (w.step (.register relay target)) := by
  show Unmoved w (w.withFleet (next Probe.sites (w.fleet, w.sites) w.now _).1)
  rw [next_eq_learnAll]
  exact learnAll_unmoved (w.fleet.register_never_sweeps Probe.sites w.now relay target w.sites)

theorem select_unmoved (w : Federation) (hint : Option Region) :
    Unmoved w (w.step (.select hint)) := by
  show Unmoved w (w.withFleet (next Probe.sites (w.fleet, w.sites) w.now _).1)
  rw [next_eq_learnAll]
  exact learnAll_unmoved (w.fleet.select_never_sweeps Probe.sites w.now hint w.sites)

theorem refresh_unmoved (w : Federation) : Unmoved w (w.step .refresh) := by
  show Unmoved w (w.withFleet (refreshLoads Probe.sites w.fleet.targets w.fleet w.sites).1.2)
  rw [refreshLoads_eq]
  exact learnAll_unmoved
    (askLoads_all (¬ ·.Sweeps) (fun _ _ => id) Probe.sites w.fleet.targets w.sites)

theorem setSite_unmoved (w : Federation) (target : NodeTarget) (site : Site)
    (kept : (w.sites target).lobby.Consistent → site.lobby.Consistent) :
    Unmoved w (w.setSite target site) where
  configured := rfl
  index := rfl
  sweeps := rfl
  later := Nat.le_refl _
  lobbies consistent other := by
    show (if other = target then site else w.sites other).lobby.Consistent
    split
    · exact kept (consistent target)
    · exact consistent other

/-! The moves that matter -/

theorem visit_noted (h : Noted config w notes) {i : Nat} {relay : RelayAddress}
    {target : NodeTarget} {pending : List (RelayAddress × NodeTarget)} {harvest : Harvest}
    (under : w.balancer.sweep? i = some ⟨(relay, target) :: pending, harvest⟩) :
    Noted config (w.step (.visit i)) (.visited i (w.sites target) :: notes) := by
  have now := Overlap.sweep?_eq_some.mp under
  have gathered := w.fleet.absorb_ids_contains harvest relay (w.sites target).rooms
  obtain ⟨configured, index⟩ := w.fleet.absorb_fleet harvest relay (w.sites target).rooms
  rw [visit_step under]
  generalize w.fleet.absorb harvest relay (w.sites target).rooms = absorbed at *
  constructor
  · exact configured.trans h.configured
  · exact h.lobbies
  · refine h.followed.set now (fun j other => if_neg other.symm) fun same id => ?_
    obtain rfl := Option.some.inj same
    rw [gathered, h.followed.gathered now, Site.rooms_show (h.lobbies target), asked, if_pos rfl,
      saw_cons, or_comm]
  · show Remembers Saw _ w.now absorbed.2.index (log notes)
    rw [index]
    exact h.remembers

theorem commit_noted (h : Noted config w notes) {i : Nat} {harvest : Harvest}
    (under : w.balancer.sweep? i = some ⟨[], harvest⟩) :
    Noted config (w.step (.commit i)) (.ended i :: notes) := by
  have now := Overlap.sweep?_eq_some.mp under
  rw [commit_step under]
  exact ⟨h.configured, h.lobbies, h.followed.set now (fun _ _ => rfl) nofun,
    h.remembers.swept (h.followed.gathered now)⟩

theorem issue_noted (h : Noted config w notes) :
    Noted config (w.step .issue) ((w.sights .issue).toList ++ notes) := by
  obtain ⟨rfl, lobbies, followed, remembers⟩ := h
  have later := remembers.issue
  have configured := w.fleet.issueRoomId_config w.now
  have sighted : w.sights .issue =
      (w.fleet.issueRoomId w.now).1.toOption.map fun id => .issued id w.now := by
    rw [sights, issues?]
  rw [issue_step, sighted]
  generalize w.fleet.issueRoomId w.now = result at *
  refine ⟨configured, lobbies, ?_, ?_⟩
  · cases result.1.toOption <;> exact ⟨followed.begun, followed.gathered⟩
  · cases given : result.1.toOption <;>
    · rw [given] at later
      exact later

theorem step_noted (h : Noted config w notes) (m : Move) :
    Noted config (w.step m) ((w.sights m).toList ++ notes) := by
  cases m with
  | wait time => exact h.unmoved ⟨rfl, rfl, rfl, Nat.le_add_right _ _, id⟩
  | serve target request =>
    exact h.unmoved (w.setSite_unmoved target _ (Lobby.serve_consistent _ request))
  | report target load => exact h.unmoved (w.setSite_unmoved target _ id)
  | register relay target => exact h.unmoved (w.register_unmoved relay target)
  | select hint => exact h.unmoved (w.select_unmoved hint)
  | refresh => exact h.unmoved w.refresh_unmoved
  | begin =>
    exact ⟨h.configured, h.lobbies, h.followed.begin w.fleet.targets, h.remembers⟩
  | visit i =>
    cases asked : w.balancer.asks? i with
    | none => simpa [step, sights, asked] using h
    | some target =>
      obtain ⟨harvest, relay, pending, under⟩ := Overlap.asks?_eq_some.mp asked
      simpa [sights, asked] using visit_noted h under
  | commit i =>
    by_cases asked : w.balancer.hasAsked i = true
    · obtain ⟨harvest, under⟩ := Overlap.hasAsked_iff.mp asked
      simpa [sights, asked] using commit_noted h under
    · rw [w.commit_early (by simpa using asked)]
      simpa [sights, asked] using h
  | issue => exact issue_noted h

theorem course_noted (h : Noted config w notes) (moves : List Move) :
    Noted config (w.course notes moves).1 (w.course notes moves).2 := by
  induction moves generalizing w notes with
  | nil => exact h
  | cons m rest ih => exact ih (step_noted h m)

theorem issues?_ok {id : String} (now : w.issues? = some id) :
    (w.fleet.issueRoomId w.now).1 = .ok id := by
  rw [issues?] at now
  exact ok_of_toOption now

/-- After any course of moves, an id that the sweep that ended last saw is not issued, nor is one
    that was issued less than the reservation time ago, unless a sweep has seen it since. Every
    other word of the alphabet is issued for some dice, whatever rooms are open then. -/
theorem issuable_iff (config : FleetConfig) (dice : Dice) (started : Nat)
    (relays : NodeTarget → RelayAddress) (moves : List Move) (id : String) :
    let out := (start config dice started relays).course [] moves
    let free := ¬ Known out.2 id ∧ ¬ Held config.idReservation out.1.now out.2 id
    (out.1.issues? = some id → free) ∧
      ((∃ dice, (({ out.1.fleet with dice } : Fleet).issueRoomId out.1.now).1 = .ok id) ↔
        (∃ roll, config.idAlphabet.word config.idLength roll = id) ∧ free) := by
  intro out free
  have h : Noted config out.1 out.2 := course_noted (start_noted dice started relays) moves
  have passed : free ↔ ¬ out.1.fleet.PassesOver out.1.now id := by
    rw [h.remembers.passesOver_iff, not_or]
    rfl
  have words : (∃ roll, out.1.fleet.config.idAlphabet.word out.1.fleet.config.idLength roll = id) ↔
      ∃ roll, config.idAlphabet.word config.idLength roll = id := by
    rw [h.configured]
  have possible := (out.1.fleet.issueRoomId_iff out.1.now id).trans (and_congr words passed.symm)
  exact ⟨fun now => (possible.mp ⟨out.1.fleet.dice, issues?_ok now⟩).2, possible⟩

def smallTarget : NodeTarget := ⟨"10.0.0.1", 8080⟩

def smallRoom (isPublic : Bool) : RoomSettings := ⟨4, "Lobby", isPublic, "", false, "", false, 0⟩

def nodeReady : Federation :=
  ((start smallFleet ⟨fun _ _ => 0, 0⟩ 0 fun _ => smallRelay).course []
    [.report smallTarget (some default), .register smallRelay smallTarget]).1

def privateOpened : List Move :=
  [.issue, .serve smallTarget (.create ⟨1⟩ "00000" (smallRoom false) none), .wait 60000]

def publicOpened : List Move :=
  [.issue, .serve smallTarget (.create ⟨1⟩ "00000" (smallRoom true) none),
   .begin, .visit 0, .commit 0]

def nodeBack : List Move :=
  [.report smallTarget none, .begin, .visit 1, .commit 1,
   .report smallTarget (some default), .register smallRelay smallTarget]

/-- A private room outlives the reservation of its id, or the node of a public one is evicted and
    registers again: the room is open, the node is registered, and the id is issued once more. -/
theorem open_room_issued_again :
    nodeReady.issues? = some "00000" ∧
      ∀ moves ∈ [privateOpened, publicOpened ++ nodeBack],
        let w := (nodeReady.course [] moves).1
        w.fleet.targets = [(smallRelay, smallTarget)] ∧
          ((w.sites smallTarget).lobby.get? "00000").isSome = true ∧ w.issues? = some "00000" := by
  decide +kernel

end Federation

end PeerRelay
