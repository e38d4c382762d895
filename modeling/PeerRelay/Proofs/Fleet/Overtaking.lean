import PeerRelay.Proofs.Fleet.Federation
import PeerRelay.Proofs.Fleet.Listing
import PeerRelay.Proofs.Fleet.RoomIds

/-!
What sweeps that overlap do to each other's results. Every sweep installs what it was answered
itself, whatever other sweeps have installed since it asked. A sweep that begins when another one is
over has only newer answers than that one; of two that overlap the one that is over last prevails,
even if its answers are the older ones.
-/
namespace PeerRelay

inductive SweepNote where
  | began (sweep : Nat)
  | answered (sweep : Nat) (relay : RelayAddress) (answer : Except ProbeError (List RoomListing))
  | installed (sweep : Nat)

namespace SweepNote
open ListedRoom

def sweep : SweepNote → Nat
  | .began i | .answered i _ _ | .installed i => i

def rooms (sweep : Nat) : SweepNote → List ListedRoom
  | .answered i relay (.ok listings) =>
    if i = sweep then listings.map fun listing => ⟨relay, listing⟩ else []
  | _ => []

def offered (sweep : Nat) (log : List SweepNote) : List ListedRoom := log.flatMap (rooms sweep)

def installed? : SweepNote → Option Nat
  | .installed i => some i
  | _ => none

def last? (log : List SweepNote) : Option Nat := (log.filterMap installed?).getLast?

def Lists (answer : Except ProbeError (List RoomListing)) (id : String) : Prop :=
  ∃ listings, answer = .ok listings ∧ ∃ listing ∈ listings, listing.serverId = id

variable {log more : List SweepNote} {sweep i : Nat}

theorem rooms_other {note : SweepNote} (other : note.sweep ≠ i) : rooms i note = [] := by
  unfold rooms
  split
  · exact if_neg other
  · rfl

theorem offered_other (other : ∀ note ∈ log, note.sweep ≠ i) : offered i log = [] :=
  List.flatMap_eq_nil_iff.mpr fun note member => rooms_other (other note member)

@[simp] theorem offered_append (sweep : Nat) (log more : List SweepNote) :
    offered sweep (log ++ more) = offered sweep log ++ offered sweep more :=
  List.flatMap_append

theorem offered_snoc (i : Nat) (log : List SweepNote) (note : SweepNote) :
    offered i (log ++ [note]) = offered i log ++ rooms i note := by
  simp [offered]

theorem offered_snoc_other {note : SweepNote} (other : rooms i note = []) :
    offered i (log ++ [note]) = offered i log := by
  rw [offered_snoc, other, List.append_nil]

theorem last?_quiet (quiet : more.filterMap installed? = []) : last? (log ++ more) = last? log := by
  rw [last?, List.filterMap_append, quiet, List.append_nil]
  rfl

@[simp] theorem last?_installed (log : List SweepNote) (sweep : Nat) :
    last? (log ++ [.installed sweep]) = some sweep := by
  simp [last?, installed?]

theorem last?_mem (last : last? log = some sweep) : .installed sweep ∈ log := by
  obtain ⟨note, member, same⟩ := List.mem_filterMap.mp (List.mem_of_getLast? last)
  cases note with
  | installed i =>
    obtain rfl := Option.some.inj same
    exact member
  | _ => simp [installed?] at same

theorem mem_offered {room : ListedRoom} (member : room ∈ offered i log) :
    ∃ answer, .answered i room.node answer ∈ log ∧ Lists answer room.id := by
  obtain ⟨note, told, inside⟩ := List.mem_flatMap.mp member
  unfold rooms at inside
  split at inside
  · rename_i j relay listings
    split at inside
    · rename_i same
      subst same
      obtain ⟨listing, listed, rfl⟩ := List.mem_map.mp inside
      exact ⟨_, told, listings, rfl, listing, listed, rfl⟩
    · contradiction
  · contradiction

/-- An id that a node listed is that of the first room with it, which is of this node or of one that
    the sweep asked before. -/
theorem first_listed (i : Nat) (early late : List SweepNote) (relay : RelayAddress) {id : String}
    {answer : Except ProbeError (List RoomListing)} (lists : Lists answer id) :
    ∃ room ∈ firsts (offered i (early ++ .answered i relay answer :: late)), room.id = id ∧
      (room.node = relay ∨ ∃ first, .answered i room.node first ∈ early ∧ Lists first id) := by
  obtain ⟨listings, rfl, listing, listed, rfl⟩ := lists
  have cut : offered i (early ++ .answered i relay (.ok listings) :: late) =
      (offered i early ++ listings.map fun listing => ⟨relay, listing⟩) ++ offered i late := by
    rw [← List.singleton_append, ← List.append_assoc, offered_append, offered_snoc]
    simp [rooms]
  have told : ∃ room ∈ offered i early ++ listings.map fun listing => ⟨relay, listing⟩,
      room.id = listing.serverId :=
    ⟨⟨relay, listing⟩, List.mem_append_right _ (List.mem_map_of_mem listed), rfl⟩
  obtain ⟨room, first, same⟩ := firsts_complete told
  rw [cut]
  refine ⟨room, (firsts_begins _ _).subset first, same, ?_⟩
  rcases List.mem_append.mp ((firsts_sublist _).subset first) with before | own
  · obtain ⟨answer, told, has⟩ := mem_offered before
    exact Or.inr ⟨answer, told, same ▸ has⟩
  · obtain ⟨_, -, rfl⟩ := List.mem_map.mp own
    exact Or.inl rfl

end SweepNote

namespace Overlap
open ListedRoom SweepNote

def notes (o : Overlap) : OverlapStep → List SweepNote
  | .begin => [.began o.sweeps.length]
  | .visit i answer =>
    match o.sweep? i with
    | some ⟨(relay, _) :: _, _⟩ => [.answered i relay answer]
    | _ => []
  | .commit i => if o.hasAsked i then [.installed i] else []
  | .issue => []

def log (o : Overlap) : List (Nat × OverlapStep) → List SweepNote
  | [] => []
  | (now, s) :: rest => o.notes s ++ (o.step now s).1.log rest

def Follows (before : List SweepNote) : SweepNote → Prop
  | .began i => ∀ note ∈ before, note.sweep ≠ i
  | .answered i _ _ | .installed i => .began i ∈ before ∧ .installed i ∉ before

def Ordered (log : List SweepNote) : Prop :=
  ∀ before note after, log = before ++ note :: after → Follows before note

theorem Ordered.snoc {log : List SweepNote} {note : SweepNote} (ordered : Ordered log)
    (next : Follows log note) : Ordered (log ++ [note]) := by
  intro before other after cut
  rcases List.eq_nil_or_concat after with rfl | ⟨rest, final, rfl⟩
  · obtain ⟨rfl, same⟩ := List.append_inj' cut rfl
    exact List.singleton_inj.mp same ▸ next
  · rw [List.concat_eq_append, ← List.cons_append, ← List.append_assoc] at cut
    obtain ⟨same, -⟩ := List.append_inj' cut rfl
    exact ordered _ _ _ same

theorem Ordered.apart {log before after : List SweepNote} {i j : Nat} (ordered : Ordered log)
    (cut : log = before ++ .began j :: after) (installed : .installed i ∈ before)
    (relay : RelayAddress) (answer : Except ProbeError (List RoomListing)) :
    .answered i relay answer ∉ after ∧ .answered j relay answer ∉ before := by
  constructor
  · intro told
    obtain ⟨first, rest, rfl⟩ := List.append_of_mem told
    have follows := ordered (before ++ .began j :: first) (.answered i relay answer) rest
      (by simp [cut])
    exact follows.2 (List.mem_append_left _ installed)
  · intro told
    exact ordered _ _ _ cut _ told rfl

/-- The notes tell what each sweep has gathered, and what the index holds. -/
structure Logged (f : Fleet) (o : Overlap) (log : List SweepNote) : Prop where
  begun : ∀ note ∈ log, note.sweep < o.sweeps.length
  under : ∀ {i sweep}, o.sweep? i = some sweep →
    .began i ∈ log ∧ .installed i ∉ log ∧ sweep.harvest = Harvest.empty.file (offered i log)
  ordered : Ordered log
  fresh : last? log = none →
    o.fleet.index.buckets = f.index.buckets ∧ o.fleet.index.ids = f.index.ids
  last : ∀ {i}, last? log = some i →
    o.fleet.index.buckets = (Harvest.empty.file (offered i log)).buckets ∧
      o.fleet.index.ids = (Harvest.empty.file (offered i log)).ids

variable {f g : Fleet} {o : Overlap} {log : List SweepNote} {i : Nat}

theorem start_logged (f : Fleet) : Logged f ⟨f, []⟩ [] where
  begun := nofun
  under now := nomatch now
  ordered _ _ _ cut := by simp at cut
  fresh _ := ⟨rfl, rfl⟩
  last same := nomatch same

theorem begin_logged (logged : Logged f o log) (now : Nat) :
    Logged f (o.step now .begin).1 (log ++ [.began o.sweeps.length]) where
  begun note member := by
    show note.sweep < (o.sweeps ++ [_]).length
    rw [List.length_append, List.length_singleton]
    rcases List.mem_append.mp member with old | new
    · have := logged.begun note old
      omega
    · obtain rfl := List.mem_singleton.mp new
      exact Nat.lt_succ_self _
  under {i sweep} now := by
    have old : (o.sweeps ++ [some ⟨o.fleet.targets, .empty⟩])[i]? = some (some sweep) :=
      sweep?_eq_some.mp now
    rcases getElem?_begun.mp old with before | ⟨rfl, rfl⟩
    · rw [offered_snoc_other rfl]
      obtain ⟨began, open_, gathered⟩ := logged.under (sweep?_eq_some.mpr before)
      exact ⟨List.mem_append_left _ began, by simpa using open_, gathered⟩
    · -- the new sweep has asked nobody yet
      have other : ∀ note ∈ log, note.sweep ≠ o.sweeps.length := fun note member =>
        Nat.ne_of_lt (logged.begun note member)
      refine ⟨by simp, fun member => ?_, ?_⟩
      · rcases List.mem_append.mp member with earlier | new
        · exact other _ earlier rfl
        · simp at new
      · rw [offered_snoc_other rfl, offered_other other]
        rfl
  ordered := logged.ordered.snoc fun note member => Nat.ne_of_lt (logged.begun note member)
  fresh none := logged.fresh (by rwa [last?_quiet rfl] at none)
  last {i} some := by
    rw [offered_snoc_other rfl]
    exact logged.last (by rwa [last?_quiet rfl] at some)

theorem Logged.set (logged : Logged f o log) (place : i < o.sweeps.length) {note : SweepNote}
    (own : note.sweep = i) {later : Option RoomSweep}
    (goes_on : ∀ sweep, later = some sweep → .began i ∈ log ++ [note] ∧
      .installed i ∉ log ++ [note] ∧
      sweep.harvest = Harvest.empty.file (offered i (log ++ [note])))
    (follows : Follows log note)
    (fresh : last? (log ++ [note]) = none →
      g.index.buckets = f.index.buckets ∧ g.index.ids = f.index.ids)
    (last : ∀ {i}, last? (log ++ [note]) = some i →
      g.index.buckets = (Harvest.empty.file (offered i (log ++ [note]))).buckets ∧
        g.index.ids = (Harvest.empty.file (offered i (log ++ [note]))).ids) :
    Logged f ⟨g, o.sweeps.set i later⟩ (log ++ [note]) where
  begun other member := by
    rw [List.length_set]
    rcases List.mem_append.mp member with old | new
    · exact logged.begun other old
    · obtain rfl := List.mem_singleton.mp new
      exact own ▸ place
  under {j sweep} there := by
    rw [sweep?_set place] at there
    split at there
    · rename_i same
      subst same
      exact goes_on sweep there
    · rename_i other
      obtain ⟨began, uninstalled, gathered⟩ := logged.under there
      refine ⟨List.mem_append_left _ began, fun member => ?_, ?_⟩
      · rcases List.mem_append.mp member with old | new
        · exact uninstalled old
        · exact other ((congrArg SweepNote.sweep (List.mem_singleton.mp new)).trans own)
      · rw [offered_snoc_other (rooms_other (own ▸ Ne.symm other)), gathered]
  ordered := logged.ordered.snoc follows
  fresh := fresh
  last := last

theorem visit_logged {relay : RelayAddress} {target : NodeTarget}
    {pending : List (RelayAddress × NodeTarget)} {harvest : Harvest}
    (logged : Logged f o log) (now : Nat)
    (under : o.sweep? i = some ⟨(relay, target) :: pending, harvest⟩)
    (answer : Except ProbeError (List RoomListing)) :
    Logged f (o.step now (.visit i answer)).1 (log ++ [.answered i relay answer]) := by
  obtain ⟨began, uninstalled, gathered⟩ := logged.under under
  obtain ⟨-, index⟩ := o.fleet.absorb_fleet harvest relay answer
  have absorbed : (o.fleet.absorb harvest relay answer).1 =
      harvest.file (rooms i (.answered i relay answer)) := by
    cases answer with
    | ok listings => simp [Fleet.absorb, rooms, Harvest.addAll_eq_file]
    | error e => rfl
  have visited : (o.step now (.visit i answer)).1 =
      ⟨(o.fleet.absorb harvest relay answer).2,
        o.sweeps.set i (some ⟨pending, (o.fleet.absorb harvest relay answer).1⟩)⟩ := by
    simp only [step, under]
  rw [visited]
  refine logged.set (sweep?_begun under) rfl ?_ ⟨began, uninstalled⟩ ?_ ?_
  · rintro sweep same
    obtain rfl := Option.some.inj same
    refine ⟨List.mem_append_left _ began, by simpa using uninstalled, ?_⟩
    dsimp only at gathered ⊢
    rw [absorbed, gathered, ← Harvest.file_append, offered_snoc]
  · intro none
    rw [index]
    exact logged.fresh (by rwa [last?_quiet rfl] at none)
  · intro j some
    rw [last?_quiet rfl] at some
    have installed := last?_mem some
    have other : i ≠ j := by
      rintro rfl
      exact uninstalled installed
    have silent : rooms j (.answered i relay answer) = [] := rooms_other other
    rw [index, offered_snoc_other silent]
    exact logged.last some

theorem commit_logged {harvest : Harvest} (logged : Logged f o log) (now : Nat)
    (under : o.sweep? i = some ⟨[], harvest⟩) :
    Logged f (o.step now (.commit i)).1 (log ++ [.installed i]) := by
  obtain ⟨began, uninstalled, gathered⟩ := logged.under under
  have committed : (o.step now (.commit i)).1 =
      ⟨o.fleet.commit harvest now, o.sweeps.set i none⟩ := by
    simp only [step, under]
  rw [committed]
  refine logged.set (sweep?_begun under) rfl (fun _ goes_on => by simp at goes_on)
    ⟨began, uninstalled⟩ ?_ ?_
  · intro none
    simp at none
  · intro j some
    rw [last?_installed] at some
    obtain rfl := Option.some.inj some
    rw [offered_snoc_other rfl, ← gathered]
    exact ⟨rfl, rfl⟩

theorem Logged.fleet (logged : Logged f o log) (buckets : g.index.buckets = o.fleet.index.buckets)
    (ids : g.index.ids = o.fleet.index.ids) : Logged f ⟨g, o.sweeps⟩ log where
  begun := logged.begun
  under := logged.under
  ordered := logged.ordered
  fresh none := buckets ▸ ids ▸ logged.fresh none
  last some := buckets ▸ ids ▸ logged.last some

theorem issue_logged (logged : Logged f o log) (now : Nat) :
    Logged f (o.step now .issue).1 log := by
  have kept : (o.fleet.issueRoomId now).2.index.buckets = o.fleet.index.buckets ∧
      (o.fleet.issueRoomId now).2.index.ids = o.fleet.index.ids := by
    have issuing := o.fleet.issueRoomId_issuing now
    generalize o.fleet.issueRoomId now = issued at issuing
    cases issuing <;> exact ⟨rfl, rfl⟩
  rw [issue_fleet]
  exact logged.fleet kept.1 kept.2

theorem visit_idle (now : Nat) {answer : Except ProbeError (List RoomListing)}
    (idle : ∀ relay target pending harvest,
      o.sweep? i = some ⟨(relay, target) :: pending, harvest⟩ → False) :
    (o.step now (.visit i answer)).1 = o := by
  simp only [step]

theorem step_logged (logged : Logged f o log) (now : Nat) (s : OverlapStep) :
    Logged f (o.step now s).1 (log ++ o.notes s) := by
  cases s with
  | begin => exact begin_logged logged now
  | visit i answer =>
    simp only [notes]
    split
    · rename_i under
      exact visit_logged logged now under answer
    · rename_i other
      rw [visit_idle now other]
      simpa using logged
  | commit i =>
    simp only [notes]
    split
    · rename_i asked
      obtain ⟨harvest, under⟩ := hasAsked_iff.mp asked
      exact commit_logged logged now under
    · rename_i early
      rw [commit_idle now (by simpa using early)]
      simpa using logged
  | issue =>
    rw [notes, List.append_nil]
    exact issue_logged logged now

theorem run_logged (logged : Logged f o log) (steps : List (Nat × OverlapStep)) :
    Logged f (o.run steps) (log ++ o.log steps) := by
  induction steps generalizing o log with
  | nil => simpa [run, Overlap.log] using logged
  | cons first rest ih =>
    obtain ⟨now, s⟩ := first
    rw [Overlap.log, ← List.append_assoc]
    exact ih (step_logged logged now s)

theorem Logged.bucket (logged : Logged f o log) (last : last? log = some i) (region : Region) :
    o.fleet.index.bucket region =
      (firsts (offered i log)).filter (Harvest.Files ·.node region) := by
  rw [← Harvest.file_empty_bucket, RoomIndex.bucket, (logged.last last).1]
  rfl

theorem Logged.ids (logged : Logged f o log) (last : last? log = some i) {id : String} :
    o.fleet.index.ids.contains id = true ↔ ∃ room ∈ offered i log, room.id = id := by
  rw [(logged.last last).2, Harvest.file_empty_ids]

theorem issue_unknown {id : String} (now : Nat) (known : o.fleet.index.ids.contains id = true) :
    (o.step now .issue).2 ≠ some id := by
  intro same
  rw [issue_id] at same
  have issuing := o.fleet.issueRoomId_issuing now
  generalize o.fleet.issueRoomId now = issued at same issuing
  cases issuing with
  | issued free spelled =>
    obtain rfl := Option.some.inj same
    exact free (Or.inl known)
  | exhausted => contradiction

/-- Whatever else happens meanwhile, the index is what the sweep that was installed last was
    answered: of each id the first listing, in the order of asking. A sweep that begins after
    another one was installed has only later answers than that one. So as long as the sweep that was
    installed last has asked a node since it lists an id, a room of this id is listed, if not of
    this node then of one that the sweep asked before, and the id is not issued. -/
theorem sweeps_install_own_answers (f : Fleet) (steps : List (Nat × OverlapStep)) :
    let o := (⟨f, []⟩ : Overlap).run steps
    let log := (⟨f, []⟩ : Overlap).log steps
    (last? log = none → ∀ region, o.fleet.index.bucket region = f.index.bucket region ∧
      o.fleet.index.ids = f.index.ids) ∧
    (∀ i, last? log = some i →
      (∀ region, o.fleet.index.bucket region =
        (firsts (offered i log)).filter (Harvest.Files ·.node region)) ∧
      ∀ id, o.fleet.index.ids.contains id = true ↔ ∃ room ∈ offered i log, room.id = id) ∧
    (∀ i j before after, log = before ++ .began j :: after → .installed i ∈ before →
      ∀ relay answer, .answered i relay answer ∉ after ∧ .answered j relay answer ∉ before) ∧
    ∀ i past since relay id, last? log = some i → log = past ++ since →
      (∃ answer, .answered i relay answer ∈ since) →
      (∀ j answer, .answered j relay answer ∈ since → Lists answer id) →
      (∃ room, room.id = id ∧
        (∀ region, Harvest.Files room.node region → room ∈ o.fleet.index.bucket region) ∧
        (room.node = relay ∨ ∃ early late, log = early ++ late ∧
          (∃ answer, .answered i room.node answer ∈ early ∧ Lists answer id) ∧
          ∃ answer, .answered i relay answer ∈ late)) ∧
      ∀ now, (o.step now .issue).2 ≠ some id := by
  intro o log
  have logged : Logged f o log := run_logged (start_logged f) steps
  refine ⟨?_, fun i last => ⟨logged.bucket last, fun id => logged.ids last⟩, ?_, ?_⟩
  · intro none region
    obtain ⟨buckets, ids⟩ := logged.fresh none
    exact ⟨congrArg (·.getD region []) buckets, ids⟩
  · intro i j before after cut installed
    exact logged.ordered.apart cut installed
  · intro i past since relay id last cut asked keeps
    obtain ⟨answer, told⟩ := asked
    have lists := keeps i answer told
    obtain ⟨first, rest, rfl⟩ := List.append_of_mem told
    rw [← List.append_assoc] at cut
    obtain ⟨room, listed, same, origin⟩ := first_listed i (past ++ first) rest relay lists
    rw [← cut] at listed
    refine ⟨⟨room, same, fun region files => ?_, ?_⟩, fun now => issue_unknown now ?_⟩
    · rw [logged.bucket last]
      exact List.mem_filter.mpr ⟨listed, decide_eq_true files⟩
    · exact origin.imp_right fun before => ⟨_, _, cut, before, answer, List.mem_cons_self⟩
    · exact (logged.ids last).mpr ⟨room, (firsts_sublist _).subset listed, same⟩

def withNodes (nodes : List (RelayAddress × FleetNode)) : Overlap where
  fleet := { Fleet.start Fleet.smallFleet ⟨fun _ _ => 0, 0⟩ 0 with nodes := .ofList nodes }

def otherRelay : RelayAddress := ⟨"10.0.0.2", 7777, 8080, .asia⟩

def openRoom (relay : RelayAddress) : RoomListing := ⟨"00000", 1, "Lobby", "", true, 4, 1, relay⟩

/-- The second of two sweeps that overlap finds a room that was opened after the first one asked,
    and is installed first. -/
def overtaking : List (Nat × OverlapStep) :=
  [(0, .begin), (0, .visit 0 (.ok [])), (1, .begin), (1, .visit 1 (.ok [openRoom otherRelay])),
   (2, .commit 1)]

/-- Two sweeps one after the other. Before the second one, the node that is asked first opens a room
    of the same id. -/
def sameIdOpened : List (Nat × OverlapStep) :=
  [(0, .begin), (0, .visit 0 (.ok [])), (0, .visit 0 (.ok [openRoom otherRelay])), (0, .commit 0),
   (1, .begin), (1, .visit 1 (.ok [openRoom Fleet.smallRelay])),
   (1, .visit 1 (.ok [openRoom otherRelay]))]

/-- The older answer replaces the newer one, and the id of the open room is issued. Without any
    overlap, too, a room is no longer listed though its node goes on listing it. -/
theorem older_answer_installed :
    (let o := (withNodes [(otherRelay, ⟨⟨"10.0.0.2", 8080⟩, default⟩)]).run overtaking
     let late := (o.step 3 (.commit 0)).1
     o.fleet.index.bucket .asia = [⟨otherRelay, openRoom otherRelay⟩] ∧
       o.fleet.index.ids.contains "00000" = true ∧
       late.fleet.index.bucket .asia = [] ∧ (late.step 4 .issue).2 = some "00000") ∧
    let nodes := [(Fleet.smallRelay, ⟨⟨"10.0.0.1", 8080⟩, default⟩),
      (otherRelay, ⟨⟨"10.0.0.2", 8080⟩, default⟩)]
    let o := (withNodes nodes).run sameIdOpened
    o.fleet.index.bucket .asia = [⟨otherRelay, openRoom otherRelay⟩] ∧
      (o.step 2 (.commit 1)).1.fleet.index.bucket .asia = [] := by
  decide +kernel

end Overlap

end PeerRelay
