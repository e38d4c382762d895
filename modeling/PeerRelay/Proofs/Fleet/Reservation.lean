import PeerRelay.Proofs.Dice
import PeerRelay.Proofs.Fleet.Aggregation
import PeerRelay.Proofs.Fleet.Listing
import PeerRelay.Proofs.Fleet.RoomIds

/-!
How long an issued room id stays out of reach. Calls for ids and sweeps for rooms alternate at times
that never go back, and the log of what they told decides about every candidate of the next call: it
is passed over if the latest sweep listed it, or if it was issued within the reservation time and no
sweep has listed it since.
-/
namespace PeerRelay

variable {σ : Type}

inductive IdCall where
  | issue
  | serve (call : FleetCall)

namespace IdEvent

def Gives (answers : List RoomAnswer) (id : String) : Prop :=
  ∃ relay listings, (relay, .ok listings) ∈ answers ∧ ∃ listing ∈ listings, listing.serverId = id

variable {answers : List RoomAnswer} {id : String}

theorem gives_iff : Gives answers id ↔ ∃ room ∈ Fleet.listedIn answers, room.id = id := by
  constructor
  · rintro ⟨relay, listings, answered, listing, listed, same⟩
    refine ⟨⟨relay, listing⟩, List.mem_flatMap.mpr ⟨_, answered, ?_⟩, same⟩
    exact List.mem_map_of_mem listed
  · rintro ⟨room, member, same⟩
    obtain ⟨⟨relay, answer⟩, answered, member⟩ := List.mem_flatMap.mp member
    cases answer with
    | ok listings =>
      obtain ⟨listing, listed, rfl⟩ := List.mem_map.mp member
      exact ⟨relay, listings, answered, listing, listed, same⟩
    | error e => cases member

def issue? {α : Type} : IdEvent α → Option (String × Nat)
  | .issued id time => some (id, time)
  | .swept _ => none

theorem mem_of_issue? {α : Type} {log : List (IdEvent α)} {time : Nat}
    (mem : (id, time) ∈ log.filterMap issue?) : .issued id time ∈ log := by
  obtain ⟨event, mem, same⟩ := List.mem_filterMap.mp mem
  cases event with
  | issued other at_time =>
    cases same
    exact mem
  | swept told => exact nomatch same

end IdEvent

namespace Fleet
open IdEvent

variable {f : Fleet} {now : Nat} {id : String}

/-! One call for an id -/

def candidate (f : Fleet) (k : Nat) : String :=
  f.config.idAlphabet.word f.config.idLength (f.dice.roll k)

/-- The answer is the first word that is not passed over, if one was drawn. -/
theorem issueRoomId_answer (f : Fleet) (now : Nat) :
    (f.issueRoomId now).1 =
      (f.dice.drawFree (f.config.idAlphabet.word f.config.idLength)
        (fun id => f.index.ids.contains id ||
          (f.index.reserved.filter fun _ expiry => now < expiry).contains id)
        maxIdAttempts).1.elim (.error (.idSpaceExhausted maxIdAttempts)) .ok := by
  unfold issueRoomId drawRoomId
  dsimp only
  generalize f.dice.drawFree _ _ _ = draw
  obtain ⟨drawn, dice⟩ := draw
  cases drawn <;> rfl

theorem issueRoomId_ok_iff (f : Fleet) (now : Nat) (id : String) :
    (f.issueRoomId now).1 = .ok id ↔
      ∃ k < maxIdAttempts, f.candidate k = id ∧ ¬ f.PassesOver now id ∧
        ∀ j < k, f.PassesOver now (f.candidate j) := by
  have answered (o : Option String) (e : RoomError) :
      o.elim (.error e) Except.ok = .ok id ↔ o = some id := by
    cases o <;> simp
  rw [issueRoomId_answer, answered, Dice.drawFree_iff]
  simp only [← Bool.not_eq_true, taken_iff]
  rfl

theorem issueRoomId_error_iff (f : Fleet) (now : Nat) (e : RoomError) :
    (f.issueRoomId now).1 = .error e ↔
      e = .idSpaceExhausted maxIdAttempts ∧
        ∀ k < maxIdAttempts, f.PassesOver now (f.candidate k) := by
  have answered (o : Option String) (given : RoomError) :
      o.elim (.error given) Except.ok = .error e ↔ e = given ∧ o = none := by
    cases o <;> simp [eq_comm]
  rw [issueRoomId_answer, answered, Dice.drawFree_none]
  simp only [taken_iff]
  rfl

/-! One call after the other -/

def roomAnswers (probe : Probe σ) (state : Fleet × σ) : FleetCall → Option (List RoomAnswer)
  | .aggregate => some (probe.askEach state.1.targets state.2).1
  | .check =>
    let checked := refreshLoads probe state.1.targets state.1 state.2
    if checked.1.1 = 0 then none else some (probe.askEach checked.1.2.targets checked.2).1
  | .register .. | .select _ => none

def idStep (probe : Probe σ) (state : Fleet × σ) (now : Nat) :
    IdCall → (Fleet × σ) × Option (IdEvent (List RoomAnswer))
  | .serve call => (next probe state now call, (roomAnswers probe state call).map .swept)
  | .issue =>
    let answered := state.1.issueRoomId now
    ((answered.2, state.2), answered.1.toOption.map (.issued · now))

def idRun (probe : Probe σ) (state : Fleet × σ) (log : List (IdEvent (List RoomAnswer))) :
    List (Nat × IdCall) → (Fleet × σ) × List (IdEvent (List RoomAnswer))
  | [] => (state, log)
  | (now, call) :: rest =>
    let (state, event) := idStep probe state now call
    idRun probe state (event.toList ++ log) rest

@[simp] theorem refreshLoads_index (probe : Probe σ) (f : Fleet) (s : σ) :
    (refreshLoads probe f.targets f s).1.2.index = f.index := by
  rw [refreshLoads_eq]
  exact learnAll_index f (askLoads_all (¬ ·.Sweeps) (fun _ _ => id) probe f.targets s)

theorem swept_index {f g : Fleet} (same : g.index = f.index) (answers : List RoomAnswer)
    (now : Nat) : (g.swept answers now).index = (f.swept answers now).index := by
  simp only [swept, commit, same]

theorem next_index (probe : Probe σ) (state : Fleet × σ) (now : Nat) (call : FleetCall) :
    (next probe state now call).1.index =
      (roomAnswers probe state call).elim state.1.index fun answers =>
        (state.1.swept answers now).index := by
  obtain ⟨f, s⟩ := state
  cases call with
  | register relay target =>
    rw [next_eq_learnAll]
    exact learnAll_index f (f.register_never_sweeps probe now relay target s)
  | select hint => exact next_select_index probe (f, s) now hint
  | aggregate =>
    show (f.aggregate probe now s).1.index = _
    rw [aggregate_answers]
    rfl
  | check =>
    have unchanged := refreshLoads_index probe f s
    show (f.check probe now s).1.2.index = Option.elim (roomAnswers probe (f, s) .check) _ _
    simp only [roomAnswers]
    rcases ran : refreshLoads probe f.targets f s with ⟨⟨evicted, g⟩, t⟩
    rw [ran] at unchanged
    rw [check, bind_of_run ran]
    by_cases nobody : evicted = 0
    · simp only [if_pos nobody]
      exact unchanged
    · simp only [if_neg nobody, aggregate_answers]
      exact swept_index unchanged _ now

@[simp] theorem next_config (probe : Probe σ) (state : Fleet × σ) (now : Nat) (call : FleetCall) :
    (next probe state now call).1.config = state.1.config := by
  simp [next_eq_learnAll]

/-! What the log decides -/

structure Logged (config : FleetConfig) (now : Nat) (f : Fleet)
    (log : List (IdEvent (List RoomAnswer))) : Prop where
  configured : f.config = config
  remembers : Remembers Gives config.idReservation now f.index log

variable {config : FleetConfig} {log : List (IdEvent (List RoomAnswer))}

theorem start_logged (config : FleetConfig) (dice : Dice) (started now : Nat) :
    Logged config now (start config dice started) [] :=
  ⟨rfl, .empty⟩

theorem Logged.later (h : Logged config now f log) {time : Nat} (late : now ≤ time) :
    Logged config time f log :=
  ⟨h.configured, h.remembers.later late⟩

theorem Logged.serve {probe : Probe σ} {state : Fleet × σ} (h : Logged config now state.1 log)
    (call : FleetCall) :
    Logged config now (next probe state now call).1
      (((roomAnswers probe state call).map .swept).toList ++ log) := by
  refine ⟨(next_config probe state now call).trans h.configured, ?_⟩
  rw [next_index probe state now call]
  cases answered : roomAnswers probe state call with
  | none => exact h.remembers
  | some answers => exact h.remembers.swept fun id => Harvest.file_empty_ids.trans gives_iff.symm

theorem Logged.issue (h : Logged config now f log) :
    Logged config now (f.issueRoomId now).2
      (((f.issueRoomId now).1.toOption.map (.issued · now)).toList ++ log) := by
  obtain ⟨rfl, remembers⟩ := h
  exact ⟨f.issueRoomId_config now, remembers.issue⟩

theorem idStep_logged {probe : Probe σ} {state : Fleet × σ} (h : Logged config now state.1 log)
    (call : IdCall) :
    Logged config now (idStep probe state now call).1.1
      ((idStep probe state now call).2.toList ++ log) := by
  cases call with
  | serve call => exact h.serve call
  | issue =>
    simp only [idStep]
    exact h.issue

theorem idRun_logged {probe : Probe σ} {state : Fleet × σ} (calls : List (Nat × IdCall))
    {last : Nat} (h : Logged config last state.1 log) (after_last : ∀ call ∈ calls, last ≤ call.1)
    (ordered : (calls.map Prod.fst).Pairwise (· ≤ ·)) (before_now : ∀ call ∈ calls, call.1 ≤ now)
    (last_before : last ≤ now) :
    Logged config now (idRun probe state log calls).1.1 (idRun probe state log calls).2 := by
  induction calls generalizing state log last with
  | nil => exact h.later last_before
  | cons first rest ih =>
    obtain ⟨time, call⟩ := first
    obtain ⟨first_least, ordered⟩ := List.pairwise_cons.mp ordered
    have late : last ≤ time := after_last _ List.mem_cons_self
    refine ih (idStep_logged (h.later late) call) ?_ ordered ?_ (before_now _ List.mem_cons_self)
    · exact fun call mem => first_least _ (List.mem_map_of_mem mem)
    · exact fun call mem => before_now call (List.mem_cons_of_mem _ mem)

/-- A call for an id comes after any other calls, at times that never go back. An id that it gives
    out was in no list of the latest sweep, and if it was given out before, then the reservation
    is over or a sweep has listed the id since. It is the first such candidate of the ten thousand
    next ones. The call fails exactly if none of these is free, and then it reserves nothing:
    reservations that are over are dropped and the lists stay. -/
theorem issued_ids_respect_reservations (config : FleetConfig) (dice : Dice) (started : Nat)
    (probe : Probe σ) (s : σ) (calls : List (Nat × IdCall)) (now : Nat)
    (timely : (calls.map Prod.fst ++ [now]).Pairwise (· ≤ ·)) :
    let run := idRun probe (start config dice started, s) [] calls
    let f := run.1.1
    let log := run.2
    let out := f.issueRoomId now
    let Barred id := Listed Gives log id ∨ Kept Gives config.idReservation now log id
    (∀ id, out.1 = .ok id → ¬ Listed Gives log id ∧ ∀ later time earlier,
        log = later ++ .issued id time :: earlier →
          time + config.idReservation ≤ now ∨ ∃ answers, .swept answers ∈ later ∧
            Gives answers id) ∧
      (∀ id, out.1 = .ok id ↔ ∃ k < 10000, f.candidate k = id ∧ ¬ Barred id ∧
        ∀ j < k, Barred (f.candidate j)) ∧
      (∀ e, out.1 = .error e ↔ e = .idSpaceExhausted 10000 ∧
        ∀ k < 10000, Barred (f.candidate k)) ∧
      (∀ e, out.1 = .error e → out.2.nodes = f.nodes ∧ out.2.index.ids = f.index.ids ∧
        out.2.index.buckets = f.index.buckets ∧
        ∀ (id : String) (expiry : Nat), out.2.index.reserved[id]? = some expiry ↔
          f.index.reserved[id]? = some expiry ∧ now < expiry) := by
  intro run f log out Barred
  obtain ⟨ordered, _, before_now⟩ := List.pairwise_append.mp timely
  have h : Logged config now f log :=
    idRun_logged calls (start_logged config dice started 0) (fun _ _ => Nat.zero_le _) ordered
      (fun call mem => before_now _ (List.mem_map_of_mem mem) now (by simp)) (Nat.zero_le now)
  have barred (id : String) : f.PassesOver now id ↔ Barred id := h.remembers.passesOver_iff
  have issued (id : String) : out.1 = .ok id ↔ ∃ k < 10000, f.candidate k = id ∧ ¬ Barred id ∧
      ∀ j < k, Barred (f.candidate j) := by
    simp only [← barred]
    exact f.issueRoomId_ok_iff now id
  refine ⟨fun id ok => ?_, issued, fun e => ?_, fun e failed => ?_⟩
  · obtain ⟨_, _, _, free, _⟩ := (issued id).mp ok
    refine ⟨fun listed => free (Or.inl listed), fun later time earlier shape => ?_⟩
    by_cases given : ∃ answers, .swept answers ∈ later ∧ Gives answers id
    · exact Or.inr given
    · refine Or.inl (Nat.le_of_not_lt fun soon => free (Or.inr ?_))
      exact ⟨later, time, earlier, shape, soon,
        fun answers mem gives => given ⟨answers, mem, gives⟩⟩
  · simp only [← barred]
    exact f.issueRoomId_error_iff now e
  · have issuing := f.issueRoomId_issuing now
    change Issuing f now out at issuing
    generalize out = result at failed issuing
    cases issuing with
    | issued free spelled => exact nomatch failed
    | exhausted =>
      refine ⟨rfl, rfl, rfl, fun id expiry => ?_⟩
      show (f.index.reserved.filter _)[id]? = some expiry ↔ _
      rw [Map.found_filter_iff, decide_eq_true_eq]

def roomClosed : Probe Bool where
  load _ := fun asked => (.ok ⟨1, 1, 1, 0⟩, asked)
  rooms _ := fun asked =>
    (.ok (if asked then [] else [⟨"00000", 1, "", "", true, 4, 1, smallRelay⟩]), true)

def listedBetween : List (Nat × IdCall) :=
  [(0, .serve (.register smallRelay ⟨"10.0.0.1", 8080⟩)), (0, .issue), (1, .serve .aggregate),
    (2, .serve .aggregate)]

/-- An id is given out twice within the reservation time, since a sweep has listed it between. -/
theorem id_reissued_after_listing :
    let run := idRun roomClosed (start smallFleet ⟨fun _ _ => 0, 0⟩ 0, false) [] listedBetween
    (listedBetween.map Prod.fst ++ [3]).Pairwise (· ≤ ·) ∧
      run.2.filterMap IdEvent.issue? = [("00000", 0)] ∧
      (run.1.1.issueRoomId 3).1 = .ok "00000" ∧
      ∃ answers, .swept answers ∈ run.2 ∧ Gives answers "00000" := by
  intro run
  have timely : (listedBetween.map Prod.fst ++ [3]).Pairwise (· ≤ ·) := by decide
  have first : run.2.filterMap IdEvent.issue? = [("00000", 0)] := by decide +kernel
  have again : (run.1.1.issueRoomId 3).1 = .ok "00000" := ok_of_toOption (by decide +kernel)
  obtain ⟨later, earlier, shape⟩ :=
    List.append_of_mem (mem_of_issue? (first ▸ List.mem_singleton_self ("00000", 0)))
  obtain ⟨free, _⟩ := issued_ids_respect_reservations smallFleet ⟨fun _ _ => 0, 0⟩ 0 roomClosed
    false listedBetween 3 timely
  rcases (free "00000" again).2 later 0 earlier shape with late | ⟨answers, mem, gives⟩
  · exact absurd late (by decide)
  · refine ⟨timely, first, again, answers, ?_, gives⟩
    exact shape ▸ List.mem_append_left _ mem

end Fleet

end PeerRelay
