import Mathlib.Data.List.Induction
import PeerRelay.Uplink.Basic
import PeerRelay.Uplink.Prefetch

/-!
Ids fetched ahead of time, while any number of takes overlap with the loop that fetches them. The
loop is alone in adding ids, so what was less than full when it looked is not more than full when
the answer arrives. What is handed out comes off the front of the stock, to whose end what is
fetched is added, so the one is in the order of the other. What a take is handed was fresh when the
take threw old ids away, or was fetched since.
-/
namespace PeerRelay

namespace IdStock

theorem fresh_iff {fetched now : Nat} : now - fetched < maxAge ↔ now < fetched + maxAge := by
  have positive : 0 < maxAge := by decide
  omega

theorem mem_prune_iff {s : IdStock} {now : Nat} {i : StockedId} :
    i ∈ (s.prune now).ids ↔ i ∈ s.ids ∧ now < i.fetched + maxAge := by
  rw [prune, List.mem_filter, decide_eq_true_eq, fresh_iff]

theorem take_eq_some {s : IdStock} {now : Nat} {id : String} :
    (s.take now).1 = some id ↔
      ∃ stale i rest, s.ids = stale ++ i :: rest ∧ i.id = id ∧ now < i.fetched + maxAge ∧
        ∀ old ∈ stale, old.fetched + maxAge ≤ now := by
  have oldest : (s.take now).1 =
      (s.ids.find? fun i => now - i.fetched < maxAge).map StockedId.id := by
    rw [← List.head?_filter]
    rfl
  simp only [oldest, Option.map_eq_some_iff, List.find?_eq_some_iff_append, Bool.not_eq_true',
    decide_eq_true_eq, decide_eq_false_iff_not, fresh_iff, Nat.not_lt]
  constructor
  · rintro ⟨i, ⟨fresh, stale, rest, shape, old⟩, same⟩
    exact ⟨stale, i, rest, shape, same, fresh, old⟩
  · rintro ⟨stale, i, rest, shape, same, fresh, old⟩
    exact ⟨i, ⟨fresh, stale, rest, shape, old⟩, same⟩

theorem prune_sublist (s : IdStock) (now : Nat) : (s.prune now).ids.Sublist s.ids :=
  List.filter_sublist

theorem prune_eq_nil {s : IdStock} {now : Nat} :
    (s.prune now).ids = [] ↔ ∀ i ∈ s.ids, i.fetched + maxAge ≤ now := by
  simp only [List.eq_nil_iff_forall_not_mem, mem_prune_iff, not_and, Nat.not_lt]

end IdStock

namespace Uplink
open IdStock

variable {σ : Type} {u : Uplink} {exchange : Http.Exchange σ} {now missing : Nat} {stock : IdStock}
  {s later : σ}

theorem fetchIds_full (full : ¬ stock.size < capacity) :
    u.fetchIds exchange now missing stock s = (stock, s) := by
  cases missing with
  | zero => rfl
  | succ missing =>
    simp only [fetchIds, full, if_false]
    rfl

theorem fetchIds_failed {e : UplinkError} (few : stock.size < capacity)
    (failed : u.requestId exchange s = (.error e, later)) :
    u.fetchIds exchange now (missing + 1) stock s = (stock, later) := by
  simp only [fetchIds, few, if_true, bind, StateT.bind, failed]
  rfl

theorem fetchIds_fetched {id : String} (few : stock.size < capacity)
    (fetched : u.requestId exchange s = (.ok id, later)) :
    u.fetchIds exchange now (missing + 1) stock s =
      u.fetchIds exchange now missing (stock.push id now) later := by
  simp only [fetchIds, few, if_true, bind, StateT.bind, fetched]

end Uplink

namespace Prefetch
open IdStock Uplink

variable {p : Prefetch} {steps : List (Nat × PrefetchEvent)} {came gone : List StockedId}

def arrived (p : Prefetch) (now : Nat) : PrefetchEvent → Option StockedId
  | .answered (some id) => if p.phase = .fetching then some ⟨id, now⟩ else none
  | _ => none

def arrivals (p : Prefetch) : List (Nat × PrefetchEvent) → List StockedId
  | [] => []
  | (now, e) :: rest => (p.arrived now e).toList ++ (p.step now e).1.arrivals rest

/-- A take has begun and not finished. -/
def Waits (p : Prefetch) (take : Nat) : Prop := p.takes[take]? = some true

instance (p : Prefetch) (take : Nat) : Decidable (p.Waits take) :=
  inferInstanceAs (Decidable (p.takes[take]? = some true))

theorem run_concat (p : Prefetch) (steps : List (Nat × PrefetchEvent)) (now : Nat)
    (e : PrefetchEvent) :
    p.run (steps ++ [(now, e)]) = (((p.run steps).1.step now e).1,
      (p.run steps).2 ++ ((p.run steps).1.step now e).2.join.toList) := by
  induction steps generalizing p with
  | nil => simp [run]
  | cons first rest ih => simp [run, ih]

theorem arrivals_concat (p : Prefetch) (steps : List (Nat × PrefetchEvent)) (now : Nat)
    (e : PrefetchEvent) :
    p.arrivals (steps ++ [(now, e)]) =
      p.arrivals steps ++ ((p.run steps).1.arrived now e).toList := by
  induction steps generalizing p with
  | nil => simp [arrivals, run]
  | cons first rest ih => simp [arrivals, run, ih]

theorem run_append (p : Prefetch) (steps more : List (Nat × PrefetchEvent)) :
    (p.run (steps ++ more)).1 = ((p.run steps).1.run more).1 := by
  induction steps generalizing p with
  | nil => rfl
  | cons first rest ih => exact ih _

theorem mem_arrivals {i : StockedId} (member : i ∈ p.arrivals steps) :
    i.fetched ∈ steps.map Prod.fst := by
  induction steps generalizing p with
  | nil => simp [arrivals] at member
  | cons first rest ih =>
    obtain ⟨now, e⟩ := first
    rw [List.map_cons, List.mem_cons]
    rcases List.mem_append.mp member with new | later
    · rw [Option.mem_toList] at new
      unfold arrived at new
      split at new
      · split at new
        · cases new
          exact Or.inl rfl
        · contradiction
      · contradiction
    · exact Or.inr (ih later)

/-! What is handed out -/

inductive Stocks (p : Prefetch) (now : Nat) : Prefetch × Option (Option StockedId) →
    Option StockedId → Prop where
  | kept {q : Prefetch} (stock : q.stock = p.stock)
      (looked : q.phase = .fetching → p.phase = .fetching ∨ p.stock.size < capacity) :
      Stocks p now (q, none) none
  | pruned {q : Prefetch} (stock : q.stock = p.stock.prune now)
      (looked : q.phase = .fetching → p.phase = .fetching) : Stocks p now (q, none) none
  | pushed {id : String} (fetching : p.phase = .fetching) :
      Stocks p now ({ p with stock := p.stock.push id now, phase := .looking }, none)
        (some ⟨id, now⟩)
  | popped (takes : List Bool) :
      Stocks p now ({ p with stock := p.stock.pop.2, takes }, some p.stock.pop.1) none

theorem step_stocks (p : Prefetch) (now : Nat) (e : PrefetchEvent) :
    Stocks p now (p.step now e) (p.arrived now e) := by
  cases e with
  | wake =>
    simp only [step]
    split
    · exact .pruned rfl nofun
    · exact .kept rfl Or.inl
  | look =>
    simp only [step]
    split
    · refine .kept rfl fun looked => Or.inr ?_
      by_cases few : p.stock.size < capacity
      · exact few
      · simp [few] at looked
    · exact .kept rfl Or.inl
  | answered id =>
    simp only [step]
    split
    · rename_i fetching
      cases id with
      | none => exact .kept rfl nofun
      | some id =>
        rw [arrived, if_pos fetching]
        exact .pushed fetching
    · rename_i other
      have none : p.arrived now (.answered id) = none := by cases id <;> simp [arrived, other]
      rw [none]
      exact .kept rfl Or.inl
  | begin => exact .pruned rfl id
  | finish take =>
    simp only [step]
    split
    · exact .popped _
    · exact .kept rfl Or.inl

/-- The stock between what has come and what has gone, and the loop's knowledge of its size. -/
structure Stocked (p : Prefetch) (came gone : List StockedId) : Prop where
  order : (gone ++ p.stock.ids).Sublist came
  small : p.stock.size ≤ capacity
  space : p.phase = .fetching → p.stock.size < capacity

theorem Stocked.step (h : p.Stocked came gone) (now : Nat) (e : PrefetchEvent) :
    (p.step now e).1.Stocked (came ++ (p.arrived now e).toList)
      (gone ++ (p.step now e).2.join.toList) := by
  have s := p.step_stocks now e
  generalize p.step now e = result at s ⊢
  generalize p.arrived now e = arrived at s ⊢
  cases s with
  | @kept q stock looked =>
    refine ⟨?_, stock ▸ h.small, fun fetching => ?_⟩
    · simpa [stock] using h.order
    · exact stock ▸ (looked fetching).elim h.space id
  | @pruned q stock looked =>
    have fewer : q.stock.ids.length ≤ p.stock.ids.length :=
      stock ▸ (p.stock.prune_sublist now).length_le
    refine ⟨?_, Nat.le_trans fewer h.small, fun fetching => ?_⟩
    · have shorter := (p.stock.prune_sublist now).append_left gone
      simpa [stock] using shorter.trans h.order
    · exact Nat.lt_of_le_of_lt fewer (h.space (looked fetching))
  | @pushed id fetching =>
    have grown : (p.stock.push id now).size = p.stock.size + 1 := List.length_append
    refine ⟨?_, grown ▸ h.space fetching, nofun⟩
    have both := h.order.append_right [⟨id, now⟩]
    simpa [push] using both
  | popped takes =>
    have fewer : p.stock.ids.tail.length ≤ p.stock.ids.length := by simp
    refine ⟨?_, Nat.le_trans fewer h.small, fun fetching => ?_⟩
    · have whole : p.stock.ids.head?.toList ++ p.stock.ids.tail = p.stock.ids := by
        cases p.stock.ids <;> rfl
      simpa [pop, whole] using h.order
    · exact Nat.lt_of_le_of_lt fewer (h.space fetching)

def reached (steps : List (Nat × PrefetchEvent)) : Prefetch := (({} : Prefetch).run steps).1

theorem reached_concat (steps : List (Nat × PrefetchEvent)) (now : Nat) (e : PrefetchEvent) :
    reached (steps ++ [(now, e)]) = ((reached steps).step now e).1 := by
  rw [reached, run_concat]
  rfl

theorem reached_stocked (steps : List (Nat × PrefetchEvent)) :
    (reached steps).Stocked (({} : Prefetch).arrivals steps) (({} : Prefetch).run steps).2 := by
  induction steps using List.reverseRecOn with
  | nil => exact ⟨List.nil_sublist _, Nat.zero_le _, nofun⟩
  | append_singleton steps last ih =>
    obtain ⟨now, e⟩ := last
    rw [reached_concat, run_concat, arrivals_concat]
    exact ih.step now e

/-! What a take finds -/

theorem mem_step {now : Nat} {e : PrefetchEvent} {i : StockedId}
    (member : i ∈ (p.step now e).1.stock.ids) : i ∈ p.stock.ids ∨ p.arrived now e = some i := by
  have s := p.step_stocks now e
  generalize p.step now e = result at s member
  generalize p.arrived now e = arrived at s ⊢
  cases s with
  | kept stock => exact Or.inl (stock ▸ member)
  | pruned stock =>
    rw [stock] at member
    exact Or.inl (mem_prune_iff.mp member).1
  | pushed fetching =>
    rcases List.mem_append.mp member with old | new
    · exact Or.inl old
    · exact Or.inr (congrArg some (List.mem_singleton.mp new).symm)
  | popped takes => exact Or.inl (List.mem_of_mem_tail member)

theorem waits_step {now take : Nat} {e : PrefetchEvent} (waits : (p.step now e).1.Waits take) :
    p.Waits take ∨ e = .begin ∧ take = p.takes.length := by
  cases e with
  | begin =>
    have there : (p.takes ++ [true])[take]? = some true := waits
    rw [List.getElem?_append] at there
    split at there
    · exact Or.inl there
    · rename_i past
      refine Or.inr ⟨rfl, ?_⟩
      have := (List.getElem?_eq_some_iff.mp there).1
      simp only [List.length_singleton] at this
      omega
  | finish other =>
    refine Or.inl ?_
    simp only [step] at waits
    split at waits
    · have there : (p.takes.set other false)[take]? = some true := waits
      rw [List.getElem?_set] at there
      split at there
      · split at there <;> simp at there
      · exact there
    · exact waits
  | wake | look =>
    simp only [step] at waits
    split at waits <;> exact Or.inl waits
  | answered id =>
    simp only [step] at waits
    split at waits
    · cases id <;> exact Or.inl waits
    · exact Or.inl waits

theorem waits_began {take : Nat} (steps : List (Nat × PrefetchEvent))
    (waits : (reached steps).Waits take) :
    ∃ early start since, steps = early ++ (start, .begin) :: since ∧
      take = (reached early).takes.length ∧
      ∀ i ∈ (reached steps).stock.ids,
        (i ∈ (reached early).stock.ids ∧ start < i.fetched + maxAge) ∨
          i ∈ (reached (early ++ [(start, .begin)])).arrivals since := by
  induction steps using List.reverseRecOn with
  | nil => simp [reached, run, Waits] at waits
  | append_singleton steps last ih =>
    obtain ⟨now, e⟩ := last
    rw [reached_concat] at waits
    rcases waits_step waits with before | ⟨rfl, rfl⟩
    · obtain ⟨early, start, since, rfl, rfl, found⟩ := ih before
      refine ⟨early, start, since ++ [(now, e)], by simp, rfl, fun i member => ?_⟩
      rw [reached_concat] at member
      have there : ((reached (early ++ [(start, .begin)])).run since).1 =
          reached (early ++ (start, .begin) :: since) := by
        rw [reached, reached, ← run_append, List.append_assoc, List.singleton_append]
      rw [arrivals_concat, there]
      rcases mem_step member with old | new
      · exact (found i old).imp_right (List.mem_append_left _)
      · exact Or.inr (List.mem_append_right _ (Option.mem_toList.mpr new))
    · refine ⟨steps, now, [], rfl, rfl, fun i member => Or.inl ?_⟩
      rw [reached_concat] at member
      exact mem_prune_iff.mp member

theorem step_finish {take : Nat} (waits : p.Waits take) (now : Nat) :
    p.step now (.finish take) =
      ({ p with stock := p.stock.pop.2, takes := p.takes.set take false },
        some p.stock.pop.1) := by
  have there : p.takes[take]? = some true := waits
  simp only [step, there, if_true]

theorem step_begin_waits (p : Prefetch) (now : Nat) :
    (p.step now .begin).1.Waits p.takes.length :=
  List.getElem?_concat_length

/-! Steps with nothing in between -/

theorem take_alone (p : Prefetch) (now : Nat) :
    let ended := (p.step now .begin).1.step now (.finish p.takes.length)
    ended.1.stock = (p.stock.take now).2 ∧ ended.1.phase = p.phase ∧
      ∃ answer, ended.2 = some answer ∧ answer.map StockedId.id = (p.stock.take now).1 := by
  intro ended
  have done : ended = _ := step_finish (p.step_begin_waits now) now
  rw [done]
  exact ⟨rfl, rfl, _, rfl, rfl⟩

section
variable {σ : Type}

theorem fetches_alone (u : Uplink) (exchange : Http.Exchange σ) (s : σ) (now : Nat)
    {missing : Nat} (looking : p.phase = .looking)
    (enough : capacity ≤ p.stock.size + missing) :
    ∃ events : List PrefetchEvent, (∀ take, .finish take ∉ events) ∧ .begin ∉ events ∧
      p.run (events.map fun e => (now, e)) =
        ({ p with stock := (u.fetchIds exchange now missing p.stock s).1, phase := .asleep },
          []) := by
  induction missing generalizing p s with
  | zero =>
    have full : ¬ p.stock.size < capacity := Nat.not_lt.mpr enough
    refine ⟨[.look], by simp, by simp, ?_⟩
    simp [run, step, looking, full, fetchIds_full full]
  | succ missing ih =>
    by_cases few : p.stock.size < capacity
    · cases result : u.requestId exchange s with
      | mk answer later =>
        cases answer with
        | ok id =>
          have grown : (p.stock.push id now).size = p.stock.size + 1 := List.length_append
          have enough : capacity ≤ (p.stock.push id now).size + missing := by omega
          obtain ⟨events, no_end, no_begin, rest⟩ :=
            ih (p := { p with stock := p.stock.push id now }) later looking enough
          refine ⟨.look :: .answered (some id) :: events, by simpa using no_end,
            by simpa using no_begin, ?_⟩
          rw [fetchIds_fetched few result]
          simp [run, step, looking, few, ← rest]
        | error e =>
          refine ⟨[.look, .answered none], by simp, by simp, ?_⟩
          simp [run, step, looking, few, fetchIds_failed few result]
    · refine ⟨[.look], by simp, by simp, ?_⟩
      simp [run, step, looking, few, fetchIds_full few]

/-- A round that no take comes between fills the stock as a refill does. -/
theorem refill_alone (u : Uplink) (exchange : Http.Exchange σ) (s : σ) (now : Nat)
    (asleep : p.phase = .asleep) :
    ∃ events : List PrefetchEvent, (∀ take, .finish take ∉ events) ∧ .begin ∉ events ∧
      p.run (events.map fun e => (now, e)) =
        ({ p with stock := (u.refill exchange now p.stock s).1 }, []) := by
  obtain ⟨events, no_end, no_begin, rest⟩ :=
    fetches_alone (p := { p with stock := p.stock.prune now, phase := .looking }) u exchange s now
      rfl (Nat.le_add_left ..)
  refine ⟨.wake :: events, by simpa using no_end, by simpa using no_begin, ?_⟩
  simp [run, step, asleep, rest, refill]

end

/-! Main statement -/

/-- In every run, in which takes overlap with the loop and with each other at times that do not go
    back, the stock never holds more than four ids, and what is handed out is in the order of what
    was fetched, each at most once. A take begins when it throws old ids away. Once begun it can be
    finished at any time, whatever the loop waits for, and is handed the oldest id in the stock: one
    that was not yet too old when the take began, and none if all ids were too old then and none was
    fetched since. A take that nothing comes between is handed the oldest id that is not too old,
    and nothing exactly if all are. -/
theorem ids_handed_out_once (steps : List (Nat × PrefetchEvent))
    (timely : (steps.map Prod.fst).Pairwise (· ≤ ·)) :
    let p := reached steps
    p.stock.size ≤ capacity ∧
      (({} : Prefetch).run steps).2.Sublist (({} : Prefetch).arrivals steps) ∧
      (∀ take, p.Waits take → ∃ early start since, steps = early ++ (start, .begin) :: since ∧
        take = (reached early).takes.length ∧
        (∀ now phase, ({ p with phase }.step now (.finish take)).2 = some p.stock.ids.head?) ∧
        (∀ i, p.stock.ids.head? = some i → start < i.fetched + maxAge) ∧
        ((∀ i ∈ (reached early).stock.ids, i.fetched + maxAge ≤ start) →
          (reached (early ++ [(start, .begin)])).arrivals since = [] →
            p.stock.ids.head? = none)) ∧
      ∀ now phase,
        let begun := ({ p with phase }.step now .begin).1
        ∃ answer, (begun.step now (.finish p.takes.length)).2 = some answer ∧
          answer.map StockedId.id = (p.stock.take now).1 ∧
          (answer = none ↔ ∀ i ∈ p.stock.ids, i.fetched + maxAge ≤ now) := by
  intro p
  have stocked := reached_stocked steps
  refine ⟨stocked.small, (List.sublist_append_left ..).trans stocked.order, ?_, ?_⟩
  · intro take waits
    obtain ⟨early, start, since, split, number, found⟩ := waits_began steps waits
    refine ⟨early, start, since, split, number, fun now phase => ?_, fun i oldest => ?_, ?_⟩
    · have open_ : Waits { p with phase } take := waits
      rw [step_finish open_]
      rfl
    · rcases found i (List.mem_of_head? oldest) with ⟨_, fresh⟩ | fetched
      · exact fresh
      · -- what was fetched since the take began is not older than the take
        have positive : 0 < maxAge := by decide
        rw [split, List.map_append, List.pairwise_append, List.map_cons,
          List.pairwise_cons] at timely
        have := timely.2.1.1 i.fetched (mem_arrivals fetched)
        omega
    · intro stale nothing
      rw [List.head?_eq_none_iff, List.eq_nil_iff_forall_not_mem]
      intro i member
      rcases found i member with ⟨old, fresh⟩ | fetched
      · exact absurd fresh (Nat.not_lt.mpr (stale i old))
      · simp [nothing] at fetched
  · intro now phase begun
    obtain ⟨_, _, answer, handed, given⟩ := take_alone { p with phase } now
    refine ⟨answer, handed, given, ?_⟩
    rw [← prune_eq_nil, ← Option.map_eq_none_iff, given]
    exact Option.map_eq_none_iff.trans List.head?_eq_none_iff

/-- Two takes begin when the first id has just become too old, and the answer to a request arrives
    before either is finished. -/
def overlapping : List (Nat × PrefetchEvent) :=
  [(0, .wake), (0, .look), (0, .answered (some "OLD")), (1, .look), (1, .answered (some "MID")),
   (2, .look), (30000, .begin), (30000, .begin), (30000, .answered (some "NEW"))]

/-- The second take is handed the id that is left, though the loop goes on fetching. -/
theorem overlapping_take_handed_one :
    let p := reached overlapping
    (overlapping.map Prod.fst).Pairwise (· ≤ ·) ∧ p.Waits 1 ∧
      p.stock.ids = [⟨"MID", 1⟩, ⟨"NEW", 30000⟩] ∧
      ({ p with phase := .fetching }.step 30000 (.finish 1)).2 = some (some ⟨"MID", 1⟩) := by
  intro p
  have timely : (overlapping.map Prod.fst).Pairwise (· ≤ ·) := by decide
  have left : p.stock.ids = [⟨"MID", 1⟩, ⟨"NEW", 30000⟩] := by decide +kernel
  have waits : p.Waits 1 := by decide +kernel
  obtain ⟨_, _, takes, _⟩ := ids_handed_out_once overlapping timely
  obtain ⟨_, _, _, _, _, served, _⟩ := takes 1 waits
  refine ⟨timely, waits, left, ?_⟩
  have handed := served 30000 .fetching
  rwa [left] at handed

end Prefetch

end PeerRelay
