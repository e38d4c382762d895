import PeerRelay.Proofs.Fleet.Registry

/-!
Which node a client is sent to. The nodes are ranked once, by region, connections and address. The
choice is the head of the ranking, and the ranking without its head is that of the nodes that are
left when the head is evicted. So a selection that probes what it would choose walks down the
ranking of the nodes it has found, although it chooses anew from the remaining nodes each time.
-/
namespace PeerRelay

variable {σ : Type}

def Probe.recorded (probe : Probe σ) :
    Probe (σ × List (NodeTarget × Except ProbeError NodeLoad)) where
  load target := fun (s, asked) =>
    let (answer, s) := probe.load target s
    (answer, s, asked ++ [(target, answer)])
  rooms target := fun (s, asked) =>
    let (answer, s) := probe.rooms target s
    (answer, s, asked)

namespace Fleet

abbrev Entry := RelayAddress × FleetNode

variable {f : Fleet} {nodes : NodeMap} {hint : Option Region} {a b m n : Entry}
  {entries order rest : List Entry}

/-- Fewer connections first and the smaller address among equals. -/
def byLoad : Entry → Entry → Ordering :=
  compareLex (compareOn fun n => n.2.load.connectedClients) (compareOn Prod.fst)

/-- Nodes of the region that is asked for are before all others. -/
def compareFor (hint : Option Region) : Entry → Entry → Ordering :=
  compareLex (compareOn fun n => decide (hint ≠ some n.1.region)) byLoad

instance : Std.TransCmp byLoad :=
  inferInstanceAs (Std.TransCmp
    (compareLex (compareOn fun n : Entry => n.2.load.connectedClients) (compareOn Prod.fst)))

instance : Std.TransCmp (compareFor hint) :=
  inferInstanceAs (Std.TransCmp (compareLex _ byLoad))

structure Ranking (nodes : NodeMap) (hint : Option Region) (order : List Entry) : Prop where
  perm : order.Perm nodes.toList
  sorted : order.Pairwise fun a b => compareFor hint a b = .lt

def preference (nodes : NodeMap) (hint : Option Region) : List Entry :=
  nodes.toList.mergeSort fun a b => (compareFor hint a b).isLE

/-! The order -/

theorem byLoad_lt_iff :
    byLoad a b = .lt ↔ a.2.load.connectedClients < b.2.load.connectedClients ∨
      a.2.load.connectedClients = b.2.load.connectedClients ∧ compare a.1 b.1 = .lt := by
  simp [byLoad, compareLex, compareOn, Ordering.then_eq_lt, Std.compare_eq_lt]

theorem compareFor_eq :
    compareFor hint a b =
      (compare (decide (hint ≠ some a.1.region)) (decide (hint ≠ some b.1.region))).then
        (byLoad a b) := rfl

theorem compareFor_inside (inside : hint = some a.1.region)
    (next : hint = some b.1.region → (byLoad a b).isLE = true) :
    (compareFor hint a b).isLE = true := by
  rw [compareFor_eq]
  by_cases both : hint = some b.1.region
  · rw [decide_eq_false (not_not_intro inside), decide_eq_false (not_not_intro both)]
    exact next both
  · rw [decide_eq_false (not_not_intro inside), decide_eq_true both]
    rfl

theorem compareFor_outside (outside : hint ≠ some b.1.region) (next : (byLoad a b).isLE = true) :
    (compareFor hint a b).isLE = true := by
  by_cases inside : hint = some a.1.region
  · exact compareFor_inside inside fun _ => next
  · rw [compareFor_eq, decide_eq_true inside, decide_eq_true outside]
    exact next

theorem addresses_nodup (perm : order.Perm nodes.toList) : (order.map Prod.fst).Nodup := by
  rw [(perm.map Prod.fst).nodup_iff, Std.ExtTreeMap.map_fst_toList_eq_keys]
  exact Std.ExtTreeMap.nodup_keys

theorem preference_ranking (nodes : NodeMap) (hint : Option Region) :
    Ranking nodes hint (preference nodes hint) := by
  have perm : (preference nodes hint).Perm nodes.toList := List.mergeSort_perm _ _
  have weakly : (preference nodes hint).Pairwise fun a b => (compareFor hint a b).isLE = true := by
    apply List.pairwise_mergeSort
    · exact fun a b c first second => Std.TransCmp.isLE_trans first second
    · intro a b
      rw [Bool.or_eq_true]
      by_cases first : (compareFor hint a b).isLE = true
      · exact Or.inl first
      · exact Or.inr (Ordering.isLE_of_eq_lt (Std.OrientedCmp.lt_of_not_isLE first))
  have distinct := List.pairwise_map.mp (addresses_nodup perm)
  refine ⟨perm, (weakly.and distinct).imp fun {a b} h => ?_⟩
  rcases Ordering.isLE_iff_eq_lt_or_eq_eq.mp h.1 with less | same
  · exact less
  · have address := (compareLex_eq_eq.mp (compareLex_eq_eq.mp same).2).2
    exact (h.2 (Std.LawfulEqCmp.eq_of_compare address)).elim

/-! The choice -/

theorem leastLoaded_eq_none : leastLoaded entries = none ↔ entries = [] := by
  cases entries <;> simp [leastLoaded]

theorem lighter_least {best : Entry} (before : compare a.1 b.1 = .lt)
    (lighter : best = if b.2.load.connectedClients < a.2.load.connectedClients then b else a) :
    (best = a ∨ best = b) ∧ (byLoad best a).isLE = true ∧ (byLoad best b).isLE = true := by
  subst lighter
  split
  · rename_i less
    have first : byLoad b a = .lt := byLoad_lt_iff.mpr (Or.inl less)
    exact ⟨Or.inr rfl, by rw [first]; rfl, Std.ReflCmp.isLE_rfl⟩
  · rename_i more
    have first : byLoad a b = .lt := by
      rcases UInt64.lt_or_eq_of_le (UInt64.not_lt.mp more) with less | same
      · exact byLoad_lt_iff.mpr (Or.inl less)
      · exact byLoad_lt_iff.mpr (Or.inr ⟨same, before⟩)
    exact ⟨Or.inl rfl, Std.ReflCmp.isLE_rfl, by rw [first]; rfl⟩

theorem leastLoaded_least (ascending : entries.Pairwise fun a b => compare a.1 b.1 = .lt)
    (found : leastLoaded entries = some m) : ∀ n ∈ entries, (byLoad m n).isLE = true := by
  cases entries with
  | nil => cases found
  | cons first rest =>
    obtain rfl := Option.some.inj found
    induction rest generalizing first with
    | nil => exact List.forall_mem_singleton.mpr Std.ReflCmp.isLE_rfl
    | cons second rest ih =>
      obtain ⟨before_first, later⟩ := List.pairwise_cons.mp ascending
      obtain ⟨before_second, others⟩ := List.pairwise_cons.mp later
      obtain ⟨first_lt, before_first⟩ := List.forall_mem_cons.mp before_first
      rw [List.foldl_cons]
      generalize lighter : (if second.2.load.connectedClients < first.2.load.connectedClients then
        second else first) = best
      obtain ⟨one, to_first, to_second⟩ := lighter_least first_lt lighter.symm
      have ascending : (best :: rest).Pairwise fun a b => compare a.1 b.1 = .lt := by
        refine List.pairwise_cons.mpr ⟨?_, others⟩
        rcases one with rfl | rfl
        · exact before_first
        · exact before_second
      obtain ⟨to_best, to_others⟩ := List.forall_mem_cons.mp (ih best ascending rfl)
      exact List.forall_mem_cons.mpr ⟨Std.TransCmp.isLE_trans to_best to_first,
        List.forall_mem_cons.mpr ⟨Std.TransCmp.isLE_trans to_best to_second, to_others⟩⟩

theorem choose_eq_none : choose nodes hint = none ↔ nodes = ∅ := by
  rw [choose, Option.or_eq_none_iff, leastLoaded_eq_none, ← Std.ExtTreeMap.toList_eq_nil_iff]
  refine ⟨And.right, fun nobody => ⟨?_, nobody⟩⟩
  rw [nobody]
  cases hint <;> rfl

theorem choose_least (chosen : choose nodes hint = some m) :
    ∀ n ∈ nodes.toList, (compareFor hint m n).isLE = true := by
  have ascending := Std.ExtTreeMap.ordered_keys_toList (t := nodes)
  intro n member
  rcases Option.or_eq_some_iff.mp chosen with near | ⟨nobody, anywhere⟩
  · obtain ⟨region, rfl, near⟩ := Option.bind_eq_some_iff.mp near
    have inside := of_decide_eq_true (List.mem_filter.mp (leastLoaded_mem near)).2
    refine compareFor_inside (congrArg some inside.symm) fun also => ?_
    refine leastLoaded_least (ascending.filter _) near n (List.mem_filter.mpr ⟨member, ?_⟩)
    exact decide_eq_true (Option.some.inj also).symm
  · refine compareFor_outside ?_ (leastLoaded_least ascending anywhere n member)
    -- a node of the region would have been chosen before all others
    rintro rfl
    have empty := leastLoaded_eq_none.mp (Option.bind_eq_none_iff.mp nobody _ rfl)
    exact (List.filter_eq_nil_iff.mp empty n member) (decide_eq_true rfl)

theorem Ranking.choose (ranking : Ranking nodes hint order) : choose nodes hint = order.head? := by
  cases order with
  | nil => exact choose_eq_none.mpr (Std.ExtTreeMap.toList_eq_nil_iff.mp ranking.perm.nil_eq.symm)
  | cons first rest =>
    cases chosen : Fleet.choose nodes hint with
    | none =>
      have empty := Std.ExtTreeMap.toList_eq_nil_iff.mpr (choose_eq_none.mp chosen)
      have nobody := ranking.perm.mem_iff.mp (List.mem_cons_self (a := first) (l := rest))
      rw [empty] at nobody
      contradiction
    | some m =>
      have listed : m ∈ nodes.toList :=
        Std.ExtTreeMap.mem_toList_iff_getElem?_eq_some.mpr (choose_found chosen)
      rcases List.mem_cons.mp (ranking.perm.mem_iff.mpr listed) with rfl | later
      · rfl
      · have before := List.rel_of_pairwise_cons ranking.sorted later
        have least := choose_least chosen first (ranking.perm.mem_iff.mp List.mem_cons_self)
        exact (Std.OrientedCmp.not_isLE_of_lt before least).elim

theorem Ranking.mem_iff (ranking : Ranking nodes hint order) :
    n ∈ order ↔ nodes[n.1]? = some n.2 :=
  ranking.perm.mem_iff.trans Std.ExtTreeMap.mem_toList_iff_getElem?_eq_some

theorem Ranking.length_eq (ranking : Ranking f.nodes hint order) : order.length = f.size :=
  ranking.perm.length_eq.trans Std.ExtTreeMap.length_toList

theorem Ranking.erase (ranking : Ranking nodes hint (n :: rest)) :
    Ranking (nodes.erase n.1) hint rest := by
  obtain ⟨other, distinct⟩ := List.nodup_cons.mp (addresses_nodup ranking.perm)
  have once {entries : List Entry} (keys : (entries.map Prod.fst).Nodup) : entries.Nodup :=
    (List.pairwise_map.mp keys).imp fun apart same => apart (congrArg Prod.fst same)
  refine ⟨?_, (List.pairwise_cons.mp ranking.sorted).2⟩
  apply (List.perm_ext_iff_of_nodup (once distinct) (once (addresses_nodup (.refl _)))).mpr
  intro m
  rw [Std.ExtTreeMap.mem_toList_iff_getElem?_eq_some, Map.found_erase_iff, ← ranking.mem_iff,
    List.mem_cons]
  constructor
  · intro later
    exact ⟨fun same => other (same ▸ List.mem_map_of_mem later), Or.inr later⟩
  · rintro ⟨apart, rfl | later⟩
    · exact (apart rfl).elim
    · exact later

/-! A selection that probes -/

def failures (failed : List (Entry × ProbeError)) :
    List (NodeTarget × Except ProbeError NodeLoad) :=
  failed.map fun down => (down.1.2.target, .error down.2)

/-- The nodes of a ranking were probed in turn. Those that failed are gone. The first that answered,
    if there was one, is chosen and has the load of its answer; the others were left alone. -/
inductive Verifies (f : Fleet) : List Entry →
    List (NodeTarget × Except ProbeError NodeLoad) → Option RelayAddress → Fleet → Prop
  | found (failed : List (Entry × ProbeError)) (n : Entry) (load : NodeLoad) (rest : List Entry) :
      Verifies f (failed.map Prod.fst ++ n :: rest)
        (failures failed ++ [(n.2.target, .ok load)]) (some n.1)
        { f with
          nodes := (without f.nodes (failed.map fun down => down.1.1)).insert n.1
            { n.2 with load } }
  | exhausted (failed : List (Entry × ProbeError)) :
      Verifies f (failed.map Prod.fst) (failures failed) none { f with nodes := ∅ }

variable {g : Fleet} {chosen : Option RelayAddress} {tries : Nat}
  {asked : List (NodeTarget × Except ProbeError NodeLoad)}

theorem Verifies.up (ranked : f.nodes[n.1]? = some n.2) (load : NodeLoad) :
    Verifies f (n :: rest) [(n.2.target, .ok load)] (some n.1) (f.storeLoad n.1 load) := by
  have first := Verifies.found (f := f) [] n load rest
  simp only [List.map_nil, without_nil] at first
  rw [storeLoad, ranked]
  exact first

theorem Verifies.down (h : Verifies (f.evict n.1) rest asked chosen g) (e : ProbeError) :
    Verifies f (n :: rest) ((n.2.target, .error e) :: asked) chosen g := by
  cases h with
  | found failed m load later =>
    have longer := Verifies.found (f := f) ((n, e) :: failed) m load later
    simp only [List.map_cons, without_cons] at longer
    exact longer
  | exhausted failed => exact Verifies.exhausted ((n, e) :: failed)

theorem Verifies.length_le (h : Verifies f order asked chosen g) : asked.length ≤ order.length := by
  cases h <;> simp [failures]

/-- Against nodes that always answer the same, the first in the ranking that answers is chosen. -/
theorem Verifies.chosen_eq (h : Verifies f order asked chosen g)
    {loads : NodeTarget → Except ProbeError NodeLoad} (same : ∀ a ∈ asked, a.2 = loads a.1) :
    chosen = (order.find? fun n => (loads n.2.target).isOk).map Prod.fst := by
  have down {failed : List (Entry × ProbeError)}
      (same : ∀ a ∈ failures failed, a.2 = loads a.1) :
      (failed.map Prod.fst).find? (fun n => (loads n.2.target).isOk) = none := by
    rw [List.find?_eq_none]
    intro n member
    obtain ⟨⟨n, e⟩, listed, rfl⟩ := List.mem_map.mp member
    rw [← same _ (List.mem_map_of_mem listed)]
    exact Bool.false_ne_true
  cases h with
  | found failed n load rest =>
    obtain ⟨failing, answered⟩ := List.forall_mem_append.mp same
    have up := List.forall_mem_singleton.mp answered
    rw [List.find?_append, down failing, Option.none_or, List.find?_cons_of_pos, Option.map_some]
    rw [← up]
    rfl
  | exhausted failed => rw [down same, Option.map_none]

theorem selectVerified_up {probe : Probe σ} {s t : σ} {load : NodeLoad}
    (chosen : choose f.nodes hint = some n) (answer : probe.load n.2.target s = (.ok load, t))
    (tries : Nat) :
    selectVerified probe hint (tries + 1) f s = ((some n.1, f.storeLoad n.1 load), t) := by
  rw [selectVerified, chosen]
  exact bind_of_run answer

theorem selectVerified_down {probe : Probe σ} {s t : σ} {e : ProbeError}
    (chosen : choose f.nodes hint = some n) (answer : probe.load n.2.target s = (.error e, t))
    (tries : Nat) :
    selectVerified probe hint (tries + 1) f s =
      selectVerified probe hint tries (f.evict n.1) t := by
  rw [selectVerified, chosen]
  exact bind_of_run answer

theorem selectVerified_nobody (nobody : choose f.nodes hint = none) (probe : Probe σ)
    (tries : Nat) : selectVerified probe hint tries f = pure (none, f) := by
  cases tries with
  | zero => rfl
  | succ tries => rw [selectVerified, nobody]

theorem selectVerified_enough (ranking : Ranking f.nodes hint order) (probe : Probe σ)
    (enough : order.length ≤ tries) :
    selectVerified probe hint tries f = selectVerified probe hint order.length f := by
  induction order generalizing f tries with
  | nil =>
    have nobody := ranking.choose
    rw [selectVerified_nobody nobody, selectVerified_nobody nobody]
  | cons n rest ih =>
    obtain ⟨tries, rfl⟩ := Nat.exists_eq_succ_of_ne_zero (Nat.ne_zero_of_lt enough)
    funext s
    cases answered : probe.load n.2.target s with
    | mk answer t =>
      cases answer with
      | ok load =>
        rw [List.length_cons, selectVerified_up ranking.choose answered,
          selectVerified_up ranking.choose answered]
      | error e =>
        rw [List.length_cons, selectVerified_down ranking.choose answered,
          selectVerified_down ranking.choose answered,
          ih ranking.erase (Nat.le_of_succ_le_succ enough)]

/-- One walk down the ranking, whatever it is that the nodes answer. -/
theorem selectVerified_verifies (ranking : Ranking f.nodes hint order)
    (enough : order.length ≤ tries) (probe : Probe σ) (s : σ)
    (seen : List (NodeTarget × Except ProbeError NodeLoad)) :
    let run := selectVerified probe.recorded hint tries f (s, seen)
    selectVerified probe hint tries f s = (run.1, run.2.1) ∧
      ∃ asked, run.2.2 = seen ++ asked ∧ Verifies f order asked run.1.1 run.1.2 ∧
        ∀ a ∈ asked, ∃ s, (probe.load a.1 s).1 = a.2 := by
  induction order generalizing f tries s seen with
  | nil =>
    have nobody := ranking.choose
    have unchanged := Verifies.exhausted (f := f) []
    rw [← choose_eq_none.mp nobody] at unchanged
    rw [selectVerified_nobody nobody, selectVerified_nobody nobody]
    exact ⟨rfl, [], (List.append_nil seen).symm, unchanged, by simp⟩
  | cons n rest ih =>
    obtain ⟨tries, rfl⟩ := Nat.exists_eq_succ_of_ne_zero (Nat.ne_zero_of_lt enough)
    cases answered : probe.load n.2.target s with
    | mk answer after =>
      have noted : probe.recorded.load n.2.target (s, seen) =
          (answer, after, seen ++ [(n.2.target, answer)]) := by
        simp only [Probe.recorded, answered]
      have given : ∃ s, (probe.load n.2.target s).1 = answer := ⟨s, congrArg Prod.fst answered⟩
      cases answer with
      | ok load =>
        rw [selectVerified_up ranking.choose answered, selectVerified_up ranking.choose noted]
        have ranked := ranking.mem_iff.mp List.mem_cons_self
        exact ⟨rfl, [(n.2.target, .ok load)], rfl, Verifies.up ranked load,
          List.forall_mem_singleton.mpr given⟩
      | error e =>
        rw [selectVerified_down ranking.choose answered, selectVerified_down ranking.choose noted]
        have later := ih (f := f.evict n.1) ranking.erase (Nat.le_of_succ_le_succ enough) after
          (seen ++ [(n.2.target, .error e)])
        obtain ⟨same, asked, log, verifies, others⟩ := later
        exact ⟨same, (n.2.target, .error e) :: asked, log.trans (List.append_assoc ..),
          verifies.down e, List.forall_mem_cons.mpr ⟨given, others⟩⟩

theorem select_trusting (ranking : Ranking f.nodes hint order)
    (trusting : f.config.verifyOnJoin = false) (probe : Probe σ) :
    f.select probe hint = pure (order.head?.map Prod.fst, f) := by
  rw [select, trusting, ranking.choose]
  rfl

theorem select_verifying (verifying : f.config.verifyOnJoin = true) (probe : Probe σ) :
    f.select probe hint = selectVerified probe hint f.size f := by
  rw [select, if_pos verifying]

/-- The nodes are ranked by region, if one is asked for, by connections and by address. Without a
    probe on joining, the first of them is handed out and nothing changes. With one, each is probed
    at most once, in this order and whatever the answers: those that fail are evicted and the first
    that answers is handed out with the load of its answer. Nobody is handed out only if there is
    no node or none answers. -/
theorem selection_follows_preference (f : Fleet) (probe : Probe σ) (hint : Option Region) (s : σ) :
    let order := preference f.nodes hint
    let run := f.select probe.recorded hint (s, [])
    let chosen := run.1.1
    let after := run.1.2
    let asked := run.2.2
    Ranking f.nodes hint order ∧
      f.select probe hint s = (run.1, run.2.1) ∧
      (f.config.verifyOnJoin = false →
        chosen = order.head?.map Prod.fst ∧ after = f ∧ asked = [] ∧
          (chosen = none ↔ f.size = 0)) ∧
      (f.config.verifyOnJoin = true →
        Verifies f order asked chosen after ∧ asked.length ≤ f.size ∧
          (∀ a ∈ asked, ∃ s, (probe.load a.1 s).1 = a.2) ∧
          (∀ tries, f.size ≤ tries →
            selectVerified probe hint tries f = f.select probe hint) ∧
          ∀ loads, probe.LoadsFrom loads →
            chosen = (order.find? fun n => (loads n.2.target).isOk).map Prod.fst) := by
  intro order run chosen after asked
  have ranking : Ranking f.nodes hint order := preference_ranking f.nodes hint
  cases verify : f.config.verifyOnJoin with
  | false =>
    have first : run = ((order.head?.map Prod.fst, f), s, []) :=
      congrFun (select_trusting ranking verify probe.recorded) (s, [])
    have nobody : order.head?.map Prod.fst = none ↔ f.size = 0 := by
      rw [← ranking.length_eq, Option.map_eq_none_iff, List.head?_eq_none_iff,
        List.length_eq_zero_iff]
    refine ⟨ranking, ?_, fun _ => ?_, fun verifying => Bool.noConfusion verifying⟩
    · rw [first, select_trusting ranking verify]
      rfl
    · simp only [chosen, after, asked, first, nobody, and_self]
  | true =>
    have enough : order.length ≤ f.size := Nat.le_of_eq ranking.length_eq
    have walk := selectVerified_verifies ranking enough probe s []
    rw [← select_verifying verify, ← select_verifying verify] at walk
    obtain ⟨same, questions, log, verifies, given⟩ := walk
    obtain rfl : questions = asked := log.symm
    refine ⟨ranking, same, fun trusting => Bool.noConfusion trusting, fun _ => ?_⟩
    refine ⟨verifies, Nat.le_trans verifies.length_le enough, given, ?_, ?_⟩
    · intro tries more
      rw [select_verifying verify, ← ranking.length_eq]
      exact selectVerified_enough ranking probe (Nat.le_trans enough more)
    · intro loads steady
      refine verifies.chosen_eq fun a member => ?_
      obtain ⟨s, given⟩ := given a member
      rw [← given, steady]

end Fleet

end PeerRelay
