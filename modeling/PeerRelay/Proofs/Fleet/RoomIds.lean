import PeerRelay.Fleet.Sweep
import PeerRelay.Proofs.Dice
import PeerRelay.Proofs.Fleet.Harvest
import PeerRelay.Proofs.Collections

/-!
Room ids in the hands of the balancer. A sweep gathers the ids of all answers, and a request for an
id comes to the first word that the balancer does not pass over, if its dice roll one. A log of the
sweeps that have ended and of the ids that were issued tells what is passed over: what the latest
sweep gave, and what was issued within the reservation time and no sweep has given since.
-/
namespace PeerRelay

namespace Fleet

variable (f : Fleet) (h : Harvest) (relay : RelayAddress)
  (answer : Except ProbeError (List RoomListing))

theorem absorb_fleet : (f.absorb h relay answer).2.config = f.config ∧
    (f.absorb h relay answer).2.index = f.index := by
  cases answer <;> exact ⟨rfl, rfl⟩

theorem absorb_ids_contains (id : String) :
    (f.absorb h relay answer).1.ids.contains id = true ↔ h.ids.contains id = true ∨
      ∃ listings, answer = .ok listings ∧ ∃ listing ∈ listings, listing.serverId = id := by
  cases answer with
  | ok listings =>
    rw [absorb, Harvest.addAll_ids_contains]
    simp
  | error e => simp [absorb]

end Fleet

/-! Issuing an id -/

def Reserves (reserved : Std.ExtTreeMap String Nat) (time : Nat) (id : String) : Prop :=
  ∃ expiry, reserved[id]? = some expiry ∧ time < expiry

section Reserved

variable {reserved : Std.ExtTreeMap String Nat} {now time : Nat} {id : String}

theorem reserves_insert {fresh : String} {expiry : Nat} :
    Reserves (reserved.insert fresh expiry) time id ↔
      (id = fresh ∧ time < expiry) ∨ (id ≠ fresh ∧ Reserves reserved time id) := by
  simp only [Reserves, Map.found_insert_iff, or_and_right, exists_or, and_assoc, exists_and_left,
    exists_eq_left]

theorem reserves_unexpired (late : now ≤ time) :
    Reserves (reserved.filter fun _ expiry => now < expiry) time id ↔
      Reserves reserved time id := by
  simp only [Reserves, Map.found_filter_iff, decide_eq_true_eq, and_assoc]
  refine exists_congr fun expiry => and_congr_right fun _ => and_iff_right_of_imp fun soon => ?_
  omega

theorem reserves_unseen {seen : String → Bool} (late : now ≤ time) :
    Reserves (reserved.filter fun id expiry => now < expiry && !seen id) time id ↔
      Reserves reserved time id ∧ seen id = false := by
  simp only [Reserves, Map.found_filter_iff, Bool.and_eq_true, decide_eq_true_eq,
    Bool.not_eq_true']
  constructor
  · rintro ⟨expiry, ⟨stored, _, unseen⟩, soon⟩
    exact ⟨⟨expiry, stored, soon⟩, unseen⟩
  · rintro ⟨⟨expiry, stored, soon⟩, unseen⟩
    exact ⟨expiry, ⟨stored, by omega, unseen⟩, soon⟩

end Reserved

namespace Fleet

variable {f : Fleet} {now : Nat} {id : String}

def PassesOver (f : Fleet) (now : Nat) (id : String) : Prop :=
  f.index.ids.contains id = true ∨ Reserves f.index.reserved now id

inductive Issuing (f : Fleet) (now : Nat) : Except RoomError String × Fleet → Prop where
  | issued {id : String} {dice : Dice} (free : ¬ f.PassesOver now id)
      (spelled : ∃ roll, f.config.idAlphabet.word f.config.idLength roll = id) :
      Issuing f now
        (.ok id,
         { f with
           dice
           index := { f.index with
             reserved := (f.index.reserved.filter fun _ expiry => now < expiry).insert id
               (now + f.config.idReservation) } })
  | exhausted {dice : Dice} :
      Issuing f now
        (.error (.idSpaceExhausted maxIdAttempts),
         { f with
           dice
           index := { f.index with
             reserved := f.index.reserved.filter fun _ expiry => now < expiry } })

theorem taken_iff :
    (f.index.ids.contains id ||
      (f.index.reserved.filter fun _ expiry => now < expiry).contains id) = true ↔
      f.PassesOver now id := by
  rw [Bool.or_eq_true, Std.ExtTreeMap.contains_eq_isSome_getElem?, Option.isSome_iff_exists]
  simp only [Map.found_filter_iff, decide_eq_true_eq]
  rfl

theorem issueRoomId_issuing (f : Fleet) (now : Nat) : Issuing f now (f.issueRoomId now) := by
  dsimp only [issueRoomId]
  split
  · rename_i drawn
    obtain ⟨free, spelled⟩ := Dice.drawFree_some drawn
    rw [← Bool.not_eq_true, taken_iff] at free
    exact .issued free spelled
  · exact .exhausted

@[simp] theorem issueRoomId_config (f : Fleet) (now : Nat) :
    (f.issueRoomId now).2.config = f.config := by
  have issuing := f.issueRoomId_issuing now
  generalize f.issueRoomId now = result at issuing
  cases issuing <;> rfl

theorem ok_of_toOption {answer : Except RoomError String} (given : answer.toOption = some id) :
    answer = .ok id := by
  cases answer with
  | ok other => exact congrArg Except.ok (Option.some.inj given)
  | error e => exact nomatch given

theorem issueRoomId_possible (free : ¬ f.PassesOver now id) {roll : Roll}
    (spelled : f.config.idAlphabet.word f.config.idLength roll = id) :
    (({ f with dice := ⟨fun _ => roll, 0⟩ } : Fleet).issueRoomId now).1 = .ok id := by
  subst spelled
  rw [← taken_iff, Bool.not_eq_true] at free
  dsimp only [issueRoomId]
  split
  · rename_i drawn
    rw [Option.some.inj (Dice.drawFree_loaded drawn free)]
  · rename_i drawn
    exact nomatch Dice.drawFree_loaded drawn free

/-- For some dice an id is issued exactly if it is a word that is not passed over. -/
theorem issueRoomId_iff (f : Fleet) (now : Nat) (id : String) :
    (∃ dice, (({ f with dice } : Fleet).issueRoomId now).1 = .ok id) ↔
      (∃ roll, f.config.idAlphabet.word f.config.idLength roll = id) ∧ ¬ f.PassesOver now id := by
  constructor
  · rintro ⟨dice, ok⟩
    have issuing := ({ f with dice } : Fleet).issueRoomId_issuing now
    generalize Fleet.issueRoomId _ _ = result at ok issuing
    cases issuing with
    | issued free spelled =>
      obtain rfl := Except.ok.inj ok
      exact ⟨spelled, free⟩
    | exhausted => contradiction
  · rintro ⟨⟨roll, spelled⟩, free⟩
    exact ⟨_, issueRoomId_possible free spelled⟩

end Fleet

/-! What a log tells -/

/-- A sweep has ended, of which this was told, or an id was issued. -/
inductive IdEvent (α : Type) where
  | swept (told : α)
  | issued (id : String) (time : Nat)

namespace IdEvent

variable {α : Type} (gives : α → String → Prop)

/-- The latest sweep of the log, which has its latest event first, gave the id. -/
def Listed (log : List (IdEvent α)) (id : String) : Prop :=
  ∃ later told earlier, log = later ++ .swept told :: earlier ∧
    (∀ other, .swept other ∉ later) ∧ gives told id

/-- The id was issued less than `keep` before `now`, and no sweep has given it since. -/
def Kept (keep now : Nat) (log : List (IdEvent α)) (id : String) : Prop :=
  ∃ later time earlier, log = later ++ .issued id time :: earlier ∧ now < time + keep ∧
    ∀ told, .swept told ∈ later → ¬ gives told id

structure Remembers (keep now : Nat) (index : RoomIndex) (log : List (IdEvent α)) : Prop where
  listed : ∀ id, index.ids.contains id = true ↔ Listed gives log id
  kept : ∀ id {time}, now ≤ time → (Reserves index.reserved time id ↔ Kept gives keep time log id)

variable {gives} {log : List (IdEvent α)} {told : α} {keep now time : Nat} {id fresh : String}

theorem listed_swept : Listed gives (.swept told :: log) id ↔ gives told id := by
  constructor
  · rintro ⟨later, last, earlier, shape, latest, given⟩
    rcases List.cons_eq_append_iff.mp shape with ⟨rfl, same⟩ | ⟨rest, rfl, _⟩
    · cases same
      exact given
    · exact (latest told List.mem_cons_self).elim
  · exact fun given => ⟨[], told, log, rfl, by simp, given⟩

theorem listed_issued : Listed gives (.issued fresh time :: log) id ↔ Listed gives log id := by
  constructor
  · rintro ⟨later, told, earlier, shape, latest, given⟩
    rcases List.cons_eq_append_iff.mp shape with ⟨rfl, same⟩ | ⟨rest, rfl, rfl⟩
    · cases same
    · exact ⟨rest, told, earlier, rfl, fun other mem => latest other (.tail _ mem), given⟩
  · rintro ⟨later, told, earlier, rfl, latest, given⟩
    exact ⟨_ :: later, told, earlier, rfl, by simpa using latest, given⟩

theorem kept_swept :
    Kept gives keep now (.swept told :: log) id ↔ Kept gives keep now log id ∧ ¬ gives told id := by
  constructor
  · rintro ⟨later, time, earlier, shape, soon, ungiven⟩
    rcases List.cons_eq_append_iff.mp shape with ⟨rfl, same⟩ | ⟨rest, rfl, rfl⟩
    · cases same
    · refine ⟨⟨rest, time, earlier, rfl, soon, ?_⟩, ungiven told List.mem_cons_self⟩
      exact fun other mem => ungiven other (.tail _ mem)
  · rintro ⟨⟨later, time, earlier, rfl, soon, ungiven⟩, unseen⟩
    refine ⟨.swept told :: later, time, earlier, rfl, soon, fun other mem => ?_⟩
    rcases List.mem_cons.mp mem with same | mem
    · cases same
      exact unseen
    · exact ungiven other mem

theorem kept_issued :
    Kept gives keep now (.issued fresh time :: log) id ↔
      (id = fresh ∧ now < time + keep) ∨ Kept gives keep now log id := by
  constructor
  · rintro ⟨later, issued, earlier, shape, soon, ungiven⟩
    rcases List.cons_eq_append_iff.mp shape with ⟨rfl, same⟩ | ⟨rest, rfl, rfl⟩
    · cases same
      exact Or.inl ⟨rfl, soon⟩
    · refine Or.inr ⟨rest, issued, earlier, rfl, soon, ?_⟩
      exact fun other mem => ungiven other (.tail _ mem)
  · rintro (⟨rfl, soon⟩ | ⟨later, issued, earlier, rfl, soon, ungiven⟩)
    · exact ⟨[], time, log, rfl, soon, by simp⟩
    · exact ⟨_ :: later, issued, earlier, rfl, soon, by simpa using ungiven⟩

theorem Kept.mono (h : Kept gives keep time log id) (early : now ≤ time) :
    Kept gives keep now log id := by
  obtain ⟨later, issued, earlier, shape, soon, ungiven⟩ := h
  exact ⟨later, issued, earlier, shape, by omega, ungiven⟩

namespace Remembers

variable {f : Fleet} {index : RoomIndex}

theorem empty : Remembers gives keep now .empty [] where
  listed id := by simp [RoomIndex.empty, Listed]
  kept id := by simp [RoomIndex.empty, Reserves, Kept]

theorem later (h : Remembers gives keep now index log) (late : now ≤ time) :
    Remembers gives keep time index log :=
  ⟨h.listed, fun id _ later => h.kept id (Nat.le_trans late later)⟩

/-- The balancer passes over what the log protects. -/
theorem passesOver_iff (h : Remembers gives keep now f.index log) :
    f.PassesOver now id ↔ Listed gives log id ∨ Kept gives keep now log id := by
  rw [Fleet.PassesOver, h.listed, h.kept id (Nat.le_refl now)]

theorem swept (h : Remembers gives keep now f.index log) {harvest : Harvest}
    (gathered : ∀ id, harvest.ids.contains id = true ↔ gives told id) :
    Remembers gives keep now (f.commit harvest now).index (.swept told :: log) where
  listed id := (gathered id).trans listed_swept.symm
  kept id time late := by
    rw [kept_swept, ← h.kept id late, ← gathered, Bool.not_eq_true]
    exact reserves_unseen late

theorem issue (h : Remembers gives f.config.idReservation now f.index log) :
    Remembers gives f.config.idReservation now (f.issueRoomId now).2.index
      (((f.issueRoomId now).1.toOption.map (.issued · now)).toList ++ log) := by
  have issuing := f.issueRoomId_issuing now
  generalize f.issueRoomId now = result at *
  cases issuing with
  | @issued fresh dice free spelled =>
    show Remembers gives _ now _ (.issued fresh now :: log)
    refine ⟨fun id => (h.listed id).trans listed_issued.symm, fun id time late => ?_⟩
    have unkept : ¬ Kept gives f.config.idReservation time log fresh := fun kept =>
      free (h.passesOver_iff.mpr (Or.inr (kept.mono late)))
    rw [reserves_insert, reserves_unexpired late, h.kept id late, kept_issued]
    by_cases same : id = fresh
    · subst same
      simp [unkept]
    · simp [same]
  | exhausted =>
    exact ⟨h.listed, fun id _ late => (reserves_unexpired late).trans (h.kept id late)⟩

end Remembers

end IdEvent

end PeerRelay
