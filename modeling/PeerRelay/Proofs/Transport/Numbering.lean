import Mathlib.Data.List.Induction
import PeerRelay.Proofs.Collections
import PeerRelay.Transport.Basic

/-!
The ids of a table of connections in the course of its calls. They follow from the number of
registrations alone, and so they run out: nothing looks at what is still on the table when the
counter has gone all the way round.
-/
namespace PeerRelay
open Wire (Bytes)

inductive TableCall where
  | register
  | remove (id : ConnectionId)
  | send (id : ConnectionId) (bytes : Bytes)
  | close (id : ConnectionId)
  deriving DecidableEq, Repr

namespace ConnectionTable

variable {t : ConnectionTable} {id : ConnectionId} {calls : List TableCall}

def call (t : ConnectionTable) : TableCall → ConnectionTable
  | .register => t.register.2
  | .remove id => t.remove id
  | .send id bytes => (t.send id bytes).toOption.getD t
  | .close id => (t.close id).toOption.getD t

def after (t : ConnectionTable) (calls : List TableCall) : ConnectionTable := calls.foldl call t

@[simp] theorem after_concat (t : ConnectionTable) (calls : List TableCall) (last : TableCall) :
    t.after (calls ++ [last]) = (t.after calls).call last := by
  rw [after, List.foldl_append]
  rfl

/-! Ids by their numbers -/

/-- The id of the connection that is registered after so many others. -/
def numbered (n : Nat) : ConnectionId := ⟨Int32.ofNat (n + 1)⟩

theorem numbered_toInt (n : Nat) :
    (numbered n).index.toInt = ((n + 1 : Nat) : Int).bmod 0x100000000 :=
  Int32.toInt_ofNat'

theorem numbered_pos_iff (n : Nat) :
    0 < (numbered n).index ↔ n % 0x100000000 < 0x7FFFFFFF := by
  have zero : (0 : Int32).toInt = 0 := rfl
  rw [Int32.lt_iff_toInt_lt, zero, numbered_toInt, Int.bmod_def]
  omega

theorem numbered_eq_iff (m n : Nat) :
    numbered m = numbered n ↔ m % 0x100000000 = n % 0x100000000 := by
  have wrapped : numbered m = numbered n ↔
      ((m + 1 : Nat) : Int).bmod 0x100000000 = ((n + 1 : Nat) : Int).bmod 0x100000000 := by
    rw [← numbered_toInt, ← numbered_toInt, Int32.toInt_inj]
    exact ⟨congrArg ConnectionId.index, fun same => congrArg ConnectionId.mk same⟩
  rw [wrapped, Int.bmod_def, Int.bmod_def]
  omega

/-! What a call does -/

theorem push_ok {item : QueueItem} {changed : ConnectionTable}
    (pushed : t.push id item = .ok changed) :
    ∃ q, t.get? id = some q ∧ changed = t.setQueue id { q with items := q.items ++ [item] } := by
  unfold push at pushed
  split at pushed
  · cases pushed
  · rename_i q found
    split at pushed
    · exact ⟨q, found, (Except.ok.inj pushed).symm⟩
    · cases pushed

theorem push_keeps (t : ConnectionTable) (id : ConnectionId) (item : QueueItem) :
    ((t.push id item).toOption.getD t).nextIndex = t.nextIndex ∧
      ∀ c, ((t.push id item).toOption.getD t).get? c ≠ none ↔ t.get? c ≠ none := by
  cases pushed : t.push id item with
  | error e => exact ⟨rfl, fun _ => Iff.rfl⟩
  | ok changed =>
    obtain ⟨q, found, rfl⟩ := push_ok pushed
    refine ⟨rfl, fun c => ?_⟩
    show (t.queues.insert id _)[c]? ≠ none ↔ t.queues[c]? ≠ none
    rw [Map.lookup_insert]
    split
    · rename_i same
      have here : t.queues[c]? = some q := same ▸ found
      simp [here]
    · rfl

@[simp] theorem register_get? (t : ConnectionTable) (id : ConnectionId) :
    t.register.2.get? id = if id = t.register.1 then some {} else t.get? id :=
  Map.lookup_insert ..

@[simp] theorem remove_get? (t : ConnectionTable) (id c : ConnectionId) :
    (t.remove id).get? c = if c = id then none else t.get? c :=
  Map.lookup_erase ..

@[simp] theorem nextIndex_after (calls : List TableCall) :
    (empty.after calls).nextIndex = Int32.ofNat (calls.count .register + 1) := by
  induction calls using List.reverseRecOn with
  | nil => rfl
  | append_singleton calls last ih =>
    rw [after_concat, List.count_append]
    cases last with
    | register =>
      show (empty.after calls).nextIndex + 1 = Int32.ofNat (_ + 1 + 1)
      rw [ih]
      exact (Int32.ofNat_add _ 1).symm
    | remove id => exact ih
    | send id bytes => exact ((push_keeps _ id (.frame bytes)).1).trans ih
    | close id => exact ((push_keeps _ id .close).1).trans ih

@[simp] theorem register_numbered (calls : List TableCall) :
    (empty.after calls).register.1 = numbered (calls.count .register) :=
  congrArg ConnectionId.mk (nextIndex_after calls)

/-! Who is on the table -/

/-- A connection was registered under the id and has not been removed since. -/
def Open (calls : List TableCall) (id : ConnectionId) : Prop :=
  ∃ before later, calls = before ++ .register :: later ∧
    numbered (before.count .register) = id ∧ .remove id ∉ later

theorem open_concat {last : TableCall} :
    Open (calls ++ [last]) id ↔
      (last = .register ∧ numbered (calls.count .register) = id) ∨
        (Open calls id ∧ last ≠ .remove id) := by
  constructor
  · rintro ⟨before, later, split, here, kept⟩
    rcases concat_eq_split.mp split with ⟨rfl, rfl, rfl⟩ | ⟨more, rfl, rfl⟩
    · exact Or.inl ⟨rfl, here⟩
    · simp only [List.mem_append, List.mem_singleton, not_or] at kept
      exact Or.inr ⟨⟨before, more, rfl, here, kept.1⟩, Ne.symm kept.2⟩
  · rintro (⟨rfl, here⟩ | ⟨⟨before, later, rfl, here, kept⟩, other⟩)
    · exact ⟨calls, [], rfl, here, by simp⟩
    · refine ⟨before, later ++ [last], by simp, here, ?_⟩
      simp only [List.mem_append, List.mem_singleton, not_or]
      exact ⟨kept, Ne.symm other⟩

theorem present_iff (calls : List TableCall) (id : ConnectionId) :
    (empty.after calls).get? id ≠ none ↔ Open calls id := by
  induction calls using List.reverseRecOn with
  | nil => simp [after, empty, get?, Open]
  | append_singleton calls last ih =>
    rw [after_concat, open_concat, ← ih]
    cases last with
    | register =>
      show (empty.after calls).register.2.get? id ≠ none ↔ _
      rw [register_get?, register_numbered]
      by_cases here : id = numbered (calls.count .register)
      · simp [here]
      · simp [here, Ne.symm here]
    | remove c =>
      show ((empty.after calls).remove c).get? id ≠ none ↔ _
      rw [remove_get?]
      by_cases gone : id = c
      · simp [gone]
      · simp [gone, Ne.symm gone]
    | send c bytes =>
      rw [call, send, (push_keeps _ c (.frame bytes)).2 id]
      simp
    | close c =>
      rw [call, close, (push_keeps _ c .close).2 id]
      simp

theorem exists_registration {n : Nat} (within : n < calls.count .register) :
    ∃ past rest, calls = past ++ .register :: rest ∧ past.count .register = n := by
  induction calls using List.reverseRecOn with
  | nil => simp at within
  | append_singleton calls last ih =>
    by_cases earlier : n < calls.count .register
    · obtain ⟨past, rest, rfl, count⟩ := ih earlier
      exact ⟨past, rest ++ [last], by simp, count⟩
    · rw [List.count_append, List.count_singleton] at within
      split at within
      · rename_i final
        obtain rfl := eq_of_beq final
        exact ⟨calls, [], rfl, by omega⟩
      · omega

theorem all_positive_iff (calls : List TableCall) :
    (∀ past rest, calls = past ++ .register :: rest → 0 < (empty.after past).register.1.index) ↔
      calls.count .register < 0x80000000 := by
  constructor
  · intro positive
    apply Nat.lt_of_not_le
    intro many
    obtain ⟨past, rest, split, count⟩ := exists_registration (n := 0x7FFFFFFF) many
    have above := positive past rest split
    rw [register_numbered, count, numbered_pos_iff] at above
    omega
  · rintro few past rest rfl
    rw [List.count_append, List.count_cons_self] at few
    rw [register_numbered, numbered_pos_iff]
    omega

theorem first_ids_free {calls past rest : List TableCall}
    (few : calls.count .register ≤ 0x100000000) (split : calls = past ++ .register :: rest) :
    (empty.after past).get? (empty.after past).register.1 = none := by
  apply Decidable.byContradiction
  intro taken
  obtain ⟨before, later, rfl, same, _⟩ := (present_iff _ _).mp taken
  rw [register_numbered, numbered_eq_iff] at same
  subst split
  simp only [List.count_append, List.count_cons_self] at few same
  omega

/-- In any course of calls the id of the next connection is told by the number of registrations
    before it. The ids are positive exactly as long as there are fewer than 2^31 of them, and of
    every 2^32 one means nobody. An id is somebody else's exactly if a connection from a multiple
    of 2^32 registrations before is still on the table, which then loses its queue; this cannot
    happen in the first 2^32 registrations. -/
theorem ids_sound_iff (calls : List TableCall) :
    let t := empty.after calls
    let n := calls.count .register
    t.register.1 = numbered n ∧
      (0 < t.register.1.index ↔ n % 0x100000000 < 0x7FFFFFFF) ∧
      (t.register.1 = ⟨-1⟩ ↔ n % 0x100000000 = 0xFFFFFFFE) ∧
      ((∀ past rest, calls = past ++ .register :: rest →
        0 < (empty.after past).register.1.index) ↔ n < 0x80000000) ∧
      (t.get? t.register.1 ≠ none ↔ ∃ before later, calls = before ++ .register :: later ∧
        before.count .register % 0x100000000 = n % 0x100000000 ∧
          .remove t.register.1 ∉ later) ∧
      (n ≤ 0x100000000 → ∀ past rest, calls = past ++ .register :: rest →
        (empty.after past).get? (empty.after past).register.1 = none) ∧
      ∀ id, t.register.2.get? id = if id = t.register.1 then some {} else t.get? id := by
  intro t n
  have next : t.register.1 = numbered n := register_numbered calls
  have nobody : (⟨-1⟩ : ConnectionId) = numbered 0xFFFFFFFE := by decide
  refine ⟨next, ?_, ?_, all_positive_iff calls, ?_, fun few past rest => first_ids_free few,
    t.register_get?⟩
  · rw [next, numbered_pos_iff]
  · rw [next, nobody, numbered_eq_iff]
  · rw [present_iff, next]
    simp only [Open, numbered_eq_iff]

theorem get?_registrations {k : Nat}
    (others : ∀ m, calls.count .register ≤ m → m < calls.count .register + k → numbered m ≠ id) :
    (empty.after (calls ++ List.replicate k .register)).get? id = (empty.after calls).get? id := by
  induction k with
  | zero => simp
  | succ k ih =>
    rw [List.replicate_succ', ← List.append_assoc, after_concat, call, register_get?,
      register_numbered, if_neg, ih fun m low high => others m low (by omega)]
    rw [List.count_append, List.count_replicate_self]
    exact (others _ (by omega) (by omega)).symm

theorem ids_run_out :
    let many (n : Nat) := List.replicate n TableCall.register
    (empty.after (many 0x7FFFFFFF)).register.1 = ⟨-2147483648⟩ ∧
      (empty.after (many 0xFFFFFFFE)).register.1 = ⟨-1⟩ ∧
      let t := empty.after ([.register, .send ⟨1⟩ [7]] ++ many 0xFFFFFFFF)
      t.get? ⟨1⟩ = some ⟨[.frame [7]], true⟩ ∧ t.register.1 = ⟨1⟩ ∧
        t.register.2.get? ⟨1⟩ = some {} := by
  intro many
  have count (n : Nat) : (many n).count .register = n := List.count_replicate_self
  refine ⟨?_, ?_, ?_⟩
  · rw [register_numbered, count]
    decide
  · rw [register_numbered, count]
    decide
  intro t
  have first : (⟨1⟩ : ConnectionId) = numbered 0 := by decide
  have next : t.register.1 = ⟨1⟩ := by
    rw [register_numbered, List.count_append, count]
    decide
  refine ⟨?_, next, ?_⟩
  · refine (get?_registrations ?_).trans (by decide)
    intro m low high
    rw [first, Ne, numbered_eq_iff]
    have once : [TableCall.register, .send ⟨1⟩ [7]].count .register = 1 := by decide
    omega
  · rw [register_get?, next, if_pos rfl]

end ConnectionTable

end PeerRelay
