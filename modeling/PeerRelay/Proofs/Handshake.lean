import Mathlib.Data.List.Induction
import PeerRelay.Node.Events
import PeerRelay.Proofs.Session
import PeerRelay.Proofs.Collections

/-!
The sessions as a function of the handshakes. Whether a connection is authenticated can be told from
the calls since it was connected last, and no call has a say in the session of another connection.
-/
namespace PeerRelay

inductive SessionCall where
  | connect (id : ConnectionId) (remote : Net.SocketAddress)
  | authenticate (id : ConnectionId) (key : String) (check : Authenticator)
  | disconnect (id : ConnectionId)

namespace SessionCall

def id : SessionCall → ConnectionId
  | .connect id _ | .authenticate id _ _ | .disconnect id => id

def resets (id : ConnectionId) : SessionCall → Bool
  | .connect c _ | .disconnect c => c = id
  | .authenticate .. => false

def accepts (id : ConnectionId) : SessionCall → Bool
  | .authenticate c key check => c = id && (check key).isNone
  | _ => false

/-- The latest connection under the id is from this address, it has not ended, and these are the
    calls since. -/
def Connected (id : ConnectionId) (remote : Net.SocketAddress) (later calls : List SessionCall) :
    Prop :=
  ∃ before, calls = before ++ .connect id remote :: later ∧ ∀ call ∈ later, call.resets id = false

/-- The latest connection under the id has not ended, and a key of it was accepted. -/
def Handshaken (id : ConnectionId) (calls : List SessionCall) : Prop :=
  ∃ remote later, Connected id remote later calls ∧ ∃ call ∈ later, call.accepts id = true

def Waiting (id : ConnectionId) (calls : List SessionCall) : Prop :=
  ∃ remote later, Connected id remote later calls ∧ ∀ call ∈ later, call.accepts id = false

variable {id : ConnectionId} {remote : Net.SocketAddress} {calls later : List SessionCall}
  {last : SessionCall}

theorem not_connected_nil : ¬ Connected id remote later [] := by
  rintro ⟨before, split, _⟩
  simp at split

theorem connected_concat :
    Connected id remote later (calls ++ [last]) ↔
      (last = .connect id remote ∧ later = []) ∨
        ∃ more, later = more ++ [last] ∧ Connected id remote more calls ∧
          last.resets id = false := by
  constructor
  · rintro ⟨before, split, quiet⟩
    rcases concat_eq_split.mp split with ⟨rfl, rfl, rfl⟩ | ⟨more, rfl, rfl⟩
    · exact Or.inl ⟨rfl, rfl⟩
    · refine Or.inr ⟨more, rfl, ⟨before, rfl, fun call mem => ?_⟩, quiet last (by simp)⟩
      exact quiet call (List.mem_append_left _ mem)
  · rintro (⟨rfl, rfl⟩ | ⟨more, rfl, ⟨before, rfl, quiet⟩, silent⟩)
    · exact ⟨calls, rfl, by simp⟩
    · refine ⟨before, by simp, fun call mem => ?_⟩
      rcases List.mem_append.mp mem with early | final
      · exact quiet call early
      · exact List.mem_singleton.mp final ▸ silent

def follow (id : ConnectionId) (call : SessionCall) (s : Session) : Session :=
  if call.accepts id then { s with state := .authenticated } else s

def current (id : ConnectionId) (remote : Net.SocketAddress) (later : List SessionCall) : Session :=
  ⟨id, if later.any (·.accepts id) then .authenticated else .pending, remote⟩

theorem current_concat (id : ConnectionId) (remote : Net.SocketAddress) (later : List SessionCall)
    (last : SessionCall) :
    current id remote (later ++ [last]) = last.follow id (current id remote later) := by
  unfold current follow
  rw [List.any_append, List.any_cons, List.any_nil, Bool.or_false]
  cases last.accepts id with
  | true => rw [Bool.or_true]; rfl
  | false => rw [Bool.or_false]; rfl

theorem current_isAuthenticated :
    (current id remote later).isAuthenticated = true ↔ ∃ call ∈ later, call.accepts id = true := by
  rw [← List.any_eq_true, current, Session.isAuthenticated]
  cases later.any (·.accepts id) <;> simp

end SessionCall

namespace SessionTable
open SessionCall

variable {t : SessionTable} {id c : ConnectionId} {calls : List SessionCall}

def call (t : SessionTable) : SessionCall → SessionTable
  | .connect id remote => t.connect id remote
  | .authenticate id key check => (t.authenticate id key check).toOption.getD t
  | .disconnect id => t.disconnect id

def after (t : SessionTable) (calls : List SessionCall) : SessionTable := calls.foldl call t

@[simp] theorem after_concat (t : SessionTable) (calls : List SessionCall) (last : SessionCall) :
    t.after (calls ++ [last]) = (t.after calls).call last := by
  rw [after, List.foldl_append]
  rfl

/-! One call -/

theorem call_refused {key : String} {check : Authenticator} {e : SessionError}
    (refused : t.authenticate id key check = .error e) :
    t.call (.authenticate id key check) = t := by
  rw [call, refused]
  rfl

theorem get?_call_other {one : SessionCall} (other : c ≠ one.id) :
    (t.call one).get? c = t.get? c := by
  cases one with
  | connect id remote => exact (get?_connect remote).trans (if_neg other)
  | disconnect id => exact get?_disconnect.trans (if_neg other)
  | authenticate id key check =>
    cases result : t.authenticate id key check with
    | ok changed =>
      rw [call, result]
      exact get?_authenticate result other
    | error e => rw [call_refused result]

/-- The four ways of presenting a key. Only a connection that is pending has its key looked at. -/
theorem authenticate_cases (t : SessionTable) (id : ConnectionId) (key : String)
    (check : Authenticator) :
    (t.get? id = none ∧ t.authenticate id key check = .error (.notFound id)) ∨
      ∃ s, t.get? id = some s ∧
        ((s.isAuthenticated = true ∧
            t.authenticate id key check = .error (.alreadyAuthenticated id)) ∨
          s.isAuthenticated = false ∧
            ((∃ reason, check key = some reason ∧
                t.authenticate id key check = .error (.authFailed reason)) ∨
              check key = none ∧ t.authenticate id key check =
                .ok ⟨t.sessions.insert id { s with state := .authenticated }⟩)) := by
  cases found : t.get? id with
  | none => exact Or.inl ⟨rfl, by simp [authenticate, found]⟩
  | some s =>
    refine Or.inr ⟨s, rfl, ?_⟩
    cases known : s.isAuthenticated with
    | true => exact Or.inl ⟨rfl, by simp [authenticate, found, known]⟩
    | false =>
      refine Or.inr ⟨rfl, ?_⟩
      cases answer : check key with
      | some reason => exact Or.inl ⟨reason, rfl, by simp [authenticate, found, known, answer]⟩
      | none => exact Or.inr ⟨rfl, by simp [authenticate, found, known, answer]⟩

theorem get?_call_authenticate (t : SessionTable) (id : ConnectionId) (key : String)
    (check : Authenticator) :
    (t.call (.authenticate id key check)).get? id =
      (t.get? id).map (follow id (.authenticate id key check)) := by
  obtain ⟨absent, refused⟩ | ⟨s, found, ⟨known, refused⟩ | ⟨pending, ⟨reason, answer, refused⟩ |
    ⟨answer, accepted⟩⟩⟩ := t.authenticate_cases id key check
  · rw [call_refused refused, absent]
    rfl
  · have same : { s with state := .authenticated } = s := by
      rw [← eq_of_beq known]
    rw [call_refused refused, found, Option.map_some, follow, same, ite_self]
  · rw [call_refused refused, found]
    simp [follow, accepts, answer]
  · rw [call, accepted, found]
    simp [Except.toOption, get?, follow, accepts, answer]

theorem get?_call_follow {one : SessionCall} (kept : one.resets id = false) :
    (t.call one).get? id = (t.get? id).map (one.follow id) := by
  by_cases own : id = one.id
  · subst own
    cases one with
    | authenticate id key check => exact t.get?_call_authenticate id key check
    | _ => simp [resets, SessionCall.id] at kept
  · have silent : one.accepts id = false := by
      cases one with
      | authenticate c key check =>
        have other : c ≠ id := Ne.symm own
        simp [accepts, other]
      | _ => rfl
    rw [get?_call_other own]
    cases t.get? id with
    | none => rfl
    | some s =>
      rw [Option.map_some, follow, silent]
      rfl

theorem get?_call_resets {one : SessionCall} (own : one.resets id = true) {s : Session} :
    (t.call one).get? id = some s ↔
      ∃ remote, one = .connect id remote ∧ s = current id remote [] := by
  cases one with
  | connect c remote =>
    obtain rfl : c = id := of_decide_eq_true own
    rw [call, get?_connect, if_pos rfl]
    simp [current, eq_comm]
  | disconnect c =>
    obtain rfl : c = id := of_decide_eq_true own
    rw [call, get?_disconnect, if_pos rfl]
    simp
  | authenticate c key check => cases own

/-- Any session tells of the latest connection under its id and of the calls since. -/
theorem get?_after_iff {s : Session} :
    (empty.after calls).get? id = some s ↔
      ∃ remote later, Connected id remote later calls ∧ s = current id remote later := by
  induction calls using List.reverseRecOn generalizing s with
  | nil => simp [after, empty, get?, not_connected_nil]
  | append_singleton calls last ih =>
    rw [after_concat]
    cases kept : last.resets id with
    | false =>
      rw [get?_call_follow kept, Option.map_eq_some_iff]
      constructor
      · rintro ⟨old, found, rfl⟩
        obtain ⟨remote, later, connected, rfl⟩ := ih.mp found
        refine ⟨remote, later ++ [last], connected_concat.mpr ?_, (current_concat ..).symm⟩
        exact Or.inr ⟨later, rfl, connected, kept⟩
      · rintro ⟨remote, later, connected, rfl⟩
        rcases connected_concat.mp connected with ⟨rfl, _⟩ | ⟨more, rfl, connected, _⟩
        · simp [resets] at kept
        · exact ⟨_, ih.mpr ⟨remote, more, connected, rfl⟩, (current_concat ..).symm⟩
    | true =>
      rw [get?_call_resets kept]
      simp only [connected_concat, kept]
      constructor
      · rintro ⟨remote, rfl, rfl⟩
        exact ⟨remote, [], Or.inl ⟨rfl, rfl⟩, rfl⟩
      · rintro ⟨remote, later, ⟨rfl, rfl⟩ | ⟨_, _, _, impossible⟩, rfl⟩
        · exact ⟨remote, rfl, rfl⟩
        · cases impossible

/-! Who is authenticated -/

theorem after_keyed (calls : List SessionCall) : (empty.after calls).Keyed := by
  intro id s found
  obtain ⟨_, _, _, rfl⟩ := get?_after_iff.mp found
  rfl

theorem has_after_iff (calls : List SessionCall) (id : ConnectionId) (ok : Session → Prop) :
    (empty.after calls).Has ok id ↔
      ∃ remote later, Connected id remote later calls ∧ ok (current id remote later) := by
  constructor
  · rintro ⟨s, found, good⟩
    obtain ⟨remote, later, connected, rfl⟩ := get?_after_iff.mp found
    exact ⟨remote, later, connected, good⟩
  · rintro ⟨remote, later, connected, good⟩
    exact ⟨_, get?_after_iff.mpr ⟨remote, later, connected, rfl⟩, good⟩

theorem handshaken_iff : (empty.after calls).isAuthenticated id = true ↔ Handshaken id calls := by
  rw [isAuthenticated_iff, has_after_iff]
  simp only [current_isAuthenticated, Handshaken]

theorem waiting_iff :
    (empty.after calls).Has (·.isAuthenticated = false) id ↔ Waiting id calls := by
  rw [has_after_iff]
  simp only [← Bool.not_eq_true, current_isAuthenticated, Waiting, not_exists, not_and]

theorem authenticatedIds_ascending (h : t.Keyed) :
    t.authenticatedIds.Pairwise fun a b => a.index < b.index := by
  refine (t.authenticatedIds_sorted.and (authenticatedIds_nodup h)).imp ?_
  rintro a b ⟨least, other⟩
  have least : (compare a.index b.index).isLE = true := least
  have : a.index ≤ b.index := Std.isLE_compare.mp least
  exact Std.lt_of_le_of_ne this fun same => other (congrArg ConnectionId.mk same)

theorem get?_after_none_iff (calls : List SessionCall) (id : ConnectionId) :
    (empty.after calls).get? id = none ↔ ¬ ∃ remote later, Connected id remote later calls := by
  have any := has_after_iff calls id fun _ => True
  simp only [Has, and_true] at any
  rw [← any, Option.eq_none_iff_forall_ne_some, not_exists]

theorem authenticate_results (calls : List SessionCall) (id : ConnectionId) (key : String)
    (check : Authenticator) :
    let result := (empty.after calls).authenticate id key check
    (result = .error (.notFound id) ↔ ¬ ∃ remote later, Connected id remote later calls) ∧
      (result = .error (.alreadyAuthenticated id) ↔ Handshaken id calls) ∧
      (∀ reason, result = .error (.authFailed reason) ↔
        Waiting id calls ∧ check key = some reason) ∧
      ((∃ changed, result = .ok changed) ↔ Waiting id calls ∧ check key = none) := by
  intro result
  rw [← get?_after_none_iff, ← handshaken_iff, ← waiting_iff, isAuthenticated_iff]
  have kind (ok : Session → Prop) {s : Session} (found : (empty.after calls).get? id = some s) :
      (empty.after calls).Has ok id ↔ ok s :=
    ⟨fun ⟨other, same, good⟩ => Option.some.inj (found.symm.trans same) ▸ good,
      fun good => ⟨s, found, good⟩⟩
  obtain ⟨absent, is⟩ | ⟨s, found, ⟨known, is⟩ | ⟨pending, ⟨reason, answer, is⟩ |
    ⟨answer, is⟩⟩⟩ := (empty.after calls).authenticate_cases id key check
  · have nobody (ok : Session → Prop) : ¬ (empty.after calls).Has ok id := by
      rintro ⟨s, found, _⟩
      rw [absent] at found
      contradiction
    simp [result, is, absent, nobody]
  · simp [result, is, found, kind _ found, known]
  · simp [result, is, found, kind _ found, pending, answer]
  · simp [result, is, found, kind _ found, pending, answer]

/-- After any course of calls the sessions are told by the handshakes. A connection is authenticated
    exactly if a key was accepted of it since it was connected last and it has not ended. A key is
    looked at only of a connection that is waiting: to be unknown, to be authenticated already and
    to be refused are told apart whatever the authenticator says, and leave all sessions as they
    are. No call changes the session of another id. The authenticated ids are listed in ascending
    order, and the heartbeat of a node with these sessions goes to each of them once and to nobody
    else. -/
theorem sessions_follow_handshakes (calls : List SessionCall) :
    let t := empty.after calls
    (∀ id, t.isAuthenticated id = true ↔ Handshaken id calls) ∧
      (∀ id key check,
        let result := t.authenticate id key check
        (result = .error (.notFound id) ↔ ¬ ∃ remote later, Connected id remote later calls) ∧
          (result = .error (.alreadyAuthenticated id) ↔ Handshaken id calls) ∧
          (∀ reason, result = .error (.authFailed reason) ↔
            Waiting id calls ∧ check key = some reason) ∧
          ((∃ changed, result = .ok changed) ↔ Waiting id calls ∧ check key = none) ∧
          ∀ e, result = .error e → empty.after (calls ++ [.authenticate id key check]) = t) ∧
      (∀ one : SessionCall, ∀ id ≠ one.id, (empty.after (calls ++ [one])).get? id = t.get? id) ∧
      t.authenticatedIds.Pairwise (fun a b => a.index < b.index) ∧
      (∀ id, id ∈ t.authenticatedIds ↔ Handshaken id calls) ∧
      ∀ n : Node,
        let beats := { n with sessions := t }.heartbeat
        beats.Nodup ∧ ∀ action, action ∈ beats ↔
          ∃ id, Handshaken id calls ∧ action = .send id .reliable [heartbeatByte] := by
  intro t
  have keyed : t.Keyed := after_keyed calls
  have listed (id : ConnectionId) : id ∈ t.authenticatedIds ↔ Handshaken id calls :=
    (mem_authenticatedIds_iff keyed).trans handshaken_iff
  refine ⟨fun id => handshaken_iff, ?_, ?_, authenticatedIds_ascending keyed, listed, ?_⟩
  · intro id key check result
    obtain ⟨unknown, already, wrong, right⟩ := authenticate_results calls id key check
    refine ⟨unknown, already, wrong, right, fun e refused => ?_⟩
    rw [after_concat]
    exact call_refused refused
  · intro one id other
    rw [after_concat]
    exact get?_call_other other
  · intro n beats
    constructor
    · refine List.Pairwise.map _ (fun a b other same => other ?_) (authenticatedIds_nodup keyed)
      exact (Action.send.inj same).1
    · intro action
      show action ∈ t.authenticatedIds.map _ ↔ _
      simp only [List.mem_map, listed, eq_comm (a := action)]

end SessionTable

end PeerRelay
