import PeerRelay.Proofs.Dice
import PeerRelay.Proofs.Nat.Rendezvous

/-!
Tokens and endpoints as a function of what was done with a rendezvous. A connection holds a token
from its issue until a datagram carries it, another one is issued to the connection, or the
connection is forgotten. A datagram binds whoever holds its token at that moment, and the latest
such datagram tells the endpoint.
-/
namespace PeerRelay

inductive PunchEvent where
  | issue (c : ConnectionId) (tries : Nat) (dice : Dice)
  | forget (c : ConnectionId)
  | datagram (bytes : Wire.Bytes) (source : Net.SocketAddress)

inductive PunchNote where
  | issued (c : ConnectionId) (token : String)
  | forgot (c : ConnectionId)
  | received (bytes : Wire.Bytes) (source : Net.SocketAddress)

def heard (bytes : Wire.Bytes) : Except Wire.Error PunchDatagram :=
  PunchDatagram.decode (bytes.take Rendezvous.maxDatagram)

namespace PunchNote

/-- Something was noted, and since then nothing that ends it. The newest note comes first, and what
    a note means may depend on those before it. -/
def Lasts (begins ends : List PunchNote → PunchNote → Prop) (notes : List PunchNote) : Prop :=
  ∃ later note earlier, notes = later ++ note :: earlier ∧ begins earlier note ∧
    ∀ newer other older, later = newer ++ other :: older → ¬ ends (older ++ note :: earlier) other

def Carries (token : String) : PunchNote → Prop
  | .received bytes _ => heard bytes = .ok (.establish token)
  | _ => False

def Frees (c : ConnectionId) (token : String) : PunchNote → Prop
  | .issued d _ | .forgot d => d = c
  | note => note.Carries token

/-- The token was issued to the connection, and since then no datagram has carried it, no other was
    issued to the connection, and the connection was not forgotten. -/
def Holds (notes : List PunchNote) (c : ConnectionId) (token : String) : Prop :=
  Lasts (fun _ note => note = .issued c token) (fun _ note => note.Frees c token) notes

def Binds (c : ConnectionId) (source : Net.SocketAddress) (earlier : List PunchNote)
    (note : PunchNote) : Prop :=
  ∃ bytes token, note = .received bytes source ∧ heard bytes = .ok (.establish token) ∧
    Holds earlier c token

/-- That was the source of the last datagram that bound the connection, and the connection was not
    forgotten since. -/
def Bound (notes : List PunchNote) (c : ConnectionId) (source : Net.SocketAddress) : Prop :=
  Lasts (Binds c source)
    (fun earlier note => note = .forgot c ∨ ∃ other, Binds c other earlier note) notes

variable {begins ends : List PunchNote → PunchNote → Prop} {notes : List PunchNote}
  {note : PunchNote} {c x : ConnectionId} {token other : String} {source a : Net.SocketAddress}
  {bytes : Wire.Bytes}

theorem lasts_nil : ¬ Lasts begins ends [] := by
  rintro ⟨later, note, earlier, shape, _⟩
  simp at shape

theorem lasts_cons : Lasts begins ends (note :: notes) ↔
    begins notes note ∨ Lasts begins ends notes ∧ ¬ ends notes note := by
  constructor
  · rintro ⟨later, first, earlier, shape, begun, quiet⟩
    rcases List.cons_eq_append_iff.mp shape with ⟨rfl, same⟩ | ⟨later, rfl, rfl⟩
    · obtain ⟨rfl, rfl⟩ := List.cons.inj same
      exact Or.inl begun
    · refine Or.inr ⟨⟨later, first, earlier, rfl, begun, ?_⟩, quiet [] note later rfl⟩
      intro newer old older same
      exact quiet (note :: newer) old older (congrArg (note :: ·) same)
  · rintro (begun | ⟨⟨later, first, earlier, rfl, begun, quiet⟩, lasting⟩)
    · exact ⟨[], note, notes, rfl, begun, by simp⟩
    · refine ⟨note :: later, first, earlier, rfl, begun, ?_⟩
      intro newer old older shape
      rcases List.cons_eq_append_iff.mp shape with ⟨rfl, same⟩ | ⟨newer, rfl, rfl⟩
      · obtain ⟨rfl, rfl⟩ := List.cons.inj same
        exact lasting
      · exact quiet newer old older rfl

theorem lasts_since {later earlier : List PunchNote}
    (h : Lasts begins ends (later ++ note :: earlier)) (freed : ends earlier note)
    (other : ¬ begins earlier note) :
    ∃ newer again older, later = newer ++ again :: older ∧
      begins (older ++ note :: earlier) again := by
  induction later with
  | nil => exact ((lasts_cons.mp h).elim other fun ⟨_, lasting⟩ => lasting freed).elim
  | cons first rest ih =>
    rcases lasts_cons.mp h with begun | ⟨before, _⟩
    · exact ⟨[], first, rest, rfl, begun⟩
    · obtain ⟨newer, again, older, rfl, begun⟩ := ih before
      exact ⟨first :: newer, again, older, rfl, begun⟩

theorem holds_issued : Holds (.issued c token :: notes) x other ↔
    (x = c ∧ other = token) ∨ x ≠ c ∧ Holds notes x other := by
  rw [Holds, lasts_cons, and_comm (b := ¬ _)]
  simp [Frees, Holds, eq_comm]

theorem holds_forgot : Holds (.forgot c :: notes) x other ↔ x ≠ c ∧ Holds notes x other := by
  rw [Holds, lasts_cons, and_comm (b := ¬ _)]
  simp [Frees, Holds, eq_comm]

theorem holds_received : Holds (.received bytes source :: notes) x other ↔
    heard bytes ≠ .ok (.establish other) ∧ Holds notes x other := by
  rw [Holds, lasts_cons, and_comm (b := ¬ _)]
  simp [Frees, Carries, Holds]

theorem bound_issued : Bound (.issued c token :: notes) x a ↔ Bound notes x a := by
  rw [Bound, lasts_cons]
  simp [Binds, Bound]

theorem bound_forgot : Bound (.forgot c :: notes) x a ↔ x ≠ c ∧ Bound notes x a := by
  rw [Bound, lasts_cons, and_comm (b := ¬ _)]
  simp [Binds, Bound, eq_comm]

theorem bound_unheld
    (unheld : ∀ token, heard bytes = .ok (.establish token) → ∀ c, ¬ Holds notes c token) :
    Bound (.received bytes source :: notes) x a ↔ Bound notes x a := by
  have idle : ∀ {y b}, ¬ Binds y b notes (.received bytes source) := by
    rintro y b ⟨_, token, same, carried, held⟩
    obtain ⟨rfl, rfl⟩ := PunchNote.received.inj same
    exact unheld token carried y held
  rw [Bound, lasts_cons]
  simp [idle, Bound]

theorem bound_held (carried : heard bytes = .ok (.establish token))
    (holder : ∀ y, Holds notes y token ↔ y = c) :
    Bound (.received bytes source :: notes) x a ↔
      (x = c ∧ a = source) ∨ x ≠ c ∧ Bound notes x a := by
  have binds : ∀ {y b}, Binds y b notes (.received bytes source) ↔ y = c ∧ b = source := by
    intro y b
    constructor
    · rintro ⟨_, held, same, again, holds⟩
      obtain ⟨rfl, rfl⟩ := PunchNote.received.inj same
      obtain rfl := PunchDatagram.establish.inj (Except.ok.inj (carried.symm.trans again))
      exact ⟨(holder y).mp holds, rfl⟩
    · rintro ⟨rfl, rfl⟩
      exact ⟨bytes, token, rfl, carried, (holder y).mpr rfl⟩
  rw [Bound, lasts_cons, and_comm (b := ¬ _)]
  simp [binds, Bound]

end PunchNote

namespace Rendezvous
open PunchNote Map Pairing

def undergo (r : Rendezvous) : PunchEvent → Rendezvous
  | .issue c tries dice => (r.issue c tries dice).2.1
  | .forget c => r.forget c
  | .datagram bytes source => (r.receive bytes source).2

def after (r : Rendezvous) : List PunchEvent → Rendezvous
  | [] => r
  | e :: rest => (r.undergo e).after rest

def note? (r : Rendezvous) : PunchEvent → Option PunchNote
  | .issue c tries dice => (r.issue c tries dice).1.map (.issued c)
  | .forget c => some (.forgot c)
  | .datagram bytes source => some (.received bytes source)

def history (r : Rendezvous) (notes : List PunchNote) : List PunchEvent → List PunchNote
  | [] => notes
  | e :: rest => (r.undergo e).history ((r.note? e).toList ++ notes) rest

def reply? (r : Rendezvous) : PunchEvent → Option (Net.SocketAddress × Wire.Bytes)
  | .datagram bytes source => (r.receive bytes source).1.map (source, ·)
  | _ => none

def replies (r : Rendezvous) : List PunchEvent → List (Net.SocketAddress × Wire.Bytes)
  | [] => []
  | e :: rest => (r.reply? e).toList ++ (r.undergo e).replies rest

structure Told (r : Rendezvous) (notes : List PunchNote) : Prop where
  matched : r.pending.Matched
  holds : ∀ {c token}, r.pending.right? c = some token ↔ Holds notes c token
  bound : ∀ {c source}, r.endpoint? c = some source ↔ Bound notes c source

variable {r : Rendezvous} {notes : List PunchNote} {c : ConnectionId} {token : String}

theorem new_told (port : UInt16) : Told (new port) [] where
  matched := empty_matched
  holds {c token} := by
    rw [Holds, iff_false_right lasts_nil]
    simp [new, Pairing.empty, Pairing.right?]
  bound {c source} := by
    rw [Bound, iff_false_right lasts_nil]
    simp [new, endpoint?]

theorem isPending_eq_false (h : r.pending.Matched) (free : r.isPending token = false) :
    r.pending.right? c ≠ some token := by
  intro held
  rw [isPending, (h c token).mp held] at free
  contradiction

/-- An issue hands out a word of the dice that nobody holds, or nothing happens. -/
theorem issue_cases (r : Rendezvous) (c : ConnectionId) (tries : Nat) (dice : Dice) :
    ((r.issue c tries dice).1 = none ∧ (r.issue c tries dice).2.1 = r) ∨
      ∃ token, r.isPending token = false ∧ (r.issue c tries dice).1 = some token ∧
        (r.issue c tries dice).2.1 = { r with pending := r.pending.insert c token } := by
  unfold issue
  split
  · rename_i drawn
    exact Or.inr ⟨_, (Dice.drawFree_some drawn).1, rfl, rfl⟩
  · exact Or.inl ⟨rfl, rfl⟩

theorem Told.issue (h : Told r notes) (c : ConnectionId) (tries : Nat) (dice : Dice) :
    Told (r.undergo (.issue c tries dice))
      ((r.note? (.issue c tries dice)).toList ++ notes) := by
  rcases r.issue_cases c tries dice with ⟨none, same⟩ | ⟨token, free, issued, later⟩
  · simpa [undergo, note?, none, same] using h
  · rw [undergo, later, note?, issued]
    show Told _ (.issued c token :: notes)
    constructor
    · exact h.matched.insert c token
    · intro x other
      refine h.matched.right?_insert.trans (Iff.trans ?_ holds_issued.symm)
      refine or_congr Iff.rfl (and_congr_right fun _ => ?_)
      rw [← h.holds, and_iff_right_iff_imp]
      rintro held rfl
      exact isPending_eq_false h.matched free held
    · exact h.bound.trans bound_issued.symm

theorem Told.forget (h : Told r notes) (c : ConnectionId) :
    Told (r.undergo (.forget c)) (.forgot c :: notes) where
  matched := h.matched.removeLeft c
  holds := right?_removeLeft.trans ((and_congr_right fun _ => h.holds).trans holds_forgot.symm)
  bound := found_erase_iff.trans ((and_congr_right fun _ => h.bound).trans bound_forgot.symm)

theorem Told.left? (h : Told r notes) : r.pending.left? token = some c ↔ Holds notes c token :=
  (h.matched c token).symm.trans h.holds

theorem Told.resolve (h : Told r notes) (source : Net.SocketAddress) :
    (r.resolve token source).1 = some c ↔ Holds notes c token := by
  simp [← h.left?]

theorem Told.unheld (h : Told r notes) {bytes : Wire.Bytes} {source : Net.SocketAddress}
    (unheld : ∀ token, heard bytes = .ok (.establish token) → ∀ c, ¬ Holds notes c token) :
    Told r (.received bytes source :: notes) where
  matched := h.matched
  holds {x other} := by
    rw [holds_received, h.holds]
    exact ⟨fun held => ⟨fun carried => unheld other carried x held, held⟩, And.right⟩
  bound := h.bound.trans (bound_unheld unheld).symm

theorem Told.held (h : Told r notes) {bytes : Wire.Bytes}
    (carried : heard bytes = .ok (.establish token)) (held : Holds notes c token)
    (source : Net.SocketAddress) :
    Told (r.resolve token source).2 (.received bytes source :: notes) := by
  have holder (x : ConnectionId) : Holds notes x token ↔ x = c := by
    constructor
    · intro other
      exact found_unique (h.left?.mpr other) (h.left?.mpr held)
    · rintro rfl
      exact held
  have outcome := removeRight_fst.trans (h.left?.mpr held)
  have remaining {x : ConnectionId} {other : String} :
      (r.pending.removeRight token).2.right? x = some other ↔
        heard bytes ≠ .ok (.establish other) ∧ Holds notes x other := by
    rw [h.matched.right?_removeRight, h.holds, carried]
    simp [eq_comm]
  have matched := resolve_matched h.matched token source
  unfold Rendezvous.resolve at matched ⊢
  generalize r.pending.removeRight token = removed at *
  obtain ⟨_, pending⟩ := removed
  obtain rfl := outcome
  exact ⟨matched, remaining.trans holds_received.symm,
    found_insert_iff.trans ((or_congr Iff.rfl (and_congr_right fun _ => h.bound)).trans
      (bound_held carried holder).symm)⟩

theorem Told.datagram (h : Told r notes) (bytes : Wire.Bytes) (source : Net.SocketAddress) :
    Told (r.undergo (.datagram bytes source)) (.received bytes source :: notes) := by
  rw [undergo, receive]
  split
  · rename_i unreadable
    exact h.unheld fun token carried => nomatch unreadable.symm.trans carried
  · rename_i kept
    exact h.unheld fun token carried => nomatch kept.symm.trans carried
  · rename_i token carried
    cases holder : r.pending.left? token with
    | none =>
      have idle : (r.resolve token source).2 = r := by
        rw [Rendezvous.resolve, Pairing.removeRight, holder]
      rw [idle]
      refine h.unheld fun other again c held => ?_
      obtain rfl := PunchDatagram.establish.inj (Except.ok.inj (carried.symm.trans again))
      exact nomatch holder.symm.trans (h.left?.mpr held)
    | some c => exact h.held carried (h.left?.mp holder) source

theorem Told.undergo (h : Told r notes) (e : PunchEvent) :
    Told (r.undergo e) ((r.note? e).toList ++ notes) := by
  cases e with
  | issue c tries dice => exact h.issue c tries dice
  | forget c => exact h.forget c
  | datagram bytes source => exact h.datagram bytes source

theorem Told.after (h : Told r notes) (events : List PunchEvent) :
    Told (r.after events) (r.history notes events) := by
  induction events generalizing r notes with
  | nil => exact h
  | cons e rest ih => exact ih (h.undergo e)

/-! Replies -/

def acknowledgment? : PunchEvent → Option (Net.SocketAddress × Wire.Bytes)
  | .datagram bytes source => (heard bytes).toOption.map fun _ => (source, punchAcknowledgment)
  | _ => none

theorem reply?_eq (r : Rendezvous) (e : PunchEvent) : r.reply? e = acknowledgment? e := by
  cases e with
  | issue c tries dice => rfl
  | forget c => rfl
  | datagram bytes source =>
    simp only [reply?, acknowledgment?, receive, heard]
    split <;> rename_i outcome <;> rw [outcome] <;> rfl

theorem replies_eq (r : Rendezvous) (events : List PunchEvent) :
    r.replies events = events.filterMap acknowledgment? := by
  induction events generalizing r with
  | nil => rfl
  | cons e rest ih =>
    rw [replies, ih, reply?_eq, List.filterMap_cons]
    cases acknowledgment? e <;> rfl

theorem issue_settled (r : Rendezvous) (c : ConnectionId) (dice : Dice) {k : Nat}
    (free : r.isPending (tokenOf (dice.roll k)) = false) :
    ∃ token, r.isPending token = false ∧ ∀ tries, k < tries →
      (r.issue c tries dice).1 = some token := by
  obtain ⟨token, idle, drawn⟩ := dice.drawFree_settled free
  refine ⟨token, idle, fun tries enough => ?_⟩
  have out := drawn tries enough
  unfold issue
  split <;> rename_i outcome <;> rw [outcome] at out
  · exact out
  · contradiction

/-- Whatever tokens are issued, whoever is forgotten and whatever datagrams arrive, a connection has
    an endpoint exactly if, since it was last forgotten, a datagram came from there with a token
    that the connection held, and no later one did. A token resolves for who holds it and nobody
    else; once a datagram has carried it or its connection was forgotten, it resolves only for
    whom it was issued to since. Dice that come to a free token hand one out, however many tries
    they have. Every datagram that can be read is acknowledged once, to its source, and nothing
    else is sent. -/
theorem tokens_bind_endpoints (port : UInt16) (events : List PunchEvent) :
    let r := (new port).after events
    let notes := (new port).history [] events
    (∀ c source, r.endpoint? c = some source ↔ Bound notes c source) ∧
      (∀ token source c, (r.resolve token source).1 = some c ↔ Holds notes c token) ∧
      (∀ later note earlier token source c, notes = later ++ note :: earlier →
        note = .forgot c ∨ note.Carries token → (r.resolve token source).1 = some c →
          .issued c token ∈ later) ∧
      (∀ c dice k, r.isPending (tokenOf (dice.roll k)) = false →
        ∃ token, r.isPending token = false ∧
          ∀ tries, k < tries → (r.issue c tries dice).1 = some token) ∧
      (new port).replies events = events.filterMap acknowledgment? := by
  intro r notes
  have told : Told r notes := (new_told port).after events
  refine ⟨fun c source => told.bound, fun token source c => told.resolve source, ?_, ?_, ?_⟩
  · intro later note earlier token source c shape freed resolved
    have held : Holds (later ++ note :: earlier) c token :=
      shape ▸ (told.resolve source).mp resolved
    have frees : note.Frees c token ∧ note ≠ .issued c token := by
      cases note <;> simp_all [Frees, Carries]
    obtain ⟨newer, again, older, rfl, rfl⟩ := lasts_since held frees.1 frees.2
    simp
  · exact fun c dice k free => r.issue_settled c dice free
  · exact (new port).replies_eq events

end Rendezvous

end PeerRelay
