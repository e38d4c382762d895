import PeerRelay.Proofs.Lobby.Operations

/-!
What a request reads and writes of a lobby. Every operation amounts to edits within a part of the
lobby, the rooms and the people that it is about, and nothing outside of that part decides what the
edits are. So requests about disjoint parts may be served in either order.
-/
namespace PeerRelay

def LobbyRequest.roomNamed? : LobbyRequest → Option String
  | .create _ id .. => some id
  | .join _ request => some request.room
  | .leave .. | .kick .. | .update .. => none

def Effects.andThen (first second : Effects) : Effects :=
  ⟨first.outbound ++ second.outbound, first.roomsChanged || second.roomsChanged⟩

namespace Lobby
open Map

def answer (l : Lobby) : LobbyRequest → Except RoomError (Lobby × Effects)
  | .create host id settings endpoint => l.create host id settings endpoint
  | .join caller request => .ok (l.join caller request)
  | .leave c required => .ok (l.leave c required)
  | .kick caller target => .ok (l.kick caller target)
  | .update caller change => l.update caller change

theorem serve_eq (l : Lobby) (r : LobbyRequest) : l.serve r = l.orUnchanged (l.answer r) := by
  cases r <;> rfl

/-- What the one who asks gets to know: the effects or the error. -/
def reply (l : Lobby) (r : LobbyRequest) : Except RoomError Effects :=
  (l.answer r).map Prod.snd

/-- The rooms that the connections named by a request are in, and the room it names. -/
def footprint (l : Lobby) (r : LobbyRequest) : List String :=
  r.named.filterMap (fun c => (l.roomOf? c).map Room.id) ++ r.roomNamed?.toList

/-! Edits -/

inductive Edit where
  | room (id : String) (value : Option Room)
  | host (c : ConnectionId) (value : Option String)
  | member (c : ConnectionId) (value : Option String)

def Edit.apply (l : Lobby) : Edit → Lobby
  | .room id value => { l with rooms := l.rooms.alter id fun _ => value }
  | .host c value => { l with hosts := l.hosts.alter c fun _ => value }
  | .member c value => { l with members := l.members.alter c fun _ => value }

def edit (l : Lobby) (edits : List Edit) : Lobby := edits.foldl Edit.apply l

@[simp] theorem edit_append (l : Lobby) (edits others : List Edit) :
    l.edit (edits ++ others) = (l.edit edits).edit others :=
  List.foldl_append

structure Part where
  rooms : String → Prop
  people : ConnectionId → Prop

def Part.Holds (p : Part) : Edit → Prop
  | .room id _ => p.rooms id
  | .host c _ => p.people c
  | .member c _ => p.people c

structure Part.Apart (p q : Part) : Prop where
  rooms : ∀ id : String, p.rooms id → ¬ q.rooms id
  people : ∀ c : ConnectionId, p.people c → ¬ q.people c

structure Agree (p : Part) (l l' : Lobby) : Prop where
  rooms : ∀ id : String, p.rooms id → l'.rooms[id]? = l.rooms[id]?
  hosts : ∀ c : ConnectionId, p.people c → l'.hosts[c]? = l.hosts[c]?
  members : ∀ c : ConnectionId, p.people c → l'.members[c]? = l.members[c]?

variable {l l' : Lobby} {p q : Part}

theorem Part.Apart.symm (apart : p.Apart q) : q.Apart p :=
  ⟨fun id mem inside => apart.rooms id inside mem, fun c mem inside => apart.people c inside mem⟩

theorem Agree.refl (p : Part) (l : Lobby) : Agree p l l :=
  ⟨fun _ _ => rfl, fun _ _ => rfl, fun _ _ => rfl⟩

theorem Agree.trans {l'' : Lobby} (first : Agree p l l') (second : Agree p l' l'') :
    Agree p l l'' where
  rooms id inside := (second.rooms id inside).trans (first.rooms id inside)
  hosts c inside := (second.hosts c inside).trans (first.hosts c inside)
  members c inside := (second.members c inside).trans (first.members c inside)

theorem Agree.edit (same : Agree p l l') (edits : List Edit) :
    Agree p (l.edit edits) (l'.edit edits) := by
  induction edits generalizing l l' with
  | nil => exact same
  | cons e rest ih =>
    refine ih ⟨?_, ?_, ?_⟩
    · intro id inside
      cases e <;> simp [Edit.apply, Std.ExtTreeMap.getElem?_alter, same.rooms id inside]
    · intro c inside
      cases e <;> simp [Edit.apply, Std.ExtTreeMap.getElem?_alter, same.hosts c inside]
    · intro c inside
      cases e <;> simp [Edit.apply, Std.ExtTreeMap.getElem?_alter, same.members c inside]

theorem apply_apart (apart : p.Apart q) (l : Lobby) {e : Edit} (outside : q.Holds e) :
    Agree p l (e.apply l) := by
  cases e with
  | room id value =>
    refine ⟨fun other inside => alter_of_ne ?_ _, fun _ _ => rfl, fun _ _ => rfl⟩
    rintro rfl
    exact apart.rooms _ inside outside
  | host c value =>
    refine ⟨fun _ _ => rfl, fun other inside => alter_of_ne ?_ _, fun _ _ => rfl⟩
    rintro rfl
    exact apart.people _ inside outside
  | member c value =>
    refine ⟨fun _ _ => rfl, fun _ _ => rfl, fun other inside => alter_of_ne ?_ _⟩
    rintro rfl
    exact apart.people _ inside outside

theorem edit_apart (apart : p.Apart q) (l : Lobby) {edits : List Edit}
    (outside : ∀ e ∈ edits, q.Holds e) : Agree p l (l.edit edits) := by
  induction edits generalizing l with
  | nil => exact Agree.refl p l
  | cons e rest ih =>
    exact (apply_apart apart l (outside e (by simp))).trans
      (ih (e.apply l) fun f mem => outside f (by simp [mem]))

theorem apply_comm (apart : p.Apart q) (l : Lobby) {e f : Edit} (first : p.Holds e)
    (second : q.Holds f) : f.apply (e.apply l) = e.apply (f.apply l) := by
  have apart_keys : ∀ {α : Type} {P Q : α → Prop} {k a : α}, (∀ x, P x → ¬ Q x) → P k → Q a →
      k ≠ a := by
    rintro α P Q k a split inside outside rfl
    exact split k inside outside
  cases e <;> cases f <;> simp only [Edit.apply] <;> congr 1
  · exact alter_comm (apart_keys apart.rooms first second) _ _
  · exact alter_comm (apart_keys apart.people first second) _ _
  · exact alter_comm (apart_keys apart.people first second) _ _

theorem edit_apply_comm (apart : p.Apart q) (l : Lobby) {e : Edit} {edits : List Edit}
    (first : p.Holds e) (second : ∀ f ∈ edits, q.Holds f) :
    (e.apply l).edit edits = e.apply (l.edit edits) := by
  induction edits generalizing l with
  | nil => rfl
  | cons f rest ih =>
    have swap := apply_comm apart l first (second f (by simp))
    show (f.apply (e.apply l)).edit rest = e.apply ((f.apply l).edit rest)
    rw [swap]
    exact ih (f.apply l) fun g mem => second g (by simp [mem])

theorem edit_comm (apart : p.Apart q) (l : Lobby) {edits others : List Edit}
    (first : ∀ e ∈ edits, p.Holds e) (second : ∀ f ∈ others, q.Holds f) :
    (l.edit edits).edit others = (l.edit others).edit edits := by
  induction edits generalizing l with
  | nil => rfl
  | cons e rest ih =>
    show ((e.apply l).edit rest).edit others = (e.apply (l.edit others)).edit rest
    rw [ih (e.apply l) fun g mem => first g (by simp [mem]),
      edit_apply_comm apart l (first e (by simp)) second]

/-! Operations of a part -/

/-- In every lobby that agrees with `l` on the part, the operation makes the same edits within the
    part and gives the same answer. -/
def Local {α : Type} (p : Part) (op : Lobby → Lobby × α) (l : Lobby) : Prop :=
  ∃ (edits : List Edit) (answer : α), (∀ e ∈ edits, p.Holds e) ∧
    ∀ l', Agree p l l' → op l' = (l'.edit edits, answer)

namespace Local
variable {α β : Type} {f : Lobby → Lobby × α}

theorem congr {g : Lobby → Lobby × α} (h : Local p g l)
    (same : ∀ l', Agree p l l' → f l' = g l') : Local p f l := by
  obtain ⟨edits, answer, inside, run⟩ := h
  exact ⟨edits, answer, inside, fun l' agree => (same l' agree).trans (run l' agree)⟩

theorem unchanged (p : Part) (answer : α) (l : Lobby) : Local p (fun l => (l, answer)) l :=
  ⟨[], answer, by simp, fun _ _ => rfl⟩

theorem of_pair (e d : Edit) (answer : α) (first : p.Holds e) (second : p.Holds d)
    (run : ∀ l', Agree p l l' → f l' = (l'.edit [e, d], answer)) : Local p f l := by
  refine ⟨[e, d], answer, ?_, run⟩
  intro g mem
  simp only [List.mem_cons, List.not_mem_nil, or_false] at mem
  rcases mem with rfl | rfl
  · exact first
  · exact second

theorem map (h : Local p f l) (k : α → β) : Local p (fun l => ((f l).1, k (f l).2)) l := by
  obtain ⟨edits, answer, inside, run⟩ := h
  exact ⟨edits, k answer, inside, fun l' agree => by simp only [run l' agree]⟩

theorem bind (g : α → Lobby → Lobby × β) (first : Local p f l)
    (second : Local p (g (f l).2) (f l).1) : Local p (fun l => g (f l).2 (f l).1) l := by
  obtain ⟨edits, answer, inside, run⟩ := first
  rw [run l (Agree.refl p l)] at second
  obtain ⟨others, last, inside', run'⟩ := second
  refine ⟨edits ++ others, last, ?_, fun l' agree => ?_⟩
  · intro e mem
    exact (List.mem_append.mp mem).elim (inside e) (inside' e)
  · simp only [run l' agree, run' _ (agree.edit edits), edit_append]

/-- Operations of parts that are apart do not notice each other. -/
theorem commute {g : Lobby → Lobby × β} (apart : p.Apart q) (first : Local p f l)
    (second : Local q g l) :
    (g (f l).1).1 = (f (g l).1).1 ∧ (f (g l).1).2 = (f l).2 ∧ (g (f l).1).2 = (g l).2 := by
  obtain ⟨edits, answer, inside, run⟩ := first
  obtain ⟨others, answer', inside', run'⟩ := second
  rw [run l (Agree.refl p l), run' l (Agree.refl q l), run _ (edit_apart apart l inside'),
    run' _ (edit_apart apart.symm l inside)]
  exact ⟨edit_comm apart l inside inside', rfl, rfl⟩

end Local

/-! The operations of a lobby -/

def install (l : Lobby) (room : Room) : Lobby :=
  { l with
    rooms := l.rooms.insert room.id room
    hosts := l.hosts.insert room.host room.id }

theorem edit_members (clients : List ConnectionId) (l : Lobby) :
    l.edit (clients.map fun c => .member c none) =
      { l with members := forgetMembers l.members clients } := by
  induction clients generalizing l with
  | nil => rfl
  | cons c rest ih =>
    show (Edit.apply l (.member c none)).edit (rest.map fun c => .member c none) = _
    rw [ih, Edit.apply, alter_none]
    rfl

structure Part.Covers (p : Part) (l : Lobby) (c : ConnectionId) : Prop where
  self : p.people c
  room : ∀ {id : String} {room : Room}, l.rooms[id]? = some room → room.Seats c → p.rooms id
  clients : ∀ {id : String} {room : Room}, l.rooms[id]? = some room → room.Seats c →
    ∀ x ∈ room.clients, p.people x

theorem closeRoom_local {host : ConnectionId} {id : String} {room : Room}
    (stored : l.rooms[id]? = some room) (room_inside : p.rooms id) (self : p.people host)
    (clients : ∀ x ∈ room.clients, p.people x) : Local p (fun l => l.closeRoom host id) l := by
  refine ⟨.room id none :: .host host none :: room.clients.map fun x => .member x none,
    { outbound := room.clients.map fun x => ⟨x, .roomLeft⟩, roomsChanged := true }, ?_, ?_⟩
  · intro e mem
    simp only [List.mem_cons, List.mem_map] at mem
    rcases mem with rfl | rfl | ⟨x, client, rfl⟩
    · exact room_inside
    · exact self
    · exact clients x client
  · intro l' agree
    have found : l'.get? id = some room := (agree.rooms id room_inside).trans stored
    show _ = (((Edit.apply (Edit.apply l' (.room id none)) (.host host none)).edit _), _)
    rw [edit_members]
    simp [closeRoom, found, Edit.apply]

theorem dropClient_local {id : String} {c : ConnectionId} (room_inside : p.rooms id)
    (self : p.people c) (l : Lobby) (room : Room) :
    Local p (fun l => l.dropClient room id c) l := by
  refine Local.of_pair (.room id (some { room with clients := room.clients.filter (· != c) }))
    (.member c none) { outbound := [⟨room.host, .peerLeft c⟩], roomsChanged := true }
    room_inside self ?_
  intro l' _
  simp only [dropClient, edit, List.foldl_cons, List.foldl_nil, Edit.apply, alter_some, alter_none]

theorem leave_local (h : l.Consistent) {c : ConnectionId} (cover : p.Covers l c)
    (required : Option ConnectionId) : Local p (fun l => l.leave c required) l := by
  have idle := Local.unchanged p ({} : Effects) l
  cases host : l.hosts[c]? with
  | some id =>
    obtain ⟨room, stored, rfl⟩ := h.hosts_iff.mp host
    cases permission : permits required room.host with
    | false =>
      refine idle.congr fun l' agree => ?_
      simp [leave, agree.hosts _ cover.self, host, permission]
    | true =>
      refine (closeRoom_local stored (cover.room stored (Or.inl rfl)) cover.self
        (cover.clients stored (Or.inl rfl))).congr fun l' agree => ?_
      simp [leave, agree.hosts _ cover.self, host, permission]
  | none =>
    cases member : l.members[c]? with
    | none =>
      refine idle.congr fun l' agree => ?_
      simp [leave, agree.hosts c cover.self, agree.members c cover.self, host, member]
    | some id =>
      obtain ⟨room, stored, client⟩ := h.members_iff.mp member
      have room_inside := cover.room stored (Or.inr client)
      have found : ∀ {l'}, Agree p l l' → l'.get? id = some room := fun agree =>
        (agree.rooms id room_inside).trans stored
      cases permission : permits required room.host with
      | false =>
        refine idle.congr fun l' agree => ?_
        simp [leave, agree.hosts c cover.self, agree.members c cover.self, host, member,
          found agree, permission]
      | true =>
        refine (dropClient_local room_inside cover.self l room).congr fun l' agree => ?_
        simp [leave, agree.hosts c cover.self, agree.members c cover.self, host, member,
          found agree, permission]

theorem enter_local {c : ConnectionId} {req : JoinRequest} (self : p.people c)
    (room_inside : p.rooms req.room) (l : Lobby) : Local p (fun l => l.enter c req) l := by
  have found : ∀ {l'}, Agree p l l' → l'.get? req.room = l.rooms[req.room]? :=
    fun agree => agree.rooms req.room room_inside
  have refused := Local.unchanged p ({ outbound := [⟨c, .roomLeft⟩] } : Effects) l
  cases stored : l.rooms[req.room]? with
  | none => exact refused.congr fun l' agree => by simp [enter, found agree, stored]
  | some room =>
    cases free : room.hasFreeSlot with
    | false => exact refused.congr fun l' agree => by simp [enter, found agree, stored, free]
    | true =>
      refine Local.of_pair (.room req.room (some { room with clients := room.clients ++ [c] }))
        (.member c (some room.id)) { outbound := introductions room c req, roomsChanged := true }
        room_inside self ?_
      intro l' agree
      simp only [enter, found agree, stored, free, ↓reduceIte, edit, List.foldl_cons,
        List.foldl_nil, Edit.apply, alter_some]

theorem join_local (h : l.Consistent) {c : ConnectionId} {req : JoinRequest}
    (cover : p.Covers l c) (room_inside : p.rooms req.room) :
    Local p (fun l => l.join c req) l := by
  refine (leave_local h cover none).bind
    (fun left l => ((l.enter c req).1, left.andThen (l.enter c req).2)) ?_
  exact (enter_local cover.self room_inside _).map _

theorem install_local {α : Type} {room : Room} (room_inside : p.rooms room.id)
    (self : p.people room.host) (answer : α) (l : Lobby) :
    Local p (fun l => (l.install room, answer)) l := by
  refine Local.of_pair (.room room.id (some room)) (.host room.host (some room.id)) answer
    room_inside self fun l' _ => ?_
  simp only [install, edit, List.foldl_cons, List.foldl_nil, Edit.apply, alter_some]

theorem create_local (h : l.Consistent) {host : ConnectionId} {id : String} {s : RoomSettings}
    {endpoint : Option Net.SocketAddress} (cover : p.Covers l host) (room_inside : p.rooms id) :
    Local p (fun l => ((l.serve (.create host id s endpoint)).1,
      l.reply (.create host id s endpoint))) l := by
  have contains_eq : ∀ {l' : Lobby}, Agree p l l' → l'.contains id = l.rooms[id]?.isSome := by
    intro l' agree
    rw [contains, Std.ExtTreeMap.contains_eq_isSome_getElem?, agree.rooms id room_inside]
  cases stored : l.rooms[id]? with
  | some room =>
    refine (Local.unchanged p (.error (.duplicateId id)) l).congr fun l' agree => ?_
    simp [serve_eq, reply, answer, create, contains_eq agree, stored, orUnchanged, Except.map]
  | none =>
    have opening := (leave_local h cover none).bind
      (fun left l => (l.install (Room.opened id host s endpoint),
        Except.ok (ε := RoomError) (left.send host (.roomCreated id)).changed))
      (install_local room_inside cover.self _ _)
    refine opening.congr fun l' agree => ?_
    simp [serve_eq, reply, answer, create, contains_eq agree, stored, orUnchanged, install,
      Room.opened, Except.map]

theorem update_local (h : l.Consistent) {caller : ConnectionId} {u : RoomUpdate}
    (cover : p.Covers l caller) :
    Local p (fun l => ((l.serve (.update caller u)).1, l.reply (.update caller u))) l := by
  cases host : l.hosts[caller]? with
  | none =>
    refine (Local.unchanged p (.error (.notHost caller)) l).congr fun l' agree => ?_
    simp [serve_eq, reply, answer, update, agree.hosts caller cover.self, host, orUnchanged,
      Except.map]
  | some id =>
    obtain ⟨room, stored, rfl⟩ := h.hosts_iff.mp host
    have room_inside := cover.room stored (Or.inl rfl)
    refine ⟨[.room id (some (room.updated u))], .ok { roomsChanged := !u.isEmpty }, ?_, ?_⟩
    · intro e mem
      rw [List.mem_singleton.mp mem]
      exact room_inside
    · intro l' agree
      have found : l'.get? id = some room := (agree.rooms id room_inside).trans stored
      simp [serve_eq, reply, answer, update, agree.hosts _ cover.self, host, found, orUnchanged,
        edit, Edit.apply, Except.map]

/-! Requests about disjoint parts -/

/-- The rooms of a footprint, with the connections the request names and the clients of those
    rooms. -/
def part (l : Lobby) (r : LobbyRequest) : Part where
  rooms id := id ∈ l.footprint r
  people c := c ∈ r.named ∨ ∃ (id : String) (room : Room),
    id ∈ l.footprint r ∧ l.rooms[id]? = some room ∧ c ∈ room.clients

theorem seat_mem_footprint (h : l.Consistent) {r : LobbyRequest} {c : ConnectionId} {id : String}
    {room : Room} (named : c ∈ r.named) (stored : l.rooms[id]? = some room)
    (seat : room.Seats c) : id ∈ l.footprint r := by
  refine List.mem_append_left _ (List.mem_filterMap.mpr ⟨c, named, ?_⟩)
  rw [h.roomOf?_eq stored seat, Option.map_some, h.own_id stored]

theorem part_covers (h : l.Consistent) {r : LobbyRequest} {c : ConnectionId}
    (named : c ∈ r.named) : (l.part r).Covers l c where
  self := Or.inl named
  room stored seat := seat_mem_footprint h named stored seat
  clients stored seat _ client :=
    Or.inr ⟨_, _, seat_mem_footprint h named stored seat, stored, client⟩

theorem roomNamed_mem_footprint {r : LobbyRequest} {id : String} (names : r.roomNamed? = some id) :
    id ∈ l.footprint r :=
  List.mem_append_right _ (by simp [names])

theorem serve_local (h : l.Consistent) (r : LobbyRequest) :
    Local (l.part r) (fun l => ((l.serve r).1, l.reply r)) l := by
  cases r with
  | create host id settings endpoint =>
    exact create_local h (part_covers h (by simp [LobbyRequest.named]))
      (roomNamed_mem_footprint rfl)
  | join caller request =>
    exact (join_local h (part_covers h (by simp [LobbyRequest.named]))
      (roomNamed_mem_footprint rfl)).map Except.ok
  | leave c required =>
    exact (leave_local h (part_covers h (by simp [LobbyRequest.named])) required).map Except.ok
  | kick caller target =>
    exact (leave_local h (part_covers h (by simp [LobbyRequest.named])) (some caller)).map Except.ok
  | update caller change => exact update_local h (part_covers h (by simp [LobbyRequest.named]))

theorem parts_apart (h : l.Consistent) {a b : LobbyRequest}
    (people : ∀ c ∈ a.named, c ∉ b.named) (rooms : ∀ id ∈ l.footprint a, id ∉ l.footprint b) :
    (l.part a).Apart (l.part b) := by
  refine ⟨rooms, ?_⟩
  rintro c (named | ⟨id, room, mem, stored, client⟩) (named' | ⟨id', room', mem', stored', client'⟩)
  · exact people c named named'
  · exact rooms id' (seat_mem_footprint h named stored' (Or.inr client')) mem'
  · exact rooms id mem (seat_mem_footprint h named' stored (Or.inr client))
  · obtain rfl := h.seat_unique stored stored' (Or.inr client) (Or.inr client')
    exact rooms id mem mem'

/-- After every history, two requests that name different connections and are about different
    rooms give the same lobby in either order, and each gets the same answer as on its own. -/
theorem disjoint_requests_commute (requests : List LobbyRequest) (a b : LobbyRequest)
    (people : ∀ c ∈ a.named, c ∉ b.named)
    (rooms : ∀ id ∈ (empty.serveAll requests).1.footprint a,
      id ∉ (empty.serveAll requests).1.footprint b) :
    let l := (empty.serveAll requests).1
    ((l.serve a).1.serve b).1 = ((l.serve b).1.serve a).1 ∧
      (l.serve b).1.reply a = l.reply a ∧ (l.serve a).1.reply b = l.reply b := by
  have h := history_consistent requests
  exact (serve_local h a).commute (parts_apart h people rooms) (serve_local h b)

def twoRooms : List LobbyRequest :=
  let settings : RoomSettings := ⟨4, "Lobby", true, "", false, "", false, 0⟩
  let into (room : String) : JoinRequest := ⟨room, true, "", none⟩
  [.create ⟨1⟩ "A" settings none, .join ⟨2⟩ (into "A"), .join ⟨3⟩ (into "A"),
   .create ⟨4⟩ "B" settings none, .join ⟨5⟩ (into "B")]

/-- A host leaves its room and its client for another room while elsewhere a client is kicked. -/
theorem kick_and_move_commute :
    let l := (empty.serveAll twoRooms).1
    let kick : LobbyRequest := .kick ⟨1⟩ ⟨2⟩
    let move : LobbyRequest :=
      .create ⟨4⟩ "C" ⟨2, "Arena", false, "", false, "", false, 0⟩ none
    l.footprint kick = ["A", "A"] ∧ l.footprint move = ["B", "C"] ∧
      ((l.serve kick).1.serve move).1 = ((l.serve move).1.serve kick).1 ∧
      (l.serve move).1.reply kick = l.reply kick ∧ (l.serve kick).1.reply move = l.reply move := by
  intro l kick move
  have kicking : l.footprint kick = ["A", "A"] := by decide +kernel
  have moving : l.footprint move = ["B", "C"] := by decide +kernel
  refine ⟨kicking, moving, disjoint_requests_commute twoRooms kick move (by decide) ?_⟩
  show ∀ id ∈ l.footprint kick, id ∉ l.footprint move
  rw [kicking, moving]
  decide

end Lobby

end PeerRelay
