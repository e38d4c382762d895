import PeerRelay.Frame.Client
import PeerRelay.Frame.Punch
import PeerRelay.Frame.Server
import PeerRelay.Proofs.Wire.Reader
import PeerRelay.Proofs.Wire.Writer

/-!
Frames and datagrams are read as they were written. All but one end where their last field ends, so
that further bytes make no difference; data without a sender ends where the bytes end.
-/
namespace PeerRelay
open Wire

namespace ClientFrame

theorem readSettings_reads (s : RoomSettings)
    (countable : ∀ x ∈ body (.createRoom s), x.Countable) :
    Reads readSettings ((body (.createRoom s)).flatMap Field.bytes) s := by
  have name : (Field.text s.name).Countable := countable _ (by simp [body])
  have data : (Field.text s.data).Countable := countable _ (by simp [body])
  have localIp : (Field.text s.hostLocalIp).Countable := countable _ (by simp [body])
  exact (readNumber_reads s.maxPlayers).bind <| (readText_reads name).bind <|
    (readFlag_reads s.isPublic).bind <| (readText_reads data).bind <|
    (readFlag_reads s.supportsDirect).bind <| (readText_reads localIp).bind <|
    (readFlag_reads s.useNatPunch).bind <| (readNumber_reads s.port).bind <| Reads.pure _

theorem readUpdate_reads (u : RoomUpdate)
    (countable : ∀ x ∈ body (.updateRoom u), x.Countable) :
    Reads readUpdate ((body (.updateRoom u)).flatMap Field.bytes) u := by
  have name := readOptional_reads u.name fun s present =>
    readText_reads (countable (.text s) (by simp [body, present, Field.optional]))
  have data := readOptional_reads u.data fun s present =>
    readText_reads (countable (.text s) (by simp [body, present, Field.optional]))
  have isPublic := readOptional_reads u.isPublic fun b _ => readFlag_reads b
  have maxPlayers := readOptional_reads u.maxPlayers fun n _ => readNumber_reads n
  simp only [body, List.flatMap_append, List.append_assoc]
  exact name.bind <| data.bind <| isPublic.bind maxPlayers.last

theorem readBody_reads (f : ClientFrame) (countable : ∀ x ∈ f.body, x.Countable) :
    Reads (readBody f.opcode) (f.body.flatMap Field.bytes) f := by
  cases f with
  | blank => exact Reads.pure _
  | requestId => exact Reads.pure _
  | joinRoom room canDirect localIp =>
    have first := readText_reads (countable (.text room) (by simp [body]))
    have last := readText_reads (countable (.text localIp) (by simp [body]))
    exact first.bind <| (readFlag_reads canDirect).bind <| last.bind <| Reads.pure _
  | sendData payload target =>
    have blob := readBlob_reads (countable (.blob payload) (by simp [body]))
    exact blob.bind <| (readNumber_reads target.index).bind <| Reads.pure _
  | createRoom settings => exact (readSettings_reads settings countable).last
  | leaveRoom => exact Reads.pure _
  | kickPeer target => exact (readNumber_reads target.index).bind <| Reads.pure _
  | keyResponse key =>
    have text := readText_reads (countable (.text key) (by simp [body]))
    exact text.bind <| Reads.pure _
  | updateRoom update => exact (readUpdate_reads update countable).last

theorem read_reads (f : ClientFrame) (countable : ∀ x ∈ f.body, x.Countable) :
    Reads read (f.fields.flatMap Field.bytes) f := by
  refine (readByte_reads f.opcode.code).bind ?_
  simp only [OpCode.ofByte?_code]
  exact readBody_reads f countable

theorem decode_encoded (f : ClientFrame) {buffer bytes : Bytes}
    (encoded : (f.encode buffer).result = .ok bytes) : decode bytes = .ok f := by
  obtain ⟨fits, rfl⟩ := encodeInto_ok_iff.mp encoded
  have body : ∀ x ∈ f.body, x.Countable := (List.forall_mem_cons.mp fits.2).2
  rw [← List.append_nil (List.flatMap _ _)]
  exact (f.read_reads body).decode []

end ClientFrame

namespace ServerFrame

theorem data_size (payload : Bytes) (sender : Option ConnectionId) :
    size (.receivedData payload sender) = payload.length + 5 + if sender.isSome then 4 else 0 := by
  cases sender with
  | none =>
    simp only [size, fieldsWidth, fields, body, Field.width, Option.isSome_none,
      Bool.false_eq_true, if_false]
    omega
  | some sender =>
    simp only [size, fieldsWidth, fields, body, Field.width, Option.isSome_some, if_true]
    omega

def openEnded : ServerFrame → Bool
  | .receivedData _ none => true
  | _ => false

theorem readSender_run (rest : Bytes) :
    readSender.run rest = EStateM.run
      (if 4 ≤ rest.length then readNumber >>= fun n => pure (some ⟨n⟩) else pure none) rest := rfl

theorem readSender_four (a b c d : UInt8) :
    Reads readSender [a, b, c, d] (some ⟨numberOf a b c d⟩) := by
  intro rest
  have enough : 4 ≤ ([a, b, c, d] ++ rest).length := by simp
  rw [readSender_run, if_pos enough]
  exact (readNumber_four a b c d).last rest

theorem readSender_reads (sender : ConnectionId) :
    Reads readSender (Field.number sender.index).bytes (some sender) := by
  have four : Reads readSender (numberBytes sender.index) _ := readSender_four _ _ _ _
  rwa [numberOf_numberBytes] at four

theorem readSender_absent {rest : Bytes} (few : rest.length < 4) :
    readSender.run rest = .ok none rest := by
  rw [readSender_run, if_neg (by omega)]
  rfl

theorem readSender_taken {rest : Bytes} (enough : 4 ≤ rest.length) :
    ∃ sender later, readSender.run rest = .ok (some sender) later := by
  match rest, enough with
  | a :: b :: c :: d :: later, _ => exact ⟨_, later, readSender_four a b c d later⟩

theorem readBody_reads (f : ServerFrame) (countable : ∀ x ∈ f.body, x.Countable)
    (closed : f.openEnded = false) :
    Reads (readBody f.opcode) (f.body.flatMap Field.bytes) f := by
  cases f with
  | keyRequest => exact Reads.pure _
  | authenticated => exact Reads.pure _
  | givenId id => exact (readNumber_reads id.index).bind <| Reads.pure _
  | roomCreated room =>
    have text := readText_reads (countable (.text room) (by simp [body]))
    exact text.bind <| Reads.pure _
  | roomJoined client => exact (readNumber_reads client.index).bind <| Reads.pure _
  | roomLeft => exact Reads.pure _
  | peerLeft client => exact (readNumber_reads client.index).bind <| Reads.pure _
  | receivedData payload sender =>
    cases sender with
    | none => simp [openEnded] at closed
    | some sender =>
      have blob := readBlob_reads (countable (.blob payload) (by simp [body]))
      exact blob.bind <| (readSender_reads sender).bind <| Reads.pure _
  | punchRequest token port =>
    have text := readText_reads (countable (.text token) (by simp [body]))
    exact text.bind <| (readNumber_reads port).bind <| Reads.pure _
  | directConnect ip port useNatPunch =>
    have text := readText_reads (countable (.text ip) (by simp [body]))
    exact text.bind <| (readNumber_reads port).bind <| (readFlag_reads useNatPunch).bind <|
      Reads.pure _

/-- What follows a frame is not taken for a part of it. -/
def Followed (f : ServerFrame) (more : Bytes) : Prop := f.openEnded = true → more.length < 4

theorem decode_closed (f : ServerFrame) (countable : ∀ x ∈ f.body, x.Countable)
    (closed : f.openEnded = false) (more : Bytes) :
    decode (f.fields.flatMap Field.bytes ++ more) = .ok f := by
  refine Reads.decode ((readByte_reads f.opcode.code).bind ?_) more
  simp only [OpCode.ofByte?_code]
  exact readBody_reads f countable closed

theorem decode_openEnded (payload : Bytes) (countable : (Field.blob payload).Countable)
    (more : Bytes) :
    decode ((fields (.receivedData payload none)).flatMap Field.bytes ++ more) =
        .ok (.receivedData payload none) ↔ more.length < 4 := by
  have blob := readBlob_reads countable
  have opcode := readByte_reads OpCode.receivedData.code
  have body : read.run ((fields (.receivedData payload none)).flatMap Field.bytes ++ more) =
      (readSender >>= fun sender => pure (receivedData payload sender)).run more := by
    simp only [fields, ServerFrame.body, List.flatMap_cons, List.flatMap_nil, List.append_nil,
      List.append_assoc]
    rw [read, ServerFrame.opcode, opcode.run_bind]
    simp only [OpCode.ofByte?_code]
    exact blob.run_bind _ more
  rw [decode, decodeWith_run, body, EStateM.run_bind]
  by_cases few : more.length < 4
  · rw [readSender_absent few]
    simpa using few
  · obtain ⟨sender, later, taken⟩ := readSender_taken (Nat.le_of_not_lt few)
    rw [taken]
    simpa using few

theorem decode_iff_followed (f : ServerFrame) (countable : ∀ x ∈ f.body, x.Countable)
    (more : Bytes) :
    decode (f.fields.flatMap Field.bytes ++ more) = .ok f ↔ f.Followed more := by
  cases ended : f.openEnded with
  | false => simp [Followed, ended, decode_closed f countable ended]
  | true =>
    have shape : ∃ payload, f = .receivedData payload none := by
      unfold openEnded at ended
      split at ended
      · exact ⟨_, rfl⟩
      · contradiction
    obtain ⟨payload, rfl⟩ := shape
    simpa [Followed, ended] using
      decode_openEnded payload (countable (.blob payload) (by simp [body])) more

theorem encoded_length (f : ServerFrame) {buffer bytes : Bytes}
    (encoded : (f.encode buffer).result = .ok bytes) :
    bytes.length = f.size ∧ f.size ≤ buffer.length := by
  obtain ⟨fits, rfl⟩ := encodeInto_ok_iff.mp encoded
  exact ⟨bytes_length f.fields, fits.1⟩

theorem encoded_front (f : ServerFrame) {buffer bytes : Bytes}
    (encoded : (f.encode buffer).result = .ok bytes) :
    (f.encode buffer).buffer.take bytes.length = bytes := by
  obtain ⟨fits, rfl⟩ := encodeInto_ok_iff.mp encoded
  rw [encode, encodeInto_fits fits, List.take_left]

theorem decode_encoded (f : ServerFrame) {buffer bytes : Bytes}
    (encoded : (f.encode buffer).result = .ok bytes) : decode bytes = .ok f := by
  obtain ⟨fits, rfl⟩ := encodeInto_ok_iff.mp encoded
  have body : ∀ x ∈ f.body, x.Countable := (List.forall_mem_cons.mp fits.2).2
  rw [← List.append_nil (List.flatMap _ _)]
  exact (f.decode_iff_followed body []).mpr fun _ => by decide

end ServerFrame

namespace PunchDatagram

theorem read_reads (d : PunchDatagram) (countable : ∀ x ∈ d.fields, x.Countable) :
    Reads read (d.fields.flatMap Field.bytes) d := by
  cases d with
  | keepAlive => exact (readFlag_reads false).bind <| Reads.pure _
  | establish token =>
    have text := readText_reads (countable (.text token) (by simp [fields]))
    exact (readFlag_reads true).bind <| text.bind <| Reads.pure _

end PunchDatagram

/-- Encoding a message of certain fields and of a certain size into a buffer, and decoding it again.
    It succeeds exactly if the buffer has room for the message and every count can be told; it takes
    the front of the buffer and no more; and the message comes back, also with bytes behind it. -/
structure RoundTrip {α : Type} (size : Nat) (fields : List Field) (encode : Bytes → Encoded)
    (decode : Bytes → Except Error α) (message : α) (mayFollow : Bytes → Prop) : Prop where
  encoded_iff : ∀ buffer : Bytes, (∃ bytes, (encode buffer).result = .ok bytes) ↔
    size ≤ buffer.length ∧ ∀ x ∈ fields, x.count ≤ maxCount
  written : ∀ {buffer bytes : Bytes}, (encode buffer).result = .ok bytes →
    bytes.length = size ∧ (encode buffer).buffer = bytes ++ buffer.drop size
  decoded : ∀ {buffer bytes : Bytes}, (encode buffer).result = .ok bytes →
    decode ((encode buffer).buffer.take size) = .ok message
  followed_iff : ∀ {buffer bytes : Bytes}, (encode buffer).result = .ok bytes →
    ∀ more, decode (bytes ++ more) = .ok message ↔ mayFollow more

theorem encodeInto_roundTrip {α : Type} {fields : List Field} {decode : Bytes → Except Error α}
    {message : α} {mayFollow : Bytes → Prop} (nothing : mayFollow [])
    (reads : (∀ x ∈ fields, x.Countable) → ∀ more,
      decode (fields.flatMap Field.bytes ++ more) = .ok message ↔ mayFollow more) :
    RoundTrip (fieldsWidth fields) fields (encodeInto fields) decode message mayFollow := by
  constructor
  case encoded_iff =>
    intro buffer
    simp only [encodeInto_ok_iff]
    exact ⟨fun ⟨_, fits, _⟩ => fits, fun fits => ⟨_, fits, rfl⟩⟩
  case written =>
    intro buffer bytes encoded
    obtain ⟨fits, rfl⟩ := encodeInto_ok_iff.mp encoded
    rw [encodeInto_fits fits]
    exact ⟨bytes_length fields, rfl⟩
  case decoded =>
    intro buffer bytes encoded
    obtain ⟨fits, rfl⟩ := encodeInto_ok_iff.mp encoded
    have exact := (reads fits.2 []).mpr nothing
    rw [List.append_nil] at exact
    rw [encodeInto_fits fits, ← bytes_length, List.take_left, exact]
  case followed_iff =>
    intro buffer bytes encoded more
    obtain ⟨fits, rfl⟩ := encodeInto_ok_iff.mp encoded
    exact reads fits.2 more

/-- Every frame and datagram has an exact size, and makes the way through a buffer exactly if the
    buffer has that size. Any bytes may follow it but those that would be taken for the sender of
    data without one. -/
theorem messages_round_trip :
    (∀ f : ClientFrame, f.size = 1 + fieldsWidth f.body ∧
      RoundTrip f.size f.fields f.encode ClientFrame.decode f fun _ => True) ∧
    (∀ f : ServerFrame, f.size = 1 + fieldsWidth f.body ∧
      RoundTrip f.size f.fields f.encode ServerFrame.decode f f.Followed) ∧
    (∀ d : PunchDatagram, d.size = fieldsWidth d.fields ∧
      RoundTrip d.size d.fields d.encode PunchDatagram.decode d fun _ => True) := by
  refine ⟨?_, ?_, ?_⟩
  · intro f
    refine ⟨rfl, encodeInto_roundTrip trivial ?_⟩
    intro countable more
    have body : ∀ x ∈ f.body, x.Countable := fun x mem => countable x (List.mem_cons_of_mem _ mem)
    exact iff_of_true ((f.read_reads body).decode more) trivial
  · intro f
    refine ⟨rfl, encodeInto_roundTrip (fun _ => by decide) ?_⟩
    intro countable more
    exact f.decode_iff_followed (fun x mem => countable x (List.mem_cons_of_mem _ mem)) more
  · intro d
    refine ⟨rfl, encodeInto_roundTrip trivial ?_⟩
    intro countable more
    exact iff_of_true ((d.read_reads countable).decode more) trivial

end PeerRelay
