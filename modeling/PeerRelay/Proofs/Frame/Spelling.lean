import PeerRelay.Proofs.Frame.RoundTrip
import PeerRelay.Proofs.Wire.Spelling

/-!
How frames and datagrams are spelled. Whatever is read as a frame was a spelling of its fields, and
reading is steady for all opcodes but that of received data, whose sender is there or not by the
number of bytes that are left.
-/
namespace PeerRelay
open Wire

theorem OpCode.code_of_ofByte? {b : UInt8} {o : OpCode} (known : ofByte? b = some o) :
    o.code = b := by
  simpa using List.find?_some known

namespace ClientFrame

theorem readSettings_completes : Completes [] readSettings fun s => body (.createRoom s) :=
  readNumber_completes.bind fun _ => readText_completes.bind fun _ =>
    readFlag_completes.bind fun _ => readText_completes.bind fun _ =>
    readFlag_completes.bind fun _ => readText_completes.bind fun _ =>
    readFlag_completes.bind fun _ => readNumber_completes.bind fun _ => .pure rfl

theorem readUpdate_completes : Completes [] readUpdate fun u => body (.updateRoom u) :=
  (readOptional_completes readText_completes).bind fun _ =>
    (readOptional_completes readText_completes).bind fun _ =>
    (readOptional_completes readFlag_completes).bind fun _ =>
    (readOptional_completes readNumber_completes).bind fun _ => .pure (by simp [body])

theorem readBody_completes (o : OpCode) : Completes [.byte o.code] (readBody o) fields := by
  cases o with
  | blank => exact .pure rfl
  | requestId => exact .pure rfl
  | joinRoom =>
    exact readText_completes.bind fun _ => readFlag_completes.bind fun _ =>
      readText_completes.bind fun _ => .pure rfl
  | sendData => exact readBlob_completes.bind fun _ => readNumber_completes.bind fun _ => .pure rfl
  | createRoom => exact readSettings_completes.bind fun _ => .pure rfl
  | leaveRoom => exact .pure rfl
  | kickPeer => exact readNumber_completes.bind fun _ => .pure rfl
  | keyResponse => exact readText_completes.bind fun _ => .pure rfl
  | updateRoom => exact readUpdate_completes.bind fun _ => .pure rfl
  | givenId | roomJoined | receivedData | roomLeft | peerLeft | roomCreated | keyRequest
  | authenticated | punchRequest | directConnect => exact .throw _

theorem read_completes : Completes [] read fields := by
  refine readByte_completes.bind fun b => ?_
  cases known : OpCode.ofByte? b with
  | none => exact .throw _
  | some o =>
    rw [← OpCode.code_of_ofByte? known]
    exact readBody_completes o

end ClientFrame

namespace ServerFrame

theorem readBody_completes {o : OpCode} (closed : o ≠ .receivedData) :
    Completes [.byte o.code] (readBody o) fields := by
  cases o with
  | keyRequest => exact .pure rfl
  | authenticated => exact .pure rfl
  | givenId => exact readNumber_completes.bind fun _ => .pure rfl
  | roomCreated => exact readText_completes.bind fun _ => .pure rfl
  | roomJoined => exact readNumber_completes.bind fun _ => .pure rfl
  | roomLeft => exact .pure rfl
  | peerLeft => exact readNumber_completes.bind fun _ => .pure rfl
  | receivedData => exact (closed rfl).elim
  | punchRequest =>
    exact readText_completes.bind fun _ => readNumber_completes.bind fun _ => .pure rfl
  | directConnect =>
    exact readText_completes.bind fun _ => readNumber_completes.bind fun _ =>
      readFlag_completes.bind fun _ => .pure rfl
  | blank | requestId | joinRoom | sendData | createRoom | leaveRoom | kickPeer | keyResponse
  | updateRoom => exact .throw _

theorem readSender_spelling :
    Spelling [] readSender fun sender => sender.toList.map fun id => .number id.index := by
  intro bytes rest sender done
  rw [readSender_run] at done
  split at done
  · obtain ⟨n, mid, read, same⟩ := bind_ok done
    cases same
    exact ⟨_, _, rfl, readNumber_ok read, .single (Nat.zero_le _)⟩
  · cases done
    exact ⟨[], [], rfl, rfl, .nothing⟩

theorem readBody_spelling (o : OpCode) : Spelling [.byte o.code] (readBody o) fields := by
  by_cases data : o = .receivedData
  · subst data
    exact readBlob_completes.spelling.bind fun payload => readSender_spelling.bind fun sender =>
      .pure (by cases sender <;> rfl)
  · exact (readBody_completes data).spelling

theorem read_spelling : Spelling [] read fields := by
  refine readByte_completes.spelling.bind fun b => ?_
  cases known : OpCode.ofByte? b with
  | none => exact .throw _
  | some o =>
    rw [← OpCode.code_of_ofByte? known]
    exact readBody_spelling o

end ServerFrame

namespace PunchDatagram

theorem read_completes : Completes [] read fields := by
  refine readFlag_completes.bind fun present => ?_
  cases present with
  | true => exact readText_completes.bind fun _ => .pure rfl
  | false => exact .pure rfl

end PunchDatagram

end PeerRelay
