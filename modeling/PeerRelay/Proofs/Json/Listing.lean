import PeerRelay.Fleet.Probe
import PeerRelay.Proofs.Json.RoundTrip

/-!
Room lists read back from their text, with every field of every entry: whatever texts the peers
chose for ids, names and data of their rooms, and whatever address the node has.
-/
namespace PeerRelay
open Json (Value)

namespace Json.Value

theorem integer?_within {low high n : Int} (above : low ≤ n) (below : n ≤ high) :
    (Value.integer n).integer? low high = some n := by
  simp [integer?, above, below]

theorem int32?_toInt (n : Int32) : (Value.integer n.toInt).int32? = some n := by
  have above := n.le_toInt
  have below := n.toInt_lt
  rw [int32?, integer?_within (by omega) (by omega), Option.map_some, Int32.ofInt_toInt]

theorem nat?_within {limit n : Nat} (small : n ≤ limit) :
    (Value.integer n).nat? limit = some n := by
  rw [nat?, integer?_within (by omega) (by omega), Option.map_some, Int.toNat_natCast]

theorem uint16?_toNat (n : UInt16) : (Value.integer n.toNat).uint16? = some n := by
  have bound := n.toNat_lt
  rw [uint16?, nat?_within (by omega), Option.map_some, UInt16.ofNat_toNat]

end Json.Value

@[simp] theorem Region.ofJson?_toJson (r : Region) : Region.ofJson? r.toJson = some r := by
  have small : r.number ≤ 255 := by cases r <;> decide
  simp [ofJson?, toJson, Value.nat?_within small]

@[simp] theorem RelayAddress.ofJson?_toJson (r : RelayAddress) :
    RelayAddress.ofJson? r.toJson = some r := by
  simp [ofJson?, toJson, Json.record, Json.text, Value.fields?, Value.field?, Value.text?,
    Value.uint16?_toNat]

namespace RoomListing

@[simp] theorem ofJson?_toJson (l : RoomListing) : ofJson? l.toJson = some l := by
  simp [ofJson?, toJson, fieldNames, Json.record, Json.text, Value.fields?, Value.field?,
    Value.text?, Value.bool?, Value.int32?_toInt]

@[simp] theorem listOfJson?_listToJson (ls : List RoomListing) :
    listOfJson? (listToJson ls) = some ls := by
  simp only [listToJson, listOfJson?]
  induction ls with
  | nil => rfl
  | cons l rest ih =>
    rw [List.map_cons, List.mapM_cons, ofJson?_toJson, ih]
    rfl

end RoomListing

@[simp] theorem Probe.readRooms_listText (ls : List RoomListing) :
    readRooms (RoomListing.listText ls) = .ok ls := by
  have read : roomsOfJson? (RoomListing.listToJson ls) = some ls :=
    RoomListing.listOfJson?_listToJson ls
  rw [readRooms, RoomListing.listText, Json.parse?_text, Option.bind_some, read]

end PeerRelay
