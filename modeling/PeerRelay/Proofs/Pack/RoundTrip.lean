import PeerRelay.Proofs.Pack.Base64
import PeerRelay.Proofs.Pack.Compressor
import PeerRelay.Proofs.Text.ByteOrder
import PeerRelay.Room.Lobby

/-!
Packed texts are unpacked to themselves: through the bytes of the text, the number of them, the
block and base 64, with white space around it or not. The compressor is not part of the argument
beyond the block that it finds: any block that stands for the text will do.
-/
namespace PeerRelay

theorem Text.trimChars_padded {before cs after : List Char}
    (blank_before : ∀ c ∈ before, isBlank c = true) (solid : ∀ c ∈ cs, isBlank c = false)
    (blank_after : ∀ c ∈ after, isBlank c = true) : trimChars (before ++ cs ++ after) = cs := by
  have stays {ds : List Char} (mem : ∀ c ∈ ds, isBlank c = false) (filled : ds ≠ [])
      (es : List Char) : (ds ++ es).dropWhile isBlank = ds ++ es := by
    cases ds with
    | nil => exact absurd rfl filled
    | cons d rest => simp [mem d List.mem_cons_self]
  rw [trimChars, List.append_assoc, List.dropWhile_append_of_pos blank_before]
  by_cases nothing : cs = []
  · subst nothing
    have gone : (after ++ []).dropWhile isBlank = [] := List.dropWhile_append_of_pos blank_after
    rw [List.append_nil] at gone
    rw [List.nil_append, gone]
    rfl
  · have reversed := stays (fun c mem => solid c (List.mem_reverse.mp mem))
      (List.reverse_ne_nil_iff.mpr nothing) []
    rw [List.append_nil] at reversed
    rw [stays solid nothing after, List.reverse_append,
      List.dropWhile_append_of_pos fun c mem => blank_after c (List.mem_reverse.mp mem), reversed,
      List.reverse_reverse]

namespace Pack

@[simp] theorem ofUtf8?_utf8 (s : String) : ofUtf8? (utf8 s).toArray = some s := by
  have bytes : (⟨(utf8 s).toArray⟩ : ByteArray) = s.toByteArray := by
    rw [utf8, String.toUTF8_eq_toByteArray, ByteArray.toList, Text.toList_loop]
    simp
  rw [ofUtf8?, bytes, String.fromUTF8?, dif_pos s.isValidUTF8]
  rfl

theorem sizeBytes_value {n : Nat} (small : n < 0x100000000) :
    (UInt8.ofNat n).toNat + 0x100 * (UInt8.ofNat (n / 0x100)).toNat +
        0x10000 * (UInt8.ofNat (n / 0x10000)).toNat +
        0x1000000 * (UInt8.ofNat (n / 0x1000000)).toNat = n := by
  simp only [UInt8.toNat_ofNat']
  omega

theorem unpackBytes?_holds {b : Block} {text : Array UInt8} (holds : b.Holds text)
    (small : text.size < 0x100000000) :
    unpackBytes? (sizeBytes text.size ++ b.bytes) = some text := by
  simp only [sizeBytes, List.cons_append, List.nil_append, unpackBytes?]
  rw [Block.ofBytes?_bytes holds.encodable, sizeBytes_value small]
  exact holds.expands

def packedAs (b : Block) (s : String) : String :=
  String.ofList (Base64.encode (sizeBytes (utf8 s).length ++ b.bytes))

theorem packText_eq (s : String) : packText s = packedAs (compress (utf8 s).toArray) s := rfl

theorem unpackText_packedAs {b : Block} {s : String} (holds : b.Holds (utf8 s).toArray)
    (small : (utf8 s).length < 0x100000000) (before after : String)
    (blank_before : ∀ c ∈ before.toList, Text.isBlank c = true)
    (blank_after : ∀ c ∈ after.toList, Text.isBlank c = true) :
    unpackText (before ++ packedAs b s ++ after) = .ok s := by
  have chars : (before ++ packedAs b s ++ after).toList =
      before.toList ++ Base64.encode (sizeBytes (utf8 s).length ++ b.bytes) ++ after.toList := by
    rw [String.toList_append, String.toList_append, packedAs, String.toList_ofList]
  have bytes : unpackBytes? (sizeBytes (utf8 s).length ++ b.bytes) = some (utf8 s).toArray :=
    unpackBytes?_holds holds small
  unfold unpackText
  rw [chars, Text.trimChars_padded blank_before (Base64.encode_solid _) blank_after,
    Base64.decode?_encode]
  simp only [bytes, ofUtf8?_utf8]

end Pack

namespace RoomBoard

/-- The board after its list was replaced again and again. -/
def rebuilt (lists : List (List RoomListing)) : RoomBoard :=
  lists.foldl (fun _ listings => post listings) empty

theorem empty_posted : empty = post [] := rfl

theorem rebuilt_posted (lists : List (List RoomListing)) :
    rebuilt lists = post (lists.getLastD []) := by
  rcases List.eq_nil_or_concat lists with rfl | ⟨earlier, last, rfl⟩
  · exact empty_posted
  · simp [rebuilt]

end RoomBoard

namespace Pack

/-- A text of less than 2^32 bytes comes back from its packed form, with white space before and
    after it, and does so whichever block of the format was found for it. A board that was rebuilt
    any number of times has the last list, its text, and a packed form of that text. -/
theorem packed_texts_unpack :
    (∀ s before after : String, (utf8 s).length < 0x100000000 →
      (∀ c ∈ before.toList, Text.isBlank c = true) →
      (∀ c ∈ after.toList, Text.isBlank c = true) →
      unpackText (before ++ packText s ++ after) = .ok s ∧
        ∀ b : Block, b.Holds (utf8 s).toArray →
          unpackText (before ++ packedAs b s ++ after) = .ok s) ∧
    (∀ lists : List (List RoomListing),
      let board := RoomBoard.rebuilt lists
      board.listings = lists.getLastD [] ∧ board.json = RoomListing.listText board.listings ∧
        ((utf8 board.json).length < 0x100000000 → unpackText board.packed = .ok board.json)) := by
  refine ⟨?_, ?_⟩
  · intro s before after small blank_before blank_after
    have every : ∀ b : Block, b.Holds (utf8 s).toArray →
        unpackText (before ++ packedAs b s ++ after) = .ok s :=
      fun b holds => unpackText_packedAs holds small before after blank_before blank_after
    exact ⟨packText_eq s ▸ every _ (compress_holds _), every⟩
  · intro lists board
    have posted : board = RoomBoard.post (lists.getLastD []) := RoomBoard.rebuilt_posted lists
    rw [posted]
    refine ⟨rfl, rfl, fun small => ?_⟩
    have unpacked := unpackText_packedAs (compress_holds _) small "" "" (by simp) (by simp)
    rwa [String.empty_append, String.append_empty] at unpacked

def runBlock : Block := ⟨[⟨[0x61], 1, 20⟩], [0x61, 0x61, 0x61, 0x61, 0x61]⟩

def runText : String := "aaaaaaaaaaaaaaaaaaaaaaaaaa"

def shownRoom : RoomListing := ⟨"EU001", 1, "", "", true, 4, 1, ⟨"10.0.0.1", 7777, 8080, .europe⟩⟩

theorem run_and_board_unpack :
    (utf8 runText).length < 0x100000000 ∧ (∀ c ∈ "\t".toList, Text.isBlank c = true) ∧
      (∀ c ∈ "\r\n".toList, Text.isBlank c = true) ∧ runBlock.Holds (utf8 runText).toArray ∧
      unpackText ("\t" ++ packText runText ++ "\r\n") = .ok runText ∧
      unpackText ("\t" ++ packedAs runBlock runText ++ "\r\n") = .ok runText ∧
      (utf8 (RoomBoard.rebuilt [[], [shownRoom]]).json).length < 0x100000000 ∧
      unpackText (RoomBoard.rebuilt [[], [shownRoom]]).packed =
        .ok (RoomListing.listText [shownRoom]) := by
  have small : (utf8 runText).length < 0x100000000 := by decide +kernel
  have before : ∀ c ∈ "\t".toList, Text.isBlank c = true :=
    List.all_eq_true.mp (by decide)
  have after : ∀ c ∈ "\r\n".toList, Text.isBlank c = true :=
    List.all_eq_true.mp (by decide)
  have holds : runBlock.Holds (utf8 runText).toArray :=
    ⟨List.forall_mem_singleton.mpr ⟨by decide, by decide⟩, by decide +kernel⟩
  have board : (utf8 (RoomBoard.rebuilt [[], [shownRoom]]).json).length < 0x100000000 := by
    decide +kernel
  obtain ⟨packed, every⟩ := packed_texts_unpack.1 runText "\t" "\r\n" small before after
  exact ⟨small, before, after, holds, packed, every runBlock holds, board,
    (packed_texts_unpack.2 [[], [shownRoom]]).2.2 board⟩

end Pack

end PeerRelay
