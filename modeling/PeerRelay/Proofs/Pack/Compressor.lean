import PeerRelay.Pack.Compressor
import PeerRelay.Proofs.Pack.Block

/-!
What the compressor writes expands to the text. A copy is taken only where its bytes were compared,
so the places that the table names, and how far the search gets, make no difference to that.
-/
namespace PeerRelay.Pack

variable {text : Array UInt8} {place start stop offset length limit : Nat}

/-! Copies -/

/-- Bytes that stand some way back in the text as well. The two parts may overlap. -/
structure Repeats (text : Array UInt8) (start offset length : Nat) : Prop where
  offset_pos : 0 < offset
  offset_le : offset ≤ start
  same : ∀ i < length, text.getD (start + i) 0 = text.getD (start + i - offset) 0

theorem Repeats.tail (h : Repeats text start offset (length + 1)) :
    Repeats text (start + 1) offset length where
  offset_pos := h.offset_pos
  offset_le := Nat.le_succ_of_le h.offset_le
  same i small := by
    have later := h.same (i + 1) (Nat.succ_lt_succ small)
    have shift : start + (i + 1) = start + 1 + i := by omega
    rwa [shift] at later

theorem getD_extract {i : Nat} (before : i < stop) :
    (text.extract 0 stop).getD i 0 = text.getD i 0 := by
  simp only [Array.getD_eq_getD_getElem?, Array.getElem?_extract]
  by_cases inside : i < text.size
  · rw [if_pos (by omega), Nat.zero_add]
  · rw [if_neg (by omega), Array.getElem?_eq_none (by omega)]

theorem push_extract (inside : start < text.size) :
    (text.extract 0 start).push (text.getD start 0) = text.extract 0 (start + 1) := by
  have next : text.getD start 0 = text[start] := by simp [Array.getD, inside]
  rw [next, Array.push_extract_getElem, Nat.zero_min]

/-- To copy the bytes that come next is to go on with the text. -/
theorem copyBack_repeats (h : Repeats text start offset length)
    (inside : start + length ≤ text.size) :
    copyBack (text.extract 0 start) offset length = text.extract 0 (start + length) := by
  induction length generalizing start with
  | zero => rfl
  | succ n ih =>
    have size : (text.extract 0 start).size = start := by simp; omega
    have back := h.offset_le
    have forward := h.offset_pos
    have byte : text.getD start 0 = text.getD (start - offset) 0 := h.same 0 (Nat.succ_pos n)
    have shift : start + 1 + n = start + (n + 1) := by omega
    rw [copyBack, size, getD_extract (by omega), ← byte, push_extract (by omega),
      ih h.tail (by omega), shift]

/-! Sequences -/

structure Copy.Sound (c : Copy) (text : Array UInt8) (place : Nat) : Prop where
  place_le : place ≤ c.start
  repeats : Repeats text c.start (c.start - c.source) c.length
  inside : c.start + c.length ≤ text.size
  offset_le : c.start - c.source ≤ maxOffset
  minCopy_le : minCopy ≤ c.length

inductive Spans (text : Array UInt8) : Nat → List Sequence → Nat → Prop where
  | nil (place : Nat) : Spans text place [] place
  | cons {place stop : Nat} {rest : List Sequence} (c : Copy) (sound : c.Sound text place)
      (later : Spans text (c.start + c.length) rest stop) :
      Spans text place (⟨slice text place c.start, c.start - c.source, c.length⟩ :: rest) stop

theorem Spans.encodable {sequences : List Sequence} (h : Spans text place sequences stop) :
    ∀ s ∈ sequences, s.Encodable := by
  induction h with
  | nil place => simp
  | cons c sound later ih =>
    exact List.forall_mem_cons.mpr ⟨⟨sound.offset_le, sound.minCopy_le⟩, ih⟩

theorem Spans.stop_le {sequences : List Sequence} (h : Spans text place sequences stop)
    (inside : place ≤ text.size) : stop ≤ text.size := by
  induction h with
  | nil place => exact inside
  | cons c sound later ih => exact ih sound.inside

theorem Copy.Sound.expand {c : Copy} (sound : c.Sound text place) (room : text.size ≤ limit) :
    Sequence.expand? limit (text.extract 0 place)
        ⟨slice text place c.start, c.start - c.source, c.length⟩ =
      some (text.extract 0 (c.start + c.length)) := by
  have order := sound.place_le
  have inside := sound.inside
  have literals : text.extract 0 place ++ (slice text place c.start).toArray =
      text.extract 0 c.start := by
    rw [slice, Array.toArray_toList, Array.extract_append_extract, Nat.zero_min,
      Nat.max_eq_right order]
  have size : (text.extract 0 c.start).size = c.start := by simp; omega
  unfold Sequence.expand?
  simp only [literals, size]
  rw [if_pos ⟨by omega, sound.repeats.offset_pos, sound.repeats.offset_le⟩,
    copyBack_repeats sound.repeats inside]

theorem Spans.expand {sequences : List Sequence} (h : Spans text place sequences stop)
    (room : text.size ≤ limit) :
    sequences.foldlM (Sequence.expand? limit) (text.extract 0 place) =
      some (text.extract 0 stop) := by
  induction h with
  | nil place => rfl
  | cons c sound later ih =>
    rw [List.foldlM_cons, sound.expand room]
    exact ih

/-! The search -/

theorem sameBytes_le (text : Array UInt8) (i j limit : Nat) :
    sameBytes text i j limit ≤ limit := by
  induction limit generalizing i j with
  | zero => exact Nat.le_refl _
  | succ n ih =>
    rw [sameBytes]
    split
    · exact Nat.succ_le_succ (ih _ _)
    · exact Nat.zero_le _

theorem sameBytes_same {i j k : Nat} (counted : k < sameBytes text i j limit) :
    text.getD (i + k) 0 = text.getD (j + k) 0 := by
  induction limit generalizing i j k with
  | zero => exact absurd counted (Nat.not_lt_zero k)
  | succ n ih =>
    rw [sameBytes] at counted
    split at counted
    · rename_i first
      cases k with
      | zero => exact first
      | succ k =>
        have later := ih (Nat.lt_of_succ_lt_succ counted)
        have one : ∀ a, a + 1 + k = a + (k + 1) := fun a => by omega
        rwa [one, one] at later
    · exact absurd counted (Nat.not_lt_zero k)

theorem sameBefore_le (text : Array UInt8) (i j limit : Nat) :
    sameBefore text i j limit ≤ limit ∧ sameBefore text i j limit ≤ j := by
  induction limit generalizing i j with
  | zero => exact ⟨Nat.le_refl _, Nat.zero_le _⟩
  | succ n ih =>
    rw [sameBefore]
    split
    · obtain ⟨few, before⟩ := ih (i - 1) (j - 1)
      exact ⟨by omega, by omega⟩
    · exact ⟨Nat.zero_le _, Nat.zero_le _⟩

theorem sameBefore_same {i j k : Nat} (counted : k < sameBefore text i j limit) :
    text.getD (i - 1 - k) 0 = text.getD (j - 1 - k) 0 := by
  induction limit generalizing i j k with
  | zero => exact absurd counted (Nat.not_lt_zero k)
  | succ n ih =>
    rw [sameBefore] at counted
    split at counted
    · rename_i first
      cases k with
      | zero => exact first.2.2
      | succ k =>
        have later := ih (Nat.lt_of_succ_lt_succ counted)
        have one : ∀ a, a - 1 - 1 - k = a - 1 - (k + 1) := fun a => by omega
        rwa [one, one] at later
    · exact absurd counted (Nat.not_lt_zero k)

theorem byteAt_inj {i j : Nat} (same : byteAt text i = byteAt text j) :
    text.getD i 0 = text.getD j 0 :=
  UInt8.toNat_inj.mp same

theorem wordAt_same {i j k : Nat} (same : wordAt text i = wordAt text j) (small : k < minCopy) :
    text.getD (i + k) 0 = text.getD (j + k) 0 := by
  have bound : ∀ i, byteAt text i < 256 := fun i => UInt8.toNat_lt _
  have i₀ := bound i
  have i₁ := bound (i + 1)
  have i₂ := bound (i + 2)
  have i₃ := bound (i + 3)
  have j₀ := bound j
  have j₁ := bound (j + 1)
  have j₂ := bound (j + 2)
  have j₃ := bound (j + 3)
  unfold wordAt at same
  apply byteAt_inj
  have places : k = 0 ∨ k = 1 ∨ k = 2 ∨ k = 3 := by
    unfold minCopy at small
    omega
  rcases places with rfl | rfl | rfl | rfl
  · show byteAt text i = byteAt text j
    omega
  · omega
  · omega
  · omega

theorem repeats_around {pos source back more : Nat} (earlier : source < pos)
    (word : wordAt text source = wordAt text pos) (room : back ≤ source)
    (before : ∀ k < back, text.getD (pos - 1 - k) 0 = text.getD (source - 1 - k) 0)
    (after : ∀ k < more,
      text.getD (pos + minCopy + k) 0 = text.getD (source + minCopy + k) 0) :
    Repeats text (pos - back) (pos - source) (back + minCopy + more) where
  offset_pos := by omega
  offset_le := by omega
  same i small := by
    have four : minCopy = 4 := rfl
    rcases Nat.lt_or_ge i back with early | late
    · have same := before (back - 1 - i) (by omega)
      have here : pos - 1 - (back - 1 - i) = pos - back + i := by omega
      have there : source - 1 - (back - 1 - i) = pos - back + i - (pos - source) := by omega
      rwa [here, there] at same
    · rcases Nat.lt_or_ge i (back + minCopy) with middle | late
      · have same := (wordAt_same word (k := i - back) (by omega)).symm
        have here : pos + (i - back) = pos - back + i := by omega
        have there : source + (i - back) = pos - back + i - (pos - source) := by omega
        rwa [here, there] at same
      · have same := after (i - (back + minCopy)) (by omega)
        have here : pos + minCopy + (i - (back + minCopy)) = pos - back + i := by omega
        have there : source + minCopy + (i - (back + minCopy)) =
            pos - back + i - (pos - source) := by omega
        rwa [here, there] at same

theorem findCopy_sound {fuel pos misses : Nat} {table later : Array Nat} {c : Copy}
    (order : place ≤ pos) (found : findCopy text place fuel pos misses table = (some c, later)) :
    c.Sound text place := by
  induction fuel generalizing pos misses table with
  | zero => simp [findCopy] at found
  | succ fuel ih =>
    simp only [findCopy] at found
    split at found
    · simp at found
    · rename_i far
      have margin : pos + 12 ≤ text.size := by
        have twelve : endMargin = 12 := rfl
        omega
      split at found
      · rename_i hit
        obtain ⟨earlier, near, word⟩ := hit
        generalize table.getD (slot text pos) 0 = source at found earlier near word
        obtain ⟨few, room⟩ := sameBefore_le text pos source (pos - place)
        have short := sameBytes_le text (pos + minCopy) (source + minCopy)
          (text.size - (pos + minCopy + endLiterals))
        have after : ∀ k < sameBytes text (pos + minCopy) (source + minCopy)
              (text.size - (pos + minCopy + endLiterals)),
            text.getD (pos + minCopy + k) 0 = text.getD (source + minCopy + k) 0 :=
          fun k => sameBytes_same
        have repeats := repeats_around earlier word room (fun k => sameBefore_same) after
        have copy := Option.some.inj (Prod.ext_iff.mp found).1
        subst copy
        have four : minCopy = 4 := rfl
        have six : endLiterals = 6 := rfl
        have shift : ∀ back ≤ source, pos - back - (source - back) = pos - source :=
          fun back within => by omega
        constructor
        case place_le => dsimp only; omega
        case repeats =>
          dsimp only
          rw [shift _ room]
          exact repeats
        case inside => dsimp only; omega
        case offset_le =>
          dsimp only
          rw [shift _ room]
          exact near
        case minCopy_le => dsimp only; omega
      · exact ih (by omega) found

theorem findSequences_spans {fuel pos : Nat} {table : Array Nat} (order : place ≤ pos) :
    Spans text place (findSequences text fuel place pos table).1
      (findSequences text fuel place pos table).2 := by
  induction fuel generalizing place pos table with
  | zero => exact .nil place
  | succ fuel ih =>
    rw [findSequences]
    split
    · exact .nil place
    · rename_i c later found
      exact .cons c (findCopy_sound order found) (ih (Nat.le_refl _))

/-! Whole texts -/

/-- A block that the format can hold and that stands for a text. -/
structure Block.Holds (b : Block) (text : Array UInt8) : Prop where
  encodable : ∀ s ∈ b.sequences, s.Encodable
  expands : b.expand? text.size = some text

theorem Spans.holds {sequences : List Sequence} (h : Spans text 0 sequences stop) :
    Block.Holds ⟨sequences, slice text stop text.size⟩ text where
  encodable := h.encodable
  expands := by
    have before := h.stop_le (Nat.zero_le _)
    have expanded := h.expand (Nat.le_refl text.size)
    have size : (text.extract 0 stop).size = stop := by simp; omega
    have last : (slice text stop text.size).length = text.size - stop := by simp [slice]
    have whole : text.extract 0 stop ++ (slice text stop text.size).toArray = text := by
      rw [slice, Array.toArray_toList, Array.extract_append_extract, Nat.zero_min,
        Nat.max_eq_right before, Array.extract_size]
    rw [Array.extract_zero] at expanded
    unfold Block.expand?
    simp only [expanded, bind, Option.bind, size, last]
    rw [if_pos (by omega), whole]

theorem compress_holds (text : Array UInt8) : (compress text).Holds text := by
  unfold compress
  split
  · have whole : text.toList = slice text 0 text.size := by
      rw [slice, Array.extract_size]
    rw [whole]
    exact (Spans.nil 0).holds
  · exact (findSequences_spans (Nat.zero_le 1)).holds

end PeerRelay.Pack
