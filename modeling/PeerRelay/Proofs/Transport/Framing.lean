import PeerRelay.Transport.Basic

/-!
Messages on a stream of bytes. A stream read in two pieces gives the messages of the whole, what a
limit lets through comes first of all that the stream holds, and framed messages are read back.
-/
namespace PeerRelay.Framing
open Wire (Bytes)

variable {limit : Nat} {message : Bytes} {messages : List Bytes}

theorem lengthOf_le (a b c d : UInt8) : lengthOf a b c d ≤ maxLength := by
  have ha := a.toNat_lt
  have hb := b.toNat_lt
  have hc := c.toNat_lt
  have hd := d.toNat_lt
  unfold lengthOf maxLength
  omega

theorem lengthOf_lengthBytes {n : Nat} (small : n ≤ maxLength) :
    lengthOf (UInt8.ofNat (n / 0x1000000)) (UInt8.ofNat (n / 0x10000)) (UInt8.ofNat (n / 0x100))
      (UInt8.ofNat n) = n := by
  unfold maxLength at small
  simp only [lengthOf, UInt8.toNat_ofNat']
  omega

theorem drain_large {a b c d : UInt8} {rest : Bytes} (large : limit < lengthOf a b c d) :
    drain limit (a :: b :: c :: d :: rest) = ⟨[], [], true⟩ := by
  rw [drain]
  simp [large]

theorem drain_message {a b c d : UInt8} {rest : Bytes} (allowed : ¬ limit < lengthOf a b c d)
    (here : lengthOf a b c d ≤ rest.length) :
    drain limit (a :: b :: c :: d :: rest) =
      let later := drain limit (rest.drop (lengthOf a b c d))
      { later with messages := rest.take (lengthOf a b c d) :: later.messages } := by
  rw [drain]
  simp [allowed, here]

theorem drain_missing {a b c d : UInt8} {rest : Bytes} (allowed : ¬ limit < lengthOf a b c d)
    (missing : ¬ lengthOf a b c d ≤ rest.length) :
    drain limit (a :: b :: c :: d :: rest) = ⟨[], a :: b :: c :: d :: rest, false⟩ := by
  rw [drain]
  simp [allowed, missing]

theorem drain_short {short : Bytes}
    (few : ∀ a b c d rest, short = a :: b :: c :: d :: rest → False) :
    drain limit short = ⟨[], short, false⟩ := by
  unfold drain
  split
  · exact (few _ _ _ _ _ rfl).elim
  · rfl

/-- Reading goes on where it stood. -/
theorem drain_append (limit : Nat) (first second : Bytes) :
    drain limit (first ++ second) =
      let d := drain limit first
      if d.stopped then d
      else
        let e := drain limit (d.unread ++ second)
        { e with messages := d.messages ++ e.messages } := by
  fun_induction drain limit first with
  | case1 a b c d rest n large => exact drain_large large
  | case2 a b c d rest n allowed here later ih =>
    have more : n ≤ (rest ++ second).length := by
      rw [List.length_append]
      omega
    simp only [List.cons_append]
    rw [drain_message allowed more, List.drop_append_of_le_length here,
      List.take_append_of_le_length here, ih]
    cases stopped : later.stopped <;> simp [later, stopped]
  | case3 a b c d rest n allowed missing => simp
  | case4 short few => simp

/-- What a limit lets through comes first of all that the stream holds, and is all of it as long
    as reading has not stopped. -/
theorem drain_limited (limit : Nat) (stream : Bytes) :
    (drain limit stream).messages <+: (drain maxLength stream).messages ∧
      ((drain limit stream).stopped = false → drain limit stream = drain maxLength stream) := by
  fun_induction drain limit stream with
  | case1 a b c d rest n large => simp
  | case2 a b c d rest n allowed here later ih =>
    obtain ⟨early, same⟩ := ih
    rw [drain_message (by have := lengthOf_le a b c d; omega) here]
    refine ⟨(List.prefix_cons_inj _).mpr early, fun going => ?_⟩
    have later_same : later = drain maxLength (rest.drop n) := same going
    rw [later_same]
  | case3 a b c d rest n allowed missing =>
    rw [drain_missing (by have := lengthOf_le a b c d; omega) missing]
    simp
  | case4 short few =>
    rw [drain_short few]
    simp

theorem drain_frame (allowed : message.length ≤ limit) (small : message.length ≤ maxLength)
    (rest : Bytes) :
    drain limit (frame message ++ rest) =
      let later := drain limit rest
      { later with messages := message :: later.messages } := by
  have length := lengthOf_lengthBytes small
  rw [frame, if_pos small, lengthBytes, List.append_assoc]
  simp only [List.cons_append, List.nil_append]
  rw [drain_message (by omega) (by rw [length, List.length_append]; omega), length]
  simp

theorem drain_frames (allowed : ∀ message ∈ messages, message.length ≤ limit)
    (small : ∀ message ∈ messages, message.length ≤ maxLength) (rest : Bytes) :
    drain limit (frames messages ++ rest) =
      let later := drain limit rest
      { later with messages := messages ++ later.messages } := by
  induction messages with
  | nil => rfl
  | cons first others ih =>
    obtain ⟨here_allowed, later_allowed⟩ := List.forall_mem_cons.mp allowed
    obtain ⟨here, later⟩ := List.forall_mem_cons.mp small
    rw [frames, List.flatMap_cons, List.append_assoc, drain_frame here_allowed here, ← frames,
      ih later_allowed later]
    rfl

@[simp] theorem drain_nil (limit : Nat) : drain limit [] = ⟨[], [], false⟩ := drain_short nofun

theorem drain_whole (allowed : ∀ message ∈ messages, message.length ≤ limit)
    (small : ∀ message ∈ messages, message.length ≤ maxLength) :
    drain limit (frames messages) = ⟨messages, [], false⟩ := by
  have whole := drain_frames allowed small []
  rw [List.append_nil, drain_nil] at whole
  simpa using whole

theorem drain_early {part stream : Bytes} (early : part <+: stream) :
    (drain limit part).messages <+: (drain limit stream).messages := by
  obtain ⟨rest, rfl⟩ := early
  rw [drain_append]
  dsimp only
  split
  · exact List.prefix_refl _
  · exact List.prefix_append _ _

theorem drain_stopped {part stream : Bytes} (early : part <+: stream)
    (stopped : (drain limit part).stopped = true) : drain limit stream = drain limit part := by
  obtain ⟨rest, rfl⟩ := early
  rw [drain_append]
  exact if_pos stopped

theorem drain_partial {part : Bytes} (small : message.length ≤ maxLength)
    (early : part <+: frame message) (cut : part ≠ frame message) :
    (drain limit part).messages = [] := by
  obtain ⟨missing, shape⟩ := early
  have more : missing ≠ [] := by
    rintro rfl
    exact cut (by rw [← shape, List.append_nil])
  have length := lengthOf_lengthBytes small
  rw [frame, if_pos small, lengthBytes] at shape
  have none {short : Bytes} (few : ∀ a b c d rest, short = a :: b :: c :: d :: rest → False) :
      (drain limit short).messages = [] := by rw [drain_short few]
  rcases part with _ | ⟨a, _ | ⟨b, _ | ⟨c, _ | ⟨d, rest⟩⟩⟩⟩
  · exact none nofun
  · exact none nofun
  · exact none nofun
  · exact none nofun
  · simp only [List.cons_append, List.nil_append, List.cons.injEq] at shape
    obtain ⟨rfl, rfl, rfl, rfl, rfl⟩ := shape
    have size := List.length_pos_iff.mpr more
    have total : (rest ++ missing).length = rest.length + missing.length := List.length_append
    by_cases large : limit < (rest ++ missing).length
    · rw [drain_large (by omega)]
    · rw [drain_missing (by omega) (by omega)]

theorem drain_oversized {n : Nat} (large : limit < n) (small : n ≤ maxLength) (rest : Bytes) :
    drain limit (lengthBytes n ++ rest) = ⟨[], [], true⟩ := by
  refine drain_large ?_
  rwa [lengthOf_lengthBytes small]

theorem lengthBytes_lengthOf (a b c d : UInt8) : lengthBytes (lengthOf a b c d) = [a, b, c, d] := by
  have ha := a.toNat_lt
  have hb := b.toNat_lt
  have hc := c.toNat_lt
  have hd := d.toNat_lt
  simp only [lengthBytes, lengthOf, List.cons.injEq, ← UInt8.toNat_inj, UInt8.toNat_ofNat']
  refine ⟨?_, ?_, ?_, ?_, trivial⟩ <;> omega

/-- Every stream is made of the frames of its messages and then either of bytes that wait for more
    or of a length beyond the limit. -/
theorem drain_shape (limit : Nat) (stream : Bytes) :
    let d := drain limit stream
    (∀ message ∈ d.messages, message.length ≤ limit ∧ message.length ≤ maxLength) ∧
      (d.stopped = false → stream = frames d.messages ++ d.unread) ∧
      (d.stopped = true → ∃ n rest, limit < n ∧ n ≤ maxLength ∧
        stream = frames d.messages ++ (lengthBytes n ++ rest)) := by
  fun_induction drain limit stream with
  | case1 a b c d rest n large =>
    refine ⟨nofun, nofun, fun _ => ⟨n, rest, large, lengthOf_le a b c d, ?_⟩⟩
    rw [lengthBytes_lengthOf]
    rfl
  | case2 a b c d rest n allowed here later ih =>
    obtain ⟨within, going, stopped⟩ := ih
    have size : (rest.take n).length = n := List.length_take_of_le here
    have small : n ≤ maxLength := lengthOf_le a b c d
    have framed (tail : Bytes) (same : rest.drop n = tail) :
        a :: b :: c :: d :: rest = frame (rest.take n) ++ tail := by
      rw [frame, size, if_pos small, lengthBytes_lengthOf, List.append_assoc, ← same,
        List.take_append_drop]
      rfl
    refine ⟨?_, fun on => ?_, fun off => ?_⟩
    · exact List.forall_mem_cons.mpr ⟨by omega, within⟩
    · rw [framed _ (going on)]
      exact (List.append_assoc ..).symm
    · obtain ⟨m, tail, large, limited, same⟩ := stopped off
      refine ⟨m, tail, large, limited, ?_⟩
      rw [framed _ same]
      exact (List.append_assoc ..).symm
  | case3 a b c d rest n allowed missing => exact ⟨nofun, fun _ => rfl, nofun⟩
  | case4 short few => exact ⟨nofun, fun _ => rfl, nofun⟩

/-- What reading with a limit makes of a stream. -/
structure Reassembles (limit : Nat) : Prop where
  whole : ∀ messages : List Bytes,
    (∀ message ∈ messages, message.length ≤ limit ∧ message.length ≤ maxLength) →
    drain limit (frames messages) = ⟨messages, [], false⟩
  early : ∀ part stream, part <+: stream →
    (drain limit part).messages <+: (drain limit stream).messages
  partial_last : ∀ (messages : List Bytes) (message part : Bytes),
    (∀ message ∈ messages, message.length ≤ limit ∧ message.length ≤ maxLength) →
    message.length ≤ maxLength → part <+: frame message → part ≠ frame message →
    (drain limit (frames messages ++ part)).messages = messages
  /-- A length beyond the limit ends all reading. -/
  oversized : ∀ (messages : List Bytes) (n : Nat) (rest : Bytes),
    (∀ message ∈ messages, message.length ≤ limit ∧ message.length ≤ maxLength) →
    limit < n → n ≤ maxLength →
    drain limit (frames messages ++ (lengthBytes n ++ rest)) = ⟨messages, [], true⟩

  /-- Every stream is read so. What is not a message waits for more bytes, or begins with such a
      length. -/
  shape : ∀ stream : Bytes,
    (∀ message ∈ (drain limit stream).messages,
      message.length ≤ limit ∧ message.length ≤ maxLength) ∧
    ((drain limit stream).stopped = false →
      stream = frames (drain limit stream).messages ++ (drain limit stream).unread) ∧
    ((drain limit stream).stopped = true → ∃ n rest, limit < n ∧ n ≤ maxLength ∧
      stream = frames (drain limit stream).messages ++ (lengthBytes n ++ rest))

theorem reassembles (limit : Nat) : Reassembles limit where
  whole messages within :=
    drain_whole (fun m member => (within m member).1) fun m member => (within m member).2
  early _ _ := drain_early
  partial_last messages message part within small early cut := by
    rw [drain_frames (fun m member => (within m member).1) fun m member => (within m member).2]
    simp only [drain_partial small early cut, List.append_nil]
  oversized messages n rest within large small := by
    rw [drain_frames (fun m member => (within m member).1) fun m member => (within m member).2,
      drain_oversized large small]
    simp only [List.append_nil]
  shape := drain_shape limit

theorem drain_begins {stream : Bytes} (small : ∀ message ∈ messages, message.length ≤ maxLength)
    (sent : stream <+: frames messages) : (drain maxLength stream).messages <+: messages := by
  have early : _ <+: (drain maxLength (frames messages)).messages := drain_early sent
  rwa [drain_whole small small] at early

end PeerRelay.Framing
