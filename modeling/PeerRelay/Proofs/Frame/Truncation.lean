import PeerRelay.Proofs.Frame.Spelling

/-!
Frames that were cut. Of what was encoded no proper prefix is read as anything: reading comes to an
end of the bytes first. Data with a sender is the exception, since without some of the bytes of its
sender it is data without one.
-/
namespace PeerRelay
open Wire

/-- Decoding came to the end of the bytes within a field. -/
def EndsEarly {α : Type} (outcome : Except Error α) : Prop :=
  ∃ needed remaining, outcome = .error (.unexpectedEnd needed remaining)

def NeedsAll {α : Type} (decode : Bytes → Except Error α) (encode : Bytes → Encoded) : Prop :=
  ∀ ⦃buffer bytes : Bytes⦄, (encode buffer).result = .ok bytes →
    ∀ p, p <+: bytes → p ≠ bytes → EndsEarly (decode p)

theorem endsEarly_of_short {α : Type} {read : Read α} {p : Bytes} (short : Short (read.run p)) :
    EndsEarly (decodeWith read p) := by
  obtain ⟨needed, remaining, left, failed⟩ := short
  rw [decodeWith_run, failed]
  exact ⟨needed, remaining, rfl⟩

theorem not_endsEarly_ok {α : Type} {outcome : Except Error α} {a : α} (done : outcome = .ok a) :
    ¬ EndsEarly outcome := by
  intro early
  obtain ⟨needed, remaining, failed⟩ := early
  rw [failed] at done
  cases done

theorem needsAll_of_steady {α : Type} {read : Read α} {fields : List Field} {message : α}
    (steady : Steady read)
    (reads : (∀ x ∈ fields, x.Countable) → Reads read (fields.flatMap Field.bytes) message) :
    NeedsAll (decodeWith read) (encodeInto fields) := by
  intro buffer bytes encoded p cut proper
  obtain ⟨fits, rfl⟩ := encodeInto_ok_iff.mp encoded
  exact endsEarly_of_short (steady.short (reads fits.2).whole cut proper)

/-- Where nothing less than an encoding can be read, nothing encoded is a proper prefix of it. -/
theorem eq_of_prefix {α : Type} {decode : Bytes → Except Error α} {encode : Bytes → Encoded}
    {buffer bytes bytes' : Bytes} {message : α} (needs : NeedsAll decode encode)
    (encoded : (encode buffer).result = .ok bytes') (done : decode bytes = .ok message)
    (front : bytes <+: bytes') : bytes = bytes' := by
  by_cases same : bytes = bytes'
  · exact same
  · exact (not_endsEarly_ok done (needs encoded bytes front same)).elim

theorem ClientFrame.needsAll (f : ClientFrame) : NeedsAll decode f.encode :=
  needsAll_of_steady read_completes.steady fun countable =>
    f.read_reads (List.forall_mem_cons.mp countable).2

namespace ServerFrame

theorem cut_body {f : ServerFrame} {p : Bytes} (cut : p <+: f.fields.flatMap Field.bytes) :
    (p = [] ∧ EndsEarly (decode p)) ∨
      ∃ q, p = f.opcode.code :: q ∧ q <+: f.body.flatMap Field.bytes ∧
        decode p = decodeWith (readBody f.opcode) q := by
  rw [fields, List.flatMap_cons] at cut
  rcases readByte_steady.cut_bind (readByte_reads f.opcode.code) _ cut with short | behind
  · have nothing : p = [] := List.length_eq_zero_iff.mp (Nat.lt_one_iff.mp short.1)
    exact Or.inl ⟨nothing, endsEarly_of_short short.2⟩
  · obtain ⟨q, rfl, rest, run⟩ := behind
    simp only [OpCode.ofByte?_code] at run
    refine Or.inr ⟨q, rfl, rest, ?_⟩
    rw [decode, decodeWith_run, decodeWith_run, ← run]
    rfl

theorem closed_needsAll {f : ServerFrame} (closed : f.opcode ≠ .receivedData) :
    NeedsAll decode f.encode := by
  intro buffer bytes encoded p cut proper
  obtain ⟨fits, rfl⟩ := encodeInto_ok_iff.mp encoded
  rcases cut_body cut with none | behind
  · exact none.2
  · obtain ⟨q, rfl, rest, same⟩ := behind
    have ended : f.openEnded = false := by
      cases f with
      | receivedData => exact (closed rfl).elim
      | _ => rfl
    have reads := readBody_reads f (List.forall_mem_cons.mp fits.2).2 ended
    have missing : q ≠ f.body.flatMap Field.bytes := fun whole => proper (by rw [whole]; rfl)
    rw [same]
    exact endsEarly_of_short ((readBody_completes closed).steady.short reads.whole rest missing)

theorem cut_data {payload bytes buffer p : Bytes} {sender : Option ConnectionId}
    (encoded : (encode (.receivedData payload sender) buffer).result = .ok bytes)
    (cut : p <+: bytes) (proper : p ≠ bytes) :
    if payload.length + 5 ≤ p.length then decode p = .ok (.receivedData payload none)
    else EndsEarly (decode p) := by
  have less : p.length < bytes.length :=
    Nat.lt_of_le_of_ne cut.length_le fun same => proper (cut.eq_of_length same)
  have few : p.length < payload.length + 9 := by
    rw [(encoded_length _ encoded).1, data_size] at less
    split at less <;> omega
  obtain ⟨fits, rfl⟩ := encodeInto_ok_iff.mp encoded
  have blob : body (.receivedData payload sender) =
      .blob payload :: (body (.receivedData payload sender)).tail := by cases sender <;> rfl
  have countable : (Field.blob payload).Countable := fits.2 _ (by rw [fields, blob]; simp)
  have width : (Field.blob payload).bytes.length = 4 + payload.length := Field.bytes_length _
  rcases cut_body cut with none | behind
  · have nothing : p.length = 0 := congrArg List.length none.1
    rw [if_neg (by omega)]
    exact none.2
  · obtain ⟨q, rfl, rest, same⟩ := behind
    rw [blob, List.flatMap_cons] at rest
    rw [List.length_cons] at few ⊢
    rcases readBlob_steady.cut_bind (readBlob_reads countable) _ rest with short | behind
    · rw [if_neg (by omega), same]
      exact endsEarly_of_short short.2
    · obtain ⟨more, rfl, -, -⟩ := behind
      rw [List.length_append] at few ⊢
      rw [if_pos (by omega)]
      have absent := (decode_openEnded payload countable more).mpr (by omega)
      simpa [fields, body, opcode, Field.bytes] using absent

theorem needsAll {f : ServerFrame}
    (unnamed : ∀ payload sender, f ≠ .receivedData payload (some sender)) :
    NeedsAll decode f.encode := by
  by_cases data : f.opcode = .receivedData
  · match f, data with
    | .receivedData payload (some sender), _ => exact (unnamed payload sender rfl).elim
    | .receivedData payload none, _ =>
      intro buffer bytes encoded p cut proper
      have ends := cut_data encoded cut proper
      have whole : ¬ payload.length + 5 ≤ p.length := by
        intro enough
        have length : bytes.length = payload.length + 5 :=
          (encoded_length _ encoded).1.trans (data_size payload none)
        exact proper (cut.eq_of_length_le (by omega))
      rwa [if_neg whole] at ends
  · exact closed_needsAll data

/-- Data without its sender is the only frame that can be the front of another. -/
theorem prefix_cases {f g : ServerFrame} {buffer buffer' bytes bytes' : Bytes}
    (encoded : (f.encode buffer).result = .ok bytes)
    (encoded' : (g.encode buffer').result = .ok bytes') (front : bytes <+: bytes') :
    f = g ∨ ∃ payload sender,
      f = .receivedData payload none ∧ g = .receivedData payload (some sender) := by
  have decoded := f.decode_encoded encoded
  by_cases named : ∃ payload sender, g = .receivedData payload (some sender)
  · obtain ⟨payload, sender, rfl⟩ := named
    by_cases same : bytes = bytes'
    · subst same
      exact Or.inl (Except.ok.inj (decoded.symm.trans (decode_encoded _ encoded')))
    · have ends := cut_data encoded' front same
      split at ends
      · exact Or.inr ⟨payload, sender, Except.ok.inj (decoded.symm.trans ends), rfl⟩
      · exact (not_endsEarly_ok decoded ends).elim
  · have unnamed : ∀ payload sender, g ≠ .receivedData payload (some sender) :=
      fun payload sender same => named ⟨payload, sender, same⟩
    obtain rfl := eq_of_prefix (needsAll unnamed) encoded' decoded front
    exact Or.inl (Except.ok.inj (decoded.symm.trans (g.decode_encoded encoded')))

end ServerFrame

/-- Messages that were cut are not read, but for data of which no more than the sender is missing.
    So an encoding is the front of another only if it is the same, or that data without sender. -/
theorem truncated_messages_end_early :
    (∀ f : ClientFrame, NeedsAll ClientFrame.decode f.encode) ∧
    (∀ (f g : ClientFrame) (buffer buffer' bytes bytes' : Bytes),
      (f.encode buffer).result = .ok bytes → (g.encode buffer').result = .ok bytes' →
      bytes <+: bytes' → f = g ∧ bytes = bytes') ∧
    (∀ d : PunchDatagram, NeedsAll PunchDatagram.decode d.encode) ∧
    (∀ f : ServerFrame, (∀ payload sender, f ≠ .receivedData payload (some sender)) →
      NeedsAll ServerFrame.decode f.encode) ∧
    (∀ payload sender (buffer bytes : Bytes),
      (ServerFrame.encode (.receivedData payload (some sender)) buffer).result = .ok bytes →
      bytes.length = payload.length + 9 ∧ ∀ p, p <+: bytes → p ≠ bytes →
        if payload.length + 5 ≤ p.length then
          ServerFrame.decode p = .ok (.receivedData payload none)
        else EndsEarly (ServerFrame.decode p)) ∧
    (∀ (f g : ServerFrame) (buffer buffer' bytes bytes' : Bytes),
      (f.encode buffer).result = .ok bytes → (g.encode buffer').result = .ok bytes' →
      bytes <+: bytes' → f = g ∨ ∃ payload sender,
        f = .receivedData payload none ∧ g = .receivedData payload (some sender)) := by
  refine ⟨ClientFrame.needsAll, ?_, ?_, fun f => ServerFrame.needsAll, ?_, ?_⟩
  · intro f g buffer buffer' bytes bytes' encoded encoded' front
    have decoded := f.decode_encoded encoded
    obtain rfl := eq_of_prefix g.needsAll encoded' decoded front
    exact ⟨Except.ok.inj (decoded.symm.trans (g.decode_encoded encoded')), rfl⟩
  · intro d
    exact needsAll_of_steady PunchDatagram.read_completes.steady d.read_reads
  · intro payload sender buffer bytes encoded
    refine ⟨(ServerFrame.encoded_length _ encoded).1.trans (ServerFrame.data_size _ _), ?_⟩
    intro p cut proper
    exact ServerFrame.cut_data encoded cut proper
  · intro f g buffer buffer' bytes bytes' encoded encoded' front
    exact ServerFrame.prefix_cases encoded encoded' front

/-- Data from a host, cut within the sender and within the payload. -/
theorem cut_data_loses_sender :
    (ServerFrame.encode (.receivedData [1, 2] (some ⟨7⟩)) (List.replicate 16 255)).result =
        .ok [6, 2, 0, 0, 0, 1, 2, 7, 0, 0, 0] ∧
      ServerFrame.decode [6, 2, 0, 0, 0, 1, 2, 7, 0, 0] = .ok (.receivedData [1, 2] none) ∧
      EndsEarly (ServerFrame.decode [6, 2, 0, 0, 0, 1]) := by
  have encoded : (ServerFrame.encode (.receivedData [1, 2] (some ⟨7⟩))
      (List.replicate 16 255)).result = .ok [6, 2, 0, 0, 0, 1, 2, 7, 0, 0, 0] := by rfl
  obtain ⟨-, -, -, -, named, -⟩ := truncated_messages_end_early
  obtain ⟨-, cut⟩ := named _ _ _ _ encoded
  have sender := cut [6, 2, 0, 0, 0, 1, 2, 7, 0, 0] (by decide) (by decide)
  have payload := cut [6, 2, 0, 0, 0, 1] (by decide) (by decide)
  exact ⟨encoded, sender, payload⟩

end PeerRelay
