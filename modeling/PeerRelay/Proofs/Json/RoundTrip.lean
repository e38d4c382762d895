import PeerRelay.Proofs.Json.Scalar

/-!
Every value is read back from its text. The induction is on the fuel of the reader: a value needs
less than two units of it for each of its characters, and each step of the reader hands what is
left to the parts.
-/
namespace PeerRelay.Json

def EndsValue (rest : List Char) : Prop := ∀ c ∈ rest.head?, c = ',' ∨ c = ']' ∨ c = '\x7d'

theorem EndsValue.number {rest : List Char} (stop : EndsValue rest) : EndsNumber rest := by
  intro c first
  rcases stop c first with rfl | rfl | rfl <;> decide

theorem endsValue_nil : EndsValue [] := by simp [EndsValue]

theorem endsValue_comma (rest : List Char) : EndsValue (',' :: rest) := by simp [EndsValue]

theorem endsValue_bracket (rest : List Char) : EndsValue (']' :: rest) := by simp [EndsValue]

theorem endsValue_brace (rest : List Char) : EndsValue ('\x7d' :: rest) := by simp [EndsValue]

/-! How values begin -/

def Begins (c : Char) : Prop := isBlank c = false ∧ c ≠ ']'

instance (c : Char) : Decidable (Begins c) :=
  inferInstanceAs (Decidable (isBlank c = false ∧ c ≠ ']'))

theorem begins_digit {c : Char} (digit : c.isDigit = true) : Begins c := by
  have blank : ∀ b, isBlank b = true → b.isDigit = false := by
    intro b blank
    simp only [isBlank, Bool.or_eq_true, decide_eq_true_eq] at blank
    rcases blank with ((rfl | rfl) | rfl) | rfl <;> rfl
  constructor
  · cases white : isBlank c with
    | false => rfl
    | true => rw [blank c white] at digit; contradiction
  · rintro rfl
    exact absurd digit (by decide)

theorem integerChars_cons (n : Int) :
    ∃ c more, integerChars n = c :: more ∧ (c.isDigit = true ∨ c = '-') := by
  unfold integerChars
  split
  · exact ⟨'-', _, rfl, Or.inr rfl⟩
  · obtain ⟨d, ds, digits, digit⟩ := toDigits_cons n.natAbs
    exact ⟨d, ds, digits, Or.inl digit⟩

theorem stringChars_cons (s : Option String) : ∃ more, stringChars s = '"' :: more := by
  cases s with
  | none => exact ⟨_, rfl⟩
  | some s => exact ⟨_, rfl⟩

theorem chars_cons (v : Value) : ∃ c more, v.chars = c :: more ∧ Begins c := by
  cases v with
  | null => exact ⟨'n', _, rfl, by decide⟩
  | bool b => cases b <;> exact ⟨_, _, rfl, by decide⟩
  | integer n =>
    obtain ⟨c, more, shape, digit | rfl⟩ := integerChars_cons n
    · exact ⟨c, more, shape, begins_digit digit⟩
    · exact ⟨'-', more, shape, by decide⟩
  | real => exact ⟨'-', _, rfl, by decide⟩
  | string s =>
    obtain ⟨more, shape⟩ := stringChars_cons s
    exact ⟨'"', more, shape, by decide⟩
  | array items => exact ⟨'[', _, rfl, by decide⟩
  | object members => exact ⟨'\x7b', _, rfl, by decide⟩

theorem itemChars_cons (v : Value) (items : List Value) :
    ∃ c more, itemChars (v :: items) = c :: more ∧ Begins c := by
  obtain ⟨c, more, shape, begins⟩ := chars_cons v
  cases items with
  | nil => exact ⟨c, more, shape, begins⟩
  | cons w rest => exact ⟨c, _, by rw [itemChars, shape, List.cons_append], begins⟩

theorem memberChars_cons (key : Option String) (v : Value)
    (members : List (Option String × Value)) :
    ∃ more, memberChars ((key, v) :: members) = '"' :: more := by
  obtain ⟨more, shape⟩ := stringChars_cons key
  cases members with
  | nil => exact ⟨_, by rw [memberChars, shape, List.cons_append]⟩
  | cons m rest => exact ⟨_, by rw [memberChars, shape, List.cons_append, List.cons_append]⟩

theorem skipBlank_cons {c : Char} (solid : isBlank c = false) (rest : List Char) :
    skipBlank (c :: rest) = c :: rest := by
  simp [skipBlank, solid]

/-! One step of the reader -/

def ReadsValues (fuel : Nat) : Prop :=
  ∀ (v : Value) (rest : List Char), 2 * v.chars.length ≤ fuel + 1 → EndsValue rest →
    value? fuel (v.chars ++ rest) = some (v, rest)

def ReadsItems (fuel : Nat) : Prop :=
  ∀ (v : Value) (items : List Value) (rest : List Char),
    2 * (itemChars (v :: items)).length ≤ fuel →
      items? fuel (itemChars (v :: items) ++ ']' :: rest) = some (v :: items, rest)

def ReadsMembers (fuel : Nat) : Prop :=
  ∀ (m : Option String × Value) (members : List (Option String × Value)) (rest : List Char),
    2 * (memberChars (m :: members)).length ≤ fuel →
      members? fuel (memberChars (m :: members) ++ '\x7d' :: rest) = some (m :: members, rest)

theorem value?_number {fuel : Nat} {c : Char} {more : List Char}
    (numeric : c.isDigit = true ∨ c = '-') :
    value? (fuel + 1) (c :: more) = number? (c :: more) := by
  have solid : isBlank c = false := by
    rcases numeric with digit | rfl
    · exact (begins_digit digit).1
    · rfl
  have other : ∀ b, b.isDigit = false → b ≠ '-' → c ≠ b := by
    rintro b plain unsigned rfl
    rcases numeric with digit | same
    · rw [plain] at digit
      contradiction
    · exact unsigned same
  rw [value?, skipBlank_cons solid]
  split <;> simp_all

theorem value?_items {fuel : Nat} {c : Char} {more : List Char} (begins : Begins c) :
    value? (fuel + 1) ('[' :: c :: more) =
      (items? fuel (c :: more)).map fun read => (.array read.1, read.2) := by
  rw [value?, skipBlank_cons (by decide)]
  simp only [skipBlank_cons begins.1]
  split
  · rename_i same
    exact (begins.2 (List.cons.inj same).1).elim
  · cases items? fuel (c :: more) <;> rfl

theorem value?_members {fuel : Nat} {more : List Char} :
    value? (fuel + 1) ('\x7b' :: '"' :: more) =
      (members? fuel ('"' :: more)).map fun read => (.object read.1, read.2) := by
  rw [value?, skipBlank_cons (by decide)]
  have quote : skipBlank ('"' :: more) = '"' :: more := skipBlank_cons (by decide) more
  simp only [quote]
  show Option.bind _ _ = _
  cases members? fuel ('"' :: more) <;> rfl

theorem value_reads {fuel : Nat} (items : ReadsItems fuel) (members : ReadsMembers fuel) :
    ReadsValues (fuel + 1) := by
  intro v rest enough stop
  cases v with
  | null => simp [Value.chars, value?, skipBlank, isBlank]
  | bool b => cases b <;> simp [Value.chars, value?, skipBlank, isBlank]
  | integer n =>
    have read := number?_integer n stop.number
    obtain ⟨c, more, shape, numeric⟩ := integerChars_cons n
    rw [shape, List.cons_append] at read
    rw [Value.chars, shape, List.cons_append, value?_number numeric, read]
  | real =>
    have read := number?_real stop.number
    rw [Value.chars, List.cons_append, List.cons_append, List.nil_append,
      value?_number (Or.inr rfl), read]
  | string s =>
    have read := literal?_reads s rest
    obtain ⟨more, shape⟩ := stringChars_cons s
    rw [shape, List.tail_cons] at read
    rw [Value.chars, shape, List.cons_append, value?, skipBlank_cons (by decide)]
    simp [read]
  | array vs =>
    cases vs with
    | nil => simp [Value.chars, itemChars, value?, skipBlank, isBlank]
    | cons w ws =>
      have room : 2 * (itemChars (w :: ws)).length ≤ fuel := by
        simp only [Value.chars, List.length_cons, List.length_append, List.length_nil] at enough
        omega
      have read := items w ws rest room
      obtain ⟨c, more, shape, begins⟩ := itemChars_cons w ws
      rw [shape, List.cons_append] at read
      rw [Value.chars, shape, List.cons_append, List.cons_append, List.append_assoc,
        List.singleton_append, List.cons_append, value?_items begins, read]
      rfl
  | object ms =>
    cases ms with
    | nil => simp [Value.chars, memberChars, value?, skipBlank, isBlank]
    | cons m ms =>
      have room : 2 * (memberChars (m :: ms)).length ≤ fuel := by
        simp only [Value.chars, List.length_cons, List.length_append, List.length_nil] at enough
        omega
      have read := members m ms rest room
      obtain ⟨more, shape⟩ := memberChars_cons m.1 m.2 ms
      rw [shape, List.cons_append] at read
      rw [Value.chars, shape, List.cons_append, List.cons_append, List.append_assoc,
        List.singleton_append, List.cons_append, value?_members, read]
      rfl

theorem items_reads {fuel : Nat} (values : ReadsValues fuel) (items : ReadsItems fuel) :
    ReadsItems (fuel + 1) := by
  intro v more rest enough
  cases more with
  | nil =>
    have first :=
      values v (']' :: rest) (by simpa [itemChars] using enough) (endsValue_bracket rest)
    rw [itemChars, items?, first]
    simp [skipBlank, isBlank]
  | cons w ws =>
    simp only [itemChars, List.length_append, List.length_cons] at enough
    have first := values v (',' :: (itemChars (w :: ws) ++ ']' :: rest)) (by omega)
      (endsValue_comma _)
    have later := items w ws rest (by omega)
    rw [itemChars, List.append_assoc, List.cons_append, items?, first]
    simp [skipBlank, isBlank, later]

theorem members_reads {fuel : Nat} (values : ReadsValues fuel) (members : ReadsMembers fuel) :
    ReadsMembers (fuel + 1) := by
  intro m more rest enough
  obtain ⟨key, v⟩ := m
  obtain ⟨name, shape⟩ := stringChars_cons key
  have named := fun after => literal?_reads key after
  simp only [shape, List.tail_cons] at named
  cases more with
  | nil =>
    simp only [memberChars, List.length_append, List.length_cons] at enough
    have first := values v ('\x7d' :: rest) (by omega) (endsValue_brace rest)
    rw [memberChars, shape, List.append_assoc, List.cons_append, List.cons_append, members?,
      skipBlank_cons (by decide)]
    simp [named, skipBlank, isBlank, first]
  | cons next ms =>
    simp only [memberChars, List.length_append, List.length_cons] at enough
    have first := values v (',' :: (memberChars (next :: ms) ++ '\x7d' :: rest)) (by omega)
      (endsValue_comma _)
    have later := members next ms rest (by omega)
    rw [memberChars, shape, List.append_assoc, List.append_assoc, List.cons_append,
      List.cons_append, List.cons_append, members?, skipBlank_cons (by decide)]
    simp [named, skipBlank, isBlank, first, later]

theorem reads (fuel : Nat) : ReadsValues fuel ∧ ReadsItems fuel ∧ ReadsMembers fuel := by
  induction fuel with
  | zero =>
    refine ⟨?_, ?_, ?_⟩
    · intro v rest enough
      obtain ⟨c, more, shape, _⟩ := chars_cons v
      simp only [shape, List.length_cons] at enough
      omega
    · intro v items rest enough
      obtain ⟨c, more, shape, _⟩ := itemChars_cons v items
      simp only [shape, List.length_cons] at enough
      omega
    · intro m members rest enough
      obtain ⟨more, shape⟩ := memberChars_cons m.1 m.2 members
      simp only [shape, List.length_cons] at enough
      omega
  | succ fuel ih =>
    obtain ⟨values, items, members⟩ := ih
    exact ⟨value_reads items members, items_reads values items, members_reads values members⟩

@[simp] theorem parse?_text (v : Value) : parse? v.text = some v := by
  have read := (reads (2 * v.chars.length + 2)).1 v [] (by omega) endsValue_nil
  rw [List.append_nil] at read
  have blank : skipBlank [] = [] := rfl
  rw [parse?, Value.text, String.toList_ofList, parseChars?, read]
  simp only [Option.bind_eq_bind, Option.bind_some, blank, List.isEmpty_nil, if_true]

end PeerRelay.Json
