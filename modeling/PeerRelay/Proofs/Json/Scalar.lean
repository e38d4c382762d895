import PeerRelay.Json.Parser
import PeerRelay.Proofs.Text.Units

/-!
Strings and numbers read back from their text. The escapes of a text give its characters again, and
digits are read up to whatever follows them, as long as that cannot go on a number.
-/
namespace PeerRelay.Json

/-! Strings -/

theorem hexValue?_digitChar {d : Nat} (small : d < 16) :
    Text.hexValue? (Nat.digitChar d) = some d := by
  have all : ∀ d < 16, Text.hexValue? (Nat.digitChar d) = some d := by decide
  exact all d small

theorem unit?_hexDigit4 {n : Nat} (small : n < 0x10000) :
    unit? (Nat.digitChar (n / 0x1000 % 16)) (Nat.digitChar (n / 0x100 % 16))
      (Nat.digitChar (n / 16 % 16)) (Nat.digitChar (n % 16)) = some (UInt16.ofNat n) := by
  have whole : 0x100 * (16 * (n / 0x1000 % 16) + n / 0x100 % 16) +
      (16 * (n / 16 % 16) + n % 16) = n := by omega
  simp only [unit?, hexValue?_digitChar (Nat.mod_lt _ (by omega : 0 < 16)), bind, Option.bind, pure,
    whole]

/-- The piece that a character is read back as: by its number if its escape has the number. -/
def pieceOf (c : Char) : Piece :=
  if c.toNat < 0x20 ∧ c ∉ ['\x08', '\x0c', '\n', '\r', '\t'] then .unit (UInt16.ofNat c.toNat)
  else .char c

theorem pieces?_short {e c : Char} (known : shortEscape? e = some c) (rest : List Char) :
    pieces? ('\\' :: e :: rest) = (pieces? rest).map fun p => (.char c :: p.1, p.2) := by
  have plain : e ≠ 'u' := by
    rintro rfl
    simp [shortEscape?] at known
  rw [pieces?.eq_4 _ _ fun _ _ _ _ _ same _ => plain same, known]
  cases pieces? rest <;> rfl

theorem pieces?_numbered {n : Nat} (small : n < 0x10000) (rest : List Char) :
    pieces? ('\\' :: 'u' :: hexDigit4 n ++ rest) =
      (pieces? rest).map fun p => (.unit (UInt16.ofNat n) :: p.1, p.2) := by
  simp only [hexDigit4, List.cons_append, List.nil_append, pieces?, unit?_hexDigit4 small]
  cases pieces? rest <;> rfl

theorem pieces?_plain {c : Char} (quote : c ≠ '"') (backslash : c ≠ '\\')
    (printable : ¬ c.toNat < 0x20) (rest : List Char) :
    pieces? (c :: rest) = (pieces? rest).map fun p => (.char c :: p.1, p.2) := by
  rw [pieces?.eq_5 _ _ quote (fun _ _ _ _ _ same _ => backslash same)
    fun _ _ same _ => backslash same]
  rw [if_neg (by simp [printable, backslash])]
  cases pieces? rest <;> rfl

theorem pieces?_escapeChar (c : Char) (rest : List Char) :
    pieces? (escapeChar c ++ rest) = (pieces? rest).map fun p => (pieceOf c :: p.1, p.2) := by
  by_cases short : c ∈ ['"', '\\', '\x08', '\x0c', '\n', '\r', '\t']
  · simp only [List.mem_cons, List.not_mem_nil, or_false] at short
    rcases short with rfl | rfl | rfl | rfl | rfl | rfl | rfl <;> exact pieces?_short rfl rest
  · simp only [List.mem_cons, List.not_mem_nil, or_false, not_or] at short
    obtain ⟨quote, backslash, b, f, n, r, t⟩ := short
    unfold escapeChar
    rw [if_neg quote, if_neg backslash, if_neg b, if_neg f, if_neg n, if_neg r, if_neg t]
    split
    · rename_i control
      have numbered : pieceOf c = .unit (UInt16.ofNat c.toNat) := by
        simp [pieceOf, control, b, f, n, r, t]
      rw [numbered]
      exact pieces?_numbered (by omega) rest
    · rename_i printable
      have plain : pieceOf c = .char c := by simp [pieceOf, printable]
      rw [plain]
      exact pieces?_plain quote backslash printable rest

@[simp] theorem pieces?_escaped (cs rest : List Char) :
    pieces? (cs.flatMap escapeChar ++ '"' :: rest) = some (cs.map pieceOf, rest) := by
  induction cs with
  | nil => rfl
  | cons c cs ih =>
    rw [List.flatMap_cons, List.append_assoc, pieces?_escapeChar, ih]
    rfl

theorem spell?_unit {u : UInt16} (no_high : Text.isHighSurrogate u = false)
    (no_low : Text.isLowSurrogate u = false) (rest : List Piece) :
    spell? (.unit u :: rest) = (spell? rest).map (Char.ofNat u.toNat :: ·) := by
  rw [spell?.eq_def]
  simp [no_high, no_low]

/-- A control is no surrogate, so its number spells it. -/
@[simp] theorem spell?_pieceOf (c : Char) (rest : List Piece) :
    spell? (pieceOf c :: rest) = (spell? rest).map (c :: ·) := by
  unfold pieceOf
  split
  · rename_i numbered
    have value : (UInt16.ofNat c.toNat).toNat = c.toNat := Text.toNat_unit c.toNat (by omega)
    rw [spell?_unit, value, Char.ofNat_toNat]
    · rw [← Bool.not_eq_true, Text.high_iff, value]
      omega
    · rw [← Bool.not_eq_true, Text.low_iff, value]
      omega
  · rfl

@[simp] theorem spell?_map_pieceOf (cs : List Char) : spell? (cs.map pieceOf) = some cs := by
  induction cs with
  | nil => rfl
  | cons c cs ih =>
    rw [List.map_cons, spell?_pieceOf, ih]
    rfl

theorem literal?_reads (s : Option String) (rest : List Char) :
    literal? ((stringChars s).tail ++ rest) = some (s, rest) := by
  cases s with
  | none => rfl
  | some s =>
    have written : (stringChars (some s)).tail ++ rest =
        s.toList.flatMap escapeChar ++ '"' :: rest := by simp [stringChars]
    rw [written, literal?, pieces?_escaped]
    simp

/-! Numbers -/

def EndsNumber (rest : List Char) : Prop :=
  ∀ c ∈ rest.head?, c.isDigit = false ∧ c ≠ '.' ∧ c ≠ 'e' ∧ c ≠ 'E'

@[simp] theorem digitsValue_toDigits (n : Nat) : Text.digitsValue (Nat.toDigits 10 n) = n :=
  Nat.ofDigitChars_toDigits (by omega) (by omega)

theorem toDigits_digit {n : Nat} {c : Char} (mem : c ∈ Nat.toDigits 10 n) : c.isDigit = true :=
  Nat.isDigit_of_mem_toDigits (by omega) (by omega) mem

theorem digitsAt_toDigits (n : Nat) {rest : List Char} (stop : EndsNumber rest) :
    digitsAt (Nat.toDigits 10 n ++ rest) = (Nat.toDigits 10 n, rest) := by
  have none_left : rest.takeWhile Char.isDigit = [] ∧ rest.dropWhile Char.isDigit = rest := by
    cases rest with
    | nil => simp
    | cons c more =>
      have other := (stop c (by simp)).1
      simp [other]
  simp only [digitsAt, List.takeWhile_append_of_pos fun _ => toDigits_digit,
    List.dropWhile_append_of_pos fun _ => toDigits_digit, none_left, List.append_nil]

theorem head?_toDigits {n : Nat} (positive : 0 < n) : (Nat.toDigits 10 n).head? ≠ some '0' := by
  induction n using Nat.strongRecOn with
  | ind n ih =>
    by_cases single : n < 10
    · have digit : ∀ d < 10, 0 < d → Nat.digitChar d ≠ '0' := by decide
      rw [Nat.toDigits_of_lt_base single]
      simpa using digit n single positive
    · have earlier := ih (n / 10) (by omega) (by omega)
      obtain ⟨d, ds, digits⟩ :=
        List.exists_cons_of_ne_nil (Nat.toDigits_ne_nil : Nat.toDigits 10 (n / 10) ≠ [])
      rw [Nat.toDigits_of_base_le (by omega) (by omega), digits]
      rwa [digits] at earlier

theorem afterFraction?_stop {rest : List Char} (stop : EndsNumber rest) :
    afterFraction? rest = some (false, rest) := by
  unfold afterFraction?
  split
  · exact ((stop '.' (by simp)).2.1 rfl).elim
  · rfl

theorem afterExponent?_stop {rest : List Char} (stop : EndsNumber rest) :
    afterExponent? rest = some (false, rest) := by
  unfold afterExponent?
  split
  · rename_i e more
    have other := stop e (by simp)
    rw [if_neg (by simp [other])]
  · rfl

theorem unsigned?_reads (n : Nat) {rest : List Char} (stop : EndsNumber rest) :
    unsigned? (Nat.toDigits 10 n ++ rest) = some (n, false, rest) := by
  have shape : ((Nat.toDigits 10 n).isEmpty ||
      ((Nat.toDigits 10 n).head? == some '0' && 1 < (Nat.toDigits 10 n).length)) = false := by
    have some_digit : (Nat.toDigits 10 n).isEmpty = false := by
      simp [Nat.toDigits_ne_nil]
    rw [some_digit]
    by_cases zero : n = 0
    · subst zero
      rfl
    · simp [head?_toDigits (Nat.pos_of_ne_zero zero)]
  unfold unsigned?
  rw [digitsAt_toDigits n stop]
  simp only [shape, Bool.false_eq_true, if_false, afterFraction?_stop stop,
    afterExponent?_stop stop, digitsValue_toDigits, Option.bind_eq_bind, Option.bind_some,
    Bool.or_self]
  rfl

theorem toDigits_cons (n : Nat) : ∃ d ds, Nat.toDigits 10 n = d :: ds ∧ d.isDigit = true := by
  have some_digit : Nat.toDigits 10 n ≠ [] := Nat.toDigits_ne_nil
  obtain ⟨d, ds, digits⟩ := List.exists_cons_of_ne_nil some_digit
  exact ⟨d, ds, digits, toDigits_digit (digits ▸ List.mem_cons_self)⟩

theorem number?_integer (n : Int) {rest : List Char} (stop : EndsNumber rest) :
    number? (integerChars n ++ rest) = some (.integer n, rest) := by
  have read := unsigned?_reads n.natAbs stop
  unfold integerChars
  split
  · rename_i negative
    have nonzero : n.natAbs ≠ 0 := by omega
    have value : -(n.natAbs : Int) = n := by omega
    simp only [List.cons_append, number?, read, nonzero, value, Option.bind_eq_bind,
      Option.bind_some, Option.pure_def, Bool.false_eq_true, decide_false, Bool.or_false, if_false]
  · rename_i positive
    have value : (n.natAbs : Int) = n := by omega
    obtain ⟨d, ds, digits, digit⟩ := toDigits_cons n.natAbs
    rw [digits] at read ⊢
    have unsigned : d ≠ '-' := by
      rintro rfl
      contradiction
    rw [List.cons_append] at read ⊢
    rw [number?.eq_2 _ fun _ same => unsigned (List.cons.inj same).1]
    simp only [read, value, Option.bind_eq_bind, Option.bind_some, Option.pure_def,
      Bool.false_eq_true, if_false]

theorem number?_real {rest : List Char} (stop : EndsNumber rest) :
    number? ('-' :: '0' :: rest) = some (.real, rest) := by
  have read : unsigned? ('0' :: rest) = some (0, false, rest) := unsigned?_reads 0 stop
  simp [number?, read]

end PeerRelay.Json
