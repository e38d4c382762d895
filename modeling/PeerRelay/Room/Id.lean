import PeerRelay.Dice
import PeerRelay.Text

/-! Short ids that peers can type: characters of an alphabet, drawn at random until the word is
    not taken. -/
namespace PeerRelay

inductive IdAlphabet where
  | alphanumeric
  | numeric
  deriving DecidableEq, Repr, Inhabited

structure UnknownAlphabet where
  text : String
  deriving DecidableEq, Repr

def UnknownAlphabet.message (e : UnknownAlphabet) : String :=
  "unknown id alphabet " ++ Text.quoted e.text

namespace IdAlphabet

def chars : IdAlphabet → List Char
  | .alphanumeric => "ABCDEFGHIJKLMNOPQRSTUVWXYZ0123456789".toList
  | .numeric => "0123456789".toList

def parse (s : String) : Except UnknownAlphabet IdAlphabet :=
  match Text.lowerAscii s with
  | "alphanumeric" => .ok .alphanumeric
  | "numeric" => .ok .numeric
  | _ => .error ⟨s⟩

def word (a : IdAlphabet) (length : Nat) (roll : Roll) : String :=
  String.ofList ((List.range length).map fun i => a.chars.getD (roll i % a.chars.length) 'A')

end IdAlphabet

def maxIdAttempts : Nat := 10000

def drawRoomId (length : Nat) (alphabet : IdAlphabet) (taken : String → Bool) (dice : Dice) :
    Option String × Dice :=
  dice.drawFree (alphabet.word length) taken maxIdAttempts

end PeerRelay
