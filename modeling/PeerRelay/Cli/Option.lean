import PeerRelay.Region
import PeerRelay.Session
import PeerRelay.Transport.Basic

/-! Command lines. An option is given as `--name value` or `--name=value`, and a switch as `--name`
    alone. Nothing may be given twice. An option that is not given takes its environment variable,
    if that is set, and else its default. Asking for help or for the version ends the reading, but
    what stands before that must be in order. -/
namespace PeerRelay.Cli

def switch? : String → Option Bool
  | "true" => some true
  | "false" => some false
  | _ => none

structure CliOption (γ : Type) where
  name : String
  fallback : Option String := none
  isSwitch : Bool := false
  set : String → γ → Option γ

namespace CliOption

variable {γ α : Type}

def valued (name : String) (fallback : Option String) (read : String → Option α)
    (store : γ → α → γ) : CliOption γ where
  name := name
  fallback := fallback
  set := fun text settings => (read text).map (store settings)

/-- A switch on the command line is set to `true`; its variable may hold either value. -/
def switch (name : String) (fallback : Option String) (store : γ → Bool → γ) : CliOption γ :=
  { valued name fallback switch? store with isSwitch := true }

end CliOption

inductive Invocation (γ : Type) where
  | help
  | version
  | refused
  | run (settings : γ)
  deriving DecidableEq, Repr

structure Progress (γ : Type) where
  settings : γ
  given : List String := []

namespace Progress

variable {γ : Type}

def assign (p : Progress γ) (o : CliOption γ) (value : String) : Option (Progress γ) :=
  if p.given.contains o.name then none
  else (o.set value p.settings).map fun settings => ⟨settings, o.name :: p.given⟩

def assignVariables (p : Progress γ) (environment : String → Option String) :
    List (CliOption γ) → Option γ
  | [] => some p.settings
  | o :: rest =>
    match o.fallback.bind environment with
    | none => p.assignVariables environment rest
    | some value =>
      if p.given.contains o.name then p.assignVariables environment rest
      else (o.set value p.settings).bind fun settings =>
        { p with settings }.assignVariables environment rest

end Progress

inductive Argument where
  /-- Two dashes alone: no option may follow. -/
  | endOfOptions
  | long (name : String) (value : Option String)
  | short (letter : Char)
  | plain (text : String)
  deriving DecidableEq, Repr

def Argument.ofChars : List Char → Argument
  | ['-', '-'] => .endOfOptions
  | '-' :: '-' :: cs =>
    let name := cs.takeWhile (· != '=')
    let rest := cs.drop name.length
    .long (String.ofList name) (if rest.isEmpty then none else some (String.ofList rest.tail))
  | '-' :: c :: _ => .short c
  | cs => .plain (String.ofList cs)

def Argument.ofText (s : String) : Argument := .ofChars s.toList

section

variable {γ : Type} (options : List (CliOption γ)) (environment : String → Option String)

def finish (p : Progress γ) : Invocation γ :=
  match p.assignVariables environment options with
  | some settings => .run settings
  | none => .refused

/-- Reads arguments one after the other. The value of an option is the argument after it, which
    must not look like an option. -/
def readArguments (p : Progress γ) : List String → Invocation γ
  | [] => finish options environment p
  | arg :: rest =>
    match Argument.ofText arg with
    | .endOfOptions => if rest.isEmpty then finish options environment p else .refused
    | .plain _ => .refused
    | .short 'h' | .long "help" none => .help
    | .short 'V' | .long "version" none => .version
    | .short _ => .refused
    | .long name value? =>
      match options.find? (·.name == name), value?, rest with
      | none, _, _ => .refused
      | some o, some value, rest =>
        if o.isSwitch then .refused
        else
          match p.assign o value with
          | some p => readArguments p rest
          | none => .refused
      | some o, none, rest =>
        if o.isSwitch then
          match p.assign o "true" with
          | some p => readArguments p rest
          | none => .refused
        else
          match rest with
          | [] => .refused
          | value :: rest =>
            match Argument.ofText value with
            | .plain value =>
              match p.assign o value with
              | some p => readArguments p rest
              | none => .refused
            | _ => .refused

def invoke (defaults : γ) (arguments : List String) : Invocation γ :=
  readArguments options environment { settings := defaults } arguments

end

/-! Values -/

def transport? (s : String) : Option TransportKind := (TransportKind.parse s).toOption

def region? (s : String) : Option Region := (Region.parse s).toOption

def policy? (s : String) : Option AuthFailurePolicy := (AuthFailurePolicy.parse s).toOption

def number? (low : Nat) (s : String) : Option Nat := do
  let n ← Text.decimal? 0xFFFFFFFFFFFFFFFF s
  if low ≤ n then some n else none

/-- A port. It may have a sign, so minus zero is one. -/
def port? (s : String) : Option UInt16 :=
  match s.toList with
  | '-' :: digits => (Text.decimalChars? 0 digits).map UInt16.ofNat
  | _ => (Text.decimal? 65535 s).map UInt16.ofNat

end PeerRelay.Cli
