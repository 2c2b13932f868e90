import BridgeAudit.CommandLine.Options

/-!
Reading the command line.

* `Word`: what a single argument is: a flag with or without a value, the mark behind which there
  are no flags, or a plain word.
* `Invocation`: what is asked for: help, the version, or an audit.
* `Invocation.read`: reads arguments from the left; the first that is wrong, or that asks for help
  or the version, decides.
* `Taken.complete`: the parameters that no argument has set are taken from the environment.

Every flag may be given once. The value of a parameter stands behind an equals sign or in the next
argument, which must not start with a dash then, unless it is a single one.
-/

namespace BridgeAudit

/-! ### Single arguments -/

/-- What an argument is. -/
inductive Word
  /-- The mark behind which there are no flags. -/
  | mark
  /-- A flag with a name, and the value behind its equals sign. -/
  | long (name : String) (value : Option String)
  /-- One letter or several behind a dash. -/
  | short (letters : List Char)
  | plain (text : String)
  deriving DecidableEq, Repr

/-- What an argument is. -/
def Word.ofChars : List Char → Word
  | ['-', '-'] => .mark
  | '-' :: '-' :: cs =>
      let name := String.ofList (cs.takeWhile (· ≠ '='))
      match cs.dropWhile (· ≠ '=') with
      | [] => .long name none
      | _ :: value => .long name (some (String.ofList value))
  | ['-'] => .plain "-"
  | '-' :: cs => .short cs
  | cs => .plain (String.ofList cs)

/-! ### Errors -/

/-- What is wrong with a command line. -/
inductive ArgumentError
  | unexpected (argument : String)
  | repeated (flag : String)
  | withoutValue (flag : String)
  | withValue (flag : String)
  | unreadable (name value : String)
  deriving DecidableEq, Repr

/-- What is said of a wrong command line. -/
def ArgumentError.message : ArgumentError → String
  | unexpected argument => "unexpected argument '" ++ argument ++ "' found"
  | repeated flag => "the argument '--" ++ flag ++ "' cannot be used multiple times"
  | withoutValue flag => "a value is required for '--" ++ flag ++ "' but none was supplied"
  | withValue flag => "no value is allowed for '--" ++ flag ++ "'"
  | unreadable name value => "invalid value '" ++ value ++ "' for '" ++ name ++ "'"

/-! ### Taking arguments -/

/-- The options so far, and the parameters that have been set. -/
structure Taken where
  options : Options := {}
  parameters : List Parameter := []
  deriving Repr, Inhabited

namespace Taken

/-- Sets a parameter, which must not have been set before. -/
def set (t : Taken) (p : Parameter) (value : String) : Except ArgumentError Taken :=
  if t.parameters.contains p then .error (.repeated p.flag)
  else match p.apply value t.options with
    | some o => .ok ⟨o, p :: t.parameters⟩
    | none => .error (.unreadable ("--" ++ p.flag) value)

/-- Turns a switch on, which must be off. -/
def turnOn (t : Taken) (s : Switch) : Except ArgumentError Taken :=
  if s.isOn t.options then .error (.repeated s.flag)
  else .ok { t with options := s.apply t.options }

/-- Takes parameters from the environment, those apart that have been set. -/
def complete (environment : String → Option String) (t : Taken) :
    List Parameter → Except ArgumentError Options
  | [] => .ok t.options
  | p :: ps =>
      if t.parameters.contains p then t.complete environment ps
      else match p.environmentName.bind fun name => (environment name).map fun v => (name, v) with
        | none => t.complete environment ps
        | some (name, value) =>
            match p.apply value t.options with
            | some o => complete environment { t with options := o } ps
            | none => .error (.unreadable name value)

end Taken

/-! ### The command line -/

/-- What is asked for. -/
inductive Invocation
  | help
  | version
  | audit (taken : Taken)
  deriving Repr

namespace Invocation

/-- A flag without a value of its own that is not one of a parameter. -/
def readSwitch (t : Taken) (name : String) : Except ArgumentError Taken :=
  match Switch.ofFlag? name with
  | some s => t.turnOn s
  | none => .error (.unexpected ("--" ++ name))

/-- A flag that brings along a value that it cannot have. -/
def refuseValue (name : String) : ArgumentError :=
  if (Switch.ofFlag? name).isSome || name = "help" || name = "version" then .withValue name
  else .unexpected ("--" ++ name)

/-- Letters behind a dash; the first of them decides. -/
def readShort (letters : List Char) : Except ArgumentError Invocation :=
  match letters with
  | 'h' :: _ => .ok .help
  | 'V' :: _ => .ok .version
  | _ => .error (.unexpected ("-" ++ String.ofList letters))

/-- Reads arguments from the left. -/
def readFrom (t : Taken) : List String → Except ArgumentError Invocation
  | [] => .ok (.audit t)
  | argument :: rest =>
      match Word.ofChars argument.toList with
      | .plain text => .error (.unexpected text)
      | .short letters => readShort letters
      | .mark =>
          match rest with
          | [] => .ok (.audit t)
          | extra :: _ => .error (.unexpected extra)
      | .long name (some value) =>
          match Parameter.ofFlag? name with
          | some p => do readFrom (← t.set p value) rest
          | none => .error (refuseValue name)
      | .long name none =>
          if name = "help" then .ok .help
          else if name = "version" then .ok .version
          else match Parameter.ofFlag? name, rest with
            | some p, [] => .error (.withoutValue p.flag)
            | some p, next :: rest =>
                match Word.ofChars next.toList with
                | .plain value => do readFrom (← t.set p value) rest
                | _ => .error (.withoutValue p.flag)
            | none, rest => do readFrom (← readSwitch t name) rest

/-- Reads a command line. -/
def read (arguments : List String) : Except ArgumentError Invocation := readFrom {} arguments

end Invocation

end BridgeAudit
