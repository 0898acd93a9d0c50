import Tremolo.Native.Modules

/-! # Modules of a host

The bundled registry, and ready-made functions from which a host can put together modules of its
own: constants, failures, views of the arguments, and sounds.  A sound is an object named by its
title; it lasts half a second for each byte of the title. -/

namespace Tremolo

def Registry.bundled : Registry :=
  (Registry.empty.register Native.math).register Native.text

namespace Native

def constant (name : String) (arity : Option Nat) (value : Value) : NativeFunction :=
  .plain name arity fun _ => .ok value

def failing (name : String) (arity : Option Nat) (reason : String) : NativeFunction :=
  .plain name arity fun _ => .error (.nativeFailure name reason)

def argument (name : String) (arity : Option Nat) (index : Nat) : NativeFunction :=
  .plain name arity fun args =>
    match args[index]? with
    | some v => .ok v
    | none => .error (.nativeFailure name "no such argument")

def numberArgument (name : String) (arity : Option Nat) (index : Nat) : NativeFunction :=
  .plain name arity fun args => do return .float (← numberArg name args index)

def stringArgument (name : String) (arity : Option Nat) (index : Nat) : NativeFunction :=
  .plain name arity fun args => do return .string (← stringArg name args index)

def kindNames (name : String) (arity : Option Nat) : NativeFunction :=
  .plain name arity fun args => .ok (.string (",".intercalate (args.map Value.kindName)))

/-! ## Sounds -/

/-- Makes a new sound with the title given as argument. -/
def loadSound (name : String) (arity : Option Nat) : NativeFunction :=
  ⟨name, "", arity, fun serial args => do
    return .native (.made serial (← stringArg name args 0))⟩

def soundSeconds (h : Handle) : Float :=
  Float.ofNat h.name.utf8ByteSize / 2.0

def aboutSound (name : String) (arity : Option Nat) (view : Handle → Value) : NativeFunction :=
  .plain name arity fun args =>
    match args with
    | .native h :: _ => .ok (view h)
    | _ => .error (.nativeFailure name "expected a sound")

def soundDuration (name : String) (arity : Option Nat) : NativeFunction :=
  aboutSound name arity fun h => .float (soundSeconds h)

def soundTitle (name : String) (arity : Option Nat) : NativeFunction :=
  aboutSound name arity fun h => .string h.name

end Native

end Tremolo
