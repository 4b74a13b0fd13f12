import ElephantShrew.Config.EffectiveConfig

/-!
# The start of the program

`main` of `ElephantShrewMain.cpp` up to its loop: the command line is read, the
options are loaded, and the program lists the interfaces, or serves, or leaves.
What it prints is left out.
-/

namespace ElephantShrew.Config

variable {J : Type}

/-- How `main` goes on: it returns, or it serves. -/
inductive Start where
  | exits (code : Int)
  | serves (config : RuntimeConfig)
  deriving DecidableEq, Repr

/-- `ListInterfaces`, on the names of the devices there are. -/
def listInterfaces (devices : List String) : Int := if devices = [] then 1 else 0

/-- `main` before its loop.  Looking for the devices may throw. -/
def start (lib : JsonLibrary J) (files : Files J) (devices : Except String (List String))
    (argv : List String) : Start :=
  match parseArguments argv with
  | .error _ => .exits 1
  | .ok options =>
      match loadEffectiveConfig lib files options with
      | .error _ => .exits 1
      | .ok config =>
          if options.scanOnly then
            match devices with
            | .ok devices => .exits (listInterfaces devices)
            | .error _ => .exits 1
          else .serves config

end ElephantShrew.Config
