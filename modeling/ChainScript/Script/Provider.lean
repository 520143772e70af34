import ChainScript.Script.Registry

/-!
# Providers

A provider is a list of types with their members, to be made known to a registry one after
another.  A type that the registry knows already is opened again and gets the members too.
-/

namespace ChainScript.Script

variable {U : Universe}

/-- A type, the name it should have, and its members. -/
structure Registration (U : Universe) where
  kind : Kind U
  name : String
  build : Builder kind → Builder kind

/-- The registry with one more type made known. -/
def Registry.provideOne (r : Registry U) (g : Registration U) :
    Except (ScriptError U) (Registry U) :=
  return (← r.ensure g.kind g.name g.build).registry

/-- Makes types known one after another, up to the first that cannot be: those before it stay
known. -/
def Registry.provide (r : Registry U) :
    List (Registration U) → Registry U × Except (ScriptError U) Unit
  | [] => (r, .ok ())
  | g :: rest =>
      match r.provideOne g with
      | .ok r => r.provide rest
      | .error e => (r, .error e)

end ChainScript.Script
