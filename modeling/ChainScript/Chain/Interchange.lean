import ChainScript.Chain.Config
import ChainScript.Chain.Format.Basic
import ChainScript.Json.Scan

/-!
# Settings in JSON

The JSON forms of a format and of the bounds.  A format is its name, or an object with the
name as its only key and a null value.  Bounds are an object of two numbers, the age in whole
seconds, in which unknown keys are passed over, a key may not come twice and a missing one
takes its default; or an array of the same numbers, of which any may be missing from the end.
-/

namespace ChainScript.Chain

open Json

/-- The name of the format in JSON. -/
def Format.jsonName : Format → String
  | .text => "text_plain"
  | .binary => "binary"
  | .dot => "dot"

/-- The format as a JSON text. -/
def Format.toJson (f : Format) : String := "\"" ++ f.jsonName ++ "\""

/-- The format with the given name in JSON. -/
def Format.ofJsonName (name : List UInt8) : Scan Format :=
  match [Format.text, .binary, .dot].find? (Text.bytes ·.jsonName == name) with
  | some f => return f
  | none => throw .mismatch

/-- Reads a format. -/
def Format.scan : Scan Format := do
  match ← Scan.peek with
  | none => throw .ended
  | some b =>
      if b == Scan.code '"' then Format.ofJsonName (← Scan.key)
      else if b == Scan.code '\x7b' then
        Scan.advance
        let f ← Format.ofJsonName (← Scan.key)
        Scan.colon
        Scan.null
        match ← Scan.peek with
        | none => throw .ended
        | some b => if b == Scan.code '\x7d' then Scan.advance; return f else throw .malformed
      else throw .malformed

/-- The format in a JSON text. -/
def Format.ofJson (text : String) : Except Fault Format := Format.scan.whole text

/-- The bounds as a JSON text; the age in whole seconds. -/
def Config.toJson (c : Config) : String :=
  "\x7b\"max_size\":" ++ toString c.maxSize ++ ",\"max_age\":" ++ toString c.maxAge.seconds ++
    "\x7d"

/-- The bounds with those of the two numbers that are given. -/
def Config.ofNumbers (maxSize maxAge : Option Nat) : Config :=
  let base : Config := {}
  { maxSize := maxSize.getD base.maxSize
    maxAge := (maxAge.map Duration.ofSeconds).getD base.maxAge }

/-- Reads the next number of an array, if there is one.  `first` says that none came before. -/
def scanElement (first : Bool) : Scan (Option Nat) := do
  match ← Scan.peek with
  | none => throw .ended
  | some b =>
      if b == Scan.code ']' then return none
      else if first then return some (← Scan.natural)
      else if b == Scan.code ',' then
        Scan.advance
        match ← Scan.peek with
        | none => throw .ended
        | some b => if b == Scan.code ']' then throw .malformed else return some (← Scan.natural)
      else throw .malformed

/-- Reads the bounds from an array, after its bracket. -/
def Config.scanArray : Scan Config := do
  let maxSize ← scanElement true
  let maxAge ← match maxSize with
    | some _ => scanElement false
    | none => pure none
  match ← Scan.peek with
  | none => throw .ended
  | some b =>
      if b == Scan.code ']' then
        Scan.advance
        return Config.ofNumbers maxSize maxAge
      else throw .malformed

/-- Reads the items of an object, at most `limit` of them, after those read so far. -/
def Config.scanItems : (limit : Nat) → (first : Bool) → (maxSize maxAge : Option Nat) →
    Scan Config
  | 0, _, _, _ => throw .ended
  | limit + 1, first, maxSize, maxAge => do
      match ← Scan.peek with
      | none => throw .ended
      | some b =>
          if b == Scan.code '\x7d' then
            Scan.advance
            return Config.ofNumbers maxSize maxAge
          unless first do
            unless b == Scan.code ',' do throw .malformed
            Scan.advance
          let key ← Scan.key
          if key == Text.bytes "max_size" then
            if maxSize.isSome then throw .mismatch
            Scan.colon
            Config.scanItems limit false (some (← Scan.natural)) maxAge
          else if key == Text.bytes "max_age" then
            if maxAge.isSome then throw .mismatch
            Scan.colon
            Config.scanItems limit false maxSize (some (← Scan.natural))
          else
            Scan.colon
            Scan.skip
            Config.scanItems limit false maxSize maxAge

/-- Reads the bounds. -/
def Config.scan : Scan Config := do
  match ← Scan.peek with
  | none => throw .ended
  | some b =>
      if b == Scan.code '[' then
        Scan.advance
        Config.scanArray
      else if b == Scan.code '\x7b' then
        Scan.advance
        Config.scanItems ((← get).length + 1) true none none
      else Scan.mismatch b

/-- The bounds in a JSON text. -/
def Config.ofJson (text : String) : Except Fault Config := Config.scan.whole text

end ChainScript.Chain
