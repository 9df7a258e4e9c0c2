/-
BlockHooks/Json/Basic.lean

The JSON forms of decimals and addresses: both are strings.
-/
import BlockHooks.Json.Reader
import BlockHooks.Json.Writer

namespace BlockHooks

namespace Json

instance : Readable Dec where
  read cs := do
    let (s, cs) ← readString cs
    match Dec.parse s with
    | .ok d => return (d, cs)
    | .error e => .error (.shape e.message)

instance : Readable Address where
  read cs := do
    let (s, cs) ← readString cs
    return (⟨s⟩, cs)

end Json

end BlockHooks
