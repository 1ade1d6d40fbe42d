import Emu80535.Json.Output
import Emu80535.Proofs.JsonStrict
import Mathlib

/-! Strings that are written as JSON read back as they were. -/

namespace Emu80535

open JsonGrammar Recogniser
open Utf8 (encode WellFormed)

/-! ### Escapes -/

end Emu80535
