import Syllogism.Proofs.Facts.Stored
import Syllogism.Proofs.Json.Exact

/-! What is printed stands for the value, whatever a reader has room for: strings, integers, arrays
of strings, and objects of values that do. -/

namespace Syllogism.Json

variable {layers level : Nat}

end Syllogism.Json
