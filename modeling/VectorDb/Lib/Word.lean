import Mathlib

/-!
A byte and a 64-bit word as bounded naturals: the instances that their numerals
and the maps keyed by them rest on, each found once.
-/
set_option autoImplicit false

namespace VectorDb.Lib

instance neZero_byte : NeZero (256 : Nat) := ⟨by decide⟩

instance neZero_word : NeZero (18446744073709551616 : Nat) := ⟨by decide⟩

instance transOrd_bytes : Std.TransOrd (List (Fin 256)) := inferInstance

instance transOrd_word : Std.TransOrd (Fin 18446744073709551616) := inferInstance

end VectorDb.Lib
