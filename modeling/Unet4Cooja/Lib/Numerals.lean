import Mathlib.Algebra.NeZero

/-!
# Numerals of small finite types

Instances under a name, so that a numeral of a small `Fin n` is the same term in every module.
-/

namespace Lib

instance (priority := 2000) neZero_one : @NeZero Nat Zero.ofOfNat0 1 := ⟨by decide⟩

instance (priority := 2000) neZero_two : @NeZero Nat Zero.ofOfNat0 2 := ⟨by decide⟩

instance (priority := 2000) neZero_three : @NeZero Nat Zero.ofOfNat0 3 := ⟨by decide⟩

instance (priority := 2000) neZero_four : @NeZero Nat Zero.ofOfNat0 4 := ⟨by decide⟩

instance (priority := 2000) neZero_eight : @NeZero Nat Zero.ofOfNat0 8 := ⟨by decide⟩

end Lib
