/-!
# DolphinCore.Lib.FinLiteral

The sizes of the register files and tables that literals index.
-/

namespace DolphinCore

instance neZero2 : @NeZero Nat Zero.ofOfNat0 2 := ⟨by decide⟩

instance neZero4 : @NeZero Nat Zero.ofOfNat0 4 := ⟨by decide⟩

instance neZero5 : @NeZero Nat Zero.ofOfNat0 5 := ⟨by decide⟩

instance neZero8 : @NeZero Nat Zero.ofOfNat0 8 := ⟨by decide⟩

instance neZero16 : @NeZero Nat Zero.ofOfNat0 16 := ⟨by decide⟩

instance neZero32 : @NeZero Nat Zero.ofOfNat0 32 := ⟨by decide⟩

instance neZero256 : @NeZero Nat Zero.ofOfNat0 256 := ⟨by decide⟩

instance neZero65536 : @NeZero Nat Zero.ofOfNat0 65536 := ⟨by decide⟩

end DolphinCore
