/-!
# Powers and sums of whole numbers

Powers of whole numbers and the zero from which sums start are those of the core library in every module. A larger
library has its own for any monoid; where it is imported, the same text would mean another term.
-/

namespace CodeAudit

universe u

@[default_instance 20000]
instance (priority := 2000) corePower {α : Type u} [NatPow α] : Pow α Nat := instPowNat

instance (priority := 2000) coreZero : Zero Nat := Zero.ofOfNat0

end CodeAudit
