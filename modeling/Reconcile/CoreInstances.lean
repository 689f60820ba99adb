/-!
# Core instances

Powers of integers are those of core in every module, whatever other instances a module imports.
-/

namespace Reconcile

@[default_instance 20000]
instance (priority := 20000) natPow : Pow Nat Nat := instPowNat

@[default_instance 20000]
instance (priority := 20000) intPow : Pow Int Nat := instPowNat

end Reconcile
