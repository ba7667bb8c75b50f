/-
Powers of whole numbers, pinned to the operation of the language itself: a power reads the same in the modules that
build on a library of mathematics and in those that do without.
-/
namespace SdoClient.Power

scoped instance (priority := high) ofNat : Pow Nat Nat := instPowNat

scoped instance (priority := high) ofInt : Pow Int Nat := instPowNat

end SdoClient.Power
