/-!
# Powers

In this library `b ^ n` is the repeated product of core arithmetic, for naturals
and for integers, whatever other powers are in scope where a definition is read.
-/

namespace Chronicle

attribute [scoped instance (high)] instPowNat

attribute [default_instance 11000] instPowNat

end Chronicle
