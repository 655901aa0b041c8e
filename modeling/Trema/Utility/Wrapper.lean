import Trema.Library.Bytes

namespace Trema.Utility

open Library

def ptrdiffMax : Nat := 9223372036854775807

def sizeMax : Nat := 18446744073709551615

-- malloc gives no object of more than PTRDIFF_MAX bytes; what it gives is filled with 0xa5.
def xmalloc {ε : Type} (size : Nat) : Run ε Bytes :=
  if ptrdiffMax < size then .error .aborted else .ok (List.replicate size 0xa5)

variable {ε : Type} {size : Nat}

theorem xmalloc_ok (h : size ≤ ptrdiffMax) :
    (xmalloc size : Run ε Bytes) = .ok (List.replicate size 0xa5) := if_neg (Nat.not_lt.mpr h)

theorem xmalloc_aborted (h : ptrdiffMax < size) :
    (xmalloc size : Run ε Bytes) = .error .aborted := if_pos h

end Trema.Utility
