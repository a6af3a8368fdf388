import Mathlib.Logic.Function.Basic
import Mathlib.Algebra.Group.Int

namespace Bustub

/-!
`page_id_t` is `int32_t`: a page id is an `Int` kept in its range by `toInt32`.
-/

def invalidPageId : Int := -1

/-- The value an `int32_t` takes when an integer is stored into it (two's complement). -/
def toInt32 (x : Int) : Int := x.bmod (2 ^ 32)

@[simp] theorem toInt32_add_toInt32 (x y : Int) : toInt32 (toInt32 x + y) = toInt32 (x + y) :=
  Int.bmod_add_bmod_congr

end Bustub
