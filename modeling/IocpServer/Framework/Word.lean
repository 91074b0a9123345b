import Mathlib.Algebra.Group.Int.Defs
import Mathlib.Algebra.GroupWithZero.Nat
import Mathlib.Data.Int.Basic

namespace IocpServer.Word

/-- The value of an integer once it is stored in a signed word of `w` bits. -/
def signed (w : Nat) (x : Int) : Int := x.bmod (2^w)

/-- The value of an integer once it is stored in an unsigned word of `w` bits. -/
def unsigned (w : Nat) (x : Int) : Int := x%(2^w : Nat)

def int32 (x : Int) : Int := signed 32 x

def uint8 (x : Int) : Int := unsigned 8 x

def uint16 (x : Int) : Int := unsigned 16 x

def uint32 (x : Int) : Int := unsigned 32 x

def uint64 (x : Int) : Int := unsigned 64 x

theorem unsigned_of_fits {w : Nat} {x : Int} (h0 : 0 ≤ x) (h : x<(2^w : Nat)) : unsigned w x=x :=
  Int.emod_eq_of_lt h0 h

theorem int32_of_fits {x : Int} (hlo : -2^31 ≤ x) (hhi : x<2^31) : int32 x=x :=
  Int.bmod_eq_of_le_mul_two (by omega) (by omega)

theorem uint8_of_fits {x : Int} (h0 : 0 ≤ x) (h : x<2^8) : uint8 x=x := unsigned_of_fits h0 h

theorem uint16_of_fits {x : Int} (h0 : 0 ≤ x) (h : x<2^16) : uint16 x=x := unsigned_of_fits h0 h

theorem uint32_of_fits {x : Int} (h0 : 0 ≤ x) (h : x<2^32) : uint32 x=x := unsigned_of_fits h0 h

theorem uint64_of_fits {x : Int} (h0 : 0 ≤ x) (h : x<2^64) : uint64 x=x := unsigned_of_fits h0 h

end IocpServer.Word
