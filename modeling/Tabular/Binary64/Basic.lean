/-!
Binary floating-point numbers of 64 bits, kept as their bits so that zeros of both signs and every
NaN stay apart. Two orders live on them: the total order of all bit patterns, and the numeric order,
which identifies the zeros and leaves NaN out.
-/
namespace Tabular

structure Binary64 where
  bits : UInt64
  deriving DecidableEq

namespace Binary64

def magnitude (x : Binary64) : Nat := x.bits.toNat % 0x8000000000000000

def isNegative (x : Binary64) : Bool := decide (0x8000000000000000 ≤ x.bits.toNat)

def ofMagnitude (negative : Bool) (m : Nat) : Binary64 :=
  ⟨UInt64.ofNat (if negative then 0x8000000000000000 + m else m)⟩

def infinityMagnitude : Nat := 0x7FF0000000000000

def zero : Binary64 := ⟨0⟩
def one : Binary64 := ⟨0x3FF0000000000000⟩
def infinity (negative : Bool) : Binary64 := ofMagnitude negative infinityMagnitude
def nan (negative : Bool) : Binary64 := ofMagnitude negative 0x7FF8000000000000

def isNaN (x : Binary64) : Bool := decide (infinityMagnitude < x.magnitude)
def isInfinite (x : Binary64) : Bool := decide (x.magnitude = infinityMagnitude)
def isFinite (x : Binary64) : Bool := decide (x.magnitude < infinityMagnitude)
def isZero (x : Binary64) : Bool := decide (x.magnitude = 0)

def neg (x : Binary64) : Binary64 := ofMagnitude (!x.isNegative) x.magnitude

/-- A finite number is `± significand · 2 ^ exponent`. -/
def significand (x : Binary64) : Nat :=
  if x.magnitude < 0x10000000000000 then x.magnitude
  else 0x10000000000000 + x.magnitude % 0x10000000000000

def exponent (x : Binary64) : Int := (max (x.magnitude / 0x10000000000000) 1 : Nat) - 1075

theorem magnitude_lt (x : Binary64) : x.magnitude < 0x8000000000000000 := Nat.mod_lt _ (by decide)

@[simp] theorem magnitude_ofMagnitude {m : Nat} (negative : Bool) (h : m < 0x8000000000000000) :
    (ofMagnitude negative m).magnitude = m := by
  cases negative <;> simp [ofMagnitude, magnitude, UInt64.toNat_ofNat'] <;> omega

@[simp] theorem isNegative_ofMagnitude {m : Nat} (negative : Bool) (h : m < 0x8000000000000000) :
    (ofMagnitude negative m).isNegative = negative := by
  cases negative <;> simp [ofMagnitude, isNegative, UInt64.toNat_ofNat'] <;> omega

theorem ofMagnitude_eta (x : Binary64) : ofMagnitude x.isNegative x.magnitude = x := by
  rcases x with ⟨b⟩
  have bound := b.toNat_lt
  apply congrArg mk
  apply UInt64.toNat_inj.1
  simp only [isNegative, magnitude, UInt64.toNat_ofNat', decide_eq_true_eq]
  split <;> omega

theorem eq_of_parts {x y : Binary64} (sign : x.isNegative = y.isNegative)
    (size : x.magnitude = y.magnitude) : x = y := by
  rw [← ofMagnitude_eta x, ← ofMagnitude_eta y, sign, size]

/-- Place in the total order: negative patterns descend from -1, the others ascend from 0. -/
def rank (x : Binary64) : Int :=
  if x.isNegative then -(x.magnitude : Int) - 1 else x.magnitude

theorem rank_inj {x y : Binary64} : x.rank = y.rank ↔ x = y := by
  refine ⟨fun h => ?_, fun h => h ▸ rfl⟩
  unfold rank at h
  apply eq_of_parts
  · cases hx : x.isNegative <;> cases hy : y.isNegative <;> simp_all <;> omega
  · cases hx : x.isNegative <;> cases hy : y.isNegative <;> simp_all <;> omega

/-- The order of all patterns: negative NaN, numbers with -0 before 0, positive NaN. -/
def totalOrder (x y : Binary64) : Ordering := compare x.rank y.rank

/-- Place on the number line, where both zeros are at 0. -/
def position (x : Binary64) : Int :=
  if x.isNegative then -(x.magnitude : Int) else x.magnitude

/-- Numeric equality: NaN equals nothing, and the zeros are equal. -/
def sameNumber (x y : Binary64) : Bool :=
  !x.isNaN && !y.isNaN && decide (x.position = y.position)

def compare? (x y : Binary64) : Option Ordering :=
  if x.isNaN || y.isNaN then none else some (compare x.position y.position)

theorem sameNumber_comm (x y : Binary64) : x.sameNumber y = y.sameNumber x := by
  simp only [sameNumber, Bool.and_comm x.isNaN.not, eq_comm (a := x.position)]

end Binary64
end Tabular
