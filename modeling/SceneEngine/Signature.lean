/-
Which kinds of components an entity has, or a system asks for: one bit per kind.
-/
import SceneEngine.Config

namespace SceneEngine

structure Signature where
  bits : BitVec signatureBits
deriving DecidableEq

namespace Signature

def empty : Signature := ⟨0⟩

def ofNat (n : Nat) : Signature := ⟨BitVec.ofNat _ n⟩

def toNat (s : Signature) : Nat := s.bits.toNat

/-- The signature with only bit `i`. A place beyond the width counts modulo it. -/
def single (i : Nat) : Signature := ⟨BitVec.twoPow _ (i % signatureBits)⟩

/-- Bits set in either. -/
def union (s t : Signature) : Signature := ⟨s.bits ||| t.bits⟩

/-- With bit `i` set. -/
def insert (s : Signature) (i : Nat) : Signature := s.union (single i)

/-- With bit `i` cleared. -/
def erase (s : Signature) (i : Nat) : Signature := ⟨s.bits &&& ~~~(single i).bits⟩

/-- Whether bit `i` is set. -/
def has (s : Signature) (i : Nat) : Bool := (s.bits &&& (single i).bits) != 0

/-- Whether every bit of `required` is set. -/
def contains (s required : Signature) : Bool := (s.bits &&& required.bits) == required.bits

def isEmpty (s : Signature) : Bool := s.bits == 0

end Signature

end SceneEngine
