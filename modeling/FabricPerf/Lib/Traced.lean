import Mathlib.Logic.Basic

/-
  Machine words that remember what they were computed from.

  A traced word is a bit vector together with the list of
  sources (of any type) whose readings went into it.  The
  sources never influence the value, so a program over
  traced words computes exactly what it computes over plain
  words.
-/

------------------------------------------------------------
-- Traced Words
------------------------------------------------------------

/- A word and the sources its value was computed from. -/
structure Traced (ρ : Type) (w : Nat) where
  val : BitVec w
  sources : List ρ
deriving DecidableEq, Repr

namespace Traced

variable {ρ : Type} {w : Nat}

/- A constant, computed from nothing. -/
def const (v : BitVec w) : Traced ρ w where
  val := v
  sources := []

/- A value read from one source. -/
def read (r : ρ) (v : BitVec w) : Traced ρ w where
  val := v
  sources := [r]

/- A unary operation keeps the sources of its operand. -/
def map
    (f : BitVec w → BitVec w)
    (a : Traced ρ w) : Traced ρ w where
  val := f a.val
  sources := a.sources

/- A binary operation collects the sources of both operands. -/
def map₂
    (f : BitVec w → BitVec w → BitVec w)
    (a b : Traced ρ w) : Traced ρ w where
  val := f a.val b.val
  sources := a.sources ++ b.sources

/- The same word with its sources seen through a function. -/
def relabel
    {ρ' : Type}
    (f : ρ → ρ')
    (a : Traced ρ w) : Traced ρ' w where
  val := a.val
  sources := a.sources.map f

@[simp] theorem const_val (v : BitVec w) :
    (const v : Traced ρ w).val = v := rfl

@[simp] theorem const_sources (v : BitVec w) :
    (const v : Traced ρ w).sources = [] := rfl

@[simp] theorem read_val (r : ρ) (v : BitVec w) :
    (read r v).val = v := rfl

@[simp] theorem read_sources (r : ρ) (v : BitVec w) :
    (read r v).sources = [r] := rfl

@[simp] theorem map_val
    (f : BitVec w → BitVec w) (a : Traced ρ w) :
    (map f a).val = f a.val := rfl

@[simp] theorem map_sources
    (f : BitVec w → BitVec w) (a : Traced ρ w) :
    (map f a).sources = a.sources := rfl

@[simp] theorem map₂_val
    (f : BitVec w → BitVec w → BitVec w)
    (a b : Traced ρ w) :
    (map₂ f a b).val = f a.val b.val := rfl

@[simp] theorem map₂_sources
    (f : BitVec w → BitVec w → BitVec w)
    (a b : Traced ρ w) :
    (map₂ f a b).sources = a.sources ++ b.sources := rfl

end Traced
