import Mathlib.Data.Int.Notation
import Mathlib.Data.List.Basic
import Mathlib.Logic.Function.Basic
/-!
# Arrays with pointers

Named arrays and any number of pointers into them. A pointer reads on
from where it stands, writes over and past the end of its array, and is
moved within it. What may be done through a pointer is part of it. A
limit bounds the positions that can be told; behind it an array cannot be
read.
-/

namespace Machbus

/-- A pointer into an array, and what may be done through it. -/
structure Pointer (N : Type*) where
  name : N
  position : ℕ
  mayRead : Bool
  mayWrite : Bool

/-- Where an offset is counted from. -/
inductive Origin
  | start
  | current
  | finish

inductive Access (α : Type*)
  | read (count : ℕ)
  | write (items : List α)
  | seek (origin : Origin) (offset : ℤ)

/-- What an access gives back. -/
inductive Accessed (α : Type*)
  | items (items : List α)
  | written (count : ℕ)
  | position (position : ℕ)

@[ext]
structure PointedArrays (N H α : Type*) where
  array : N → List α
  /-- The arrays that must not be written. -/
  locked : N → Bool
  pointer : H → Option (Pointer N)

/-- The items with others written over them from a position on. -/
def overwrite {α : Type*} (l : List α) (position : ℕ) (items : List α) : List α :=
  l.take position ++ items ++ l.drop (position + items.length)

namespace PointedArrays

variable {N H α : Type*} [DecidableEq N] [DecidableEq H] (m : PointedArrays N H α)

/-- How far pointers go. -/
def extent (limit : ℕ) (name : N) : ℕ := min (m.array name).length limit

/-- The pointer of a handle is set to a position. -/
def move (h : H) (q : Pointer N) (position : ℕ) : PointedArrays N H α :=
  { m with pointer := Function.update m.pointer h (some { q with position }) }

/-- An array is replaced. -/
def put (name : N) (items : List α) : PointedArrays N H α :=
  { m with array := Function.update m.array name items }

/-- The position an offset leads to. -/
def target (limit : ℕ) (q : Pointer N) (origin : Origin) (offset : ℤ) : ℤ :=
  (match origin with
    | .start => 0
    | .current => q.position
    | .finish => m.extent limit q.name) + offset

/-- **One access through a handle.** Nothing happens where it is not
possible. -/
def access (limit : ℕ) (h : H) (a : Access α) : Option (PointedArrays N H α × Accessed α) :=
  (m.pointer h).bind fun q =>
    match a with
    | .read count =>
      let stop := min (q.position + count) (m.extent limit q.name)
      if q.mayRead ∧ q.position < m.extent limit q.name then
        some (m.move h q stop, .items (((m.array q.name).take stop).drop q.position))
      else none
    | .write items =>
      if q.mayWrite ∧ ¬m.locked q.name ∧ q.position + items.length ≤ limit then
        some ((m.put q.name (overwrite (m.array q.name) q.position items)).move h q
            (q.position + items.length), .written items.length)
      else none
    | .seek origin offset =>
      let target := m.target limit q origin offset
      if 0 ≤ target ∧ target ≤ m.extent limit q.name then
        some (m.move h q target.toNat, .position target.toNat)
      else none

end PointedArrays

end Machbus
