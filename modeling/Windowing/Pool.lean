/-!
# Pools

A pool holds objects that are out of use until they are needed again. It never builds
one: an empty pool answers with nothing, and the caller builds an object itself.

## Main definitions

* `Pool` — the objects waiting for reuse.
* `Pool.obtain`, `Pool.release` — the last object released is the first one handed out.
-/

namespace Windowing

/-- Objects waiting for reuse, the last one released first. -/
structure Pool (α : Type) where
  /-- The waiting objects. -/
  free : List α

namespace Pool

variable {α : Type}

/-- The pool without objects. -/
def empty : Pool α :=
  ⟨[]⟩

instance : Inhabited (Pool α) := ⟨empty⟩

/-- Takes the object released last, if there is one. -/
def obtain? (pool : Pool α) : Option α × Pool α :=
  (pool.free.head?, ⟨pool.free.tail⟩)

/-- Puts an object into the pool. -/
def release (object : α) (pool : Pool α) : Pool α :=
  ⟨object :: pool.free⟩

/-- The number of waiting objects. -/
def size (pool : Pool α) : Nat :=
  pool.free.length

/-- Whether no object is waiting. -/
def isEmpty (pool : Pool α) : Bool :=
  pool.free.isEmpty

/-- Drops every object; answers how many there were. -/
def destroyAll (pool : Pool α) : Nat × Pool α :=
  (pool.size, empty)

/-! ### What the operations do to the list of waiting objects -/

@[simp]
theorem free_empty : (empty : Pool α).free = [] := rfl

@[simp]
theorem free_release (object : α) (pool : Pool α) :
    (pool.release object).free = object :: pool.free := rfl

/-- An object put into the pool is the next one handed out, and the pool is as before. -/
theorem obtain?_release (object : α) (pool : Pool α) :
    (pool.release object).obtain? = (some object, pool) := rfl

/-- A pool hands out nothing exactly when no object is waiting. -/
theorem obtain?_fst_eq_none_iff (pool : Pool α) :
    pool.obtain?.1 = none ↔ pool.isEmpty := by
  cases h : pool.free <;> simp [obtain?, isEmpty, h]

end Pool

end Windowing
