import Mathlib

/-!
# MachineController.Go.Basic — the parts of Go's semantics the provider depends on

* `GoInt`: `int` on a 64-bit platform, its range carried as fields; conversions wrap.
* `Outcome`: a call returns, or panics on a nil pointer dereference.
* `ok_bind`, `bind_eq_ok`: a `(T, error)` result as `Except String T`.
* `byte` and `ascii`: the conversions `byte(n)` and `[]byte(s)`.
* `boundedFix`: a loop whose every turn shrinks a measure, run on fuel so that it evaluates;
  `boundedFix_eq` unfolds it once.
* `rangeAddr`: the loop `var d *T; for _, x := range xs { if p(x) { d = &x } }` over a heap of
  cells, for both ways Go binds the range variable (`LoopVar`).  Before Go 1.22 one variable
  serves the whole loop and every iteration assigns the next element to it; from Go 1.22 each
  iteration has its own.  The repository builds with Go 1.15 (the image of `.prow.yaml`), so
  its loops run with `perLoop`.  `deref_perLoop` and `deref_perIteration` say what `*d` holds
  after the loop: the last element of `xs`, or the last element satisfying `p`.
-/

namespace MachineController.Go

/-- Go's `int` on a 64-bit platform. -/
@[ext]
structure GoInt where
  val : Int
  ge : -2 ^ 63 ≤ val
  lt : val < 2 ^ 63
deriving DecidableEq, Repr

namespace GoInt

/-- The conversion `int64(x)`: two's complement wrap-around modulo `2^64`. -/
def ofInt (n : Int) : GoInt :=
  ⟨(n + 2 ^ 63) % 2 ^ 64 - 2 ^ 63, by omega, by omega⟩

/-- Unary minus on `int64`; it wraps, so `-MinInt64 = MinInt64`. -/
def neg (i : GoInt) : GoInt := ofInt (-i.val)

instance : OfNat GoInt n := ⟨ofInt n⟩

@[simp] theorem ofInt_val (n : Int) : (ofInt n).val = (n + 2 ^ 63) % 2 ^ 64 - 2 ^ 63 := rfl

@[simp] theorem neg_val (i : GoInt) : i.neg.val = (-i.val + 2 ^ 63) % 2 ^ 64 - 2 ^ 63 := rfl

end GoInt

/-- Results compare by constructor and payload, so runs of the model can be decided. -/
instance decEqExcept {ε α : Type} [DecidableEq ε] [DecidableEq α] : DecidableEq (Except ε α)
  | .error a, .error b => decidable_of_iff (a = b) (by simp)
  | .ok a, .ok b => decidable_of_iff (a = b) (by simp)
  | .error _, .ok _ => isFalse (by simp)
  | .ok _, .error _ => isFalse (by simp)

instance decEqId {α : Type} [DecidableEq α] : DecidableEq (Id α) := inferInstanceAs (DecidableEq α)

/-- A Go call returns, or panics: the only panic the provider can hit is a nil dereference. -/
inductive Outcome (α : Type)
  | ret (a : α)
  | nilDeref
deriving DecidableEq, Repr

instance : Monad Outcome where
  pure := .ret
  bind x f := match x with
    | .ret a => f a
    | .nilDeref => .nilDeref

@[simp] theorem Outcome.ret_bind {α β : Type} (a : α) (f : α → Outcome β) :
    (Outcome.ret a >>= f) = f a := rfl

@[simp] theorem Outcome.nilDeref_bind {α β : Type} (f : α → Outcome β) :
    (Outcome.nilDeref >>= f) = .nilDeref := rfl

/-! ## Results with an error -/

/-- A Go function's `(T, error)` is an `Except String T`; `>>=` is `if err != nil { return }`. -/
@[simp] theorem ok_bind {ε α β : Type} (a : α) (f : α → Except ε β) :
    (Except.ok a >>= f) = f a := rfl

@[simp] theorem error_bind {ε α β : Type} (e : ε) (f : α → Except ε β) :
    (Except.error e >>= f) = .error e := rfl

theorem bind_eq_ok {ε α β : Type} {x : Except ε α} {f : α → Except ε β} {b : β} :
    x >>= f = .ok b ↔ ∃ a, x = .ok a ∧ f a = .ok b := by
  cases x <;> simp [Except.ok.injEq]

/-! ## Bytes -/

/-- The conversion `byte(n)`: the low eight bits. -/
def byte (n : Nat) : UInt8 := UInt8.ofNat n

@[simp] theorem byte_toNat (n : Nat) : (byte n).toNat = n % 256 := rfl

@[simp] theorem byte_toNat_self (b : UInt8) : byte b.toNat = b :=
  UInt8.ext (Nat.mod_eq_of_lt b.toNat_lt)

/-- `[]byte(s)` for an ASCII string `s`. -/
def ascii (s : String) : List UInt8 := s.toList.map fun c => byte c.toNat

/-! ## Loops that shrink a measure -/

/-- A loop, or a recursion, whose every turn shrinks `measure`: `body rec x` is one turn at `x`,
calling `rec` for the next.  It runs with one more turn of fuel than the measure of its input,
which is never used up (`boundedFix_eq`), so that it is structural and evaluates in the
kernel. -/
def boundedFix {α β : Type} (measure : α → Nat) (body : (α → β) → α → β) (dflt : β) (x : α) : β :=
  go (measure x + 1) x
where
  /-- The loop with `fuel` turns left. -/
  go : Nat → α → β
    | 0, _ => dflt
    | fuel + 1, x => body (go fuel) x

section BoundedFix

variable {α β : Type} {measure : α → Nat} {body : (α → β) → α → β} {dflt : β}

/-- The body only calls the loop on inputs of smaller measure. -/
def Shrinks (measure : α → Nat) (body : (α → β) → α → β) : Prop :=
  ∀ (g g' : α → β) x, (∀ y, measure y < measure x → g y = g' y) → body g x = body g' x

theorem boundedFix_go_agree (hb : Shrinks measure body) :
    ∀ (n m : Nat) (x : α), measure x < n → measure x < m →
      boundedFix.go body dflt n x = boundedFix.go body dflt m x
  | n + 1, m + 1, x, hn, hm =>
    hb _ _ x fun y hy => boundedFix_go_agree hb n m y (by omega) (by omega)

/-- **The loop unfolds once**: with enough fuel, it is its body applied to itself. -/
theorem boundedFix_eq (hb : Shrinks measure body) (x : α) :
    boundedFix measure body dflt x = body (boundedFix measure body dflt) x :=
  hb _ _ x fun y hy => boundedFix_go_agree hb _ _ y (by omega) (by omega)

end BoundedFix

/-! ## The range variable -/

/-- How a `range` clause binds its iteration variable. -/
inductive LoopVar
  /-- Before Go 1.22: one variable, reassigned by every iteration. -/
  | perLoop
  /-- Go 1.22: a fresh variable in every iteration. -/
  | perIteration
deriving DecidableEq, Repr

/-- The memory of the loop: heap cells (an address is an index), the address of the current
range variable, and the pointer `d`. -/
structure RangeMem (α : Type) where
  heap : List α
  x : Nat
  d : Option Nat
deriving DecidableEq, Repr

variable {α : Type}

/-- `*d`, when `d` is not nil. -/
def RangeMem.deref (m : RangeMem α) : Option α := m.d.bind m.heap.get?

/-- Before the first iteration: the per-loop variable is allocated once, holding `zero`. -/
def rangeInit (mode : LoopVar) (zero : α) : RangeMem α :=
  match mode with
  | .perLoop => ⟨[zero], 0, none⟩
  | .perIteration => ⟨[], 0, none⟩

/-- One iteration on the element `e`: bind the range variable to `e`, then run
`if p(x) { d = &x }`. -/
def rangeStep (mode : LoopVar) (p : α → Bool) (m : RangeMem α) (e : α) : RangeMem α :=
  let m := match mode with
    | .perLoop => { m with heap := m.heap.set m.x e }
    | .perIteration => { m with heap := m.heap ++ [e], x := m.heap.length }
  if p e then { m with d := some m.x } else m

/-- `var d *T; for _, x := range xs { if p(x) { d = &x } }`. -/
def rangeAddr (mode : LoopVar) (zero : α) (p : α → Bool) (xs : List α) : RangeMem α :=
  xs.foldl (rangeStep mode p) (rangeInit mode zero)

theorem rangeAddr_concat (mode : LoopVar) (zero : α) (p : α → Bool) (xs : List α) (e : α) :
    rangeAddr mode zero p (xs ++ [e]) = rangeStep mode p (rangeAddr mode zero p xs) e := by
  simp [rangeAddr, List.foldl_append]

/-- With one variable for the loop, `d` points at it, and it holds the last element. -/
theorem rangeAddr_perLoop (zero : α) (p : α → Bool) (xs : List α) :
    rangeAddr .perLoop zero p xs =
      ⟨[xs.getLast?.getD zero], 0, if xs.any p then some 0 else none⟩ := by
  induction xs using List.reverseRecOn with
  | nil => rfl
  | append_singleton xs e ih =>
    rw [rangeAddr_concat, ih]
    by_cases he : p e <;> simp [rangeStep, he]

/-- **Per-loop variable**: after the loop `*d` is the last element of `xs`, whichever element
satisfied `p`. -/
theorem deref_perLoop (zero : α) (p : α → Bool) (xs : List α) :
    (rangeAddr .perLoop zero p xs).deref = if xs.any p then xs.getLast? else none := by
  rw [rangeAddr_perLoop]
  by_cases h : xs.any p
  · have hne : xs ≠ [] := by rintro rfl; simp at h
    simp [RangeMem.deref, h, List.getLast?_eq_getLast xs hne]
  · simp [RangeMem.deref, h]

/-- With a variable per iteration, the heap holds the elements in order and `d` points at the
cell of the last one satisfying `p`. -/
theorem rangeAddr_perIteration (zero : α) (p : α → Bool) (xs : List α) :
    (rangeAddr .perIteration zero p xs).heap = xs ∧
      (∀ i, (rangeAddr .perIteration zero p xs).d = some i → i < xs.length) ∧
      (rangeAddr .perIteration zero p xs).deref = (xs.filter p).getLast? := by
  induction xs using List.reverseRecOn with
  | nil => exact ⟨rfl, by simp [rangeAddr, rangeInit], rfl⟩
  | append_singleton xs e ih =>
    obtain ⟨hheap, hlt, hderef⟩ := ih
    rw [rangeAddr_concat]
    by_cases he : p e
    · simp [rangeStep, he, hheap, RangeMem.deref, List.filter_append]
    · refine ⟨by simp [rangeStep, he, hheap], fun i hi => ?_, ?_⟩
      · have := hlt i (by simpa [rangeStep, he] using hi)
        simp; omega
      · cases hd : (rangeAddr .perIteration zero p xs).d with
        | none => simpa [rangeStep, he, RangeMem.deref, hd, List.filter_append] using hderef
        | some i =>
          have hi := hlt i hd
          simp only [RangeMem.deref, hd, hheap, Option.some_bind, List.get?_eq_getElem?] at hderef
          simp [rangeStep, he, RangeMem.deref, hd, hheap, List.filter_append,
            List.getElem?_append_left hi, hderef]

/-- **Per-iteration variables**: after the loop `*d` is the last element satisfying `p`. -/
theorem deref_perIteration (zero : α) (p : α → Bool) (xs : List α) :
    (rangeAddr .perIteration zero p xs).deref = (xs.filter p).getLast? :=
  (rangeAddr_perIteration zero p xs).2.2

end MachineController.Go
