/-!
# Words with operations that can be refused

A word stands for a number below the size of its type, and the operations on words wrap around. The
operations here give a word for the exact result, and nothing if there is none.
-/

namespace TextKit

/-- Types of words. -/
class Word (α : Type) extends Add α, Sub α, Mul α, Mod α where
  toNat : α → Nat
  /-- The numbers below it have words. -/
  size : Nat
  toNat_lt_size (a : α) : toNat a < size
  toNat_inj {a b : α} : toNat a = toNat b → a = b
  toNat_add (a b : α) : toNat (a + b) = (toNat a + toNat b) % size
  toNat_sub (a b : α) : toNat b ≤ toNat a → toNat (a - b) = toNat a - toNat b
  toNat_mul (a b : α) : toNat (a * b) = toNat a * toNat b % size
  toNat_mod (a b : α) : toNat (a % b) = toNat a % toNat b

instance : Word UInt32 where
  toNat := UInt32.toNat
  size := UInt32.size
  toNat_lt_size := UInt32.toNat_lt
  toNat_inj := UInt32.toNat_inj.mp
  toNat_add := UInt32.toNat_add
  toNat_sub a b h := UInt32.toNat_sub_of_le a b (UInt32.le_iff_toNat_le.mpr h)
  toNat_mul := UInt32.toNat_mul
  toNat_mod := UInt32.toNat_mod

instance : Word UInt64 where
  toNat := UInt64.toNat
  size := UInt64.size
  toNat_lt_size := UInt64.toNat_lt
  toNat_inj := UInt64.toNat_inj.mp
  toNat_add := UInt64.toNat_add
  toNat_sub a b h := UInt64.toNat_sub_of_le a b (UInt64.le_iff_toNat_le.mpr h)
  toNat_mul := UInt64.toNat_mul
  toNat_mod := UInt64.toNat_mod

namespace Word

@[simp] theorem toNat_uint32 (a : UInt32) : Word.toNat a = a.toNat := rfl

@[simp] theorem toNat_uint64 (a : UInt64) : Word.toNat a = a.toNat := rfl

variable {α : Type} [Word α] {a b c : α}

/-- What an operation has given, unless its exact result is no word. -/
def checked? (exact : Nat) (wrapped : α) : Option α :=
  if exact < size α then some wrapped else none

/-- The sum of two words. -/
def sum? (a b : α) : Option α := checked? (toNat a + toNat b) (a + b)

/-- The product of two words. -/
def product? (a b : α) : Option α := checked? (toNat a * toNat b) (a * b)

/-- The difference of two words, which may not be negative. -/
def difference? (a b : α) : Option α := if toNat b ≤ toNat a then some (a - b) else none

/-- The remainder of a word, which may not be divided by zero. -/
def remainder? (a b : α) : Option α := if toNat b = 0 then none else some (a % b)

theorem checked?_eq_some_iff {exact : Nat} (h : toNat b = exact % size α) :
    checked? exact b = some c ↔ toNat c = exact := by
  have hlt := toNat_lt_size c
  rw [checked?]
  split
  · rename_i hfit
    rw [Nat.mod_eq_of_lt hfit] at h
    rw [Option.some.injEq, ← h]
    exact ⟨fun hbc => hbc ▸ rfl, fun hcb => (toNat_inj hcb).symm⟩
  · rename_i hfit
    simp only [reduceCtorEq, false_iff]
    omega

theorem sum?_eq_some_iff : sum? a b = some c ↔ toNat c = toNat a + toNat b :=
  checked?_eq_some_iff (toNat_add a b)

theorem product?_eq_some_iff : product? a b = some c ↔ toNat c = toNat a * toNat b :=
  checked?_eq_some_iff (toNat_mul a b)

theorem difference?_eq_some_iff : difference? a b = some c ↔ toNat b + toNat c = toNat a := by
  rw [difference?]
  split
  · rename_i hle
    have hsub := toNat_sub a b hle
    rw [Option.some.injEq]
    constructor
    · rintro rfl
      omega
    · intro hsum
      exact toNat_inj (by omega)
  · simp only [reduceCtorEq, false_iff]
    omega

theorem remainder?_eq_some_iff :
    remainder? a b = some c ↔ toNat b ≠ 0 ∧ toNat c = toNat a % toNat b := by
  rw [remainder?]
  split
  · rename_i hzero
    simp [hzero]
  · rename_i hpos
    rw [Option.some.injEq, ← toNat_mod]
    exact ⟨fun h => ⟨hpos, h ▸ rfl⟩, fun h => (toNat_inj h.2).symm⟩

end Word

end TextKit
