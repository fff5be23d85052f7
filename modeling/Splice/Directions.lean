/-!
# Stream directions

A set of the two directions of a byte stream: reading from it and writing to it. It serves both as the
interest enabled on a stream and as the directions that an end of stream or a failure concerns.
-/

namespace Splice

structure Directions where
  read : Bool
  write : Bool
  deriving DecidableEq

namespace Directions

def none : Directions := ⟨false, false⟩
def onlyRead : Directions := ⟨true, false⟩
def onlyWrite : Directions := ⟨false, true⟩
def both : Directions := ⟨true, true⟩

instance : Inhabited Directions := ⟨none⟩

def isEmpty (d : Directions) : Bool := !d.read && !d.write

def union (d e : Directions) : Directions := ⟨d.read || e.read, d.write || e.write⟩

def without (d e : Directions) : Directions := ⟨d.read && !e.read, d.write && !e.write⟩

instance : Union Directions := ⟨union⟩
instance : SDiff Directions := ⟨without⟩

/-- Whether all of a non-empty set is in this one; the empty set is contained in none. -/
def contains (d e : Directions) : Bool :=
  !e.isEmpty && (!e.read || d.read) && (!e.write || d.write)

instance : HasSubset Directions := ⟨fun d e => (d.read → e.read) ∧ (d.write → e.write)⟩

instance (d e : Directions) : Decidable (d ⊆ e) :=
  inferInstanceAs (Decidable ((d.read → e.read) ∧ (d.write → e.write)))

/-! ## Text -/

def text (d : Directions) : String :=
  match d.read, d.write with
  | false, false => "none"
  | true, false => "read"
  | false, true => "write"
  | true, true => "read|write"

instance : ToString Directions := ⟨text⟩

/-- One bit per direction, reading the lower one. -/
def bits (d : Directions) : Nat := (if d.read then 1 else 0) + (if d.write then 2 else 0)

def debugText (d : Directions) : String := "Direction(" ++ toString d.bits ++ ")"

/-! ## Laws -/

@[simp] theorem union_read (d e : Directions) : (d ∪ e).read = (d.read || e.read) := rfl
@[simp] theorem union_write (d e : Directions) : (d ∪ e).write = (d.write || e.write) := rfl
@[simp] theorem sdiff_read (d e : Directions) : (d \ e).read = (d.read && !e.read) := rfl
@[simp] theorem sdiff_write (d e : Directions) : (d \ e).write = (d.write && !e.write) := rfl

@[simp] theorem contains_onlyRead (d : Directions) : d.contains onlyRead = d.read := by
  simp [contains, onlyRead, isEmpty]

@[simp] theorem contains_onlyWrite (d : Directions) : d.contains onlyWrite = d.write := by
  simp [contains, onlyWrite, isEmpty]

theorem contains_iff (d e : Directions) : d.contains e ↔ e ≠ none ∧ e ⊆ d := by
  rcases d with ⟨_ | _, _ | _⟩ <;> rcases e with ⟨_ | _, _ | _⟩ <;> decide

end Directions

end Splice
