/-!
# Configuration

The three limits a bridge works with, and the rule that says which combinations it can run with.
-/

namespace Splice

structure Config where
  /-- The most bytes handed to the connection in one send. -/
  maxChunk : Nat := 1500
  /-- The stream is not read while this many bytes wait to be sent. -/
  readHighWatermark : Nat := 64 * 1024
  /-- The room made in the input buffer before each read. -/
  readCapacity : Nat := 16 * 1024
  deriving DecidableEq

namespace Config

/-! ## Fields by name -/

inductive Field
  | maxChunk
  | readHighWatermark
  | readCapacity
  deriving DecidableEq

namespace Field

def all : List Field := [maxChunk, readHighWatermark, readCapacity]

def name : Field → String
  | maxChunk => "max_chunk"
  | readHighWatermark => "read_high_watermark"
  | readCapacity => "read_capacity"

def ofName? (s : String) : Option Field := all.find? (·.name = s)

@[simp] theorem ofName?_name (f : Field) : ofName? f.name = some f := by cases f <;> decide

end Field

def get (c : Config) : Field → Nat
  | .maxChunk => c.maxChunk
  | .readHighWatermark => c.readHighWatermark
  | .readCapacity => c.readCapacity

def set (c : Config) (f : Field) (n : Nat) : Config :=
  match f with
  | .maxChunk => { c with maxChunk := n }
  | .readHighWatermark => { c with readHighWatermark := n }
  | .readCapacity => { c with readCapacity := n }

/-- Later settings of a field win. -/
def setAll (c : Config) (settings : List (Field × Nat)) : Config :=
  settings.foldl (fun c s => c.set s.1 s.2) c

@[simp] theorem get_set (c : Config) (f g : Field) (n : Nat) :
    (c.set f n).get g = if f = g then n else c.get g := by
  cases f <;> cases g <;> rfl

/-! ## Validity -/

inductive Fault
  | zeroChunk
  | zeroCapacity
  | lowWatermark (watermark chunk : Nat)
  deriving DecidableEq

def Fault.text : Fault → String
  | zeroChunk => "max_chunk must be non-zero"
  | zeroCapacity => "read_capacity must be non-zero"
  | lowWatermark watermark chunk =>
    "read_high_watermark (" ++ toString watermark ++ ") must be at least max_chunk (" ++
      toString chunk ++ ")"

/-- The first fault, a zero chunk before a zero capacity before a low watermark. -/
def fault? (c : Config) : Option Fault :=
  if c.maxChunk = 0 then some .zeroChunk
  else if c.readCapacity = 0 then some .zeroCapacity
  else if c.readHighWatermark < c.maxChunk then some (.lowWatermark c.readHighWatermark c.maxChunk)
  else none

def Valid (c : Config) : Prop :=
  1 ≤ c.maxChunk ∧ c.maxChunk ≤ c.readHighWatermark ∧ 1 ≤ c.readCapacity

theorem fault?_eq_none_iff (c : Config) : c.fault? = none ↔ c.Valid := by
  unfold fault? Valid
  repeat' split
  all_goals simp
  all_goals omega

/-! ## Text -/

def debugText (c : Config) : String :=
  "BridgeConfig \x7b max_chunk: " ++ toString c.maxChunk ++
  ", read_high_watermark: " ++ toString c.readHighWatermark ++
  ", read_capacity: " ++ toString c.readCapacity ++ " \x7d"

end Config

end Splice
