import ChainPeer.Varint

/-!
# Records of tagged fields

A record is a row of fields, each a tag and a value. The tag gives the number of the field and the
form of its value, which is enough to step over a field that nobody asks for. A group is a field
whose value is a row of fields up to the tag that ends it; groups may be nested, up to a limit.
-/

namespace ChainPeer

/-- What a field holds, as far as it can be asked for. -/
inductive FieldValue where
  | number (n : Nat)
  | bytes (b : Bytes)
  | other
deriving DecidableEq

def FieldValue.number? : FieldValue → Option Nat
  | number n => some n
  | _ => none

def FieldValue.bytes? : FieldValue → Option Bytes
  | bytes b => some b
  | _ => none

structure TaggedField where
  number : Nat
  value : FieldValue
deriving DecidableEq

namespace TaggedField

/-- The form of a value. -/
inductive Form where
  | number
  | eightBytes
  | bytes
  | groupStart
  | groupEnd
  | fourBytes
deriving DecidableEq

/-- The form behind the low three bits of a tag. -/
def Form.ofNat? : Nat → Option Form
  | 0 => some .number
  | 1 => some .eightBytes
  | 2 => some .bytes
  | 3 => some .groupStart
  | 4 => some .groupEnd
  | 5 => some .fourBytes
  | _ => none

/-- The most groups that may be open around a field. -/
def maxDepth : Nat := 99

/-- Takes a number of at most `room` bytes off, whether or not they are as few as could be. -/
def takeGroups? : (room : Nat) → Bytes → Option (Nat × Bytes)
  | 0, _ => none
  | _, [] => none
  | room + 1, b :: rest =>
    if Varint.isLast b then some (b.toNat, rest)
    else (takeGroups? room rest).map fun (n, rest) => (b.toNat % 128 + 128 * n, rest)

def takeNumber? (bytes : Bytes) : Option (Nat × Bytes) := do
  let (n, rest) ← takeGroups? Varint.maxLength bytes
  guard (n < UInt64.size)
  pure (n, rest)

/-- Takes a tag off: the number of a field, which is not zero, above three bits for its form. -/
def takeTag? (bytes : Bytes) : Option ((Nat × Form) × Bytes) := do
  let (tag, rest) ← takeNumber? bytes
  guard (8 ≤ tag ∧ tag < UInt32.size)
  let form ← Form.ofNat? (tag % 8)
  pure ((tag / 8, form), rest)

def takeValue? (form : Form) (bytes : Bytes) : Option (FieldValue × Bytes) :=
  match form with
  | .number => (takeNumber? bytes).map fun (n, rest) => (.number n, rest)
  | .eightBytes => (Bytes.splitExact 8 bytes).map fun (_, rest) => (.other, rest)
  | .fourBytes => (Bytes.splitExact 4 bytes).map fun (_, rest) => (.other, rest)
  | .bytes => do
    let (length, rest) ← takeNumber? bytes
    let (b, rest) ← Bytes.splitExact length rest
    pure (.bytes b, rest)
  | .groupStart | .groupEnd => none

/-- Steps over what is left of the open groups, whose numbers are given from the inside out, in at
most `fuel` fields. -/
def closeGroups? : (fuel : Nat) → (openGroups : List Nat) → Bytes → Option Bytes
  | _, [], bytes => some bytes
  | 0, _ :: _, _ => none
  | fuel + 1, number :: outer, bytes => do
    let ((inner, form), rest) ← takeTag? bytes
    match form with
    | .groupEnd =>
      guard (inner = number)
      closeGroups? fuel outer rest
    | .groupStart =>
      guard (outer.length + 1 ≤ maxDepth)
      closeGroups? fuel (inner :: number :: outer) rest
    | form =>
      guard (outer.length + 1 ≤ maxDepth)
      let (_, rest) ← takeValue? form rest
      closeGroups? fuel (number :: outer) rest

def take? (bytes : Bytes) : Option (TaggedField × Bytes) := do
  let ((number, form), rest) ← takeTag? bytes
  match form with
  | .groupStart => do
    let rest ← closeGroups? rest.length [number] rest
    pure (⟨number, .other⟩, rest)
  | form => do
    let (value, rest) ← takeValue? form rest
    pure (⟨number, value⟩, rest)

/-- Takes fields off to the end, in at most `fuel` steps. -/
def takeAll? : (fuel : Nat) → Bytes → Option (List TaggedField)
  | _, [] => some []
  | 0, _ :: _ => none
  | fuel + 1, bytes => do
    let (field, rest) ← take? bytes
    let fields ← takeAll? fuel rest
    pure (field :: fields)

def ofBytes? (bytes : Bytes) : Option (List TaggedField) :=
  takeAll? bytes.length bytes

/-- What the last field of a number holds, or `absent` if there is none; nothing if any field of
that number holds what is not asked for. -/
def last? {α : Type} (fields : List TaggedField) (number : Nat) (ask : FieldValue → Option α)
    (absent : α) : Option α := do
  let found ← (fields.filter (·.number = number)).mapM fun field => ask field.value
  pure (found.getLastD absent)

end TaggedField

end ChainPeer
