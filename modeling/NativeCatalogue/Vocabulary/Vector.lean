import NativeCatalogue.Binary.Basic
import NativeCatalogue.Json.Fields

/-!
The vector record: three 32-bit floats, each followed by a word of padding, 24 bytes in all. Floats
are kept as bit patterns, so that every pattern survives every view: the bytes keep the padding,
the three 64-bit argument slots hold each float in the low half and clear the high half.
-/

set_option autoImplicit false

namespace NativeCatalogue

/-- Three floats, as bit patterns, with the padding after each. -/
structure Vector3 where
  x : UInt32
  paddingX : UInt32 := 0
  y : UInt32
  paddingY : UInt32 := 0
  z : UInt32
  paddingZ : UInt32 := 0
  deriving DecidableEq, Repr

namespace Vector3

def size : Nat := 24

def slotCount : Nat := 3

def layout : List (String × Nat × Nat) :=
  [("x", 0, 4), ("_padding_x", 4, 4), ("y", 8, 4), ("_padding_y", 12, 4), ("z", 16, 4),
    ("_padding_z", 20, 4)]

def wordBytes (w : UInt32) : List UInt8 :=
  [w.toUInt8, (w >>> 8).toUInt8, (w >>> 16).toUInt8, (w >>> 24).toUInt8]

def wordOf (a b c d : UInt8) : UInt32 :=
  a.toUInt32 ||| (b.toUInt32 <<< 8) ||| (c.toUInt32 <<< 16) ||| (d.toUInt32 <<< 24)

def wordsOf : List UInt8 → List UInt32
  | a :: b :: c :: d :: rest => wordOf a b c d :: wordsOf rest
  | _ => []

def toBytes (v : Vector3) : List UInt8 :=
  [v.x, v.paddingX, v.y, v.paddingY, v.z, v.paddingZ].flatMap wordBytes

structure SizeError where
  actual : Nat
  deriving DecidableEq, Repr

def SizeError.message (e : SizeError) : String :=
  s!"Vector3 needs exactly {size} bytes, got {e.actual}"

def ofBytes? (bytes : List UInt8) : Except SizeError Vector3 :=
  if bytes.length = size then
    match wordsOf bytes with
    | [x, px, y, py, z, pz] => .ok ⟨x, px, y, py, z, pz⟩
    | _ => .error ⟨bytes.length⟩
  else .error ⟨bytes.length⟩

def slots (v : Vector3) : List UInt64 :=
  [v.x.toUInt64, v.y.toUInt64, v.z.toUInt64]

def ofSlots (a b c : UInt64) : Vector3 :=
  { x := a.toUInt32, y := b.toUInt32, z := c.toUInt32 }

def patterns (v : Vector3) : List UInt32 :=
  [v.x, v.y, v.z]

/-- Equality of the three floats as numbers; padding takes no part. -/
def sameNumbers (v w : Vector3) : Bool :=
  (v.patterns.zip w.patterns).all fun (a, b) => Binary.single.sameNumber a.toNat b.toNat

/-- The float nearest to a JSON number. An integer is rounded once, any other number through the
    doubles. -/
def singleOf? : JsonText → Option UInt32
  | .number n =>
    match n.integer? with
    | some i =>
      some (.ofNat (Binary.single.withSign (i < 0) (Binary.single.roundRatio i.natAbs 1)))
    | none => n.float?.map fun bits => .ofNat (Binary.convert Binary.double Binary.single bits)
  | .double bits => some (.ofNat (Binary.convert Binary.double Binary.single bits))
  | _ => none

def ofJson? (text : JsonText) : Option Vector3 :=
  match text with
  | .array [x, y, z] => do
    return { x := ← singleOf? x, y := ← singleOf? y, z := ← singleOf? z }
  | _ => do
    let fields ← text.fields? ["x", "y", "z"]
    return {
      x := ← singleOf? (← fields.lookup "x")
      y := ← singleOf? (← fields.lookup "y")
      z := ← singleOf? (← fields.lookup "z") }

def jsonText (v : Vector3) : String :=
  .ofList (JsonText.print ⟨Binary.singleStyle, .compact⟩ 0 (.ofJson
    (.object [("x", .float v.x.toNat), ("y", .float v.y.toNat), ("z", .float v.z.toNat)])))

end Vector3

end NativeCatalogue
