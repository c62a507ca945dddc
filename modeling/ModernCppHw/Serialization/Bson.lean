import Mathlib.Algebra.Group.Nat.Defs
import Mathlib.Logic.Function.Basic

/-! BSON documents, what the BSON library does to them, and the wrapper's `Base` and
`SubArray`. -/

set_option autoImplicit false

namespace ModernCppHw.Bson

abbrev Key := List Char

/-- The key `std::to_chars` makes of an index. -/
def decimal (index : UInt32) : Key := Nat.toDigits 10 index.toNat

/-- What follows the last element that can be read. -/
inductive Ending where
  | complete
  | corrupt
  deriving DecidableEq

inductive Value where
  | int64 (value : Int64)
  | utf8 (bytes : List UInt8)
  | binary (bytes : List UInt8)
  | array (elements : List (Key × Value)) (ending : Ending)
  | document (elements : List (Key × Value)) (ending : Ending)
  /-- An array whose document cannot be entered. -/
  | unreadable
  /-- A value of another type, with what `bson_iter_as_int64` makes of it. -/
  | other (asInt64 : Int64)

structure Document where
  elements : List (Key × Value)
  ending : Ending

mutual

/-- The bytes a value takes. -/
def Value.size : Value → Nat
  | .int64 _ | .other _ => 8
  | .utf8 bytes => 4 + bytes.length + 1
  | .binary bytes => 4 + 1 + bytes.length
  | .array elements _ | .document elements _ => 5 + sizeOfElements elements
  | .unreadable => 5

def sizeOfElements : List (Key × Value) → Nat
  | [] => 0
  | element :: rest => sizeOfElement element + sizeOfElements rest

def sizeOfElement : Key × Value → Nat
  | (key, value) => 1 + key.length + 1 + value.size

end

/-- A `bson_t`. -/
abbrev Handle := Nat

/-- The calls a program makes, with what it hands over; `none` is a null pointer. -/
inductive Call where
  | initialise (bson : Handle)
  | appendInt64 (bson : Handle) (key : Key) (value : Int64)
  | appendUtf8 (bson : Handle) (key : Key) (value : List UInt8) (length : Int)
  | appendBinary (bson : Handle) (key : Key) (value : Option (List UInt8)) (length : Nat)
  | appendArrayBegin (bson : Handle) (key : Key) (child : Handle)
  | appendArrayEnd (bson child : Handle)
  | destroy (bson : Handle)
  deriving DecidableEq

/-- How large a document may get, and whether the data of an empty vector is null. -/
structure Platform where
  maxSize : Nat
  emptyIsNull : Bool

/-- The documents that are being built, which share one block of so many bytes; the key
under which an array was begun; the calls so far, with what they returned. -/
structure World where
  platform : Platform
  elements : Handle → List (Key × Value)
  keys : Handle → Key
  size : Nat
  next : Handle
  calls : List (Call × Bool)

def World.start (platform : Platform) : World where
  platform := platform
  elements := fun _ => []
  keys := fun _ => []
  size := 0
  next := 0
  calls := []

namespace World

def record (call : Call) (returned : Bool) (world : World) : World :=
  { world with calls := world.calls ++ [(call, returned)] }

/-- A `bson_t` of which nothing is known yet. -/
def declare (world : World) : World := { world with next := world.next + 1 }

def add (bson : Handle) (element : Key × Value) (world : World) : World :=
  { world with
    elements := Function.update world.elements bson (world.elements bson ++ [element]) }

def grow (bytes : Nat) (world : World) : World := { world with size := world.size + bytes }

/-- An empty document, which is to have the key in its parent. -/
def beginArray (child : Handle) (key : Key) (world : World) : World :=
  { world with
    elements := Function.update world.elements child []
    keys := Function.update world.keys child key }

end World

/-- A document of its own, by `BSON_INITIALIZER`. -/
def initialise (bson : Handle) (world : World) : World :=
  ({ world with elements := Function.update world.elements bson [] }.grow 5).record
    (.initialise bson) true

/-- What every append does: it returns false where there is no room. -/
def append (call : Call) (bson : Handle) (element : Key × Value) (world : World) : Bool × World :=
  if world.size + sizeOfElement element ≤ world.platform.maxSize then
    (true, ((world.add bson element).grow (sizeOfElement element)).record call true)
  else (false, world.record call false)

def bsonAppendInt64 (bson : Handle) (key : Key) (value : Int64) : World → Bool × World :=
  append (.appendInt64 bson key value) bson (key, .int64 value)

/-- What is read of a string: a negative length stands for that up to a null byte. -/
def readUtf8 (value : List UInt8) (length : Int) : List UInt8 :=
  if length < 0 then value.takeWhile (· ≠ 0) else value.take length.toNat

def bsonAppendUtf8 (bson : Handle) (key : Key) (value : List UInt8) (length : Int) :
    World → Bool × World :=
  append (.appendUtf8 bson key value length) bson (key, .utf8 (readUtf8 value length))

/-- Nothing is read through a null pointer. -/
def readBinary (value : Option (List UInt8)) (length : Nat) : List UInt8 :=
  (value.getD []).take length

def bsonAppendBinary (bson : Handle) (key : Key) (value : Option (List UInt8)) (length : Nat) :
    World → Bool × World :=
  append (.appendBinary bson key value length) bson (key, .binary (readBinary value length))

def bsonAppendArrayBegin (bson : Handle) (key : Key) (child : Handle) (world : World) :
    Bool × World :=
  if world.size + sizeOfElement (key, .array [] .complete) ≤ world.platform.maxSize then
    (true, ((world.beginArray child key).grow (sizeOfElement (key, .array [] .complete))).record
      (.appendArrayBegin bson key child) true)
  else (false, world.record (.appendArrayBegin bson key child) false)

def bsonAppendArrayEnd (bson child : Handle) (world : World) : World :=
  (world.add bson (world.keys child, .array (world.elements child) .complete)).record
    (.appendArrayEnd bson child) true

def bsonDestroy (bson : Handle) (world : World) : World := world.record (.destroy bson) true

/-- What may throw a `std::runtime_error`. -/
abbrev Action := EStateM String World

/-- The wrapper's response to a call that returns whether it succeeded. -/
def orThrow (call : World → Bool × World) (reason : String) : Action Unit := fun world =>
  let called := call world
  if called.1 then .ok () called.2 else .error reason called.2

theorem run_orThrow {call : World → Bool × World} {reason : String} {world : World} :
    (orThrow call reason).run world =
      if (call world).1 then .ok () (call world).2 else .error reason (call world).2 := rfl

/-- What runs in a scope whose objects are destroyed in the end. -/
def inScope {Result : Type} (body : Action Result) (destructors : World → World) :
    Action Result := fun world =>
  match body world with
  | .ok result later => .ok result (destructors later)
  | .error reason later => .error reason (destructors later)

theorem run_inScope {Result : Type} {body : Action Result} {destructors : World → World}
    {world : World} :
    (inScope body destructors).run world =
      match body.run world with
      | .ok result later => .ok result (destructors later)
      | .error reason later => .error reason (destructors later) := rfl

/-- `static_cast<int>` of a size. -/
def toInt (size : Nat) : Int := Int.bmod size (2 ^ 32)

/-- `static_cast<std::uint32_t>` of a size. -/
def toUint32 (size : Nat) : Nat := size % 2 ^ 32

namespace Base

def appendInt64 (bson : Handle) (key : Key) (value : Int64) : Action Unit :=
  orThrow (bsonAppendInt64 bson key value) "Error while appending int64 to bson"

def appendUint64 (bson : Handle) (key : Key) (value : UInt64) : Action Unit :=
  appendInt64 bson key value.toInt64

def appendUtf8 (bson : Handle) (key : Key) (value : List UInt8) : Action Unit :=
  orThrow (bsonAppendUtf8 bson key value (toInt value.length))
    "Error while appending utf8 to bson"

/-- A span is its data and its size. -/
def appendBinary (bson : Handle) (key : Key) (value : Option (List UInt8) × Nat) : Action Unit :=
  orThrow (bsonAppendBinary bson key value.1 (toUint32 value.2))
    "Error while appending binary to bson"

end Base

structure SubArray where
  parent : Handle
  handle : Handle
  index : UInt32 := 0

namespace SubArray

def appendInt64 (self : SubArray) (value : Int64) : Action Unit :=
  Base.appendInt64 self.handle (decimal self.index) value

def appendUint64 (self : SubArray) (value : UInt64) : Action Unit :=
  self.appendInt64 value.toInt64

def appendUtf8 (self : SubArray) (value : List UInt8) : Action Unit :=
  Base.appendUtf8 self.handle (decimal self.index) value

def appendBinary (self : SubArray) (value : Option (List UInt8) × Nat) : Action Unit :=
  Base.appendBinary self.handle (decimal self.index) value

def increment (self : SubArray) : SubArray := { self with index := self.index + 1 }

/-- `~SubArray`, and then `~Base`. -/
def destroy (self : SubArray) (world : World) : World :=
  bsonDestroy self.handle (bsonAppendArrayEnd self.parent self.handle world)

/-- The scope of a `SubArray`. The constructor leaves the `bson_t` as it is until the
array begins; if it throws the `Base` is destroyed. -/
def within (parent : Handle) (key : Key) (body : SubArray → Action Unit) : Action Unit :=
  fun world =>
    let self : SubArray := { parent, handle := world.next }
    let begun := bsonAppendArrayBegin parent key self.handle world.declare
    if begun.1 then inScope (body self) self.destroy begun.2
    else .error "Can't append bson array" (bsonDestroy self.handle begun.2)

end SubArray

end ModernCppHw.Bson
