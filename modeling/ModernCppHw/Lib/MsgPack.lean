import Mathlib.Algebra.Group.Int.Defs
import ModernCppHw.Lib.Cbor
import ModernCppHw.Lib.Reader

/-! The MessagePack format. An object is read back from its encoding, whatever follows,
and no part of the encoding reads as anything else. -/

set_option autoImplicit false

namespace ModernCppHw.MsgPack

open Cbor (bigEndian ofBigEndian length_bigEndian ofBigEndian_bigEndian ofBigEndian_lt)

/-- A map holds its keys and values in turn. -/
inductive MsgObject where
  | nil
  | boolean (value : Bool)
  | positiveInteger (value : UInt64)
  | negativeInteger (value : Int)
  | float32 (bits : List UInt8)
  | float64 (bits : List UInt8)
  | str (bytes : List UInt8)
  | bin (bytes : List UInt8)
  | ext (type : UInt8) (bytes : List UInt8)
  | array (items : List MsgObject)
  | map (entries : List MsgObject)

/-- What the first byte of an object and its length field say. -/
inductive Head where
  | whole (object : MsgObject)
  | float32
  | float64
  | str (length : Nat)
  | bin (length : Nat)
  | ext (length : Nat)
  | array (count : Nat)
  | map (count : Nat)

/-- The power of two that is the width of the shortest field for a number, of one, two,
four or eight bytes. -/
def widthOf (number : Nat) : Nat :=
  if number < 2 ^ 8 then 0 else if number < 2 ^ 16 then 1 else if number < 2 ^ 32 then 2 else 3

/-- The fields of all widths follow one another, from `first` on. -/
def encodeField (first number : Nat) : List UInt8 :=
  UInt8.ofNat (first + widthOf number) :: bigEndian (2 ^ widthOf number) number

def encodePositive (value : Nat) : List UInt8 :=
  if value < 0x80 then [UInt8.ofNat value] else encodeField 0xcc value

def encodeStr (length : Nat) : List UInt8 :=
  if length < 32 then [UInt8.ofNat (0xa0 + length)] else encodeField 0xd9 length

def encodeBin (length : Nat) : List UInt8 := encodeField 0xc4 length

/-- There is no field of one byte for these. -/
def encodeArray (count : Nat) : List UInt8 :=
  if count < 16 then [UInt8.ofNat (0x90 + count)]
  else if count < 2 ^ 16 then 0xdc :: bigEndian 2 count
  else 0xdd :: bigEndian 4 count

mutual

/-- Of the other objects nothing is encoded here. -/
def MsgObject.encode : MsgObject → List UInt8
  | .positiveInteger value => encodePositive value.toNat
  | .str bytes => encodeStr bytes.length ++ bytes
  | .bin bytes => encodeBin bytes.length ++ bytes
  | .array items => encodeArray items.length ++ encodeAll items
  | .nil | .boolean _ | .negativeInteger _ | .float32 _ | .float64 _ | .ext _ _ | .map _ => []

def encodeAll : List MsgObject → List UInt8
  | [] => []
  | item :: rest => item.encode ++ encodeAll rest

end

/-- A number of so many bytes. -/
def number (digits : Nat) : Reader Nat := ofBigEndian <$> Reader.take digits

/-- An integer of so many bytes, of which the first half of the range is not negative. -/
def signed (digits : Nat) : Reader MsgObject :=
  (fun value =>
    if value < 2 ^ (8 * digits - 1) then MsgObject.positiveInteger (.ofNat value)
    else MsgObject.negativeInteger (value - 2 ^ (8 * digits))) <$> number digits

def headOf (first : Nat) : Reader Head :=
  if first < 0x80 then pure (.whole (.positiveInteger (.ofNat first)))
  else if first < 0x90 then pure (.map (first - 0x80))
  else if first < 0xa0 then pure (.array (first - 0x90))
  else if first < 0xc0 then pure (.str (first - 0xa0))
  else if first < 0xc1 then pure (.whole .nil)
  else if first < 0xc2 then Reader.stop .malformed
  else if first < 0xc4 then pure (.whole (.boolean (first = 0xc3)))
  else if first < 0xc7 then Head.bin <$> number (2 ^ (first - 0xc4))
  else if first < 0xca then Head.ext <$> number (2 ^ (first - 0xc7))
  else if first < 0xcb then pure .float32
  else if first < 0xcc then pure .float64
  else if first < 0xd0 then
    (fun value => .whole (.positiveInteger (.ofNat value))) <$> number (2 ^ (first - 0xcc))
  else if first < 0xd4 then Head.whole <$> signed (2 ^ (first - 0xd0))
  else if first < 0xd9 then pure (.ext (2 ^ (first - 0xd4)))
  else if first < 0xdc then Head.str <$> number (2 ^ (first - 0xd9))
  else if first < 0xde then Head.array <$> number (2 ^ (first - 0xdb))
  else if first < 0xe0 then Head.map <$> number (2 ^ (first - 0xdd))
  else pure (.whole (.negativeInteger (first - 2 ^ 8)))

def readHead : Reader Head := do headOf (← Reader.byte).toNat

/-- An object nested at most so deep. -/
def decode : Nat → Reader MsgObject
  | 0 => Reader.stop .incomplete
  | depth + 1 => do
      match ← readHead with
      | .whole object => pure object
      | .float32 => MsgObject.float32 <$> Reader.take 4
      | .float64 => MsgObject.float64 <$> Reader.take 8
      | .str length => MsgObject.str <$> Reader.take length
      | .bin length => MsgObject.bin <$> Reader.take length
      | .ext length => do
          let type ← Reader.byte
          MsgObject.ext type <$> Reader.take length
      | .array count => MsgObject.array <$> Stateful.times (decode depth) count
      | .map count => MsgObject.map <$> Stateful.times (decode depth) (2 * count)

mutual

/-- The lengths and numbers are such that there are fields for them. -/
def MsgObject.Fits : MsgObject → Prop
  | .positiveInteger _ => True
  | .str bytes | .bin bytes => bytes.length < 2 ^ 32
  | .array items => items.length < 2 ^ 32 ∧ AllFit items
  | .nil | .boolean _ | .negativeInteger _ | .float32 _ | .float64 _ | .ext _ _ | .map _ => False

def AllFit : List MsgObject → Prop
  | [] => True
  | item :: rest => item.Fits ∧ AllFit rest

end

variable {count length value depth : Nat} {rest : List UInt8}

theorem number_append {digits : Nat} (bounded : value < 256 ^ digits) :
    number digits (bigEndian digits value ++ rest) = .ok (value, rest) := by
  have read : Reader.take digits (bigEndian digits value ++ rest) =
      .ok (bigEndian digits value, rest) :=
    Reader.take_append_of_length (bigEndian digits value) (length_bigEndian digits value)
  have mapped : number digits (bigEndian digits value ++ rest) =
      .ok (ofBigEndian (bigEndian digits value), rest) :=
    Stateful.map_ok read
  rwa [ofBigEndian_bigEndian bounded] at mapped

theorem widthOf_lt_three (bounded : value < 2 ^ 32) : widthOf value < 3 := by
  unfold widthOf
  repeat' split
  all_goals omega

theorem widthOf_lt_four : widthOf value < 4 := by
  unfold widthOf
  repeat' split
  all_goals omega

theorem lt_of_widthOf (bounded : value < 2 ^ 64) : value < 256 ^ 2 ^ widthOf value := by
  unfold widthOf
  split
  · assumption
  split
  · assumption
  split <;> assumption

theorem readHead_cons {first : UInt8} {bytes : List UInt8} :
    readHead (first :: bytes) = headOf first.toNat bytes := Stateful.bind_ok rfl

/-- A field, of which the first byte says what the number is for. -/
theorem readHead_field {first : Nat} {make : Nat → Head} (low : first + widthOf value < 2 ^ 8)
    (made : headOf (first + widthOf value) = make <$> number (2 ^ widthOf value))
    (bounded : value < 2 ^ 64) :
    readHead (encodeField first value ++ rest) = .ok (make value, rest) := by
  have byte : (UInt8.ofNat (first + widthOf value)).toNat = first + widthOf value := by
    rw [UInt8.toNat_ofNat', Nat.mod_eq_of_lt low]
  rw [encodeField, List.cons_append, readHead_cons, byte, made]
  exact Stateful.map_ok (number_append (lt_of_widthOf bounded))

theorem headOf_bin {width : Nat} (narrow : width < 3) :
    headOf (0xc4 + width) = Head.bin <$> number (2 ^ width) := by
  match width with
  | 0 | 1 | 2 => rfl
  | _ + 3 => omega

theorem headOf_str {width : Nat} (narrow : width < 3) :
    headOf (0xd9 + width) = Head.str <$> number (2 ^ width) := by
  match width with
  | 0 | 1 | 2 => rfl
  | _ + 3 => omega

theorem headOf_positive {width : Nat} (narrow : width < 4) : headOf (0xcc + width) =
    (fun value => .whole (.positiveInteger (.ofNat value))) <$> number (2 ^ width) := by
  match width with
  | 0 | 1 | 2 | 3 => rfl
  | _ + 4 => omega

theorem readHead_positive (bounded : value < 2 ^ 64) :
    readHead (encodePositive value ++ rest) =
      .ok (.whole (.positiveInteger (.ofNat value)), rest) := by
  unfold encodePositive
  split
  · next direct =>
      have byte : (UInt8.ofNat value).toNat = value := by
        rw [UInt8.toNat_ofNat', Nat.mod_eq_of_lt (by omega)]
      rw [List.singleton_append, readHead_cons, byte, headOf, if_pos direct]
      rfl
  · have narrow : widthOf value < 4 := widthOf_lt_four
    exact readHead_field (by omega) (headOf_positive narrow) bounded

theorem readHead_str (bounded : length < 2 ^ 32) :
    readHead (encodeStr length ++ rest) = .ok (.str length, rest) := by
  unfold encodeStr
  split
  · next direct =>
      have byte : (UInt8.ofNat (0xa0 + length)).toNat = 0xa0 + length := by
        rw [UInt8.toNat_ofNat', Nat.mod_eq_of_lt (by omega)]
      have head : headOf (0xa0 + length) = pure (.str length) := by
        simp (disch := omega) only [headOf, if_neg, if_pos, Nat.add_sub_cancel_left]
      rw [List.singleton_append, readHead_cons, byte, head]
      rfl
  · have narrow := widthOf_lt_three bounded
    exact readHead_field (by omega) (headOf_str narrow) (Nat.lt_trans bounded (by decide))

theorem readHead_bin (bounded : length < 2 ^ 32) :
    readHead (encodeBin length ++ rest) = .ok (.bin length, rest) := by
  have narrow := widthOf_lt_three bounded
  exact readHead_field (by omega) (headOf_bin narrow) (Nat.lt_trans bounded (by decide))

theorem readHead_array (bounded : count < 2 ^ 32) :
    readHead (encodeArray count ++ rest) = .ok (.array count, rest) := by
  unfold encodeArray
  split
  · next direct =>
      have byte : (UInt8.ofNat (0x90 + count)).toNat = 0x90 + count := by
        rw [UInt8.toNat_ofNat', Nat.mod_eq_of_lt (by omega)]
      have head : headOf (0x90 + count) = pure (.array count) := by
        simp (disch := omega) only [headOf, if_neg, if_pos, Nat.add_sub_cancel_left]
      rw [List.singleton_append, readHead_cons, byte, head]
      rfl
  split
  · next direct narrow =>
      rw [List.cons_append, readHead_cons]
      exact Stateful.map_ok (number_append narrow)
  · rw [List.cons_append, readHead_cons]
    exact Stateful.map_ok (number_append bounded)

theorem length_encodeArray_pos : 0 < (encodeArray count).length := by
  unfold encodeArray
  repeat' split
  all_goals exact Nat.succ_pos _

mutual

/-- An object is read back where the depth allowed is more than its bytes are. -/
theorem decode_encode (object : MsgObject) (depth : Nat) (rest : List UInt8)
    (fits : object.Fits) (enough : object.encode.length < depth) :
    decode depth (object.encode ++ rest) = .ok (object, rest) := by
  cases depth with
  | zero => cases enough
  | succ depth =>
      match object with
      | .positiveInteger value =>
          rw [MsgObject.encode, decode, Stateful.bind_ok (readHead_positive value.toNat_lt),
            UInt64.ofNat_toNat]
          rfl
      | .str bytes =>
          rw [MsgObject.encode, List.append_assoc, decode, Stateful.bind_ok (readHead_str fits)]
          exact Stateful.map_ok (Reader.take_append bytes)
      | .bin bytes =>
          rw [MsgObject.encode, List.append_assoc, decode, Stateful.bind_ok (readHead_bin fits)]
          exact Stateful.map_ok (Reader.take_append bytes)
      | .array items =>
          -- the head takes at least one byte of the depth
          have shorter : (encodeAll items).length < depth := by
            have taken : 0 < (encodeArray items.length).length := length_encodeArray_pos
            rw [MsgObject.encode, List.length_append] at enough
            omega
          rw [MsgObject.encode, List.append_assoc, decode, Stateful.bind_ok (readHead_array fits.1)]
          exact Stateful.map_ok (times_encodeAll items depth rest fits.2 shorter)
      | .nil | .boolean _ | .negativeInteger _ | .float32 _ | .float64 _ | .ext _ _ | .map _ =>
          exact fits.elim

theorem times_encodeAll (items : List MsgObject) (depth : Nat) (rest : List UInt8)
    (fit : AllFit items) (enough : (encodeAll items).length < depth) :
    Stateful.times (decode depth) items.length (encodeAll items ++ rest) = .ok (items, rest) := by
  match items with
  | [] => rfl
  | item :: others =>
      rw [encodeAll, List.length_append] at enough
      have here := decode_encode item depth (encodeAll others ++ rest) fit.1 (by omega)
      have later := times_encodeAll others depth rest fit.2 (by omega)
      rw [encodeAll, List.append_assoc]
      exact Stateful.times_succ here later

end

theorem number_extends (digits : Nat) : Reader.Extends (number digits) (number digits) :=
  (Reader.Extends.take digits).map ofBigEndian

theorem readHead_extends : Reader.Extends readHead readHead := by
  refine Reader.Extends.byte.bind fun first => ?_
  have field : ∀ (make : Nat → Head) (digits : Nat),
      Reader.Extends (make <$> number digits) (make <$> number digits) :=
    fun make digits => (number_extends digits).map make
  -- one branch after the other, in the order of the first bytes
  unfold headOf
  refine .ite (.pure _) (.ite (.pure _) (.ite (.pure _) (.ite (.pure _) (.ite (.pure _)
    (.ite (.stop _) (.ite (.pure _) (.ite (field _ _) (.ite (field _ _) (.ite (.pure _)
    (.ite (.pure _) (.ite (field _ _) (.ite ?_ (.ite (.pure _) (.ite (field _ _)
    (.ite (field _ _) (.ite (field _ _) (.pure _)))))))))))))))))
  exact ((number_extends _).map _).map _

/-- More depth and more bytes change nothing that is settled. -/
theorem decode_extends {deeper : Nat} (more : depth ≤ deeper) :
    Reader.Extends (decode depth) (decode deeper) := by
  induction depth generalizing deeper with
  | zero => exact .incomplete _
  | succ depth ih =>
      cases deeper with
      | zero => cases more
      | succ deeper =>
          have nested := ih (Nat.le_of_succ_le_succ more)
          refine readHead_extends.bind fun head => ?_
          cases head with
          | whole object => exact .pure object
          | float32 | float64 | str | bin => exact (Reader.Extends.take _).map _
          | ext length =>
              exact Reader.Extends.byte.bind fun type => (Reader.Extends.take length).map _
          | array count | map count => exact (nested.times _).map _

/-- What `unpack` makes of bytes: no object in them is nested as deep as they are many. -/
def load (bytes : List UInt8) : Except Stop MsgObject :=
  (decode (bytes.length + 1) bytes).map Prod.fst

theorem load_encode_append {object : MsgObject} (fits : object.Fits) (extra : List UInt8) :
    load (object.encode ++ extra) = .ok object := by
  have enough : object.encode.length < (object.encode ++ extra).length + 1 := by
    rw [List.length_append]
    omega
  rw [load, decode_encode object _ extra fits enough]
  rfl

theorem load_encode {object : MsgObject} (fits : object.Fits) :
    load object.encode = .ok object := by
  have loaded := load_encode_append fits []
  rwa [List.append_nil] at loaded

/-- Every part of an encoding that stops short of its end is told from a whole one. -/
theorem load_of_cut {object : MsgObject} {bytes more : List UInt8} (fits : object.Fits)
    (cut : more ≠ []) (split : bytes ++ more = object.encode) :
    load bytes = .error .incomplete := by
  have whole := decode_encode object (object.encode.length + 1) [] fits (Nat.lt_succ_self _)
  rw [List.append_nil, ← split] at whole
  have shorter : bytes.length + 1 ≤ (bytes ++ more).length + 1 := by
    rw [List.length_append]
    omega
  rw [load, (decode_extends shorter).incomplete_of_cut whole cut]
  rfl

/-! The lengths that are read have at most four bytes. -/

mutual

def MsgObject.Short : MsgObject → Prop
  | .str bytes | .bin bytes => bytes.length < 2 ^ 32
  | .array items => items.length < 2 ^ 32 ∧ AllShort items
  | .nil | .boolean _ | .positiveInteger _ | .negativeInteger _ | .float32 _ | .float64 _
  | .ext _ _ | .map _ => True

def AllShort : List MsgObject → Prop
  | [] => True
  | item :: rest => item.Short ∧ AllShort rest

end

def Head.Short : Head → Prop
  | .whole object => object.Short
  | .str length | .bin length | .array length => length < 2 ^ 32
  | .float32 | .float64 | .ext _ | .map _ => True

theorem allShort_iff {objects : List MsgObject} :
    AllShort objects ↔ ∀ object ∈ objects, object.Short := by
  induction objects with
  | nil => simp [AllShort]
  | cons object rest ih => simp [AllShort, ih]

theorem take_yields (length : Nat) :
    Stateful.Yields (Reader.take length) (fun bytes => bytes.length = length) := by
  intro bytes taken rest read
  unfold Reader.take at read
  split at read
  · cases read
  · next enough =>
      cases read
      exact List.length_take_of_le (Nat.not_lt.mp enough)

theorem number_yields {digits : Nat} (few : digits ≤ 4) :
    Stateful.Yields (number digits) (· < 2 ^ 32) := by
  refine (take_yields digits).map fun bytes length => ?_
  have bounded := ofBigEndian_lt bytes
  have most : 256 ^ bytes.length ≤ 256 ^ 4 := Nat.pow_le_pow_right (by decide) (length ▸ few)
  exact Nat.lt_of_lt_of_le bounded most

theorem signed_yields (digits : Nat) : Stateful.Yields (signed digits) MsgObject.Short := by
  refine (Stateful.Yields.any _).map fun value _ => ?_
  split
  · exact trivial
  · exact trivial

theorem headOf_yields {first : Nat} (byte : first < 2 ^ 8) :
    Stateful.Yields (headOf first) Head.Short := by
  have field : ∀ {width : Nat} (make : Nat → Head), width < 3 →
      (∀ value, value < 2 ^ 32 → (make value).Short) →
      Stateful.Yields (make <$> number (2 ^ width)) Head.Short := by
    intro width make narrow short
    have few : 2 ^ width ≤ 2 ^ 2 := Nat.pow_le_pow_right (by decide) (by omega)
    exact (number_yields few).map short
  have anyway : ∀ {digits : Nat} (make : Nat → Head), (∀ value, (make value).Short) →
      Stateful.Yields (make <$> number digits) Head.Short :=
    fun make short => (Stateful.Yields.any _).map fun value _ => short value
  unfold headOf
  refine .ite (fun _ => .pure trivial) fun _ => .ite (fun _ => .pure trivial) fun _ => ?_
  refine .ite (fun _ => .pure (show _ < 2 ^ 32 by omega)) fun _ => ?_
  refine .ite (fun _ => .pure (show _ < 2 ^ 32 by omega)) fun _ => ?_
  refine .ite (fun _ => .pure trivial) fun _ => .ite (fun _ => .fail fun _ => rfl) fun _ => ?_
  refine .ite (fun _ => .pure trivial) fun _ => ?_
  refine .ite (fun _ => field _ (by omega) fun _ short => short) fun _ => ?_
  refine .ite (fun _ => anyway _ fun _ => trivial) fun _ => ?_
  refine .ite (fun _ => .pure trivial) fun _ => .ite (fun _ => .pure trivial) fun _ => ?_
  refine .ite (fun _ => anyway _ fun _ => trivial) fun _ => ?_
  refine .ite (fun _ => (signed_yields _).map fun _ short => short) fun _ => ?_
  refine .ite (fun _ => .pure trivial) fun _ => ?_
  refine .ite (fun _ => field _ (by omega) fun _ short => short) fun _ => ?_
  refine .ite (fun _ => field _ (by omega) fun _ short => short) fun _ => ?_
  exact .ite (fun _ => anyway _ fun _ => trivial) fun _ => .pure trivial

/-- Whatever is read, its strings and arrays are no longer than the format allows. -/
theorem decode_yields (depth : Nat) : Stateful.Yields (decode depth) MsgObject.Short := by
  induction depth with
  | zero => exact .fail fun _ => rfl
  | succ depth ih =>
      have head : Stateful.Yields readHead Head.Short :=
        (Stateful.Yields.any _).bind fun first _ => headOf_yields first.toNat_lt
      refine head.bind fun head short => ?_
      cases head with
      | whole object => exact .pure short
      | float32 | float64 => exact (Stateful.Yields.any _).map fun _ _ => trivial
      | str length | bin length =>
          refine (take_yields length).map fun bytes taken => ?_
          exact Nat.lt_of_le_of_lt (Nat.le_of_eq taken) short
      | ext length =>
          exact (Stateful.Yields.any _).bind fun type _ =>
            (Stateful.Yields.any _).map fun _ _ => trivial
      | array count =>
          exact (ih.times count).map fun items all => ⟨all.1.symm ▸ short, allShort_iff.mpr all.2⟩
      | map count => exact (Stateful.Yields.any _).map fun _ _ => trivial

theorem load_short {bytes : List UInt8} {object : MsgObject} (loaded : load bytes = .ok object) :
    object.Short := by
  unfold load at loaded
  cases read : decode (bytes.length + 1) bytes with
  | error reason =>
      rw [read] at loaded
      cases loaded
  | ok result =>
      rw [read] at loaded
      cases loaded
      exact decode_yields _ bytes result.1 result.2 read

end ModernCppHw.MsgPack
