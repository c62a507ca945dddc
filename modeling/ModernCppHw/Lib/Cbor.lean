import Mathlib.Algebra.Group.Nat.Defs

/-! CBOR data items, and the encoding of those of a definite length: an item is read
back from its encoding, whatever follows. -/

set_option autoImplicit false

namespace ModernCppHw.Cbor

/-- An unsigned integer, in the width it was given. -/
inductive Unsigned where
  | int8 (value : UInt8)
  | int16 (value : UInt16)
  | int32 (value : UInt32)
  | int64 (value : UInt64)
  deriving DecidableEq

/-- The content of a string. -/
inductive Content where
  | definite (bytes : List UInt8)
  | chunked (chunks : List (List UInt8))
  deriving DecidableEq

/-- `allocated` is how many items a definite array was made for; an item of another
type is known by its encoding only. -/
inductive CborItem where
  | uint (value : Unsigned)
  | bytestring (content : Content)
  | string (content : Content)
  | array (allocated : Option Nat) (items : List CborItem)
  | other (encoding : List UInt8)

/-- The digits of a number in base 256, the most significant first. -/
def bigEndian : Nat → Nat → List UInt8
  | 0, _ => []
  | digits + 1, number => bigEndian digits (number / 256) ++ [UInt8.ofNat (number % 256)]

def ofBigEndian (digits : List UInt8) : Nat :=
  digits.foldl (fun number digit => number * 256 + digit.toNat) 0

/-- The initial byte with its additional information. -/
def initialByte (major info : Nat) : UInt8 := UInt8.ofNat (major * 32 + info)

/-- A head whose argument takes as many bytes as the additional information says. -/
def headOfInfo (major info argument : Nat) : List UInt8 :=
  initialByte major info :: bigEndian (2 ^ (info - 24)) argument

/-- The shortest head. -/
def head (major argument : Nat) : List UInt8 :=
  if argument < 24 then [initialByte major argument]
  else if argument < 2 ^ 8 then headOfInfo major 24 argument
  else if argument < 2 ^ 16 then headOfInfo major 25 argument
  else if argument < 2 ^ 32 then headOfInfo major 26 argument
  else headOfInfo major 27 argument

/-- Major type, additional information and argument of a head, and what follows. -/
def decodeHead : List UInt8 → Option (Nat × Nat × Nat × List UInt8)
  | [] => none
  | initial :: rest =>
      let major := initial.toNat / 32
      let info := initial.toNat % 32
      if info < 24 then some (major, info, info, rest)
      else if info < 28 then
        let width := 2 ^ (info - 24)
        if rest.length < width then none
        else some (major, info, ofBigEndian (rest.take width), rest.drop width)
      else none

def Unsigned.encode : Unsigned → List UInt8
  | .int8 value => if value.toNat < 24 then [value] else headOfInfo 0 24 value.toNat
  | .int16 value => headOfInfo 0 25 value.toNat
  | .int32 value => headOfInfo 0 26 value.toNat
  | .int64 value => headOfInfo 0 27 value.toNat

mutual

/-- An item of indefinite length has no encoding here. -/
def CborItem.encode : CborItem → List UInt8
  | .uint value => value.encode
  | .bytestring (.definite bytes) => head 2 bytes.length ++ bytes
  | .string (.definite bytes) => head 3 bytes.length ++ bytes
  | .array (some _) items => head 4 items.length ++ encodeAll items
  | .bytestring (.chunked _) | .string (.chunked _) | .array none _ => []
  | .other encoding => encoding

def encodeAll : List CborItem → List UInt8
  | [] => []
  | item :: rest => item.encode ++ encodeAll rest

end

/-- So many items, one after the other. -/
def decodeAll (decode : List UInt8 → Option (CborItem × List UInt8)) :
    Nat → List UInt8 → Option (List CborItem × List UInt8)
  | 0, bytes => some ([], bytes)
  | count + 1, bytes =>
      match decode bytes with
      | none => none
      | some (item, rest) =>
          match decodeAll decode count rest with
          | none => none
          | some (items, rest) => some (item :: items, rest)

def decodeUnsigned (info argument : Nat) : Unsigned :=
  if info ≤ 24 then .int8 (UInt8.ofNat argument)
  else if info = 25 then .int16 (UInt16.ofNat argument)
  else if info = 26 then .int32 (UInt32.ofNat argument)
  else .int64 (UInt64.ofNat argument)

/-- The content of a string of so many bytes, and what follows. -/
def decodeContent (length : Nat) (bytes : List UInt8) : Option (Content × List UInt8) :=
  if bytes.length < length then none
  else some (.definite (bytes.take length), bytes.drop length)

/-- An item that starts the bytes, nested at most so deep, and what follows it. -/
def decode : Nat → List UInt8 → Option (CborItem × List UInt8)
  | 0, _ => none
  | depth + 1, bytes =>
      match decodeHead bytes with
      | some (0, info, argument, rest) => some (.uint (decodeUnsigned info argument), rest)
      | some (2, _, length, rest) =>
          (decodeContent length rest).map fun content => (.bytestring content.1, content.2)
      | some (3, _, length, rest) =>
          (decodeContent length rest).map fun content => (.string content.1, content.2)
      | some (4, _, length, rest) =>
          (decodeAll (decode depth) length rest).map fun items =>
            (.array (some length) items.1, items.2)
      | _ => none

mutual

/-- An item of definite lengths that fit in a head, whose arrays are full. -/
def CborItem.Definite : CborItem → Prop
  | .uint _ => True
  | .bytestring (.definite bytes) | .string (.definite bytes) => bytes.length < 2 ^ 64
  | .array (some allocated) items =>
      allocated = items.length ∧ items.length < 2 ^ 64 ∧ AllDefinite items
  | .bytestring (.chunked _) | .string (.chunked _) | .array none _ | .other _ => False

def AllDefinite : List CborItem → Prop
  | [] => True
  | item :: rest => item.Definite ∧ AllDefinite rest

end

variable {major info argument : Nat} {rest : List UInt8}

theorem length_bigEndian (digits number : Nat) : (bigEndian digits number).length = digits := by
  induction digits generalizing number with
  | zero => rfl
  | succ digits ih => rw [bigEndian, List.length_append, ih, List.length_singleton]

theorem ofBigEndian_bigEndian {digits number : Nat} (bounded : number < 256 ^ digits) :
    ofBigEndian (bigEndian digits number) = number := by
  induction digits generalizing number with
  | zero =>
      have zero : number = 0 := by simpa using bounded
      rw [zero]
      rfl
  | succ digits ih =>
      have smaller : number / 256 < 256 ^ digits := by
        rw [Nat.div_lt_iff_lt_mul (by decide), ← Nat.pow_succ]
        exact bounded
      have higher := ih smaller
      unfold ofBigEndian at higher ⊢
      rw [bigEndian, List.foldl_append, higher]
      simp
      omega

theorem initialByte_toNat (low : major < 8) (small : info < 32) :
    (initialByte major info).toNat = major * 32 + info := by
  rw [initialByte, UInt8.toNat_ofNat']
  omega

theorem decodeHead_direct (rest : List UInt8) (low : major < 8) (small : argument < 24) :
    decodeHead (initialByte major argument :: rest) = some (major, argument, argument, rest) := by
  have byte : (initialByte major argument).toNat = major * 32 + argument :=
    initialByte_toNat low (by omega)
  have first : (major * 32 + argument) / 32 = major := by omega
  have second : (major * 32 + argument) % 32 = argument := by omega
  simp only [decodeHead, byte, first, second, if_pos small]

theorem decodeHead_headOfInfo (rest : List UInt8) (low : major < 8) (long : 24 ≤ info)
    (small : info < 28) (bounded : argument < 256 ^ 2 ^ (info - 24)) :
    decodeHead (headOfInfo major info argument ++ rest) = some (major, info, argument, rest) := by
  have byte : (initialByte major info).toNat = major * 32 + info :=
    initialByte_toNat low (by omega)
  have first : (major * 32 + info) / 32 = major := by omega
  have second : (major * 32 + info) % 32 = info := by omega
  have width := length_bigEndian (2 ^ (info - 24)) argument
  have enough : ¬ (bigEndian (2 ^ (info - 24)) argument ++ rest).length < 2 ^ (info - 24) := by
    rw [List.length_append, width]
    omega
  simp only [headOfInfo, List.cons_append, decodeHead, byte, first, second,
    if_neg (Nat.not_lt.mpr long), if_pos small, if_neg enough]
  rw [List.take_left' width, List.drop_left' width, ofBigEndian_bigEndian bounded]

theorem decodeHead_head (rest : List UInt8) (low : major < 8) (bounded : argument < 2 ^ 64) :
    ∃ info, decodeHead (head major argument ++ rest) = some (major, info, argument, rest) := by
  unfold head
  by_cases direct : argument < 24
  · exact ⟨argument, by rw [if_pos direct]; exact decodeHead_direct rest low direct⟩
  rw [if_neg direct]
  by_cases one : argument < 2 ^ 8
  · exact ⟨24, by rw [if_pos one]; exact decodeHead_headOfInfo rest low (by decide) (by decide) one⟩
  rw [if_neg one]
  by_cases two : argument < 2 ^ 16
  · exact ⟨25, by rw [if_pos two]; exact decodeHead_headOfInfo rest low (by decide) (by decide) two⟩
  rw [if_neg two]
  by_cases four : argument < 2 ^ 32
  · rw [if_pos four]
    exact ⟨26, decodeHead_headOfInfo rest low (by decide) (by decide) four⟩
  rw [if_neg four]
  exact ⟨27, decodeHead_headOfInfo rest low (by decide) (by decide) bounded⟩

theorem length_head_pos : 0 < (head major argument).length := by
  unfold head headOfInfo
  repeat' split
  all_goals exact Nat.succ_pos _

theorem decode_unsigned (depth : Nat) (value : Unsigned) :
    decode (depth + 1) (value.encode ++ rest) = some (.uint value, rest) := by
  have low : 0 < 8 := by decide
  cases value with
  | int8 value =>
      by_cases direct : value.toNat < 24
      · have same : initialByte 0 value.toNat = value := by
          simp [initialByte]
        have read := decodeHead_direct rest low direct
        rw [same] at read
        have narrow : value.toNat ≤ 24 := by omega
        simp only [Unsigned.encode, if_pos direct, List.singleton_append, decode, read,
          decodeUnsigned, if_pos narrow, UInt8.ofNat_toNat]
      · have read := decodeHead_headOfInfo rest low (Nat.le_refl 24) (by decide)
          (show value.toNat < 256 ^ 2 ^ (24 - 24) from value.toNat_lt)
        simp [Unsigned.encode, direct, decode, read, decodeUnsigned]
  | int16 value =>
      have read := decodeHead_headOfInfo rest low (show 24 ≤ 25 by decide) (by decide)
        value.toNat_lt
      simp [Unsigned.encode, decode, read, decodeUnsigned]
  | int32 value =>
      have read := decodeHead_headOfInfo rest low (show 24 ≤ 26 by decide) (by decide)
        value.toNat_lt
      simp [Unsigned.encode, decode, read, decodeUnsigned]
  | int64 value =>
      have read := decodeHead_headOfInfo rest low (show 24 ≤ 27 by decide) (by decide)
        value.toNat_lt
      simp [Unsigned.encode, decode, read, decodeUnsigned]

theorem decodeContent_append (bytes : List UInt8) :
    decodeContent bytes.length (bytes ++ rest) = some (.definite bytes, rest) := by
  have enough : ¬ (bytes ++ rest).length < bytes.length := by
    rw [List.length_append]
    omega
  rw [decodeContent, if_neg enough, List.take_left, List.drop_left]

mutual

/-- An item is read back where the depth allowed is more than its bytes are. -/
theorem decode_encode (item : CborItem) (depth : Nat) (rest : List UInt8)
    (definite : item.Definite) (enough : item.encode.length < depth) :
    decode depth (item.encode ++ rest) = some (item, rest) := by
  cases depth with
  | zero => cases enough
  | succ depth =>
      match item with
      | .uint value =>
          rw [CborItem.encode]
          exact decode_unsigned depth value
      | .bytestring (.definite bytes) =>
          obtain ⟨info, read⟩ := decodeHead_head (bytes ++ rest) (show 2 < 8 by decide)
            definite
          rw [CborItem.encode, List.append_assoc, decode, read]
          simp only [decodeContent_append, Option.map_some]
      | .string (.definite bytes) =>
          obtain ⟨info, read⟩ := decodeHead_head (bytes ++ rest) (show 3 < 8 by decide)
            definite
          rw [CborItem.encode, List.append_assoc, decode, read]
          simp only [decodeContent_append, Option.map_some]
      | .array (some allocated) items =>
          obtain ⟨rfl, bounded, all⟩ := definite
          obtain ⟨info, read⟩ := decodeHead_head (encodeAll items ++ rest)
            (show 4 < 8 by decide) bounded
          -- the head takes at least one byte of the depth
          have shorter : (encodeAll items).length < depth := by
            have taken : 0 < (head 4 items.length).length := length_head_pos
            rw [CborItem.encode, List.length_append] at enough
            omega
          rw [CborItem.encode, List.append_assoc, decode, read]
          simp only [decodeAll_encodeAll items depth rest all shorter, Option.map_some]
      | .bytestring (.chunked _) | .string (.chunked _) | .array none _ | .other _ =>
          exact definite.elim

theorem decodeAll_encodeAll (items : List CborItem) (depth : Nat) (rest : List UInt8)
    (definite : AllDefinite items) (enough : (encodeAll items).length < depth) :
    decodeAll (decode depth) items.length (encodeAll items ++ rest) = some (items, rest) := by
  match items with
  | [] => rfl
  | item :: others =>
      obtain ⟨first, all⟩ := definite
      rw [encodeAll, List.length_append] at enough
      have here := decode_encode item depth (encodeAll others ++ rest) first (by omega)
      have later := decodeAll_encodeAll others depth rest all (by omega)
      rw [encodeAll, List.append_assoc, List.length_cons, decodeAll, here]
      simp only [later]

end

/-! What is decoded is of a definite length, and so is encoded and decoded again. -/

/-- With a number in front of the digits. -/
theorem foldl_digits_lt (digits : List UInt8) (number : Nat) :
    digits.foldl (fun number digit => number * 256 + digit.toNat) number <
      (number + 1) * 256 ^ digits.length := by
  induction digits generalizing number with
  | nil => simp
  | cons digit rest ih =>
      have bounded : digit.toNat < 256 := digit.toNat_lt
      have larger : number * 256 + digit.toNat + 1 ≤ (number + 1) * 256 := by omega
      rw [List.foldl_cons, List.length_cons, Nat.pow_succ', ← Nat.mul_assoc]
      exact Nat.lt_of_lt_of_le (ih _) (Nat.mul_le_mul_right _ larger)

theorem ofBigEndian_lt (digits : List UInt8) : ofBigEndian digits < 256 ^ digits.length := by
  have bounded := foldl_digits_lt digits 0
  rwa [Nat.zero_add, Nat.one_mul] at bounded

theorem decodeHead_lt {bytes : List UInt8}
    (read : decodeHead bytes = some (major, info, argument, rest)) : argument < 2 ^ 64 := by
  cases bytes with
  | nil => cases read
  | cons initial following =>
      simp only [decodeHead] at read
      split at read
      · cases read
        omega
      split at read
      · rename_i narrow
        split at read
        · cases read
        · rename_i enough
          cases read
          have bounded := ofBigEndian_lt (following.take (2 ^ (initial.toNat % 32 - 24)))
          rw [List.length_take_of_le (Nat.not_lt.mp enough)] at bounded
          have width : 2 ^ (initial.toNat % 32 - 24) ≤ 2 ^ 3 :=
            Nat.pow_le_pow_right (by decide) (by omega)
          exact Nat.lt_of_lt_of_le bounded (Nat.pow_le_pow_right (by decide) width)
      · cases read

theorem decodeContent_definite {length : Nat} {bytes : List UInt8} {content : Content}
    (read : decodeContent length bytes = some (content, rest)) :
    ∃ taken, content = .definite taken ∧ taken.length = length := by
  unfold decodeContent at read
  split at read
  · cases read
  · rename_i enough
    cases read
    exact ⟨_, rfl, List.length_take_of_le (Nat.not_lt.mp enough)⟩

theorem decodeAll_definite {decode : List UInt8 → Option (CborItem × List UInt8)}
    (definite : ∀ bytes item rest, decode bytes = some (item, rest) → item.Definite)
    {count : Nat} {bytes : List UInt8} {items : List CborItem}
    (read : decodeAll decode count bytes = some (items, rest)) :
    items.length = count ∧ AllDefinite items := by
  induction count generalizing bytes items with
  | zero =>
      cases read
      exact ⟨rfl, trivial⟩
  | succ count ih =>
      rw [decodeAll] at read
      split at read
      · cases read
      rename_i item following first
      split at read
      · cases read
      rename_i others last later
      cases read
      obtain ⟨length, all⟩ := ih later
      exact ⟨congrArg (· + 1) length, definite _ _ _ first, all⟩

theorem decode_definite {depth : Nat} {bytes : List UInt8} {item : CborItem}
    (read : decode depth bytes = some (item, rest)) : item.Definite := by
  induction depth generalizing bytes item rest with
  | zero => cases read
  | succ depth ih =>
      rw [decode] at read
      split at read
      · cases read
        trivial
      · rename_i head
        obtain ⟨⟨content, following⟩, decoded, same⟩ := Option.map_eq_some_iff.mp read
        cases same
        obtain ⟨taken, rfl, length⟩ := decodeContent_definite decoded
        have bounded := decodeHead_lt head
        rwa [← length] at bounded
      · rename_i head
        obtain ⟨⟨content, following⟩, decoded, same⟩ := Option.map_eq_some_iff.mp read
        cases same
        obtain ⟨taken, rfl, length⟩ := decodeContent_definite decoded
        have bounded := decodeHead_lt head
        rwa [← length] at bounded
      · rename_i head
        obtain ⟨⟨items, following⟩, decoded, same⟩ := Option.map_eq_some_iff.mp read
        cases same
        obtain ⟨length, all⟩ := decodeAll_definite (fun _ _ _ => ih) decoded
        exact ⟨length.symm, length ▸ decodeHead_lt head, all⟩
      · cases read

theorem AllDefinite.of_mem {items : List CborItem} {item : CborItem} (all : AllDefinite items)
    (member : item ∈ items) : item.Definite := by
  induction items with
  | nil => cases member
  | cons head tail ih =>
      rcases List.mem_cons.mp member with rfl | within
      · exact all.1
      · exact ih all.2 within

end ModernCppHw.Cbor
