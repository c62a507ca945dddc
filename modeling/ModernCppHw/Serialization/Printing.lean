import ModernCppHw.Lib.Unambiguous
import ModernCppHw.Serialization.Message

/-! How messages are printed. Nothing in what is printed says where a text ends, but
only one message is printed in that way. -/

set_option autoImplicit false

namespace ModernCppHw

inductive Basefield where
  | oct
  | dec
  | hex
  deriving DecidableEq

def Basefield.radix : Basefield → Nat
  | .oct => 8
  | .dec => 10
  | .hex => 16

/-- A `std::ostream`: what was written to it, and how numbers and padding are written. -/
structure Ostream where
  written : List UInt8
  base : Basefield
  fill : UInt8
  width : Nat
  deriving DecidableEq

/-- The characters are ASCII. -/
def ascii (text : String) : List UInt8 := text.toList.map fun char => UInt8.ofNat char.toNat

def numeral (radix number : Nat) : List UInt8 :=
  (Nat.toDigits radix number).map fun char => UInt8.ofNat char.toNat

/-- Characters that are too few are preceded by padding. -/
def padded (width : Nat) (fill : UInt8) (characters : List UInt8) : List UInt8 :=
  List.replicate (width - characters.length) fill ++ characters

namespace Ostream

/-- `<<` of characters: the width counts for them only. -/
def put (output : Ostream) (characters : List UInt8) : Ostream :=
  { output with
    written := output.written ++ padded output.width output.fill characters
    width := 0 }

/-- `<<` of an integer that is not negative. -/
def putNumber (output : Ostream) (number : Nat) : Ostream :=
  output.put (numeral output.base.radix number)

/-- `<< std::hex`, `<< std::dec`, `<< std::setw` and `<< std::setfill`. -/
def hex (output : Ostream) : Ostream := { output with base := .hex }

def dec (output : Ostream) : Ostream := { output with base := .dec }

def setw (output : Ostream) (width : Nat) : Ostream := { output with width }

def setfill (output : Ostream) (fill : UInt8) : Ostream := { output with fill }

/-- The body of the loop over the bytes of an attachment. -/
def putByte (output : Ostream) (byte : UInt8) : Ostream :=
  (((output.setw 2).setfill 0x30).putNumber byte.toNat).put (ascii " ")

/-- `operator<<` of an attachment. -/
def putAttachment (output : Ostream) (attachment : Attachment) : Ostream :=
  let output := output.put (ascii "\x7b ")
  let output := output.hex
  let output := attachment.buffer.foldl putByte output
  let output := output.dec
  output.put (ascii "\x7d")

/-- The body of the loop over the attachments of a message. -/
def putLine (output : Ostream) (attachment : Attachment) : Ostream :=
  ((output.put (ascii "\t")).putAttachment attachment).put (ascii "\n")

/-- `operator<<` of a message. -/
def putMessage (output : Ostream) (message : Message) : Ostream :=
  let output := (output.putNumber message.fromUser.toNat).put (ascii ", ")
  let output := (output.putNumber message.toUser.toNat).put (ascii ", \"")
  let output := (output.put message.text).put (ascii "\",\n\x7b\n")
  let output := message.attachments.foldl putLine output
  output.put (ascii "\x7d\n")

end Ostream

example : ((Ostream.mk [] .dec 0x20 0).putMessage ⟨[⟨[0xab, 5]⟩], [104, 105], 12, 3⟩).written =
    ascii "12, 3, \"hi\",\n\x7b\n\t\x7b ab 05 \x7d\n\x7d\n" := by
  decide

/-! Numerals. -/

/-- The byte is a digit of a number in a base up to sixteen. -/
def Digit (byte : UInt8) : Prop := ∃ digit < 16, byte = UInt8.ofNat (Nat.digitChar digit).toNat

def digitOf (byte : UInt8) : Nat :=
  if byte.toNat < 0x3a then byte.toNat - 0x30 else byte.toNat - 0x57

/-- The number that the digits stand for. -/
def valueOf (radix : Nat) (digits : List UInt8) : Nat :=
  digits.foldl (fun number digit => number * radix + digitOf digit) 0

theorem digitOf_digitChar : ∀ digit < 16,
    digitOf (UInt8.ofNat (Nat.digitChar digit).toNat) = digit := by
  decide

theorem not_digit : ∀ byte ∈ ascii " ,\"\t\n\x7b\x7d", ¬ ∃ digit < 16,
    byte = UInt8.ofNat (Nat.digitChar digit).toNat := by
  have none : ∀ digit < 16, UInt8.ofNat (Nat.digitChar digit).toNat ∉
      ascii " ,\"\t\n\x7b\x7d" := by
    decide
  intro byte among isDigit
  obtain ⟨digit, below, rfl⟩ := isDigit
  exact none digit below among

variable {radix : Nat}

theorem numeral_eq (many : 1 < radix) (number : Nat) :
    numeral radix number =
      if number < radix then [UInt8.ofNat (Nat.digitChar number).toNat]
      else numeral radix (number / radix) ++
        [UInt8.ofNat (Nat.digitChar (number % radix)).toNat] := by
  rw [numeral, Nat.toDigits_eq_if many]
  split
  · rfl
  · rw [List.map_append]
    rfl

theorem digit_of_mem_numeral (many : 1 < radix) (few : radix ≤ 16) {number : Nat} {byte : UInt8}
    (among : byte ∈ numeral radix number) : Digit byte := by
  induction number using Nat.strongRecOn with
  | ind number ih =>
      rw [numeral_eq many] at among
      split at among
      · next small =>
          rw [List.mem_singleton] at among
          exact ⟨number, by omega, among⟩
      · next large =>
          have positive : 0 < number := by omega
          rcases List.mem_append.mp among with earlier | last
          · exact ih _ (Nat.div_lt_self positive many) earlier
          · have bounded : number % radix < radix := Nat.mod_lt _ (by omega)
            exact ⟨number % radix, by omega, List.mem_singleton.mp last⟩

theorem valueOf_numeral (many : 1 < radix) (few : radix ≤ 16) (number : Nat) :
    valueOf radix (numeral radix number) = number := by
  induction number using Nat.strongRecOn with
  | ind number ih =>
      rw [numeral_eq many]
      split
      · next small =>
          have digit := digitOf_digitChar number (by omega)
          simp only [valueOf, List.foldl_cons, List.foldl_nil, digit]
          omega
      · next large =>
          have smaller : number / radix < number := Nat.div_lt_self (by omega) many
          have higher := ih _ smaller
          have bounded : number % radix < radix := Nat.mod_lt _ (by omega)
          have digit := digitOf_digitChar (number % radix) (by omega)
          unfold valueOf at higher ⊢
          rw [List.foldl_append, higher]
          simp only [List.foldl_cons, List.foldl_nil, digit]
          exact Nat.div_add_mod' number radix

/-! What is printed. -/

def printedByte (byte : UInt8) : List UInt8 :=
  padded 2 0x30 (numeral 16 byte.toNat) ++ ascii " "

def Attachment.printed (attachment : Attachment) : List UInt8 :=
  ascii "\x7b " ++ (attachment.buffer.flatMap printedByte ++ ascii "\x7d")

def Attachment.line (attachment : Attachment) : List UInt8 :=
  ascii "\t" ++ (attachment.printed ++ ascii "\n")

/-- What follows the quote after the text. -/
def Message.printedRest (message : Message) : List UInt8 :=
  ascii ",\n\x7b\n" ++ (message.attachments.flatMap Attachment.line ++ ascii "\x7d" ++ ascii "\n")

def Message.printed (radix : Nat) (message : Message) : List UInt8 :=
  numeral radix message.fromUser.toNat ++ (ascii ", " ++ (numeral radix message.toUser.toNat ++
    (ascii ", \"" ++ (message.text ++ (ascii "\"" ++ message.printedRest)))))

namespace Ostream

/-- After `output` the text was printed, and numbers are in `base` from there on. -/
structure Shows (output next : Ostream) (text : List UInt8) (base : Basefield) : Prop where
  written : next.written = output.written ++ text
  base : next.base = base
  width : next.width = 0

namespace Shows

variable {output next : Ostream} {text : List UInt8} {base : Basefield}

theorem start (ready : output.width = 0) : Shows output output [] output.base :=
  ⟨(List.append_nil _).symm, rfl, ready⟩

theorem put (shown : Shows output next text base) (characters : List UInt8) :
    Shows output (next.put characters) (text ++ characters) base where
  written := by
    rw [Ostream.put, shown.width, padded, Nat.zero_sub, shown.written, List.append_assoc]
    rfl
  base := shown.base
  width := rfl

theorem putNumber (shown : Shows output next text base) (number : Nat) :
    Shows output (next.putNumber number) (text ++ numeral base.radix number) base := by
  rw [Ostream.putNumber, shown.base]
  exact shown.put _

theorem hex (shown : Shows output next text base) : Shows output next.hex text .hex :=
  ⟨shown.written, rfl, shown.width⟩

theorem dec (shown : Shows output next text base) : Shows output next.dec text .dec :=
  ⟨shown.written, rfl, shown.width⟩

/-- The width and the fill are set for each byte. -/
theorem putByte (shown : Shows output next text .hex) (byte : UInt8) :
    Shows output (next.putByte byte) (text ++ printedByte byte) .hex := by
  have digits : Shows output (((next.setw 2).setfill 0x30).putNumber byte.toNat)
      (text ++ padded 2 0x30 (numeral 16 byte.toNat)) .hex := by
    refine ⟨?_, shown.base, rfl⟩
    rw [← List.append_assoc, ← shown.written]
    simp only [Ostream.putNumber, Ostream.put, setw, setfill, shown.base]
    rfl
  have blank := digits.put (ascii " ")
  rwa [List.append_assoc] at blank

theorem putBytes (shown : Shows output next text .hex) (bytes : List UInt8) :
    Shows output (bytes.foldl Ostream.putByte next) (text ++ bytes.flatMap printedByte) .hex := by
  induction bytes generalizing next text with
  | nil =>
      rw [List.flatMap_nil, List.append_nil]
      exact shown
  | cons byte rest ih =>
      have following := ih (shown.putByte byte)
      rwa [List.append_assoc] at following

theorem putAttachment (shown : Shows output next text base) (attachment : Attachment) :
    Shows output (next.putAttachment attachment) (text ++ attachment.printed) .dec := by
  have printed := (((shown.put (ascii "\x7b ")).hex.putBytes attachment.buffer).dec).put
    (ascii "\x7d")
  simp only [List.append_assoc] at printed
  exact printed

theorem putLine (shown : Shows output next text base) (attachment : Attachment) :
    Shows output (next.putLine attachment) (text ++ attachment.line) .dec := by
  have printed := ((shown.put (ascii "\t")).putAttachment attachment).put (ascii "\n")
  simp only [List.append_assoc] at printed
  exact printed

/-- An attachment leaves the stream decimal, whatever it was before. -/
theorem putLines (shown : Shows output next text base) (attachments : List Attachment) :
    Shows output (attachments.foldl Ostream.putLine next)
      (text ++ attachments.flatMap Attachment.line)
      (if attachments = [] then base else .dec) := by
  induction attachments generalizing next text base with
  | nil =>
      rw [List.flatMap_nil, List.append_nil]
      exact shown
  | cons attachment rest ih =>
      have following := ih (shown.putLine attachment)
      rw [List.append_assoc, ite_self] at following
      exact following

end Shows

theorem putMessage_shows {output : Ostream} (ready : output.width = 0) (message : Message) :
    Shows output (output.putMessage message) (message.printed output.base.radix)
      (if message.attachments = [] then output.base else .dec) := by
  have fromUser := ((Shows.start ready).putNumber message.fromUser.toNat).put (ascii ", ")
  have toUser := (fromUser.putNumber message.toUser.toNat).put (ascii ", \"")
  have text := (toUser.put message.text).put (ascii "\",\n\x7b\n")
  have printed := (text.putLines message.attachments).put (ascii "\x7d\n")
  simp only [List.append_assoc, List.nil_append] at printed
  simp only [Message.printed, Message.printedRest, List.append_assoc]
  exact printed

end Ostream

/-! How what is printed is read. -/

theorem numeral_injective {radix : Nat} (many : 1 < radix) (few : radix ≤ 16) :
    Function.Injective (numeral radix) := by
  intro first second same
  rw [← valueOf_numeral many few first, same, valueOf_numeral many few second]

theorem not_mem_numeral {radix : Nat} (many : 1 < radix) (few : radix ≤ 16) {byte : UInt8}
    (mark : byte ∈ ascii " ,\"\t\n\x7b\x7d") (number : Nat) : byte ∉ numeral radix number :=
  fun among => not_digit byte mark (digit_of_mem_numeral many few among)

theorem valueOf_padded {radix : Nat} (many : 1 < radix) (few : radix ≤ 16) (width number : Nat) :
    valueOf radix (padded width 0x30 (numeral radix number)) = number := by
  have zeros : ∀ count digits,
      valueOf radix (List.replicate count 0x30 ++ digits) = valueOf radix digits := by
    intro count digits
    induction count with
    | zero => rfl
    | succ count ih =>
        rw [← ih]
        simp [valueOf, List.replicate_succ, digitOf]
  rw [padded, zeros, valueOf_numeral many few]

theorem digit_of_mem_padded {radix : Nat} (many : 1 < radix) (few : radix ≤ 16)
    {width number : Nat} {byte : UInt8}
    (among : byte ∈ padded width 0x30 (numeral radix number)) : Digit byte := by
  rcases List.mem_append.mp among with padding | digits
  · exact ⟨0, by decide, (List.mem_replicate.mp padding).2⟩
  · exact digit_of_mem_numeral many few digits

theorem printedByte_unambiguous : Unambiguous printedByte := by
  have injective : Function.Injective fun byte : UInt8 =>
      padded 2 0x30 (numeral 16 byte.toNat) := by
    intro first second same
    have values := congrArg (valueOf 16) same
    simp only [valueOf_padded (show 1 < 16 by decide) (Nat.le_refl 16)] at values
    exact UInt8.toNat_inj.mp values
  have free : ∀ byte : UInt8, 0x20 ∉ padded 2 0x30 (numeral 16 byte.toNat) :=
    fun byte among =>
      not_digit 0x20 (by decide) (digit_of_mem_padded (by decide) (by decide) among)
  exact .ended injective free

theorem printedByte_starts (byte : UInt8) :
    ∃ symbol rest, printedByte byte = symbol :: rest ∧ symbol ≠ 0x7d := by
  have filled : padded 2 0x30 (numeral 16 byte.toNat) ≠ [] := by
    intro none
    have digits := (List.append_eq_nil_iff.mp none).2
    exact Nat.toDigits_ne_nil (List.map_eq_nil_iff.mp digits)
  obtain ⟨symbol, rest, start⟩ := List.exists_cons_of_ne_nil filled
  refine ⟨symbol, rest ++ ascii " ", congrArg (· ++ ascii " ") start, ?_⟩
  rintro rfl
  have among : 0x7d ∈ padded 2 0x30 (numeral 16 byte.toNat) := start ▸ List.mem_cons_self
  exact not_digit 0x7d (by decide) (digit_of_mem_padded (by decide) (by decide) among)

theorem Attachment.line_unambiguous : Unambiguous Attachment.line := by
  have bytes : Unambiguous fun attachment : Attachment =>
      attachment.buffer.flatMap printedByte ++ ascii "\x7d" := by
    refine (printedByte_unambiguous.list printedByte_starts).comp ?_
    intro first second same
    cases first
    cases same
    rfl
  have closed := bytes.within (ascii "\t" ++ ascii "\x7b ") (ascii "\n")
  intro first second rest more same
  apply closed
  simpa only [line, printed, List.append_assoc] using same

theorem Message.printedRest_injective {first second : Message}
    (same : first.printedRest = second.printedRest) : first.attachments = second.attachments := by
  have starts : ∀ attachment : Attachment,
      ∃ symbol rest, attachment.line = symbol :: rest ∧ symbol ≠ 0x7d :=
    fun attachment => ⟨0x09, attachment.printed ++ ascii "\n", rfl, by decide⟩
  have lines : Unambiguous fun attachments : List Attachment =>
      attachments.flatMap Attachment.line ++ ascii "\x7d" :=
    Attachment.line_unambiguous.list starts
  exact (lines.within (ascii ",\n\x7b\n") (ascii "\n")).injective same

theorem Message.quote_not_mem_printedRest (message : Message) : 0x22 ∉ message.printedRest := by
  have byte : ∀ byte, 0x22 ∉ printedByte byte := by
    intro byte among
    rcases List.mem_append.mp among with digits | blank
    · exact not_digit 0x22 (by decide) (digit_of_mem_padded (by decide) (by decide) digits)
    · exact absurd blank (by decide)
  have line : ∀ attachment : Attachment, 0x22 ∉ attachment.line := by
    intro attachment among
    simp only [Attachment.line, Attachment.printed, List.mem_append, List.mem_flatMap] at among
    rcases among with tab | (opening | ⟨value, -, within⟩ | closing) | newline
    · exact absurd tab (by decide)
    · exact absurd opening (by decide)
    · exact byte value within
    · exact absurd closing (by decide)
    · exact absurd newline (by decide)
  intro among
  simp only [printedRest, List.mem_append, List.mem_flatMap] at among
  rcases among with opening | (⟨attachment, -, within⟩ | closing) | newline
  · exact absurd opening (by decide)
  · exact line attachment within
  · exact absurd closing (by decide)
  · exact absurd newline (by decide)

theorem Message.printed_injective {radix : Nat} (many : 1 < radix) (few : radix ≤ 16) :
    Function.Injective (Message.printed radix) := by
  have comma : ∀ number, 0x2c ∉ numeral radix number :=
    not_mem_numeral many few (by decide)
  intro first second same
  obtain ⟨sender, same⟩ := split_at_first (comma _) (comma _) same
  obtain ⟨receiver, same⟩ := split_at_first (comma _) (comma _) (List.cons.inj same).2
  -- the text may hold quotes, what follows it may not
  have written := (List.cons.inj (List.cons.inj same).2).2
  obtain ⟨text, rest⟩ := split_at_last first.quote_not_mem_printedRest
    second.quote_not_mem_printedRest written
  have attachments := Message.printedRest_injective rest
  have fromUser := UInt64.toNat_inj.mp (numeral_injective many few sender)
  have toUser := UInt64.toNat_inj.mp (numeral_injective many few receiver)
  cases first
  cases second
  simp only [Message.mk.injEq]
  exact ⟨attachments, text, fromUser, toUser⟩

theorem Basefield.radix_bounds (base : Basefield) : 1 < base.radix ∧ base.radix ≤ 16 := by
  cases base <;> decide

/-- What a stream that pads nothing prints for a message is printed for no other message,
whatever its text holds and in whatever base the stream writes numbers. The stream still
pads nothing afterwards, but it writes decimal numbers where the message has attachments. -/
theorem message_printed_once {output : Ostream} (ready : output.width = 0) (message : Message) :
    (∀ other, (output.putMessage other).written = (output.putMessage message).written →
      other = message) ∧
    (output.putMessage message).width = 0 ∧
    (output.putMessage message).base =
      if message.attachments = [] then output.base else .dec := by
  have shown := Ostream.putMessage_shows ready message
  refine ⟨fun other same => ?_, shown.width, shown.base⟩
  obtain ⟨many, few⟩ := output.base.radix_bounds
  rw [(Ostream.putMessage_shows ready other).written, shown.written] at same
  exact Message.printed_injective many few (List.append_cancel_left same)

/-- A text that looks like the end of a message. -/
theorem message_printed_once_quotes :
    ((Ostream.mk [] .hex 0x20 0).putMessage ⟨[], ascii "a\",\n\x7b\n\x7d\n", 1, 2⟩).written ≠
      ((Ostream.mk [] .hex 0x20 0).putMessage ⟨[], ascii "a", 1, 2⟩).written := by
  intro same
  have equal := (message_printed_once rfl _).1 _ same
  cases equal

end ModernCppHw
