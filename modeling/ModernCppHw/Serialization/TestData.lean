import ModernCppHw.Serialization.MsgPackMessages

/-! Test data: random messages are written to a file, and the tests and the benchmarks read
it. What they read is what was generated, or they give up. -/

set_option autoImplicit false

namespace ModernCppHw

open MsgPack Stateful

namespace MessageVector

variable {library : MsgPackLibrary} {vector : MessageVector} {sbuf : List UInt8}

theorem packable_of_packed (conforms : library.Conforms)
    (packed : vector.toMsgpackBuffer library = .ok sbuf) :
    vector.packable = true ∧ sbuf = vector.msgObject.encode := by
  rw [conforms.packs_vector.packed] at packed
  split at packed
  · next packable =>
      cases packed
      exact ⟨packable, rfl⟩
  · cases packed

theorem unpack_of_cut (conforms : library.Conforms)
    (packed : vector.toMsgpackBuffer library = .ok sbuf) {stored rest : List UInt8}
    (split : stored ++ rest = sbuf) (cut : rest ≠ []) :
    library.unpack stored = .error .insufficientBytes := by
  obtain ⟨packable, rfl⟩ := packable_of_packed conforms packed
  rw [conforms.unpack, load_of_cut (conforms.packs_vector.fits vector packable) cut split]
  rfl

theorem unpack_append (conforms : library.Conforms)
    (packed : vector.toMsgpackBuffer library = .ok sbuf) (extra : List UInt8) :
    library.unpack (sbuf ++ extra) = .ok vector.msgObject := by
  obtain ⟨packable, rfl⟩ := packable_of_packed conforms packed
  rw [conforms.unpack, load_encode_append (conforms.packs_vector.fits vector packable)]
  rfl

end MessageVector

/-- Messages whose bytes are cut anywhere are never taken for others: the constructor
throws. Bytes that follow the messages are not looked at. -/
theorem msgpack_cut {library : MsgPackLibrary} (conforms : library.Conforms)
    {vector : MessageVector} {sbuf : List UInt8}
    (packed : vector.toMsgpackBuffer library = .ok sbuf) :
    (∀ stored rest, stored ++ rest = sbuf → rest ≠ [] →
      MessageVector.ofMsgpackBuffer library stored = .error .insufficientBytes) ∧
    ∀ extra, MessageVector.ofMsgpackBuffer library (sbuf ++ extra) = .ok vector := by
  constructor
  · intro stored rest split cut
    have stopped := MessageVector.unpack_of_cut conforms packed split cut
    exact Fallible.bind_eq_error_iff.mpr (.inl stopped)
  · intro extra
    have unpacked := MessageVector.unpack_append conforms packed extra
    exact Fallible.bind_eq_ok_iff.mpr ⟨_, unpacked, conforms.unpack_vector vector⟩

/-- The last byte of an attachment is missing. -/
theorem msgpack_cut_last :
    MessageVector.ofMsgpackBuffer .standard
        [0x91, 0x94, 1, 2, 0xa1, 104, 0x91, 0x91, 0xc4, 2, 7] = .error .insufficientBytes := by
  have packed : (MessageVector.mk [⟨[⟨[7, 8]⟩], [104], 1, 2⟩]).toMsgpackBuffer .standard =
      .ok [0x91, 0x94, 1, 2, 0xa1, 104, 0x91, 0x91, 0xc4, 2, 7, 8] := by
    decide
  exact (msgpack_cut MsgPackLibrary.standard_conforms packed).1 _ [8] rfl (List.cons_ne_nil _ _)

/-! The generator. -/

namespace TestData

/-- The random values that are drawn, and what is printable. The counts and sizes of
attachments are products of a constant and a value that is gamma distributed. -/
structure Random (Prng : Type) where
  symbol : Prng → Int × Prng
  byte : Prng → UInt8 × Prng
  userId : Prng → UInt64 × Prng
  uniform : (least most : Nat) → Prng → Nat × Prng
  attachCount : (most : Nat) → Prng → Nat × Prng
  attachSize : (most : Nat) → Prng → Nat × Prng
  isprint : Int → Bool

/-- `std::uniform_int_distribution` keeps to its bounds. -/
def Random.Sound {Prng : Type} (random : Random Prng) : Prop :=
  ∀ least most, least ≤ most → ∀ prng,
    least ≤ (random.uniform least most prng).1 ∧ (random.uniform least most prng).1 ≤ most

/-- What has not ended after so many attempts has no result. -/
inductive Unfinished where
  | unfinished
  deriving DecidableEq

abbrev Generator (Prng Value : Type) := StateT Prng (Except Unfinished) Value

variable {Prng Value Result : Type}

def draw (next : Prng → Value × Prng) : Generator Prng Value := fun prng => .ok (next prng)

/-- The loops that draw again until the value suits. -/
def drawUntil (suits : Value → Bool) (next : Prng → Value × Prng) : Nat → Generator Prng Value
  | 0 => fun _ => .error .unfinished
  | attempts + 1 => do
      let value ← draw next
      if suits value then return value else drawUntil suits next attempts

structure Options where
  count : Nat
  textFrom : Nat
  textTo : Nat
  attachCountFrom : Nat
  attachCountTo : Nat
  attachSizeFrom : Nat
  attachSizeTo : Nat

/-- What the options are where they are not given. -/
def Options.default : Options where
  count := 1000
  textFrom := 0
  textTo := 250
  attachCountFrom := 0
  attachCountTo := 10
  attachSizeFrom := 2 ^ 9
  attachSizeTo := 2 ^ 22

variable (random : Random Prng) (attempts : Nat) (options : Options)

def generateText (size : Nat) : Generator Prng (List UInt8) := do
  let symbols ← times (drawUntil random.isprint random.symbol attempts) size
  return symbols.map UInt8.ofInt

def generateAttachment (size : Nat) : Generator Prng Attachment := do
  let buffer ← times (draw random.byte) size
  return { buffer }

def generateMessage : Generator Prng Message := do
  let fromUser ← draw random.userId
  let toUser ← draw random.userId
  let size ← draw (random.uniform options.textFrom options.textTo)
  let text ← generateText random attempts size
  let attachCount ← drawUntil
    (fun count => options.attachCountFrom ≤ count && count ≤ options.attachCountTo)
    (random.attachCount options.attachCountTo) attempts
  let attachments ← times (do
    let attachSize ← drawUntil
      (fun size => options.attachSizeFrom ≤ size && size ≤ options.attachSizeTo)
      (random.attachSize options.attachSizeTo) attempts
    generateAttachment random attachSize) attachCount
  return { attachments, text, fromUser, toUser }

def generateVectorOfMessages : Generator Prng (List Message) :=
  times (generateMessage random attempts options) options.count

/-- `main` of the generator, once the options are known: what it returns, and what it
writes to the output file, if it can be opened. -/
def generateData (library : MsgPackLibrary) (opened : Bool) (prng : Prng) :
    Except Unfinished (Nat × Option (List UInt8)) :=
  if options.textFrom > options.textTo then .ok (1, none)
  else if options.attachCountFrom > options.attachCountTo then .ok (1, none)
  else if options.attachSizeFrom > options.attachSizeTo then .ok (1, none)
  else
    match generateVectorOfMessages random attempts options prng with
    | .error endless => .error endless
    | .ok (messages, _) =>
        match library.packVector (Message.msgpackPack library) messages with
        | .error _ => .ok (1, none)
        | .ok sbuf => if opened then .ok (0, some sbuf) else .ok (1, none)

/-- What `main` of the tests and of the benchmarks makes of the input file, if it can be
opened: the messages, or what `main` returns instead. -/
def loadMessages (library : MsgPackLibrary) (file : Option (List UInt8)) :
    Except Nat MessageVector :=
  match file with
  | none => .error 1
  | some buffer =>
      match library.unpack buffer with
      | .error _ => .error 1
      | .ok oh =>
          match MessageVector.ofMsgpackDom library oh with
          | .error _ => .error 1
          | .ok messages => .ok messages

/-- The lower bounds are not above the upper ones. -/
structure Options.Ordered (options : Options) : Prop where
  text : options.textFrom ≤ options.textTo
  attachCount : options.attachCountFrom ≤ options.attachCountTo
  attachSize : options.attachSizeFrom ≤ options.attachSizeTo

/-- Whatever is generated can be packed. -/
structure Options.Narrow (options : Options) : Prop where
  count : options.count < 2 ^ 32
  text : options.textTo < 2 ^ 32
  attachCount : options.attachCountTo < 2 ^ 32
  attachSize : options.attachSizeTo < 2 ^ 32

theorem Options.default_ordered : Options.default.Ordered := ⟨by decide, by decide, by decide⟩

theorem Options.default_narrow : Options.default.Narrow :=
  ⟨by decide, by decide, by decide, by decide⟩

/-- A message is as the options ask. -/
structure Options.Allows (options : Options) (isprint : Int → Bool) (message : Message) :
    Prop where
  text : options.textFrom ≤ message.text.length ∧ message.text.length ≤ options.textTo
  printable : ∃ symbols : List Int, message.text = symbols.map UInt8.ofInt ∧
    ∀ symbol ∈ symbols, isprint symbol
  attachCount : options.attachCountFrom ≤ message.attachments.length ∧
    message.attachments.length ≤ options.attachCountTo
  attachSize : ∀ attachment ∈ message.attachments,
    options.attachSizeFrom ≤ attachment.buffer.length ∧
      attachment.buffer.length ≤ options.attachSizeTo

variable {random} {options}

theorem drawUntil_yields {suits : Value → Bool} {next : Prng → Value × Prng} (attempts : Nat) :
    Yields (drawUntil suits next attempts) (fun value => suits value = true) := by
  induction attempts with
  | zero => exact .fail fun _ => rfl
  | succ attempts ih =>
      refine (Yields.any _).bind fun value _ => ?_
      split
      · next suitable => exact .pure suitable
      · exact ih

theorem draw_yields {next : Prng → Value × Prng} {post : Value → Prop}
    (each : ∀ prng, post (next prng).1) : Yields (draw next) post := by
  intro prng value later ended
  have drawn : (next prng).1 = value := congrArg Prod.fst (Except.ok.inj ended)
  rw [← drawn]
  exact each prng

theorem generateText_yields (size : Nat) :
    Yields (generateText random attempts size) (fun text => text.length = size ∧
      ∃ symbols : List Int, text = symbols.map UInt8.ofInt ∧
        ∀ symbol ∈ symbols, random.isprint symbol) := by
  refine ((drawUntil_yields attempts).times size).bind fun symbols all => ?_
  refine .pure ⟨?_, symbols, rfl, all.2⟩
  rw [List.length_map]
  exact all.1

theorem generateAttachment_yields (size : Nat) :
    Yields (generateAttachment random size)
      (fun attachment => attachment.buffer.length = size) := by
  refine ((Yields.any _).times size).bind fun buffer all => ?_
  exact .pure all.1

theorem generateMessage_yields (sound : random.Sound) (ordered : options.Ordered) :
    Yields (generateMessage random attempts options) (options.Allows random.isprint) := by
  have textSize : Yields (draw (random.uniform options.textFrom options.textTo))
      (fun size => options.textFrom ≤ size ∧ size ≤ options.textTo) :=
    draw_yields (sound _ _ ordered.text)
  refine (Yields.any _).bind fun fromUser _ => ?_
  refine (Yields.any _).bind fun toUser _ => ?_
  refine textSize.bind fun size bounded => ?_
  refine (generateText_yields attempts size).bind fun text written => ?_
  refine (drawUntil_yields attempts).bind fun count counted => ?_
  have attachment : Yields (do
      let attachSize ← drawUntil
        (fun size => options.attachSizeFrom ≤ size && size ≤ options.attachSizeTo)
        (random.attachSize options.attachSizeTo) attempts
      generateAttachment random attachSize) (fun attachment =>
        options.attachSizeFrom ≤ attachment.buffer.length ∧
          attachment.buffer.length ≤ options.attachSizeTo) := by
    refine (drawUntil_yields attempts).bind fun size suitable => ?_
    intro prng attachment later ended
    rw [generateAttachment_yields size prng attachment later ended]
    simpa using suitable
  refine (attachment.times count).bind fun attachments all => .pure ?_
  exact {
    text := written.1 ▸ bounded
    printable := written.2
    attachCount := all.1 ▸ by simpa using counted
    attachSize := all.2
  }

theorem Options.Allows.packable {isprint : Int → Bool} {message : Message}
    (allows : options.Allows isprint message) (narrow : options.Narrow) :
    message.packable = true := by
  have text := Nat.lt_of_le_of_lt allows.text.2 narrow.text
  have count := Nat.lt_of_le_of_lt allows.attachCount.2 narrow.attachCount
  have sizes : message.attachments.all Attachment.packable = true :=
    List.all_eq_true.mpr fun attachment among => decide_eq_true
      (Nat.lt_of_le_of_lt (allows.attachSize attachment among).2 narrow.attachSize)
  rw [Message.packable, decide_eq_true text, decide_eq_true count, sizes]
  rfl

/-- The options are looked at before anything is drawn. -/
theorem generateData_of_unordered {library : MsgPackLibrary} {opened : Bool} {prng : Prng}
    (unordered : ¬ options.Ordered) :
    generateData random attempts options library opened prng = .ok (1, none) := by
  unfold generateData
  by_cases text : options.textFrom > options.textTo
  · rw [if_pos text]
  by_cases attachCount : options.attachCountFrom > options.attachCountTo
  · rw [if_neg text, if_pos attachCount]
  by_cases attachSize : options.attachSizeFrom > options.attachSizeTo
  · rw [if_neg text, if_neg attachCount, if_pos attachSize]
  exact absurd ⟨Nat.not_lt.mp text, Nat.not_lt.mp attachCount, Nat.not_lt.mp attachSize⟩ unordered

theorem generateData_of_ordered {library : MsgPackLibrary} {opened : Bool} {prng : Prng}
    {exit : Nat} {written : Option (List UInt8)} (ordered : options.Ordered)
    (ended : generateData random attempts options library opened prng = .ok (exit, written)) :
    ∃ messages later, generateVectorOfMessages random attempts options prng =
        .ok (messages, later) ∧
      ((exit = 1 ∧ written = none ∧
          (opened = true → ∃ thrown,
            (MessageVector.mk messages).toMsgpackBuffer library = .error thrown)) ∨
        (exit = 0 ∧ ∃ sbuf, (MessageVector.mk messages).toMsgpackBuffer library = .ok sbuf ∧
          written = some sbuf)) := by
  unfold generateData at ended
  rw [if_neg (Nat.not_lt.mpr ordered.text), if_neg (Nat.not_lt.mpr ordered.attachCount),
    if_neg (Nat.not_lt.mpr ordered.attachSize)] at ended
  split at ended
  · cases ended
  rename_i messages later generated
  refine ⟨messages, later, generated, ?_⟩
  split at ended
  · next thrown failed =>
      cases ended
      exact .inl ⟨rfl, rfl, fun _ => ⟨thrown, failed⟩⟩
  · next sbuf packed =>
      cases opened with
      | false =>
          cases ended
          exact .inl ⟨rfl, rfl, fun opened => by cases opened⟩
      | true =>
          cases ended
          exact .inr ⟨rfl, sbuf, packed, rfl⟩

theorem loadMessages_of_unpack {library : MsgPackLibrary} (conforms : library.Conforms)
    {vector : MessageVector} {buffer : List UInt8}
    (unpacked : library.unpack buffer = .ok vector.msgObject) :
    loadMessages library (some buffer) = .ok vector := by
  simp only [loadMessages, unpacked, conforms.unpack_vector]

theorem code_of_not_loaded {library : MsgPackLibrary} {file : Option (List UInt8)} {code : Nat}
    (failed : loadMessages library file = .error code) : code = 1 := by
  unfold loadMessages at failed
  repeat' split at failed
  all_goals cases failed
  all_goals rfl

end TestData

open TestData

/-- What the generator leaves: nothing, where it returns 1, and else a file of messages as
the options ask. Of the file the tests and the benchmarks read the same messages, and
should any of it be missing, they return 1 as well. The options alone decide whether there
is a file, as long as it can be opened and they ask for nothing that has no encoding. -/
theorem generated_data_loads {Prng : Type} {random : Random Prng} {library : MsgPackLibrary}
    (conforms : library.Conforms) (sound : random.Sound) {attempts : Nat} {options : Options}
    {opened : Bool} {prng : Prng} {exit : Nat} {written : Option (List UInt8)}
    (ended : generateData random attempts options library opened prng = .ok (exit, written)) :
    (exit = 1 ∧ written = none ∧ ¬ (opened = true ∧ options.Ordered ∧ options.Narrow)) ∨
    (exit = 0 ∧ options.Ordered ∧ ∃ vector sbuf, written = some sbuf ∧
      vector.messages.length = options.count ∧
      (∀ message ∈ vector.messages, options.Allows random.isprint message) ∧
      ∀ stored rest, stored ++ rest = sbuf →
        loadMessages library (some stored) = if rest = [] then .ok vector else .error 1) := by
  by_cases ordered : options.Ordered
  · obtain ⟨messages, later, generated, outcome⟩ := generateData_of_ordered attempts ordered ended
    obtain ⟨count, allowed⟩ := (generateMessage_yields attempts sound ordered).times options.count
      prng messages later generated
    rcases outcome with ⟨rfl, rfl, thrown⟩ | ⟨rfl, sbuf, packed, rfl⟩
    · refine .inl ⟨rfl, rfl, fun both => ?_⟩
      obtain ⟨isOpen, -, narrow⟩ := both
      obtain ⟨reason, failed⟩ := thrown isOpen
      have packable : (MessageVector.mk messages).packable = true := by
        rw [MessageVector.packable, count, decide_eq_true narrow.count, Bool.true_and]
        exact List.all_eq_true.mpr fun message among => (allowed message among).packable narrow
      rw [conforms.packs_vector.packed, if_pos packable] at failed
      cases failed
    · refine .inr ⟨rfl, ordered, ⟨messages⟩, sbuf, rfl, count, allowed, ?_⟩
      intro stored rest split
      by_cases whole : rest = []
      · have unpacked := MessageVector.unpack_append conforms packed []
        rw [List.append_nil, ← split, whole, List.append_nil] at unpacked
        rw [if_pos whole]
        exact loadMessages_of_unpack conforms unpacked
      · have stopped := MessageVector.unpack_of_cut conforms packed split whole
        rw [if_neg whole, loadMessages]
        simp only [stopped]
  · rw [generateData_of_unordered attempts ordered] at ended
    cases ended
    exact .inl ⟨rfl, rfl, fun both => ordered both.2.1⟩

/-- Every value that is drawn is what was drawn before it, and one. -/
def TestData.Random.counting : Random Nat where
  symbol := fun drawn => (drawn, drawn + 1)
  byte := fun drawn => (UInt8.ofNat drawn, drawn + 1)
  userId := fun drawn => (UInt64.ofNat drawn, drawn + 1)
  uniform := fun least _ drawn => (least, drawn + 1)
  attachCount := fun most drawn => (most, drawn + 1)
  attachSize := fun most drawn => (most, drawn + 1)
  isprint := fun symbol => 0x20 ≤ symbol && symbol ≤ 0x7e

/-- A message of two characters and one attachment. -/
theorem generated_data_loads_counting :
    ∃ vector, vector.messages.length = 1 ∧
      loadMessages .standard (some [0x91, 0x94, 28, 29, 0xa2, 32, 33, 0x91, 0x91, 0xc4, 1, 36]) =
        .ok vector ∧
      loadMessages .standard (some [0x91, 0x94, 28, 29, 0xa2, 32, 33, 0x91, 0x91, 0xc4, 1]) =
        .error 1 := by
  have sound : Random.counting.Sound := fun least _ ordered _ => ⟨Nat.le_refl least, ordered⟩
  have ended : generateData Random.counting 10 ⟨1, 2, 3, 1, 1, 1, 1⟩ .standard true 28 =
      .ok (0, some [0x91, 0x94, 28, 29, 0xa2, 32, 33, 0x91, 0x91, 0xc4, 1, 36]) := by
    decide
  rcases generated_data_loads MsgPackLibrary.standard_conforms sound ended with
    ⟨failed, -⟩ | ⟨-, -, vector, sbuf, same, count, -, loads⟩
  · cases failed
  · cases same
    exact ⟨vector, count, loads _ [] (List.append_nil _),
      loads [0x91, 0x94, 28, 29, 0xa2, 32, 33, 0x91, 0x91, 0xc4, 1] [36] rfl⟩

end ModernCppHw
