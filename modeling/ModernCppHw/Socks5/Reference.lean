import ModernCppHw.Socks5.HandshakeProperties

/-! The grammar of the client's handshake, and a parser that reads the whole of
what the client has sent at once. Decoding can stop where bytes are missing and
go on when they have come, and gives what the parser gives. -/

set_option autoImplicit false

namespace ModernCppHw.Socks5

/-- `05 n m1 .. mn`, with a method that needs no authentication among the `n`. -/
inductive Greets : List Byte → Prop where
  | intro {methods : List Byte} :
      0x00 ∈ methods → methods.length < 256 →
      Greets (0x05 :: UInt8.ofNat methods.length :: methods)

/-- `05 01 00` and what follows it for each type of address. -/
inductive Requests : Destination → List Byte → Prop where
  | ipv4 {address : InAddr} {port : InPort} :
      Requests (.ipv4 address port)
        (0x05 :: 0x01 :: 0x00 :: 0x01 :: (address.toList ++ port.toList))
  | domainName {name : List Byte} {port : InPort} :
      name.length < 256 →
      Requests (.domainName name port)
        (0x05 :: 0x01 :: 0x00 :: 0x03 :: UInt8.ofNat name.length :: (name ++ port.toList))
  | ipv6 {address : In6Addr} {port : InPort} :
      Requests (.ipv6 address port)
        (0x05 :: 0x01 :: 0x00 :: 0x04 :: (address.toList ++ port.toList))

/-- The stream begins with a greeting and a request; `rest` follows them. -/
def Matches (stream : List Byte) (destination : Destination) (rest : List Byte) : Prop :=
  ∃ greeting request, Greets greeting ∧ Requests destination request ∧
    stream = greeting ++ request ++ rest

/-- What becomes of a session. -/
inductive Outcome where
  | reading
  | closed
  | methodsRefused
  | refused (code : Byte)
  | connecting (address : SockAddr) (rest : List Byte)
  deriving DecidableEq

/-- What names resolve to: nothing, or an address of a family the server knows. -/
structure Resolver where
  lookup : List Byte → Hostent
  known : ∀ name, lookup name ≠ .otherFamily

def Decision.outcome (resolver : Resolver) : Decision → Outcome
  | .wait _ _ | .selectMethod _ => .reading
  | .close => .closed
  | .refuseMethods _ => .methodsRefused
  | .refuse code => .refused code
  | .connect destination rest =>
      match (destination.resolve resolver.lookup).sockAddr? destination.port with
      | some address => .connecting address rest
      | none => .refused 0x04

/-- A greeting and then a request, out of all the bytes the client has sent. -/
def decodeStream (stream : List Byte) : Decision :=
  match decodeGreeting stream with
  | .selectMethod rest => decodeRequest rest
  | decision => decision

/-- The greeting is behind a session in the state. -/
def State.Greeted (state : State) : Prop :=
  state ≠ .readingClientGreeting ∧ state ≠ .readingAuthMethods

/-- The decision is one about a connection request. -/
def Decision.Greeted : Decision → Prop
  | .wait phase _ => phase.state.Greeted
  | .refuse _ | .connect _ _ => True
  | .close | .selectMethod _ | .refuseMethods _ => False

theorem decodeAddress_greeted (kind : AddressKind) (bytes : List Byte) :
    (decodeAddress kind bytes).Greeted := by
  unfold decodeAddress
  split
  · trivial
  · have greeted : State.Greeted .readingAddress := ⟨by decide, by decide⟩
    exact greeted

theorem decodeDomainNameLength_greeted (bytes : List Byte) :
    (decodeDomainNameLength bytes).Greeted := by
  cases bytes with
  | nil => exact ⟨by decide, by decide⟩
  | cons length rest => exact decodeAddress_greeted _ _

theorem decodeRequest_greeted (bytes : List Byte) : (decodeRequest bytes).Greeted := by
  unfold decodeRequest
  split
  · split
    · trivial
    · split
      · exact decodeAddress_greeted _ _
      · split
        · exact decodeDomainNameLength_greeted _
        · split
          · exact decodeAddress_greeted _ _
          · trivial
  · exact ⟨by decide, by decide⟩

theorem decode_greeted {phase : Phase} (greeted : phase.state.Greeted) (bytes : List Byte) :
    (decode phase bytes).Greeted := by
  cases phase with
  | greeting => exact absurd rfl greeted.1
  | methods => exact absurd rfl greeted.2
  | request => exact decodeRequest_greeted bytes
  | domainNameLength => exact decodeDomainNameLength_greeted bytes
  | address kind => exact decodeAddress_greeted kind bytes

theorem decodeMethods_ungreeted (count : Nat) (bytes : List Byte) :
    ¬ (decodeMethods count bytes).Greeted := by
  unfold decodeMethods
  split
  · exact fun greeted => greeted.2 rfl
  · split <;> exact id

theorem decodeGreeting_ungreeted (stream : List Byte) : ¬ (decodeGreeting stream).Greeted := by
  unfold decodeGreeting
  split
  · split
    · exact id
    · exact decodeMethods_ungreeted _ _
  · exact fun greeted => greeted.1 rfl

/-! The parser accepts just the grammar. -/

namespace Destination

def kind : Destination → AddressKind
  | .ipv4 _ _ => .ipv4
  | .domainName name _ => .domainName name.length
  | .ipv6 _ _ => .ipv6

/-- The address or name, and the port. -/
def bytes : Destination → List Byte
  | .ipv4 address port => address.toList ++ port.toList
  | .domainName name port => name ++ port.toList
  | .ipv6 address port => address.toList ++ port.toList

@[simp] theorem length_bytes (destination : Destination) :
    destination.bytes.length = destination.kind.length := by
  cases destination <;> simp [bytes, kind, AddressKind.length]

end Destination

theorem slice_eq {bytes : List Byte} {offset length : Nat} {within : offset + length ≤ bytes.length}
    {vector : List.Vector Byte length} (same : (bytes.drop offset).take length = vector.toList) :
    slice bytes offset length within = vector :=
  Subtype.ext same

theorem AddressKind.read_kind (kind : AddressKind) {bytes : List Byte}
    (within : kind.length ≤ bytes.length) : (kind.read bytes within).kind = kind := by
  cases kind with
  | ipv4 | ipv6 => rfl
  | domainName length =>
      have enough : length ≤ bytes.length := Nat.le_trans (Nat.le_add_right _ _) within
      simp [read, Destination.kind, enough]

theorem AddressKind.read_bytes (kind : AddressKind) {bytes : List Byte}
    (within : kind.length ≤ bytes.length) :
    (kind.read bytes within).bytes = bytes.take kind.length := by
  cases kind with
  | ipv4 | ipv6 => exact (List.take_add ..).symm
  | domainName length => exact (List.take_add ..).symm

theorem AddressKind.read_append (destination : Destination) (rest : List Byte)
    (within : destination.kind.length ≤ (destination.bytes ++ rest).length) :
    destination.kind.read (destination.bytes ++ rest) within = destination := by
  cases destination with
  | ipv4 address port =>
      simp only [Destination.kind, Destination.bytes, read]
      congr 1 <;> exact slice_eq (by simp)
  | domainName name port =>
      simp only [Destination.kind, Destination.bytes, read]
      congr 1
      · simp
      · exact slice_eq (by simp)
  | ipv6 address port =>
      simp only [Destination.kind, Destination.bytes, read]
      congr 1 <;> exact slice_eq (by simp)

variable {bytes rest data stream : List Byte} {destination : Destination}

theorem decodeAddress_eq_connect_iff {kind : AddressKind} :
    decodeAddress kind bytes = .connect destination rest ↔
      destination.kind = kind ∧ bytes = destination.bytes ++ rest := by
  constructor
  · intro decoded
    unfold decodeAddress at decoded
    split at decoded
    · next within =>
        cases decoded
        refine ⟨kind.read_kind within, ?_⟩
        rw [kind.read_bytes within, List.take_append_drop]
    · cases decoded
  · rintro ⟨rfl, rfl⟩
    have within : destination.kind.length ≤ (destination.bytes ++ rest).length := by simp
    rw [decodeAddress_of_enough _ within, AddressKind.read_append]
    simp [← Destination.length_bytes]

theorem decodeDomainNameLength_eq_connect_iff :
    decodeDomainNameLength bytes = .connect destination rest ↔
      ∃ name port, destination = .domainName name port ∧ name.length < 256 ∧
        bytes = UInt8.ofNat name.length :: (name ++ port.toList) ++ rest := by
  constructor
  · intro decoded
    cases bytes with
    | nil => cases decoded
    | cons length tail =>
        obtain ⟨kind, rfl⟩ := decodeAddress_eq_connect_iff.mp decoded
        cases destination with
        | ipv4 | ipv6 => cases kind
        | domainName name port =>
            have counted : name.length = length.toNat := AddressKind.domainName.inj kind
            refine ⟨name, port, rfl, counted ▸ length.toNat_lt, ?_⟩
            rw [counted, UInt8.ofNat_toNat]
            rfl
  · rintro ⟨name, port, rfl, bounded, rfl⟩
    have counted : (UInt8.ofNat name.length).toNat = name.length :=
      UInt8.toNat_ofNat_of_lt bounded
    exact decodeAddress_eq_connect_iff.mpr ⟨congrArg AddressKind.domainName counted.symm, rfl⟩

theorem decodeRequest_eq_connect_iff :
    decodeRequest bytes = .connect destination rest ↔
      ∃ request, Requests destination request ∧ bytes = request ++ rest := by
  constructor
  · intro decoded
    match bytes with
    | [] | [_] | [_, _] | [_, _, _] => cases decoded
    | version :: command :: reserved :: addressType :: tail =>
        simp only [decodeRequest] at decoded
        split at decoded
        · cases decoded
        · next head =>
            simp only [not_or, not_not] at head
            obtain ⟨rfl, rfl, rfl⟩ := head
            split at decoded
            · next named =>
                subst named
                obtain ⟨kind, rfl⟩ := decodeAddress_eq_connect_iff.mp decoded
                cases destination with
                | ipv4 => exact ⟨_, .ipv4, rfl⟩
                | domainName | ipv6 => cases kind
            · split at decoded
              · next named =>
                  subst named
                  obtain ⟨name, port, rfl, bounded, rfl⟩ :=
                    decodeDomainNameLength_eq_connect_iff.mp decoded
                  exact ⟨_, .domainName bounded, rfl⟩
              · split at decoded
                · next named =>
                    subst named
                    obtain ⟨kind, rfl⟩ := decodeAddress_eq_connect_iff.mp decoded
                    cases destination with
                    | ipv6 => exact ⟨_, .ipv6, rfl⟩
                    | ipv4 | domainName => cases kind
                · cases decoded
  · rintro ⟨request, requests, rfl⟩
    cases requests with
    | ipv4 => exact decodeAddress_eq_connect_iff.mpr ⟨rfl, rfl⟩
    | domainName bounded =>
        exact decodeDomainNameLength_eq_connect_iff.mpr ⟨_, _, rfl, bounded, rfl⟩
    | ipv6 => exact decodeAddress_eq_connect_iff.mpr ⟨rfl, rfl⟩

theorem decodeMethods_eq_selectMethod_iff {count : Nat} :
    decodeMethods count bytes = .selectMethod rest ↔
      ∃ methods, methods.length = count ∧ 0x00 ∈ methods ∧ bytes = methods ++ rest := by
  constructor
  · intro decoded
    unfold decodeMethods at decoded
    split at decoded
    · cases decoded
    · next enough =>
        split at decoded
        · next offered =>
            cases decoded
            refine ⟨bytes.take count, ?_, offered, (List.take_append_drop _ _).symm⟩
            exact List.length_take_of_le (Nat.not_lt.mp enough)
        · cases decoded
  · rintro ⟨methods, rfl, offered, rfl⟩
    simp [decodeMethods, offered]

theorem decodeGreeting_of_methods {methods : List Byte} (some : methods ≠ [])
    (bounded : methods.length < 256) :
    decodeGreeting (0x05 :: UInt8.ofNat methods.length :: methods ++ rest) =
      decodeMethods methods.length (methods ++ rest) := by
  obtain ⟨first, tail, rfl⟩ := List.exists_cons_of_ne_nil some
  have counted : (UInt8.ofNat (first :: tail).length).toNat = (first :: tail).length :=
    UInt8.toNat_ofNat_of_lt bounded
  simp only [List.cons_append, decodeGreeting, counted]
  exact if_neg (by simp)

theorem decodeGreeting_eq_selectMethod_iff :
    decodeGreeting stream = .selectMethod rest ↔
      ∃ greeting, Greets greeting ∧ stream = greeting ++ rest := by
  constructor
  · intro decoded
    match stream with
    | [] | [_] | [_, _] => cases decoded
    | version :: count :: first :: tail =>
        simp only [decodeGreeting] at decoded
        split at decoded
        · cases decoded
        · next head =>
            simp only [not_or, not_not] at head
            obtain ⟨methods, counted, offered, same⟩ :=
              decodeMethods_eq_selectMethod_iff.mp decoded
            refine ⟨_, .intro offered (counted ▸ count.toNat_lt), ?_⟩
            rw [head.1, same, counted, UInt8.ofNat_toNat]
            rfl
  · rintro ⟨greeting, @⟨methods, offered, bounded⟩, rfl⟩
    rw [decodeGreeting_of_methods (List.ne_nil_of_mem offered) bounded]
    exact decodeMethods_eq_selectMethod_iff.mpr ⟨_, rfl, offered, rfl⟩

theorem decodeStream_eq_connect_iff :
    decodeStream stream = .connect destination rest ↔ Matches stream destination rest := by
  constructor
  · intro decoded
    unfold decodeStream at decoded
    split at decoded
    · next after greeted =>
        obtain ⟨greeting, greets, rfl⟩ := decodeGreeting_eq_selectMethod_iff.mp greeted
        obtain ⟨request, requests, rfl⟩ := decodeRequest_eq_connect_iff.mp decoded
        exact ⟨greeting, request, greets, requests, (List.append_assoc _ _ _).symm⟩
    · exact absurd (show (decodeGreeting stream).Greeted from decoded ▸ trivial)
        (decodeGreeting_ungreeted stream)
  · rintro ⟨greeting, request, greets, requests, rfl⟩
    have greeted : decodeGreeting (greeting ++ request ++ rest) = .selectMethod (request ++ rest) :=
      decodeGreeting_eq_selectMethod_iff.mpr ⟨greeting, greets, List.append_assoc _ _ _⟩
    simp only [decodeStream, greeted]
    exact decodeRequest_eq_connect_iff.mpr ⟨request, requests, rfl⟩

theorem Matches.unique {other : Destination} {following : List Byte}
    (first : Matches stream destination rest) (second : Matches stream other following) :
    destination = other ∧ rest = following :=
  Decision.connect.inj ((decodeStream_eq_connect_iff.mpr first).symm.trans
    (decodeStream_eq_connect_iff.mpr second))

theorem Matches.append (matched : Matches stream destination rest) (data : List Byte) :
    Matches (stream ++ data) destination (rest ++ data) := by
  obtain ⟨greeting, request, greets, requests, rfl⟩ := matched
  exact ⟨greeting, request, greets, requests, List.append_assoc _ _ _⟩

theorem decodeAddress_append {kind : AddressKind} {next : Phase}
    (waits : decodeAddress kind bytes = .wait next rest) (data : List Byte) :
    decodeAddress kind (bytes ++ data) = decode next (rest ++ data) := by
  unfold decodeAddress at waits
  split at waits <;> cases waits
  rfl

theorem decodeDomainNameLength_append {next : Phase}
    (waits : decodeDomainNameLength bytes = .wait next rest) (data : List Byte) :
    decodeDomainNameLength (bytes ++ data) = decode next (rest ++ data) := by
  cases bytes with
  | nil =>
      cases waits
      rfl
  | cons length tail => exact decodeAddress_append waits data

theorem decodeRequest_append {next : Phase} (waits : decodeRequest bytes = .wait next rest)
    (data : List Byte) : decodeRequest (bytes ++ data) = decode next (rest ++ data) := by
  match bytes with
  | [] | [_] | [_, _] | [_, _, _] =>
      cases waits
      rfl
  | version :: command :: reserved :: addressType :: tail =>
      simp only [List.cons_append, decodeRequest] at waits ⊢
      split at waits
      · cases waits
      · next head =>
          rw [if_neg head]
          split at waits
          · next named =>
              rw [if_pos named]
              exact decodeAddress_append waits data
          · next other =>
              rw [if_neg other]
              split at waits
              · next named =>
                  rw [if_pos named]
                  exact decodeDomainNameLength_append waits data
              · next unnamed =>
                  rw [if_neg unnamed]
                  split at waits
                  · next named =>
                      rw [if_pos named]
                      exact decodeAddress_append waits data
                  · cases waits

theorem decodeMethods_append {count : Nat} {next : Phase}
    (waits : decodeMethods count bytes = .wait next rest) (data : List Byte) :
    decodeMethods count (bytes ++ data) = decode next (rest ++ data) := by
  unfold decodeMethods at waits
  split at waits
  · cases waits
    rfl
  · split at waits <;> cases waits

theorem decodeGreeting_append {next : Phase} (waits : decodeGreeting bytes = .wait next rest)
    (data : List Byte) : decodeGreeting (bytes ++ data) = decode next (rest ++ data) := by
  match bytes with
  | [] | [_] | [_, _] =>
      cases waits
      rfl
  | version :: count :: first :: tail =>
      simp only [List.cons_append, decodeGreeting] at waits ⊢
      split at waits
      · cases waits
      · next head =>
          rw [if_neg head]
          exact decodeMethods_append waits data

/-- What the greeting, or the request after it, decodes to. -/
def Tells (stream : List Byte) (decision : Decision) : Prop :=
  decodeGreeting stream = decision ∨
    ∃ after, decodeGreeting stream = .selectMethod after ∧ decodeRequest after = decision

theorem Tells.resume {phase : Phase} (waits : Tells stream (.wait phase rest)) (data : List Byte) :
    Tells (stream ++ data) (decode phase (rest ++ data)) := by
  rcases waits with greeting | ⟨after, greeted, request⟩
  · exact .inl (decodeGreeting_append greeting data)
  · obtain ⟨greeting, greets, rfl⟩ := decodeGreeting_eq_selectMethod_iff.mp greeted
    refine .inr ⟨after ++ data, ?_, decodeRequest_append request data⟩
    exact decodeGreeting_eq_selectMethod_iff.mpr ⟨greeting, greets, List.append_assoc _ _ _⟩

theorem Tells.greeted (tells : Tells stream (.selectMethod rest)) :
    decodeGreeting stream = .selectMethod rest := by
  rcases tells with greeted | ⟨after, -, request⟩
  · exact greeted
  · have greeted := decodeRequest_greeted after
    rw [request] at greeted
    exact greeted.elim

/-- Unless the reply to the greeting is due, the decision is that of the parser. -/
theorem Tells.decodeStream_eq {decision : Decision} (tells : Tells stream decision)
    (unanswered : ∀ rest, decision ≠ .selectMethod rest) : decodeStream stream = decision := by
  rcases tells with rfl | ⟨after, greeted, request⟩
  · unfold decodeStream
    split
    · next rest greeted => exact absurd greeted (unanswered rest)
    · rfl
  · simp only [decodeStream, greeted, request]

/-! Names with zero bytes in them. -/

/-- Only what comes before the first zero byte of a name is looked up. -/
def Resolver.truncating (resolver : Resolver) : Resolver where
  lookup := fun name => resolver.lookup (cString name)
  known := fun name => resolver.known (cString name)

end ModernCppHw.Socks5
