import ModernCppHw.Socks5.Session

/-! What the client's handshake bytes mean. A phase is what the server is
waiting for; decoding the bytes it holds tells either that more are needed, in
the same phase or a later one, or what is to be done. -/

set_option autoImplicit false

namespace ModernCppHw.Socks5

inductive AddressKind where
  | ipv4
  | domainName (length : Nat)
  | ipv6
  deriving DecidableEq

def AddressKind.type : AddressKind → AddressType
  | .ipv4 => .ipv4
  | .domainName _ => .domainName
  | .ipv6 => .ipv6

/-- The bytes an address takes together with its port. -/
def AddressKind.length : AddressKind → Nat
  | .ipv4 => 6
  | .domainName length => length + 2
  | .ipv6 => 18

inductive Phase where
  | greeting
  | methods (count : Nat)
  | request
  | domainNameLength
  | address (kind : AddressKind)
  deriving DecidableEq

/-- How many bytes a phase waits for. -/
def Phase.threshold : Phase → Nat
  | .greeting => 3
  | .methods count => count
  | .request => 4
  | .domainNameLength => 1
  | .address kind => kind.length

def Phase.state : Phase → State
  | .greeting => .readingClientGreeting
  | .methods _ => .readingAuthMethods
  | .request => .readingClientConnectionRequest
  | .domainNameLength => .readingDomainNameLength
  | .address _ => .readingAddress

/-- Where a connection request asks to be connected to. -/
inductive Destination where
  | ipv4 (address : InAddr) (port : InPort)
  | domainName (name : List Byte) (port : InPort)
  | ipv6 (address : In6Addr) (port : InPort)
  deriving DecidableEq

def Destination.port : Destination → InPort
  | .ipv4 _ port | .domainName _ port | .ipv6 _ port => port

/-- The address to connect to, given what a name resolves to. -/
def Destination.resolve (resolver : List Byte → Hostent) : Destination → Hostent
  | .ipv4 address _ => .inet address
  | .domainName name _ => resolver name
  | .ipv6 address _ => .inet6 address

inductive Decision where
  | wait (phase : Phase) (rest : List Byte)
  | close
  | selectMethod (rest : List Byte)
  | refuseMethods (rest : List Byte)
  | refuse (code : Byte)
  | connect (destination : Destination) (rest : List Byte)
  deriving DecidableEq

/-- The bytes `offset .. offset + length - 1`. -/
def slice (bytes : List Byte) (offset length : Nat) (within : offset + length ≤ bytes.length) :
    List.Vector Byte length :=
  ⟨(bytes.drop offset).take length, length_take_drop within⟩

/-- An address and port out of bytes long enough to hold them. -/
def AddressKind.read (bytes : List Byte) :
    (kind : AddressKind) → kind.length ≤ bytes.length → Destination
  | .ipv4, within =>
      .ipv4 (slice bytes 0 4 (Nat.le_trans (by decide) within)) (slice bytes 4 2 within)
  | .domainName length, within =>
      .domainName (bytes.take length) (slice bytes length 2 within)
  | .ipv6, within =>
      .ipv6 (slice bytes 0 16 (Nat.le_trans (by decide) within)) (slice bytes 16 2 within)

def decodeAddress (kind : AddressKind) (bytes : List Byte) : Decision :=
  if within : kind.length ≤ bytes.length then
    .connect (kind.read bytes within) (bytes.drop kind.length)
  else .wait (.address kind) bytes

def decodeDomainNameLength : List Byte → Decision
  | [] => .wait .domainNameLength []
  | length :: rest => decodeAddress (.domainName length.toNat) rest

def decodeRequest : List Byte → Decision
  | version :: command :: reserved :: addressType :: rest =>
      if version ≠ 0x05 ∨ command ≠ Command.connect.code ∨ reserved ≠ 0x00 then .refuse 0x07
      else if addressType = AddressType.ipv4.code then decodeAddress .ipv4 rest
      else if addressType = AddressType.domainName.code then decodeDomainNameLength rest
      else if addressType = AddressType.ipv6.code then decodeAddress .ipv6 rest
      else .refuse 0x08
  | bytes => .wait .request bytes

def decodeMethods (count : Nat) (bytes : List Byte) : Decision :=
  if bytes.length < count then .wait (.methods count) bytes
  else if 0x00 ∈ bytes.take count then .selectMethod (bytes.drop count)
  else .refuseMethods (bytes.drop count)

def decodeGreeting : List Byte → Decision
  | version :: count :: first :: rest =>
      if version ≠ 0x05 ∨ count.toNat = 0 then .close
      else decodeMethods count.toNat (first :: rest)
  | bytes => .wait .greeting bytes

def decode : Phase → List Byte → Decision
  | .greeting, bytes => decodeGreeting bytes
  | .methods count, bytes => decodeMethods count bytes
  | .request, bytes => decodeRequest bytes
  | .domainNameLength, bytes => decodeDomainNameLength bytes
  | .address kind, bytes => decodeAddress kind bytes

theorem decodeAddress_of_enough (kind : AddressKind) {bytes : List Byte}
    (within : kind.length ≤ bytes.length) :
    decodeAddress kind bytes = .connect (kind.read bytes within) (bytes.drop kind.length) :=
  dif_pos within

/-- Below a phase's threshold nothing is decided. -/
theorem decode_of_short {phase : Phase} {bytes : List Byte}
    (short : bytes.length < phase.threshold) : decode phase bytes = .wait phase bytes := by
  cases phase with
  | greeting =>
      match bytes, short with
      | [], _ | [_], _ | [_, _], _ => rfl
      | _ :: _ :: _ :: _, long =>
          simp only [List.length_cons, Phase.threshold] at long
          omega
  | methods count => simp only [decode, decodeMethods, if_pos (show _ < count from short)]
  | request =>
      match bytes, short with
      | [], _ | [_], _ | [_, _], _ | [_, _, _], _ => rfl
      | _ :: _ :: _ :: _ :: _, long =>
          simp only [List.length_cons, Phase.threshold] at long
          omega
  | domainNameLength =>
      match bytes, short with
      | [], _ => rfl
      | _ :: _, long => simp [Phase.threshold] at long
  | address kind =>
      simp only [decode, decodeAddress, dif_neg (Nat.not_le.mpr (show _ < kind.length from short))]

private theorem decodeAddress_wait {kind : AddressKind} {next : Phase} {bytes rest : List Byte}
    (waits : decodeAddress kind bytes = .wait next rest) : rest.length < next.threshold := by
  unfold decodeAddress at waits
  split at waits
  · cases waits
  · next beyond =>
      cases waits
      exact Nat.not_le.mp beyond

private theorem decodeDomainNameLength_wait {next : Phase} {bytes rest : List Byte}
    (waits : decodeDomainNameLength bytes = .wait next rest) : rest.length < next.threshold := by
  cases bytes with
  | nil =>
      cases waits
      decide
  | cons length tail => exact decodeAddress_wait waits

private theorem decodeMethods_wait {count : Nat} {next : Phase} {bytes rest : List Byte}
    (waits : decodeMethods count bytes = .wait next rest) : rest.length < next.threshold := by
  unfold decodeMethods at waits
  split at waits
  · next short =>
      cases waits
      exact short
  · split at waits <;> cases waits

/-- A wait always leaves fewer bytes than its phase waits for. -/
theorem decode_wait_short {phase next : Phase} {bytes rest : List Byte}
    (waits : decode phase bytes = .wait next rest) : rest.length < next.threshold := by
  by_cases short : bytes.length < phase.threshold
  · rw [decode_of_short short] at waits
    cases waits
    exact short
  · cases phase with
    | greeting =>
        match bytes, short with
        | version :: count :: first :: tail, _ =>
            simp only [decode, decodeGreeting] at waits
            split at waits
            · cases waits
            · exact decodeMethods_wait waits
        | [], missing | [_], missing | [_, _], missing => simp [Phase.threshold] at missing
    | methods count => exact decodeMethods_wait waits
    | request =>
        match bytes, short with
        | version :: command :: reserved :: addressType :: tail, _ =>
            simp only [decode, decodeRequest] at waits
            split at waits
            · cases waits
            · split at waits
              · exact decodeAddress_wait waits
              · split at waits
                · exact decodeDomainNameLength_wait waits
                · split at waits
                  · exact decodeAddress_wait waits
                  · cases waits
        | [], missing | [_], missing | [_, _], missing | [_, _, _], missing =>
            simp [Phase.threshold] at missing
    | domainNameLength => exact decodeDomainNameLength_wait waits
    | address kind => exact decodeAddress_wait waits

end ModernCppHw.Socks5
