import ModernCppHw.Socks5.Connection

/-! The buffers the kernel is given once, in root mode, against the halves the
sessions are given. The constructor of the pool, the halves and the sessions each
compute where a half lies in 32-bit arithmetic of their own. -/

set_option autoImplicit false

namespace ModernCppHw.Socks5

/-- Its base is counted from the start of the pool's bytes. -/
structure Iovec where
  base : Nat
  len : Nat
  deriving DecidableEq

def Iovec.region (iovec : Iovec) : Region := ⟨iovec.base, iovec.len⟩

/-- The region begins and ends within the entry, also where it is empty. -/
def Iovec.Covers (iovec : Iovec) (region : Region) : Prop :=
  iovec.base ≤ region.address ∧ region.address + region.length ≤ iovec.base + iovec.len

def Span.iovec (span : Span) : Iovec := ⟨span.first, span.last - span.first⟩

namespace BufferPool

/-- The number of bytes `m_buffers` is constructed with. -/
def byteCount (nconnections : Nat) : Nat := unsignedMul nconnections bufferSize

/-- An iteration of the constructor's loop. -/
def setIovecs (iovecs : List Iovec) (index : Nat) : List Iovec :=
  let even := unsignedMul 2 index
  let odd := unsignedAdd (unsignedMul 2 index) 1
  (iovecs.set even ⟨unsignedMul (unsignedMul 2 index) halfBufferSize, halfBufferSize⟩).set odd
    ⟨unsignedMul (unsignedAdd (unsignedMul 2 index) 1) halfBufferSize, halfBufferSize⟩

/-- `m_iovecs` as the constructor leaves it. -/
def iovecs (nconnections : Nat) : List Iovec :=
  (List.range nconnections).foldl setIovecs (List.replicate (unsignedMul 2 nconnections) ⟨0, 0⟩)

/-- The half of that number, the halves of all buffers counted through. -/
def slot (number : Nat) : Iovec := ⟨number * halfBufferSize, halfBufferSize⟩

variable {nconnections index : Nat}

theorem mul_bufferSize (index : Nat) : index * bufferSize = 2 * index * halfBufferSize := by
  rw [bufferSize, Nat.mul_comm halfBufferSize, ← Nat.mul_assoc, Nat.mul_comm index]

theorem slots_lt (inRange : nconnections * bufferSize < unsignedModulus) :
    2 * nconnections * halfBufferSize < unsignedModulus := by
  rwa [← mul_bufferSize]

theorem slot_inRange {number : Nat} (bounded : number < 2 * nconnections)
    (inRange : nconnections * bufferSize < unsignedModulus) :
    unsignedMul number halfBufferSize = number * halfBufferSize :=
  unsignedMul_of_lt (Nat.lt_of_le_of_lt (Nat.mul_le_mul_right _ (Nat.le_of_lt bounded))
    (slots_lt inRange))

theorem number_lt {number : Nat} (bounded : number ≤ 2 * nconnections)
    (inRange : nconnections * bufferSize < unsignedModulus) : number < unsignedModulus := by
  have positive : 0 < halfBufferSize := by decide
  calc number ≤ 2 * nconnections := bounded
    _ ≤ 2 * nconnections * halfBufferSize := Nat.le_mul_of_pos_right _ positive
    _ < unsignedModulus := slots_lt inRange

theorem unsignedMul_two (bounded : index ≤ nconnections)
    (inRange : nconnections * bufferSize < unsignedModulus) : unsignedMul 2 index = 2 * index :=
  unsignedMul_of_lt (number_lt (Nat.mul_le_mul_left 2 bounded) inRange)

theorem unsignedAdd_two (bounded : index < nconnections)
    (inRange : nconnections * bufferSize < unsignedModulus) {parity : Nat} (bit : parity ≤ 1) :
    unsignedAdd (unsignedMul 2 index) parity = 2 * index + parity := by
  rw [unsignedMul_two (Nat.le_of_lt bounded) inRange]
  exact unsignedAdd_of_lt (number_lt (by omega) inRange)

/-- An iteration sets the next two entries. -/
theorem setIovecs_append (bounded : index < nconnections)
    (inRange : nconnections * bufferSize < unsignedModulus) (left : Nat) :
    setIovecs ((List.range (2 * index)).map slot ++ List.replicate (left + 2) ⟨0, 0⟩) index =
      (List.range (2 * (index + 1))).map slot ++ List.replicate left ⟨0, 0⟩ := by
  have even := unsignedMul_two (Nat.le_of_lt bounded) inRange
  have odd := unsignedAdd_two bounded inRange (Nat.le_refl 1)
  have low : unsignedMul (2 * index) halfBufferSize = 2 * index * halfBufferSize :=
    slot_inRange (by omega) inRange
  have high : unsignedMul (2 * index + 1) halfBufferSize = (2 * index + 1) * halfBufferSize :=
    slot_inRange (by omega) inRange
  rw [setIovecs, odd, even, low, high, Nat.mul_succ, List.range_add]
  simp [List.replicate_succ, List.range_succ, slot]

theorem foldl_setIovecs (inRange : nconnections * bufferSize < unsignedModulus) :
    ∀ done left, done + left = nconnections →
      (List.range done).foldl setIovecs (List.replicate (2 * nconnections) ⟨0, 0⟩) =
        (List.range (2 * done)).map slot ++ List.replicate (2 * left) ⟨0, 0⟩ := by
  intro done
  induction done with
  | zero =>
      rintro left rfl
      simp
  | succ done ih =>
      intro left whole
      rw [List.range_succ, List.foldl_append, ih (left + 1) (by omega)]
      exact setIovecs_append (by omega) inRange (2 * left)

theorem iovecs_eq (inRange : nconnections * bufferSize < unsignedModulus) :
    iovecs nconnections = (List.range (2 * nconnections)).map slot := by
  have filled := foldl_setIovecs inRange nconnections 0 rfl
  rw [iovecs, unsignedMul_two (Nat.le_refl _) inRange, filled]
  exact List.append_nil _

theorem iovecs_getElem? (inRange : nconnections * bufferSize < unsignedModulus) {number : Nat}
    (bounded : number < 2 * nconnections) : (iovecs nconnections)[number]? = some (slot number) := by
  rw [iovecs_eq inRange, List.getElem?_map, List.getElem?_range bounded]
  rfl

theorem slot_le_byteCount (inRange : nconnections * bufferSize < unsignedModulus) {number : Nat}
    (bounded : number < 2 * nconnections) :
    (slot number).base + (slot number).len ≤ byteCount nconnections := by
  have whole : byteCount nconnections = nconnections * bufferSize := Nat.mod_eq_of_lt inRange
  rw [whole]
  calc (slot number).base + (slot number).len
      = (number + 1) * halfBufferSize := (Nat.succ_mul _ _).symm
    _ ≤ 2 * nconnections * halfBufferSize := Nat.mul_le_mul_right _ bounded
    _ = nconnections * bufferSize := (mul_bufferSize _).symm

theorem slot_separate {left right : Nat} (ordered : left < right) :
    (slot left).region.Separate (slot right).region := by
  have stepped : (left + 1) * halfBufferSize ≤ right * halfBufferSize :=
    Nat.mul_le_mul_right _ ordered
  rw [Nat.succ_mul] at stepped
  exact Region.separate_iff.mpr ((min_le_left _ _).trans (stepped.trans (le_max_right _ _)))

theorem unsignedMul_bufferSize (bounded : index ≤ nconnections)
    (inRange : nconnections * bufferSize < unsignedModulus) :
    unsignedMul index bufferSize = index * bufferSize :=
  unsignedMul_of_lt (Nat.lt_of_le_of_lt (Nat.mul_le_mul_right _ bounded) inRange)

theorem bufferHalf0_iovec (bounded : index < nconnections)
    (inRange : nconnections * bufferSize < unsignedModulus) :
    (bufferHalf0 index).iovec = slot (2 * index) := by
  rw [bufferHalf0, unsignedMul_bufferSize (Nat.le_of_lt bounded) inRange, mul_bufferSize]
  simp only [Span.iovec, slot, Nat.add_sub_cancel_left]

theorem bufferHalf1_iovec (bounded : index < nconnections)
    (inRange : nconnections * bufferSize < unsignedModulus) :
    (bufferHalf1 index).iovec = slot (2 * index + 1) := by
  have next : unsignedAdd index 1 = index + 1 :=
    unsignedAdd_of_lt (number_lt (by omega) inRange)
  have last : (index + 1) * bufferSize = (2 * index + 1) * halfBufferSize + halfBufferSize := by
    rw [mul_bufferSize, ← Nat.succ_mul]
    rfl
  have first : index * bufferSize + halfBufferSize = (2 * index + 1) * halfBufferSize := by
    rw [mul_bufferSize, ← Nat.succ_mul]
  rw [bufferHalf1, next, unsignedMul_bufferSize (Nat.le_of_lt bounded) inRange,
    unsignedMul_bufferSize bounded inRange, last, first]
  simp only [Span.iovec, slot, Nat.add_sub_cancel_left]

end BufferPool

/-- A transfer of a session in root mode is of one of its halves, which it names by
the half's registered index. -/
def Session.Registers (session : Session) (isRoot : Bool) (request : Request) : Prop :=
  isRoot = true →
    ∀ fd buffer offset bufferIndex,
      request.operation = .read fd buffer offset bufferIndex ∨
        request.operation = .write fd buffer offset bufferIndex →
      buffer.length ≤ halfBufferSize ∧
        (bufferIndex = some session.buffer0Index ∧ buffer.address = session.buffer0.first ∨
          bufferIndex = some session.buffer1Index ∧ buffer.address = session.buffer1.first)

namespace Session

variable {isRoot : Bool} {session : Session} {socket : Socket} {request : Request}
  {requests : List Request}

theorem registers_clientRead : session.Registers isRoot (session.clientReadRequest isRoot) := by
  rintro rfl fd buffer offset bufferIndex (reads | writes)
  · cases reads
    exact ⟨Nat.le_refl _, .inl ⟨rfl, rfl⟩⟩
  · cases writes

theorem registers_clientWrite {nbytes offset : Nat} (fits : nbytes ≤ halfBufferSize) :
    session.Registers isRoot (session.clientWriteRequest isRoot nbytes offset) := by
  rintro rfl fd buffer place bufferIndex (reads | writes)
  · cases reads
  · cases writes
    exact ⟨fits, .inr ⟨rfl, rfl⟩⟩

theorem UpRequest.registers (up : session.UpRequest isRoot socket request) :
    session.Registers isRoot request := by
  cases up with
  | read => exact registers_clientRead
  | write _ _ _ fits =>
      rintro rfl fd buffer place bufferIndex (reads | writes)
      · cases reads
      · cases writes
        exact ⟨Nat.le_trans (Nat.sub_le _ _) fits, .inl ⟨rfl, rfl⟩⟩

theorem DownRequest.registers (down : session.DownRequest isRoot socket request) :
    session.Registers isRoot request := by
  cases down with
  | read =>
      rintro rfl fd buffer place bufferIndex (reads | writes)
      · cases reads
        exact ⟨Nat.le_refl _, .inr ⟨rfl, rfl⟩⟩
      · cases writes
  | write _ _ _ fits => exact registers_clientWrite (Nat.le_trans (Nat.sub_le _ _) fits)

theorem Consistent.registers (consistent : session.Consistent isRoot requests)
    (going : session.isFailed = false ∨ session.state.BeforeConnect) (member : request ∈ requests) :
    session.Registers isRoot request := by
  cases consistent with
  | reading =>
      cases List.mem_singleton.mp member
      exact registers_clientRead
  | replying | granting | refusing =>
      cases List.mem_singleton.mp member
      exact registers_clientWrite (Nat.min_le_left _ _)
  | stalled | leaked => cases member
  | connecting =>
      cases List.mem_singleton.mp member
      rintro - fd buffer offset bufferIndex (reads | writes)
      · cases reads
      · cases writes
  | proxying _ up down both =>
      rcases List.mem_pair.mp (both.mem_iff.mp member) with rfl | rfl
      · exact up.registers
      · exact down.registers
  | draining state _ _ failed =>
      rcases going with healthy | before
      · cases healthy.symm.trans failed
      · exact absurd state before.2

end Session

open Transition

theorem reachable_registers {config : Config} {server : Server}
    (reached : (eventLoop config).Reachable server) :
    ∀ client session, server.sessions.get? client = some session →
      ∀ request ∈ server.requestsOf client, session.Registers config.isRoot request :=
  reachable_requests (fun session request => session.Registers config.isRoot request)
    (fun _ _ consistent going _ member => consistent.registers going member)
    (fun _ _ _ registers => registers) reached

/-- The half a transfer is of covers it, and is the registered buffer of its index. -/
theorem Session.Registers.covered {nconnections : Nat} {session : Session} {request : Request}
    {fd : Fd} {buffer : Region} {offset : Nat} {bufferIndex : Option Nat}
    (registers : session.Registers true request)
    (bounded : session.bufferIndex < nconnections)
    (inRange : nconnections * bufferSize < unsignedModulus)
    (transfers : request.operation = .read fd buffer offset bufferIndex ∨
      request.operation = .write fd buffer offset bufferIndex) :
    ∃ index ∈ bufferIndex, ∃ iovec ∈ (BufferPool.iovecs nconnections)[index]?,
      iovec.Covers buffer := by
  obtain ⟨fits, ⟨rfl, place⟩ | ⟨rfl, place⟩⟩ := registers rfl fd buffer offset bufferIndex transfers
  · have even : session.buffer0Index = 2 * session.bufferIndex :=
      BufferPool.unsignedAdd_two bounded inRange (Nat.zero_le 1)
    have half : session.buffer0.iovec = _ := BufferPool.bufferHalf0_iovec bounded inRange
    refine ⟨_, rfl, session.buffer0.iovec, ?_, Nat.le_of_eq place.symm, ?_⟩
    · rw [even, half]
      exact BufferPool.iovecs_getElem? inRange (by omega)
    · have length : session.buffer0.iovec.len = halfBufferSize := by rw [half]; rfl
      rw [place, length]
      exact Nat.add_le_add_left fits _
  · have odd : session.buffer1Index = 2 * session.bufferIndex + 1 :=
      BufferPool.unsignedAdd_two bounded inRange (Nat.le_refl 1)
    have half : session.buffer1.iovec = _ := BufferPool.bufferHalf1_iovec bounded inRange
    refine ⟨_, rfl, session.buffer1.iovec, ?_, Nat.le_of_eq place.symm, ?_⟩
    · rw [odd, half]
      exact BufferPool.iovecs_getElem? inRange (by omega)
    · have length : session.buffer1.iovec.len = halfBufferSize := by rw [half]; rfl
      rw [place, length]
      exact Nat.add_le_add_left fits _

/-- The registered buffers are the halves: the constructor's loop sets an entry for
every half, just where the half is, and the entries lie in the pool's bytes and
apart from each other. So in root mode every transfer a run has in flight lies
inside the registered buffer it names. -/
theorem registered_buffers_agree {nconnections : Nat}
    (inRange : nconnections * bufferSize < unsignedModulus) :
    (BufferPool.iovecs nconnections).length = 2 * nconnections ∧
    (∀ index < nconnections,
      (BufferPool.iovecs nconnections)[2 * index]? = some (bufferHalf0 index).iovec ∧
        (BufferPool.iovecs nconnections)[2 * index + 1]? = some (bufferHalf1 index).iovec) ∧
    (∀ iovec ∈ BufferPool.iovecs nconnections,
      iovec.base + iovec.len ≤ BufferPool.byteCount nconnections) ∧
    (BufferPool.iovecs nconnections).Pairwise (fun left right =>
      left.region.Separate right.region) ∧
    ∀ config server, config.nconnections = nconnections → config.isRoot = true →
      (eventLoop config).Reachable server → ∀ sqe ∈ server.ring,
        ∀ fd buffer offset bufferIndex,
          sqe.operation = .read fd buffer offset bufferIndex ∨
            sqe.operation = .write fd buffer offset bufferIndex →
          ∃ index ∈ bufferIndex, ∃ iovec ∈ (BufferPool.iovecs nconnections)[index]?,
            iovec.Covers buffer := by
  refine ⟨?_, fun index bounded => ⟨?_, ?_⟩, fun iovec member => ?_, ?_, ?_⟩
  · rw [BufferPool.iovecs_eq inRange, List.length_map, List.length_range]
  · rw [BufferPool.bufferHalf0_iovec bounded inRange]
    exact BufferPool.iovecs_getElem? inRange (by omega)
  · rw [BufferPool.bufferHalf1_iovec bounded inRange]
    exact BufferPool.iovecs_getElem? inRange (by omega)
  · rw [BufferPool.iovecs_eq inRange] at member
    obtain ⟨number, below, rfl⟩ := List.mem_map.mp member
    exact BufferPool.slot_le_byteCount inRange (List.mem_range.mp below)
  · rw [BufferPool.iovecs_eq inRange]
    exact List.pairwise_map.mpr (List.pairwise_lt_range.imp BufferPool.slot_separate)
  · rintro config server rfl root reached sqe member fd buffer offset bufferIndex transfers
    have wellFormed := reachable_wellFormed reached
    cases carried : sqe.userData with
    | none =>
        have accepts := wellFormed.accepting sqe member carried
        rcases transfers with reads | writes
        · cases accepts.symm.trans reads
        · cases accepts.symm.trans writes
    | some id =>
        obtain ⟨event, session, owned, -, live⟩ := wellFormed.owned member carried
        have request : (⟨event.type, sqe.operation⟩ : Request) ∈ server.requestsOf event.client :=
          Server.mem_requestsOf.mpr ⟨sqe, member, event, owned, rfl, rfl⟩
        have registers := reachable_registers reached _ _ live _ request
        have bounded := wellFormed.bufferIndex_lt live
        rw [root] at registers
        rw [reachable_config reached] at bounded
        exact registers.covered bounded inRange transfers

/-- Three bytes of a client are about to be written on out of the first registered
buffer. -/
theorem registered_buffers_agree_relaying :
    ∃ server, (eventLoop (.single true)).Reachable server ∧ ∃ sqe ∈ server.ring,
      sqe.operation = .write 6 ⟨0, 3⟩ 0 (some 0) ∧
      ∃ iovec ∈ (BufferPool.iovecs 1)[0]?, iovec.Covers ⟨0, 3⟩ := by
  obtain ⟨server, reached, shown⟩ := Server.exists_reachable (.single true)
    (Label.relaying ++ [.complete 2 3 [7, 8, 9] .none]) (fun _ _ => true)
    (fun server => ∃ sqe ∈ server.ring, sqe.operation = .write 6 ⟨0, 3⟩ 0 (some 0))
    (fun _ _ _ _ => trivial) (by decide)
  obtain ⟨sqe, member, writes⟩ := of_decide_eq_true shown
  have inRange : 1 * bufferSize < unsignedModulus := by decide
  obtain ⟨index, same, covered⟩ := (registered_buffers_agree inRange).2.2.2.2 (.single true) server
    rfl rfl reached sqe member _ _ _ _ (.inr writes)
  cases same
  exact ⟨server, reached, sqe, member, writes, covered⟩

end ModernCppHw.Socks5
